import ClashSubParser.SchedulerCompletion

/-! Cancellation: nothing of a cancelled run is queued, executes with a live context or is accepted. -/
namespace ClashSubParser

open AssocTotals ProbeScheduler Option

def WorkerPhase.sequence : WorkerPhase → Option ℕ
  | .started => none
  | .registered seq => some seq
  | .executing seq => some seq

namespace SchedulerSystem

def registration (σ : SchedulerSystem) (id : ℕ) : Option (ProbeTask × ℕ) :=
  (σ.workers.lookup id).bind fun worker => worker.phase.sequence.map (worker.task, ·)

/-- The window between the dispatch of a task and the registration of its cancel function is safe: a worker
that registered one can be cancelled, and was if its run was. -/
structure Cancellable (σ : SchedulerSystem) : Prop where
  ctx : σ.sched.closed = true → σ.sched.ctxDone = true
  gone : ∀ run ∈ σ.sched.cancelledRuns, σ.sched.queue run = []
  registered : ∀ id task seq, σ.registration id = some (task, seq) →
    (task.runID, seq) ∈ σ.sched.runCancels ∧ seq < σ.sched.cancelSequence ∧
      (task.runID ∈ σ.sched.cancelledRuns → seq ∈ σ.sched.cancelled)
  distinct : ∀ id id' task task' seq, σ.registration id = some (task, seq) →
    σ.registration id' = some (task', seq) → id = id'

variable {σ σ' : SchedulerSystem} {run : String}

section

theorem registration_setWorker (σ : SchedulerSystem) (eid : ℕ) (w : ProbeWorker) (id : ℕ) :
    (σ.setWorker eid w).registration id =
      if id = eid then w.phase.sequence.map (w.task, ·) else σ.registration id := by
  rw [registration, setWorker]
  split_ifs with hid
  · subst hid
    rw [AList.lookup_insert, bind_some]
  · rw [AList.lookup_insert_ne hid, registration]

theorem registration_dropWorker (σ : SchedulerSystem) (eid id : ℕ) :
    (σ.dropWorker eid).registration id = if id = eid then none else σ.registration id := by
  rw [registration, dropWorker]
  split_ifs with hid
  · subst hid
    rw [AList.lookup_erase, bind_none]
  · rw [AList.lookup_erase_ne hid, registration]

theorem registration_of_lookup {id : ℕ} {task : ProbeTask} {phase : WorkerPhase} {seq : ℕ}
    (h : σ.workers.lookup id = some ⟨task, phase⟩) (hph : phase.sequence = some seq) :
    σ.registration id = some (task, seq) := by
  rw [registration, h, bind_some, hph, map_some]

end

section

theorem Cancellable.congr (h : σ.Cancellable) (hcl : σ'.sched.closed = σ.sched.closed)
    (hct : σ.sched.ctxDone = true → σ'.sched.ctxDone = true)
    (hru : σ'.sched.cancelledRuns = σ.sched.cancelledRuns) (hca : σ'.sched.runCancels = σ.sched.runCancels)
    (hs : σ'.sched.cancelSequence = σ.sched.cancelSequence) (hc : σ.sched.cancelled ⊆ σ'.sched.cancelled)
    (hg : ∀ run ∈ σ.sched.cancelledRuns, σ.sched.queue run = [] → σ'.sched.queue run = [])
    (hre : ∀ id, σ'.registration id = σ.registration id) : σ'.Cancellable := by
  refine ⟨?_, ?_, ?_, ?_⟩
  · intro ht
    rw [hcl] at ht
    exact hct (h.ctx ht)
  · intro run hr
    rw [hru] at hr
    exact hg run hr (h.gone run hr)
  · intro id task seq hid
    rw [hre] at hid
    obtain ⟨hm, hlt, hd⟩ := h.registered id task seq hid
    rw [hca, hs, hru]
    exact ⟨hm, hlt, fun hr => hc (hd hr)⟩
  · intro id id' task task' seq hid hi'
    rw [hre] at hid hi'
    exact h.distinct id id' task task' seq hid hi'

variable {execID : ℕ} {task : ProbeTask}

theorem queue_submitted_eq_nil {s s' : ProbeScheduler} {attempt : Attempt} {old : List ProbeTask}
    (h : Submitted s task attempt s' old) (hf : ∀ run, ManualFirst (s.queue run)) (hr : run ∈ s.cancelledRuns)
    (hn : s.queue run = []) : s'.queue run = [] := by
  have hot (ho : s.Admits task) : run ≠ task.runID := by
    rintro rfl
    exact ho.2 hr
  have hp (nodes : FiniteMap String ActiveRecord) : ((s.withNodes nodes).promoteQueued task).1.queue run = [] := by
    rw [queue_promoteQueued (s := s.withNodes nodes) hf]
    split_ifs
    · exact hn
    · change promotedQueue task (s.queue run) = []
      rw [hn, promotedQueue_nil]
  have ha (s₁ : ProbeScheduler) (ho : s.Admits task) (hqu : s₁.queue run = []) :
      (s₁.appendTask task).queue run = [] := by rw [queue_appendTask, if_neg (hot ho), hqu]
  cases h with
  | failed | skipped | full => exact hn
  | @fullManual nodes => exact hp nodes
  | strict ho | periodic ho => exact ha _ ho hn
  | @manual nodes _ ho =>
    rw [queue_insertTask, if_neg (hot ho)]
    exact hp nodes

section

variable (h : σ.Cancellable)
include h

theorem Cancellable.submitted {attempt : Attempt} {sched : ProbeScheduler} {old : List ProbeTask}
    (hsd : σ.Sound) (hsu : Submitted σ.sched task attempt sched old) (hsc : σ'.sched = sched)
    (hw : σ'.workers = σ.workers) : σ'.Cancellable := by
  subst hsc
  have hs := hsu.sameWorkers hsd.first
  apply h.congr hs.closed (fun hc => hs.ctxDone.trans hc) hs.cancelledRuns hs.runCancels
    hs.cancelSequence
  · rw [hs.cancelled]
    exact List.Subset.refl _
  · exact fun run hr hn => queue_submitted_eq_nil hsu hsd.first hr hn
  · intro id
    rw [registration, hw, registration]

theorem Cancellable.dispatched {sched : ProbeScheduler}
    (hsd : σ.Sound) (hd : σ.sched.dispatchLocked = some (task, execID, sched)) :
    (({ σ with sched := sched }.setWorker execID ⟨task, .started⟩).log (.dispatched task)).Cancellable := by
  have hne : σ.registration execID = none := by
    rw [registration, hsd.lookup_nextExecID hd, bind_none]
  obtain ⟨run', rest, hr', hqu⟩ := queue_dispatchLocked hd
  obtain ⟨-, i, emptied, kept, rest, -, -, -, -, hsc⟩ := dispatchLocked_eq_some hd
  have hf : sched.closed = σ.sched.closed ∧ sched.ctxDone = σ.sched.ctxDone ∧
      sched.cancelledRuns = σ.sched.cancelledRuns ∧ sched.runCancels = σ.sched.runCancels ∧
      sched.cancelSequence = σ.sched.cancelSequence ∧ sched.cancelled = σ.sched.cancelled := by
    rw [hsc]
    exact ⟨rfl, rfl, rfl, rfl, rfl, rfl⟩
  obtain ⟨hcl, hct, hru, hca, hse, hc⟩ := hf
  refine h.congr hcl (fun h => hct.trans h) hru hca hse (fun seq hs => hc ▸ hs) ?_ ?_
  · intro run _ hn
    change sched.queue run = []
    rw [hqu]
    split_ifs with hr
    · rw [hr, hr'] at hn
      contradiction
    · exact hn
  · intro id
    change ((({ σ with sched := sched } : SchedulerSystem).setWorker execID ⟨task, .started⟩).registration id) = _
    rw [registration_setWorker]
    split_ifs with hid
    · rw [hid, hne]
      rfl
    · rfl

theorem Cancellable.registers (ho : σ.sched.Admits task) : ({ σ with sched := { σ.sched with
        cancelSequence := σ.sched.cancelSequence + 1
        runCancels := (task.runID, σ.sched.cancelSequence) :: σ.sched.runCancels } }.setWorker execID
      ⟨task, .registered σ.sched.cancelSequence⟩).Cancellable := by
  refine ⟨h.ctx, h.gone, ?_, ?_⟩
  · intro id t seq hid
    rw [registration_setWorker] at hid
    split_ifs at hid with heq
    · obtain ⟨rfl, rfl⟩ := Prod.mk.inj (some.inj hid)
      exact ⟨List.mem_cons_self, Nat.lt_succ_self _, fun hr => absurd hr ho.2⟩
    · obtain ⟨hm, hlt, hd⟩ := h.registered id t seq hid
      exact ⟨List.mem_cons_of_mem _ hm, Nat.lt_succ_of_lt hlt, hd⟩
  · intro id id' t t' seq hid hi'
    rw [registration_setWorker] at hid hi'
    -- the new number is above all others
    split_ifs at hid hi' with heq he' he'
    · exact heq.trans he'.symm
    · obtain ⟨-, rfl⟩ := Prod.mk.inj (some.inj hid)
      exact absurd (h.registered id' t' _ hi').2.1 (lt_irrefl _)
    · obtain ⟨-, rfl⟩ := Prod.mk.inj (some.inj hi')
      exact absurd (h.registered id t _ hid).2.1 (lt_irrefl _)
    · exact h.distinct id id' t t' seq hid hi'

theorem Cancellable.dropped (hcl : σ'.sched.closed = σ.sched.closed)
    (hct : σ'.sched.ctxDone = σ.sched.ctxDone) (hqu : ∀ run, σ'.sched.queue run = σ.sched.queue run)
    (hru : σ'.sched.cancelledRuns = σ.sched.cancelledRuns)
    (hs : σ'.sched.cancelSequence = σ.sched.cancelSequence) (hc : σ.sched.cancelled ⊆ σ'.sched.cancelled)
    (hca : ∀ id task seq, id ≠ execID → σ.registration id = some (task, seq) →
      (task.runID, seq) ∈ σ'.sched.runCancels) (hw : σ'.workers = σ.workers.erase execID) : σ'.Cancellable := by
  have hre (id : ℕ) : σ'.registration id = if id = execID then none else σ.registration id := by
    rw [← registration_dropWorker, registration, hw]
    rfl
  refine ⟨?_, ?_, ?_, ?_⟩
  · rw [hcl, hct]
    exact h.ctx
  · intro run hr
    rw [hru] at hr
    rw [hqu]
    exact h.gone run hr
  · intro id t seq hid
    rw [hre] at hid
    split_ifs at hid with heq
    obtain ⟨-, hlt, hd⟩ := h.registered id t seq hid
    rw [hru, hs]
    exact ⟨hca id t seq heq hid, hlt, fun hr => hc (hd hr)⟩
  · intro id id' t t' seq hid hi'
    rw [hre] at hid hi'
    split_ifs at hid hi'
    exact h.distinct id id' t t' seq hid hi'

theorem Cancellable.mem_filter {seq : ℕ}
    (he : σ.registration execID = some (task, seq)) (id : ℕ) (t : ProbeTask) (n : ℕ) (hne : id ≠ execID)
    (hid : σ.registration id = some (t, n)) :
    (t.runID, n) ∈ σ.sched.runCancels.filter fun c => ¬(c.1 = task.runID ∧ c.2 = seq) := by
  apply List.mem_filter.mpr
  refine ⟨(h.registered id t n hid).1, ?_⟩
  have hs : n ≠ seq := by
    rintro rfl
    exact hne (h.distinct id execID t task n hid he)
  simp [hs]

theorem Cancellable.cancels {now : Time} {runID : String}
    (hs : σ'.sched = (σ.sched.cancelRun now runID).1) (hw : σ'.workers = σ.workers) : σ'.Cancellable := by
  have hqu := queue_cancelRun σ.sched now runID
  have hre (id : ℕ) : σ'.registration id = σ.registration id := by rw [registration, hw, registration]
  refine ⟨?_, ?_, ?_, ?_⟩
  · rw [hs, cancelRun_eq]
    exact h.ctx
  · intro run hr
    rw [hs, hqu]
    split_ifs with heq
    · rfl
    · rw [hs, cancelRun_eq] at hr
      exact h.gone run ((List.mem_cons.mp hr).resolve_left heq)
  · intro id t seq hid
    rw [hre] at hid
    obtain ⟨hm, hlt, hd⟩ := h.registered id t seq hid
    rw [hs, cancelRun_eq]
    refine ⟨hm, hlt, fun hr => List.mem_append.mpr ?_⟩
    rcases List.mem_cons.mp hr with heq | hr
    · right
      apply List.mem_map.mpr
      exact ⟨(t.runID, seq), List.mem_filter.mpr ⟨hm, by simp [heq]⟩, rfl⟩
    · exact .inl (hd hr)
  · intro id id' t t' seq hid hi'
    rw [hre] at hid hi'
    exact h.distinct id id' t t' seq hid hi'

theorem Cancellable.closes {now : Time} (hs : σ'.sched = (σ.sched.close now).1)
    (hw : σ'.workers = σ.workers) : σ'.Cancellable := by
  have hr (id : ℕ) : σ'.registration id = σ.registration id := by rw [registration, hw, registration]
  cases hopen : σ.sched.closed with
  | true =>
    have hsa : σ'.sched = σ.sched := by rw [hs, ProbeScheduler.close, if_pos hopen]
    refine h.congr ?_ ?_ ?_ ?_ ?_ ?_ ?_ hr <;> rw [hsa]
    · exact id
    · exact List.Subset.refl _
    · exact fun _ _ hn => hn
  | false =>
    rw [close_eq hopen] at hs
    refine ⟨?_, ?_, ?_, ?_⟩
    · rw [hs]
      exact fun _ => rfl
    · rw [hs]
      exact fun _ _ => rfl
    · intro id t seq hid
      rw [hr] at hid
      obtain ⟨hm, hlt, hd⟩ := h.registered id t seq hid
      rw [hs]
      exact ⟨hm, hlt, fun hru => List.mem_append_left _ (hd hru)⟩
    · intro id id' t t' seq hid hi'
      rw [hr] at hid hi'
      exact h.distinct id id' t t' seq hid hi'

end

theorem registration_executes {seq : ℕ} (hwk : σ.workers.lookup execID = some ⟨task, .registered seq⟩) (id : ℕ) :
    (σ.setWorker execID ⟨task, .executing seq⟩).registration id = σ.registration id := by
  rw [registration_setWorker]
  split_ifs with hid
  · rw [hid, registration_of_lookup hwk rfl]
    rfl
  · rfl

theorem Moves.cancellable {a : SchedulerAction} (hm : Moves σ a σ') (hsd : σ.Sound)
    (h : σ.Cancellable) : σ'.Cancellable := by
  have hsu : σ.sched.cancelled ⊆ σ.sched.cancelled := List.Subset.refl _
  have hk (run) (_ : run ∈ σ.sched.cancelledRuns) (hn : σ.sched.queue run = []) : σ.sched.queue run = [] := hn
  cases hm with
  | enqueued _ _ hs | skipped _ _ hs | waits _ _ hs | refused _ _ hs => exact h.submitted hsd hs rfl rfl
  | dispatched ho hd => exact h.dispatched hsd hd
  | registers hwk ho => exact h.registers ho
  | stops hwk =>
    refine h.dropped rfl rfl (fun _ => rfl) rfl rfl hsu (fun id t seq _ hid => (h.registered id t seq hid).1) rfl
  | executes hwk => exact h.congr rfl id rfl rfl rfl hsu hk (registration_executes hwk)
  | finishes hwk =>
    exact h.dropped rfl rfl (fun _ => rfl) rfl rfl (List.subset_append_left _ _)
      (h.mem_filter (registration_of_lookup hwk rfl)) rfl
  | cancels => exact h.cancels rfl rfl
  | closes => exact h.closes rfl rfl
  | contextEnds => exact h.congr rfl (fun _ => rfl) rfl rfl rfl hsu hk fun _ => rfl
  | taskEnds => exact h.congr rfl id rfl rfl rfl (List.subset_append_left _ _) hk fun _ => rfl
  | reorders hqs hns =>
    refine h.congr rfl id rfl rfl rfl hsu ?_ fun _ => rfl
    intro run _ hn
    exact (congrArg (·.getD []) (AList.perm_lookup hqs)).trans hn
  | _ => exact h.congr rfl id rfl rfl rfl hsu hk fun _ => rfl

end

section

def Ended (σ : SchedulerSystem) (run : String) : Prop :=
  run ∈ σ.sched.cancelledRuns ∨ σ.sched.closed = true

theorem submitted_of_ended {task : ProbeTask} {attempt : Attempt} {sched : ProbeScheduler} {old : List ProbeTask}
    (h : σ.Ended task.runID) (hs : Submitted σ.sched task attempt sched old) :
    (∃ nodes, sched = σ.sched.withNodes nodes) ∧ old = [] ∧ ∃ err, attempt = .failed err := by
  apply hs.of_not_admits
  intro ho
  rcases h with hr | hcl
  · exact ho.2 hr
  · exact absurd (hcl.symm.trans ho.1) (by decide)

variable {action : SchedulerAction}

theorem Moves.ended (hm : Moves σ action σ') (hsd : σ.Sound) (h : σ.Ended run) : σ'.Ended run := by
  have hse {task : ProbeTask} {attempt : Attempt} {sched : ProbeScheduler} {old : List ProbeTask}
      (hs : Submitted σ.sched task attempt sched old) : run ∈ sched.cancelledRuns ∨ sched.closed = true := by
    have hsa := hs.sameWorkers hsd.first
    rw [hsa.cancelledRuns, hsa.closed]
    exact h
  cases hm with
  | enqueued _ _ hs | skipped _ _ hs | waits _ _ hs | refused _ _ hs => exact hse hs
  | @dispatched task execID sched ho hd =>
    obtain ⟨-, i, emptied, kept, rest, -, -, -, -, hsc⟩ := dispatchLocked_eq_some hd
    rw [hsc]
    exact h
  | @cancels runID now =>
    rw [cancelRun_eq]
    exact h.imp (List.mem_cons_of_mem runID) id
  | @closes now =>
    cases ho : σ.sched.closed with
    | true =>
      rw [ProbeScheduler.close, if_pos ho]
      exact h
    | false =>
      rw [close_eq ho]
      exact .inr rfl
  | _ => exact h

theorem ended_of_step (hs : σ.step action = some σ')
    (hac : (∃ now, action = .cancelRun run now) ∨ ∃ now, action = .close now) : σ'.Ended run := by
  rcases hac with ⟨now, rfl⟩ | ⟨now, rfl⟩
  · cases hs
    left
    change run ∈ (σ.sched.cancelRun now run).1.cancelledRuns
    rw [cancelRun_eq]
    exact List.mem_cons_self
  · cases hs
    right
    change (σ.sched.close now).1.closed = true
    cases ho : σ.sched.closed with
    | true => rw [ProbeScheduler.close, if_pos ho, ho]
    | false => rw [close_eq ho]

theorem Cancellable.live_eq_false (h : σ.Cancellable) (he : σ.Ended run) {id seq : ℕ} {task : ProbeTask}
    (hid : σ.registration id = some (task, seq)) (hr : task.runID = run) : σ.live seq = false := by
  rw [live]
  rcases he with hc | hcl
  · have hd := (h.registered id task seq hid).2.2 (hr ▸ hc)
    simp [hd]
  · simp [h.ctx hcl]

theorem queue_eq_nil_of_ended (hsd : σ.Sound) (h : σ.Cancellable) (he : σ.Ended run) :
    σ.sched.queue run = [] := by
  rcases he with hc | hcl
  · exact h.gone run hc
  · have hli := hsd.books.listed.mem_iff run
    rw [hsd.ended hcl] at hli
    simpa using hli

theorem Moves.events_of_ended (hm : Moves σ action σ') (h : σ.Cancellable) (he : σ.Ended run) : ∃ events,
    σ'.history = σ.history ++ events ∧
      ∀ task, task.runID = run → .executed task true ∉ events ∧ .enqueued task ∉ events := by
  cases hm with
  | @enqueued _ _ sub _ _ hsu hph hs =>
    refine ⟨[_], rfl, fun task hr => ?_⟩
    have hne : task ≠ sub.task := by
      rintro rfl
      obtain ⟨-, -, err, her⟩ := submitted_of_ended (hr ▸ he) hs
      contradiction
    simp [hne]
  | @executes execID seq task hwk =>
    refine ⟨[_], rfl, fun task' hr => ?_⟩
    constructor
    · intro hme
      obtain ⟨rfl, hl⟩ := SchedulerEvent.executed.inj (List.mem_singleton.mp hme)
      rw [h.live_eq_false he (registration_of_lookup hwk rfl) hr] at hl
      contradiction
    · simp
  | refused | abandons | skipCalls | skipReturns | dispatched | calls | callReturns | drainReturns =>
    exact ⟨[_], rfl, fun task _ => by simp⟩
  | _ => exact ⟨[], (List.append_nil _).symm, fun task _ => by simp⟩

/-- A call of `submit` for the run that began with the number `first` or later is before its next round. -/
def Turned (σ : SchedulerSystem) (run : String) (first : ℕ) : Prop :=
  ∀ call sub, σ.submissions.lookup call = some sub → sub.task.runID = run → first ≤ call → sub.phase = .trying

section

variable {first call : ℕ} {sub : Submission}

theorem Turned.erase (h : σ.Turned run first) (hs : σ'.submissions = σ.submissions.erase call) :
    σ'.Turned run first := by
  intro call' sub' hlk
  rw [hs] at hlk
  exact forall_erase h call call' sub' hlk

theorem Turned.insert (h : σ.Turned run first) (hs : sub.task.runID = run → first ≤ call → sub.phase = .trying)
    (hsu : σ'.submissions = σ.submissions.insert call sub) : σ'.Turned run first := by
  intro call' sub' hlk
  rw [hsu] at hlk
  exact forall_insert h hs call' sub' hlk

theorem Moves.turned {a : SchedulerAction} (hm : Moves σ a σ') (he : σ.Ended run)
    (h : σ.Turned run first) : σ'.Turned run first := by
  cases hm with
  | submit | wakes => exact h.insert (fun _ _ => rfl) rfl
  | enqueued | refused | abandons | skipReturns => exact h.erase rfl
  | skipped hs hph hse | waits hs hph hse =>
    refine h.insert (fun hr _ => ?_) rfl
    obtain ⟨-, -, err, her⟩ := submitted_of_ended (hr ▸ he) hse
    contradiction
  | skipCalls hs hph =>
    refine h.insert (fun hr hf => ?_) rfl
    rw [h _ _ hs hr hf] at hph
    contradiction
  | _ => exact h

theorem step_attempt_of_ended (he : σ.Ended sub.task.runID) (hsu : σ.submissions.lookup call = some sub)
    (hph : sub.phase = .trying) (now : Time) : ∃ err σ', σ.step (.attempt call now) = some σ' ∧
      σ'.history = σ.history ++ [.refused call err] ∧ σ'.submissions = σ.submissions.erase call ∧
      σ'.sched.queues = σ.sched.queues := by
  have hse := submitted_submitLocked σ.sched now sub.task
  obtain ⟨⟨nodes, hsc⟩, ho, err, her⟩ := submitted_of_ended he hse
  have hrs : σ.sched.submitLocked now sub.task = (.failed err, σ.sched.withNodes nodes, []) :=
    Prod.ext her (Prod.ext hsc ho)
  have hs : σ.step (.attempt call now) = some (σ.attemptStep call now sub) := by
    rw [step, hsu]
    exact if_pos hph
  rw [attemptStep, hrs] at hs
  exact ⟨err, _, hs, rfl, rfl, rfl⟩

end

end

section

/-- What holds after the section that ended the run, in the state `σ₁`. -/
structure After (σ₁ : SchedulerSystem) (run : String) (σ : SchedulerSystem) : Prop where
  sound : σ.Sound
  cancellable : σ.Cancellable
  ended : σ.Ended run
  turned : σ.Turned run σ₁.nextCall
  events : ∃ later, σ.history = σ₁.history ++ later ∧
    ∀ task, task.runID = run → .executed task true ∉ later ∧ .enqueued task ∉ later

theorem Moves.after {σ₁ : SchedulerSystem} {a : SchedulerAction} (hm : Moves σ a σ') (h : After σ₁ run σ) :
    After σ₁ run σ' := by
  refine ⟨hm.sound h.sound, hm.cancellable h.sound h.cancellable, hm.ended h.sound h.ended,
    hm.turned h.ended h.turned, ?_⟩
  obtain ⟨later, hl, hn⟩ := h.events
  obtain ⟨events, he, hne⟩ := hm.events_of_ended h.cancellable h.ended
  refine ⟨later ++ events, by rw [he, hl, List.append_assoc], fun task hr => ?_⟩
  rw [List.mem_append, List.mem_append, not_or, not_or]
  exact ⟨⟨(hn task hr).1, (hne task hr).1⟩, (hn task hr).2, (hne task hr).2⟩

variable {cfg : SchedulerConfig}

theorem cancellable_newScheduler {s : ProbeScheduler} (h : newScheduler cfg = .ok s) :
    ({ sched := s } : SchedulerSystem).Cancellable := by
  obtain ⟨-, -, rfl, -, -⟩ := newScheduler_eq_ok h
  exact ⟨fun hcl => absurd hcl (by simp), fun run hr => absurd hr List.not_mem_nil,
    fun id task seq hid => by simp [registration] at hid,
    fun id id' task task' seq hid => by simp [registration] at hid⟩

theorem Reachable.cancellable (h : Reachable cfg σ) : σ.Cancellable := by
  obtain ⟨s, hn, actions, he⟩ := h
  have ha : σ.Sound ∧ σ.Cancellable := by
    refine exec_induction (P := fun σ => σ.Sound ∧ σ.Cancellable) ?_
      ⟨sound_newScheduler hn, cancellable_newScheduler hn⟩ he
    intro σ action σ' ⟨hsd, h⟩ hm
    exact ⟨hm.sound hsd, hm.cancellable hsd h⟩
  exact ha.2

theorem Reachable.step {a : SchedulerAction} (h : Reachable cfg σ) (hs : σ.step a = some σ') :
    Reachable cfg σ' := by
  obtain ⟨s, hn, acts, he⟩ := h
  refine ⟨s, hn, acts ++ [a], ?_⟩
  rw [exec_append, he, bind_some, exec_singleton, hs]

/-- From the section of `CancelRun` or `Close` on: nothing of the run is queued, what executes of it has a done
context, nothing of it starts with a live one or is queued again, and a later call of `submit` fails. -/
theorem cancellation_complete {cfg : SchedulerConfig} {σ₀ σ₁ : SchedulerSystem} {action : SchedulerAction}
    {after : List SchedulerAction} (h : Reachable cfg σ₀)
    (haction : (∃ now, action = .cancelRun run now) ∨ ∃ now, action = .close now)
    (hstep : σ₀.step action = some σ₁) (hexec : σ₁.exec after = some σ) :
    (∀ run', ∀ task ∈ σ.sched.queue run', task.runID ≠ run) ∧
    (∀ id task seq, σ.workers.lookup id = some ⟨task, .executing seq⟩ → task.runID = run → σ.live seq = false) ∧
    (∃ later, σ.history = σ₁.history ++ later ∧
      ∀ task, task.runID = run → .executed task true ∉ later ∧ .enqueued task ∉ later) ∧
    ∀ call sub, σ.submissions.lookup call = some sub → sub.task.runID = run → σ₁.nextCall ≤ call →
      sub.phase = .trying ∧ ∀ now, ∃ err σ', σ.step (.attempt call now) = some σ' ∧
        σ'.history = σ.history ++ [.refused call err] ∧ σ'.submissions = σ.submissions.erase call ∧
        σ'.sched.queues = σ.sched.queues := by
  have hrc := h.step hstep
  obtain ⟨hsd, hle, -⟩ := hrc.ledger
  have htu : σ₁.Turned run σ₁.nextCall := by
    intro call sub hlk _ hf
    -- every open call of `submit` has a smaller number
    exact absurd hf (hle.lt_nextCall hlk).not_ge
  have hs : After σ₁ run σ₁ := ⟨hsd, hrc.cancellable, ended_of_step hstep haction, htu, [],
    (List.append_nil _).symm, fun task _ => by simp⟩
  have ha : After σ₁ run σ := exec_induction (fun σ action σ' h hm => hm.after h) hs hexec
  refine ⟨?_, ?_, ha.events, ?_⟩
  · intro run' task ht hr
    have ho := ha.sound.own run' task ht
    rw [← ho, hr, queue_eq_nil_of_ended ha.sound ha.cancellable ha.ended] at ht
    contradiction
  · intro id task seq hwk hr
    exact ha.cancellable.live_eq_false ha.ended (registration_of_lookup hwk rfl) hr
  · intro call sub hlk hr hf
    have hph := ha.turned call sub hlk hr hf
    exact ⟨hph, step_attempt_of_ended (hr ▸ ha.ended) hlk hph⟩

/-- A run is cancelled between the dispatch of its task and the registration of the cancel function. -/
theorem cancellation_complete_dispatched : ∃ σ₀ σ₁ σ, Reachable {} σ₀ ∧
    σ₀.step (.cancelRun "a" 0) = some σ₁ ∧ σ₁.exec [.startTask 1 0] = some σ ∧
    (∀ run', ∀ task ∈ σ.sched.queue run', task.runID ≠ "a") := by
  have hru : ∃ σ₀ σ₁ σ, exec { sched := defaultScheduler }
      [.submit "a" "n1" "speed" .strictConflict false, .attempt 0 0, .submit "a" "n2" "speed" .strictConflict false,
        .attempt 1 0, .dispatch] = some σ₀ ∧
      σ₀.step (.cancelRun "a" 0) = some σ₁ ∧ σ₁.exec [.startTask 1 0] = some σ := ⟨_, _, _, rfl, rfl, rfl⟩
  obtain ⟨σ₀, σ₁, σ, he, hs, ha⟩ := hru
  have hr : Reachable {} σ₀ := ⟨_, newScheduler_default, _, he⟩
  exact ⟨σ₀, σ₁, σ, hr, hs, ha, (cancellation_complete hr (.inl ⟨0, rfl⟩) hs ha).1⟩

end

end SchedulerSystem

end ClashSubParser
