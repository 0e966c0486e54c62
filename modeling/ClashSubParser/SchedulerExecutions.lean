import ClashSubParser.SchedulerCompletion

/-! `Execute` is called at most once for a call of `submit`, and never after its callback. -/
namespace ClashSubParser

open List AssocTotals ProbeScheduler

def WorkerPhase.isExecuting : WorkerPhase → Bool
  | .executing _ => true
  | _ => false

namespace SchedulerSystem

open SchedulerEvent

def idleShare (worker : ProbeWorker) : Multiset ℕ := if worker.phase.isExecuting then 0 else {worker.task.call}

def executingShare (worker : ProbeWorker) : Multiset ℕ := if worker.phase.isExecuting then {worker.task.call} else 0

variable (σ : SchedulerSystem)

def queuedCalls : Multiset ℕ := σ.sched.content.map (·.call)

def idleCalls : Multiset ℕ := total idleShare σ.workers

def unbegun : Multiset ℕ := σ.openCalls + σ.queuedCalls + σ.idleCalls

def executing : Multiset ℕ := total executingShare σ.workers

variable {σ σ' : SchedulerSystem} {call : ℕ}

theorem mem_unbegun : call ∈ σ.unbegun ↔ call ∈ σ.openCalls ∨ call ∈ σ.queuedCalls ∨ call ∈ σ.idleCalls := by
  rw [unbegun, Multiset.mem_add, Multiset.mem_add, or_assoc]

theorem idleCalls_add_executing : σ.idleCalls + σ.executing = total (fun w => {w.task.call}) σ.workers := by
  have hsh (w : ProbeWorker) :
      idleShare w + executingShare w = ({w.task.call} : Multiset ℕ) := by
    rw [idleShare, executingShare]
    split_ifs
    · exact zero_add _
    · exact add_zero _
  rw [idleCalls, executing, total, total, ← sum_map_add, total]
  simp only [hsh]

/-! ### What the ledger says -/

section

variable (h : σ.Ledger)
include h

theorem Ledger.nodup_places :
    (σ.unbegun + σ.executing + (callsOf calledCall σ.history - σ.skipCalls) + callsOf refusedCall σ.history).Nodup := by
  apply Multiset.nodup_of_le _ h.once
  have hcd : callsOf calledCall σ.history - σ.skipCalls = (σ.calling : Multiset ProbeTask).map (·.call) +
      callsOf finishedCall σ.history + callsOf skipAcceptedCall σ.history := by
    rw [h.called, add_right_comm, Multiset.add_sub_cancel_right]
  rw [hcd, allCalls, h.handed, owed, ← idleCalls_add_executing, unbegun, queuedCalls]
  calc
    _ = σ.openCalls + σ.sched.content.map (·.call) + (σ.idleCalls + σ.executing) +
        (σ.calling : Multiset ProbeTask).map (·.call) + callsOf finishedCall σ.history +
        callsOf refusedCall σ.history + callsOf skipAcceptedCall σ.history := by abel
    _ ≤ σ.openCalls + σ.sched.content.map (·.call) + (σ.idleCalls + σ.executing) +
        (σ.calling : Multiset ProbeTask).map (·.call) + callsOf finishedCall σ.history +
        callsOf refusedCall σ.history + callsOf skipAcceptedCall σ.history +
        (σ.toCall : Multiset ProbeTask).map (·.call) := Multiset.le_add_right _ _
    _ = _ := by abel

theorem Ledger.not_unbegun_of_executing (hc : call ∈ σ.executing) : call ∉ σ.unbegun := by
  have hnd := h.nodup_places
  rw [Multiset.nodup_add, Multiset.nodup_add, Multiset.nodup_add] at hnd
  exact fun hu => Multiset.disjoint_left.mp hnd.1.1.2.2 hu hc

/-- A task whose callback was called is not in `Execute`. -/
theorem Ledger.not_executing_of_called (hcd : .called call ∈ σ.history) : call ∉ σ.executing := by
  have hnd := h.nodup_places
  rw [Multiset.nodup_add, Multiset.nodup_add, Multiset.nodup_add] at hnd
  obtain ⟨⟨⟨-, -, hu⟩, -, hp⟩, -⟩ := hnd
  intro he
  by_cases hs : call ∈ σ.skipCalls
  · -- the callback of a skipped task runs inside a call of `submit`
    have hle : σ.skipCalls ≤ σ.openCalls := by
      apply total_le_total
      intro sub
      split_ifs
      · exact le_rfl
      · exact Multiset.zero_le _
    exact Multiset.disjoint_left.mp hu (mem_unbegun.mpr (.inl (Multiset.mem_of_le hle hs))) he
  · have hm : call ∈ callsOf calledCall σ.history := mem_callsOf.mpr ⟨_, hcd, rfl⟩
    have hr : call ∈ callsOf calledCall σ.history - σ.skipCalls := by
      rw [← Multiset.count_pos, Multiset.count_sub, Multiset.count_eq_zero.mpr hs, Nat.sub_zero]
      exact Multiset.count_pos.mpr hm
    exact Multiset.disjoint_left.mp hp (Multiset.mem_add.mpr (.inr he)) hr

theorem Ledger.not_executing_of_refused {err : SubmitError} (hr : .refused call err ∈ σ.history) :
    call ∉ σ.executing := by
  have hnd := h.nodup_places
  rw [Multiset.nodup_add] at hnd
  have hm : call ∈ callsOf refusedCall σ.history := mem_callsOf.mpr ⟨_, hr, rfl⟩
  intro he
  apply Multiset.disjoint_left.mp hnd.2.2 _ hm
  exact Multiset.mem_add.mpr (.inl (Multiset.mem_add.mpr (.inr he)))

end

/-! ### What a step does -/

section

variable {sub : Submission} {worker worker' : ProbeWorker} {execID : ℕ} {f : ProbeWorker → Multiset ℕ} {c : ℕ}

theorem mem_openCalls_of_drop (hs : σ.submissions.lookup call = some sub)
    (h : c ∈ (σ.dropSubmission call).openCalls) : c ∈ σ.openCalls := by
  rw [openCalls_dropSubmission hs]
  exact Multiset.mem_add.mpr (.inl h)

theorem mem_queuedCalls_of_submitted {task : ProbeTask} {attempt : Attempt} {sched : ProbeScheduler}
    {old : List ProbeTask} (hsd : σ.Sound) (hs : Submitted σ.sched task attempt sched old)
    (h : c ∈ sched.content.map (·.call)) : c ∈ σ.queuedCalls ∨ (attempt = .enqueued ∧ c = task.call) := by
  have hc := hs.content hsd.first (f := fun t => t.call) fun _ => rfl
  have hm : c ∈ sched.content.map (·.call) + (old : Multiset ProbeTask).map (·.call) :=
    Multiset.mem_add.mpr (.inl h)
  rw [hc] at hm
  split_ifs at hm with he
  · rcases Multiset.mem_cons.mp hm with hn | ho
    · exact .inr ⟨he, hn⟩
    · exact .inl ho
  · exact .inl hm

theorem mem_queuedCalls_of_taken {sched : ProbeScheduler} {q : List ProbeTask}
    (hc : sched.content + q = σ.sched.content) (h : c ∈ sched.content.map (·.call)) : c ∈ σ.queuedCalls := by
  rw [queuedCalls, ← hc, Multiset.map_add]
  exact Multiset.mem_add.mpr (.inl h)

theorem mem_total_setWorker (h : c ∈ total f (σ.workers.insert execID worker')) :
    c ∈ total f σ.workers ∨ c ∈ f worker' := by
  rcases Multiset.mem_add.mp h with hn | ho
  · exact .inr hn
  · refine .inl ?_
    rw [total_eq_erase f σ.workers execID]
    exact Multiset.mem_add.mpr (.inr ho)

theorem mem_total_of_erase (h : c ∈ total f (σ.workers.erase execID)) : c ∈ total f σ.workers := by
  rw [total_eq_erase f σ.workers execID]
  exact Multiset.mem_add.mpr (.inr h)

theorem mem_total_erase (h : c ∈ total f σ.workers) :
    c ∈ total f (σ.workers.erase execID) ∨ ∃ worker, σ.workers.lookup execID = some worker ∧ c ∈ f worker := by
  rw [total_eq_erase f σ.workers execID] at h
  rcases Multiset.mem_add.mp h with hwk | hr
  · cases hlookup : σ.workers.lookup execID with
    | none =>
      rw [hlookup] at hwk
      exact absurd hwk (Multiset.notMem_zero c)
    | some worker =>
      rw [hlookup] at hwk
      exact .inr ⟨worker, rfl, hwk⟩
  · exact .inl hr

theorem mem_total_insert (h : c ∈ total f σ.workers) : c ∈ total f (σ.workers.insert execID worker') ∨
      ∃ worker, σ.workers.lookup execID = some worker ∧ c ∈ f worker := by
  rcases mem_total_erase h with hr | hwk
  · refine .inl ?_
    exact Multiset.mem_add.mpr (.inr hr)
  · exact .inr hwk

theorem mem_idleCalls (hwk : σ.workers.lookup execID = some worker) (hph : worker.phase.isExecuting = false) :
    worker.task.call ∈ σ.idleCalls := by
  rw [idleCalls, total_erase hwk, idleShare, hph]
  exact Multiset.mem_add.mpr (.inl (Multiset.mem_singleton_self _))

end

section

variable {c : ℕ} {sub : Submission}

theorem unbegun_submitted {attempt : Attempt} {sched : ProbeScheduler} {old : List ProbeTask}
    (h : c ∈ σ'.unbegun) (hsd : σ.Sound) (hsu : σ.submissions.lookup call = some sub)
    (hs : Submitted σ.sched sub.task attempt sched old) (hop : c ∈ σ'.openCalls → c ∈ σ.openCalls)
    (hsc : σ'.sched = sched) (hw : σ'.workers = σ.workers) : c ∈ σ.unbegun := by
  rw [mem_unbegun] at h ⊢
  rcases h with ho | hq | hi
  · exact .inl (hop ho)
  · rw [queuedCalls, hsc] at hq
    rcases mem_queuedCalls_of_submitted hsd hs hq with hol | ⟨-, hn⟩
    · exact .inr (.inl hol)
    · refine .inl ?_
      rw [openCalls_dropSubmission hsu, hn]
      exact Multiset.mem_add.mpr (.inr (Multiset.mem_singleton_self _))
  · rw [idleCalls, hw] at hi
    exact .inr (.inr hi)

theorem unbegun_taken {q : List ProbeTask} (h : c ∈ σ'.unbegun) (hc : σ'.sched.content + q = σ.sched.content)
    (hop : σ'.openCalls = σ.openCalls) (hw : σ'.workers = σ.workers) : c ∈ σ.unbegun := by
  rw [mem_unbegun] at h ⊢
  rcases h with ho | hq | hi
  · rw [hop] at ho
    exact .inl ho
  · exact .inr (.inl (mem_queuedCalls_of_taken hc hq))
  · rw [idleCalls, hw] at hi
    exact .inr (.inr hi)

theorem unbegun_worker (h : c ∈ σ'.unbegun) (hop : σ'.openCalls = σ.openCalls)
    (hc : σ'.sched.content = σ.sched.content) (hid : c ∈ σ'.idleCalls → c ∈ σ.idleCalls) : c ∈ σ.unbegun := by
  rw [mem_unbegun] at h ⊢
  rw [hop, queuedCalls, hc] at h
  rcases h with ho | hq | hi
  · exact .inl ho
  · exact .inr (.inl hq)
  · exact .inr (.inr (hid hi))

theorem unbegun_dropped (hs : σ.submissions.lookup call = some sub) (h : c ∈ (σ.dropSubmission call).unbegun) :
    c ∈ σ.unbegun := by
  rw [mem_unbegun] at h ⊢
  rcases h with ho | hr
  · exact .inl (mem_openCalls_of_drop hs ho)
  · exact .inr hr

theorem unbegun_dispatched {task : ProbeTask} {eid : ℕ} {sched : ProbeScheduler}
    (hd : σ.sched.dispatchLocked = some (task, eid, sched))
    (h : c ∈ ({ σ with sched := sched }.setWorker eid ⟨task, .started⟩).unbegun) : c ∈ σ.unbegun := by
  have hc : σ.queuedCalls = task.call ::ₘ sched.content.map (·.call) := by
    rw [queuedCalls, content_dispatchLocked hd, Multiset.map_cons]
  rw [mem_unbegun] at h ⊢
  rw [hc]
  rcases h with ho | hq | hi
  · exact .inl ho
  · exact .inr (.inl (Multiset.mem_cons_of_mem hq))
  · -- the worker takes its task from the queues
    rcases mem_total_setWorker hi with hol | hn
    · exact .inr (.inr hol)
    · rw [Multiset.mem_singleton.mp hn]
      exact .inr (.inl (Multiset.mem_cons_self _ _))

theorem unbegun_submit (hs : sub.task.call = σ.nextCall)
    (h : c ∈ ({ σ with nextCall := σ.nextCall + 1 }.setSubmission σ.nextCall sub).unbegun) :
    c ∈ σ.unbegun ∨ c = σ.nextCall := by
  rw [mem_unbegun] at h ⊢
  rcases h with ho | hr
  · have ho' : c ∈ total (fun sub : Submission => ({sub.task.call} : Multiset ℕ))
        (σ.submissions.insert σ.nextCall sub) := ho
    rw [total_insert, hs] at ho'
    rcases Multiset.mem_add.mp ho' with hn | hol
    · exact .inr (Multiset.mem_singleton.mp hn)
    · refine .inl (.inl ?_)
      rw [openCalls, total_eq_erase _ σ.submissions σ.nextCall]
      exact Multiset.mem_add.mpr (.inr hol)
  · exact .inl (.inr hr)

theorem Moves.unbegun {a : SchedulerAction} (hm : Moves σ a σ') (hsd : σ.Sound)
    (h : c ∈ σ'.unbegun) : c ∈ σ.unbegun ∨ c = σ.nextCall := by
  cases hm with
  | submit => exact unbegun_submit rfl h
  | enqueued hs hph hse | refused hs hph hse ha =>
    exact .inl (unbegun_submitted h hsd hs hse (mem_openCalls_of_drop hs) rfl rfl)
  | skipped hs hph hse | waits hs hph hse =>
    refine .inl (unbegun_submitted h hsd hs hse (fun ho => ?_) rfl rfl)
    rw [← openCalls_setSubmission hs]
    exact ho
  | wakes hs hph | skipCalls hs hph =>
    exact .inl (unbegun_taken h (add_zero _) (openCalls_setSubmission hs _) rfl)
  | abandons hs hph | skipReturns hs hph => exact .inl (unbegun_dropped hs h)
  | dispatched hop hd => exact .inl (unbegun_dispatched hd h)
  | registers hwk hop =>
    refine .inl (unbegun_worker h rfl rfl (fun hi => ?_))
    rcases mem_total_setWorker hi with hol | hsh
    · exact hol
    · have hid := mem_idleCalls hwk rfl
      rw [Multiset.mem_singleton.mp hsh]
      exact hid
  | stops hwk | finishes hwk => exact .inl (unbegun_worker h rfl rfl mem_total_of_erase)
  | executes hwk =>
    refine .inl (unbegun_worker h rfl rfl (fun hi => ?_))
    exact (mem_total_setWorker hi).resolve_right (Multiset.notMem_zero c)
  | @cancels runID now => exact .inl (unbegun_taken h (content_cancelRun σ.sched now runID) rfl rfl)
  | @closes now => exact .inl (unbegun_taken h (content_close σ.sched now) rfl rfl)
  | @reorders queues nodes hqs hns =>
    have hc : ({ σ.sched with queues := queues, activeNodes := nodes } : ProbeScheduler).content =
        σ.sched.content := total_perm _ hqs
    exact .inl (unbegun_worker h rfl hc id)
  | _ => exact .inl h

end

variable {action : SchedulerAction}

theorem Moves.executing (hm : Moves σ action σ') (hsd : σ.Sound) {c : ℕ} (h : c ∈ σ.executing) :
    c ∈ σ'.executing ∨ ∃ execID now worker, action = .finishTask execID now ∧
      σ.workers.lookup execID = some worker ∧ worker.task.call = c := by
  have hi {execID : ℕ} {worker : ProbeWorker} (hwk : σ.workers.lookup execID = some worker)
      (hph : worker.phase.isExecuting = false) :
      ¬ ∃ worker', σ.workers.lookup execID = some worker' ∧ c ∈ executingShare worker' := by
    intro ⟨worker', hw', hsh⟩
    rw [hwk] at hw'
    cases hw'
    rw [executingShare, hph] at hsh
    exact absurd hsh (Multiset.notMem_zero c)
  cases hm with
  | dispatched ho hd =>
    refine .inl ((mem_total_insert h).resolve_right ?_)
    intro ⟨worker, hwk, _⟩
    rw [hsd.lookup_nextExecID hd] at hwk
    contradiction
  | registers hwk ho | executes hwk =>
    exact .inl ((mem_total_insert h).resolve_right (hi hwk rfl))
  | stops hwk => exact .inl ((mem_total_erase h).resolve_right (hi hwk rfl))
  | @finishes execID seq now task hwk =>
    rcases mem_total_erase h with hr | ⟨worker, hw', hsh⟩
    · exact .inl hr
    · refine .inr ⟨execID, now, worker, rfl, hw', ?_⟩
      rw [hwk] at hw'
      cases hw'
      exact (Multiset.mem_singleton.mp hsh).symm
  | _ => exact .inl h

/-- The task of a worker that begins `Execute` had not begun it before. -/
theorem mem_unbegun_of_execute {eid : ℕ} (h : σ.step (.execute eid) = some σ') :
    ∃ w, σ.workers.lookup eid = some w ∧ w.task.call ∈ σ.unbegun ∧
      w.task.call ∈ σ'.executing := by
  cases moves_of_step h with
  | @executes _ seq task hwk =>
    refine ⟨_, hwk, mem_unbegun.mpr (.inr (.inr (mem_idleCalls hwk rfl))), ?_⟩
    change task.call ∈ total executingShare (σ.workers.insert eid ⟨task, .executing seq⟩)
    exact Multiset.mem_add.mpr (.inl (Multiset.mem_singleton_self _))
  | dispatcher _ hac => simp at hac

theorem Moves.history_subset (hm : Moves σ action σ') : σ.history ⊆ σ'.history := by
  cases hm with
  | enqueued | refused | abandons | skipCalls | skipReturns | dispatched | executes | calls | callReturns
  | drainReturns => exact subset_append_left _ _
  | _ => exact List.Subset.refl _

theorem Moves.nextCall_le (hm : Moves σ action σ') : σ.nextCall ≤ σ'.nextCall := by
  cases hm with
  | submit => exact Nat.le_succ _
  | _ => exact le_refl _

end SchedulerSystem

end ClashSubParser
