import ClashSubParser.SchedulerSteps

/-! The accounting of the scheduler over whole runs: every interleaving keeps the books. -/
namespace ClashSubParser

open List AssocTotals ProbeScheduler AList

/-- The counters, the order of the runs with its cursor, and the activity records. -/
structure ProbeScheduler.Accounted (s : ProbeScheduler) : Prop extends s.Books where
  cursor : s.CursorInRange

namespace SchedulerSystem

structure Sound (σ : SchedulerSystem) : Prop where
  books : σ.sched.Books
  first : ∀ run, ManualFirst (σ.sched.queue run)
  own : ∀ run, ∀ t ∈ σ.sched.queue run, t.runID = run
  cursor : σ.sched.closed = false → σ.sched.CursorInRange
  ended : σ.sched.closed = true → σ.sched.runOrder = []
  /-- every worker has its task in the table of probing tasks, and nothing else is there -/
  workers : ∀ id, σ.sched.probingTasks.lookup id = (σ.workers.lookup id).map (·.task)
  numbered : ∀ id worker, σ.workers.lookup id = some worker → id ≤ σ.sched.nextExecID

variable {σ σ' : SchedulerSystem}

theorem Sound.congr (h : σ.Sound) (hs : σ'.sched = σ.sched) (hw : σ'.workers = σ.workers) : σ'.Sound := by
  refine ⟨?_, ?_, ?_, ?_, ?_, ?_, ?_⟩
  · rw [hs]
    exact h.books
  · rw [hs]
    exact h.first
  · rw [hs]
    exact h.own
  · rw [hs]
    exact h.cursor
  · rw [hs]
    exact h.ended
  · rw [hs, hw]
    exact h.workers
  · rw [hs, hw]
    exact h.numbered

section

variable {tasks : FiniteMap ℕ ProbeTask} {workers : FiniteMap ℕ ProbeWorker}

variable (h : ∀ id, tasks.lookup id = (workers.lookup id).map (·.task))
include h

theorem workers_insert (eid : ℕ) (w : ProbeWorker) (id : ℕ) :
    (tasks.insert eid w.task).lookup id = ((workers.insert eid w).lookup id).map (·.task) := by
  by_cases hid : id = eid
  · subst hid
    rw [lookup_insert, lookup_insert, Option.map_some]
  · rw [lookup_insert_ne hid, lookup_insert_ne hid]
    exact h id

theorem workers_erase (eid id : ℕ) :
    (tasks.erase eid).lookup id = ((workers.erase eid).lookup id).map (·.task) := by
  by_cases hid : id = eid
  · subst hid
    rw [lookup_erase, lookup_erase, Option.map_none]
  · rw [lookup_erase_ne hid, lookup_erase_ne hid]
    exact h id

theorem workers_replace {eid : ℕ}
    {w w' : ProbeWorker} (hwk : workers.lookup eid = some w) (ht : w'.task = w.task)
    (id : ℕ) : tasks.lookup id = ((workers.insert eid w').lookup id).map (·.task) := by
  by_cases hid : id = eid
  · subst hid
    rw [lookup_insert, h, hwk, Option.map_some, Option.map_some, ht]
  · rw [lookup_insert_ne hid]
    exact h id

end

variable {cfg : SchedulerConfig} {task : ProbeTask} {s sched : ProbeScheduler} {execID : ℕ}

theorem submitted_of_closed {s' : ProbeScheduler} {attempt : Attempt} {old : List ProbeTask}
    (h : Submitted s task attempt s' old) (hcl : s.closed = true) :
    (∃ nodes, s' = s.withNodes nodes) ∧ old = [] ∧ ∃ err, attempt = .failed err := by
  apply h.of_not_admits
  intro ho
  rw [ho.1] at hcl
  contradiction

section

variable (h : σ.Sound)
include h

theorem Sound.submitted {attempt : Attempt} {old : List ProbeTask}
    (hs : Submitted σ.sched task attempt sched old) (hsc : σ'.sched = sched) (hw : σ'.workers = σ.workers) :
    σ'.Sound := by
  subst hsc
  have hsa := hs.sameWorkers h.first
  refine ⟨hs.books h.first h.books, hs.first h.first, hs.own h.first h.own, ?_, ?_, ?_, ?_⟩
  · intro ho
    rw [hsa.closed] at ho
    exact hs.cursor h.first (h.cursor ho)
  · intro hcl
    rw [hsa.closed] at hcl
    obtain ⟨⟨nodes, hns⟩, -⟩ := submitted_of_closed hs hcl
    rw [hns]
    exact h.ended hcl
  · rw [hsa.probingTasks, hw]
    exact h.workers
  · rw [hsa.nextExecID, hw]
    exact h.numbered

theorem Sound.lookup_nextExecID (hd : σ.sched.dispatchLocked = some (task, execID, sched)) :
    σ.workers.lookup execID = none := by
  obtain ⟨-, i, -, -, -, -, -, -, hid, -⟩ := dispatchLocked_eq_some hd
  cases hworker : σ.workers.lookup execID with
  | none => rfl
  | some w =>
    have hle := h.numbered execID w hworker
    omega

theorem Sound.dispatched
    (ho : σ.sched.closed = false) (hd : σ.sched.dispatchLocked = some (task, execID, sched)) :
    (({ σ with sched := sched }.setWorker execID ⟨task, .started⟩).log (.dispatched task)).Sound := by
  obtain ⟨-, i, emptied, kept, rest, hi, hk, -, hid, hs⟩ := dispatchLocked_eq_some hd
  have hfr : σ.sched.probingTasks.lookup execID = none := by
    rw [h.workers, h.lookup_nextExecID hd, Option.map_none]
  have hbk := h.books.dispatch hd hfr
  have hcu : sched.CursorInRange := by
    rw [hs]
    exact cursorInRange_afterTake (h.cursor ho) hi hk rest
  have hcl : sched.closed = false := by
    rw [hs]
    exact ho
  obtain ⟨run, rest', hru, hqu⟩ := queue_dispatchLocked hd
  refine ⟨hbk, ?_, ?_, fun _ => hcu, ?_, ?_, ?_⟩
  · intro r
    change ManualFirst (sched.queue r)
    rw [hqu]
    split_ifs
    · have hf := h.first run
      rw [hru] at hf
      exact (pairwise_cons.mp hf).2
    · exact h.first r
  · intro r t ht
    change t ∈ sched.queue r at ht
    rw [hqu] at ht
    split_ifs at ht with hr
    · subst hr
      apply h.own r
      rw [hru]
      exact mem_cons_of_mem task ht
    · exact h.own r t ht
  · intro htr
    change sched.closed = true at htr
    rw [hcl] at htr
    contradiction
  · have hp : sched.probingTasks = σ.sched.probingTasks.insert execID task := by rw [hs]
    change ∀ id, sched.probingTasks.lookup id = _
    rw [hp]
    exact workers_insert h.workers execID ⟨task, .started⟩
  · have hn : sched.nextExecID = execID := by rw [hs]
    change ∀ id w, (σ.workers.insert execID ⟨task, .started⟩).lookup id = some w → id ≤ sched.nextExecID
    apply forall_insert
    · intro id w hwk
      have hle := h.numbered id w hwk
      omega
    · exact hn.ge

theorem Sound.finished {phase : WorkerPhase} (cancelled : List ℕ)
    (now : Time) (seq : Option ℕ) (hwk : σ.workers.lookup execID = some ⟨task, phase⟩)
    (hs : σ'.sched = ({ σ.sched with cancelled := cancelled } : ProbeScheduler).finishTaskExecutionLocked now task
      execID seq) (hw : σ'.workers = σ.workers.erase execID) : σ'.Sound := by
  have hlk : σ.sched.probingTasks.lookup execID = some task := by rw [h.workers, hwk, Option.map_some]
  have hbk : ({ σ.sched with cancelled := cancelled } : ProbeScheduler).Books := { h.books with }
  refine ⟨?_, ?_, ?_, ?_, ?_, ?_, ?_⟩
  · rw [hs]
    exact hbk.finish hlk
  · rw [hs]
    exact h.first
  · rw [hs]
    exact h.own
  · rw [hs]
    exact h.cursor
  · rw [hs]
    exact h.ended
  · rw [hs, hw]
    exact workers_erase h.workers execID
  · rw [hs, hw]
    exact forall_erase h.numbered execID

theorem Sound.cancelled {runID : String} {now : Time} (hs : σ'.sched = (σ.sched.cancelRun now runID).1)
    (hw : σ'.workers = σ.workers) : σ'.Sound := by
  refine ⟨?_, ?_, ?_, ?_, ?_, ?_, ?_⟩
  · rw [hs]
    exact h.books.cancelRun runID
  · intro run
    rw [hs, queue_cancelRun]
    split_ifs
    · exact List.Pairwise.nil
    · exact h.first run
  · intro run t ht
    rw [hs, queue_cancelRun] at ht
    split_ifs at ht with hr
    · contradiction
    · exact h.own run t ht
  · intro ho
    rw [hs, cancelRun_eq] at ho
    have hcu := cursorInRange_dropRun (h.cursor ho) runID
    rw [dropRun_eq] at hcu
    rw [hs, cancelRun_eq]
    exact hcu
  · intro hcl
    rw [hs, cancelRun_eq] at hcl
    rw [hs, cancelRun_eq]
    rw [h.ended hcl, erase_nil]
  · rw [hs, cancelRun_eq, hw]
    exact h.workers
  · rw [hs, cancelRun_eq, hw]
    exact h.numbered

theorem Sound.closed {now : Time} (hs : σ'.sched = (σ.sched.close now).1)
    (hw : σ'.workers = σ.workers) : σ'.Sound := by
  cases hopen : σ.sched.closed with
  | true =>
    apply h.congr _ hw
    rw [hs, ProbeScheduler.close, if_pos hopen]
  | false =>
    have hbk : (σ.sched.close now).1.Books := h.books.close
    rw [close_eq hopen] at hbk hs
    refine ⟨?_, ?_, ?_, ?_, ?_, ?_, ?_⟩
    · rw [hs]
      exact hbk
    · intro run
      rw [hs]
      exact List.Pairwise.nil
    · intro run t ht
      rw [hs] at ht
      contradiction
    · intro hf
      rw [hs] at hf
      contradiction
    · intro _
      rw [hs]
    · rw [hs, hw]
      exact h.workers
    · rw [hs, hw]
      exact h.numbered

theorem Sound.reordered {queues : FiniteMap String (List ProbeTask)} {nodes : FiniteMap String ActiveRecord}
    (hqs : queues.entries.Perm σ.sched.queues.entries) (hns : nodes.entries.Perm σ.sched.activeNodes.entries) :
    ({ σ with sched := { σ.sched with queues := queues, activeNodes := nodes } } : SchedulerSystem).Sound := by
  have hqu (run : String) :
      ({ σ.sched with queues := queues, activeNodes := nodes } : ProbeScheduler).queue run = σ.sched.queue run := by
    exact congrArg (·.getD []) (perm_lookup hqs)
  have hc : ({ σ.sched with queues := queues, activeNodes := nodes } : ProbeScheduler).content = σ.sched.content :=
    total_perm _ hqs
  have hh : Held nodes (σ.sched.content.map ProbeTask.key + σ.sched.probing.map ProbeTask.key) := by
    intro key
    rw [perm_lookup hns]
    exact h.books.held key
  refine ⟨⟨?_, h.books.bounded, ⟨h.books.listed.nodup, ?_⟩, h.books.tasks, h.books.active, h.books.byRun,
    h.books.limit, ?_⟩,
    ?_, ?_, h.cursor, h.ended, h.workers, h.numbered⟩
  · rw [hc]
    exact h.books.queued
  · intro run
    rw [hqu]
    exact h.books.listed.mem_iff run
  · rw [hc]
    exact hh
  · intro run
    rw [hqu]
    exact h.first run
  · intro run
    rw [hqu]
    exact h.own run

end

theorem Moves.sound {a : SchedulerAction} (hm : Moves σ a σ') (h : σ.Sound) : σ'.Sound := by
  cases hm with
  | submit | wakes | abandons | skipCalls | skipReturns | dispatcher | calls | drains | drainReturns =>
    exact h.congr rfl rfl
  | enqueued hsu hph hs | skipped hsu hph hs | waits hsu hph hs
  | refused hsu hph hs => exact h.submitted hs rfl rfl
  | dispatched ho hd => exact h.dispatched ho hd
  | registers hwk ho =>
    exact ⟨{ h.books with }, h.first, h.own, h.cursor, h.ended, workers_replace h.workers hwk rfl,
      forall_insert h.numbered (h.numbered _ _ hwk)⟩
  | @stops _ now _ hwk => exact h.finished σ.sched.cancelled now none hwk rfl rfl
  | executes hwk =>
    exact ⟨h.books, h.first, h.own, h.cursor, h.ended, workers_replace h.workers hwk rfl,
      forall_insert h.numbered (h.numbered _ _ hwk)⟩
  | @finishes _ seq now _ hwk => exact h.finished (σ.sched.cancelled ++ [seq]) now (some seq) hwk rfl rfl
  | callReturns | contextEnds | taskEnds =>
    exact ⟨{ h.books with }, h.first, h.own, h.cursor, h.ended, h.workers, h.numbered⟩
  | cancels => exact h.cancelled rfl rfl
  | closes => exact h.closed rfl rfl
  | reorders hqs hns => exact h.reordered hqs hns

theorem newScheduler_eq_ok (h : newScheduler cfg = .ok s) :
    ∃ cfg' explicit, s = { cfg := cfg', explicitRunConcurrency := explicit } ∧ 0 ≤ cfg'.queueSize ∧
      0 ≤ cfg'.concurrency := by
  unfold newScheduler at h
  generalize (if cfg.concurrency = 0 then defaultConcurrency else cfg.concurrency) = concurrency at h
  by_cases hc : concurrency < minConcurrency ∨ concurrency > hardMaxConcurrency
  · rw [if_pos hc] at h
    contradiction
  · rw [if_neg hc] at h
    by_cases hr : cfg.runConcurrency < 0 ∨ cfg.runConcurrency > concurrency
    · rw [if_pos hr] at h
      contradiction
    · rw [if_neg hr] at h
      refine ⟨_, _, (Except.ok.inj h).symm, ?_, ?_⟩
      · dsimp only
        split_ifs
        · decide
        · omega
      · rw [not_or, not_lt] at hc
        exact le_trans (by decide) hc.1

theorem sound_newScheduler (h : newScheduler cfg = .ok s) : ({ sched := s } : SchedulerSystem).Sound := by
  obtain ⟨cfg', -, rfl, hqu, hc⟩ := newScheduler_eq_ok h
  have hli : Listed [] (fun _ : String => ([] : List ProbeTask)) := ⟨nodup_nil, by simp⟩
  have hh : Held ∅ (0 : Multiset String) := by
    intro key
    simp
  exact ⟨⟨rfl, hqu, hli, rfl, rfl, rfl, hc, hh⟩, fun run => List.Pairwise.nil,
    fun run t ht => absurd ht not_mem_nil, fun _ => .inr ⟨rfl, rfl⟩, fun _ => rfl, fun id => rfl,
    fun id worker hwk => by simp at hwk⟩

section

theorem Moves.runCursor_of_closed {action : SchedulerAction} (hm : Moves σ action σ') (h : σ.Sound)
    (hcl : σ'.sched.closed = true) :
    σ'.sched.runCursor = σ.sched.runCursor ∧ (σ.sched.closed = true ∨ ∃ now, action = .close now) := by
  have hse {task : ProbeTask} {attempt : Attempt} {sched : ProbeScheduler} {old : List ProbeTask}
      (hs : Submitted σ.sched task attempt sched old) (hsc : sched.closed = true) :
      sched.runCursor = σ.sched.runCursor ∧ (σ.sched.closed = true ∨ ∃ now, action = .close now) := by
    rw [(hs.sameWorkers h.first).closed] at hsc
    obtain ⟨⟨-, rfl⟩, -⟩ := submitted_of_closed hs hsc
    exact ⟨rfl, .inl hsc⟩
  cases hm with
  | enqueued _ _ hs | skipped _ _ hs | waits _ _ hs | refused _ _ hs => exact hse hs hcl
  | @dispatched task execID sched ho hd =>
    obtain ⟨-, i, emptied, kept, rest, -, -, -, -, hsc⟩ := dispatchLocked_eq_some hd
    have hf : sched.closed = false := by
      rw [hsc]
      exact ho
    exact absurd (hcl.symm.trans hf) (by decide)
  | @cancels runID now =>
    rw [cancelRun_eq] at hcl ⊢
    -- the order of a closed scheduler is empty, so no run is taken out of it
    have hn : runID ∉ σ.sched.runOrder := by simp [h.ended hcl]
    refine ⟨?_, .inl hcl⟩
    rw [dropRun, if_neg hn]
  | @closes now =>
    refine ⟨?_, .inr ⟨now, rfl⟩⟩
    cases ho : σ.sched.closed with
    | true => rw [ProbeScheduler.close, if_pos ho]
    | false => rw [close_eq ho]
  | _ => exact ⟨rfl, .inl hcl⟩

variable {s : ProbeScheduler} {actions : List SchedulerAction}

/-- Where every part of the run that closes the scheduler finds the cursor at the first run, it stays there. -/
theorem runCursor_eq_zero_of_closed (h : ({ sched := s } : SchedulerSystem).Sound) (hn : s.closed = false)
    (hc : ∀ pre now ρ, pre ++ [.close now] <+: actions → exec { sched := s } pre = some ρ →
      ρ.sched.closed = false → ρ.sched.runCursor = 0)
    (he : exec { sched := s } actions = some σ) (hcl : σ.sched.closed = true) : σ.sched.runCursor = 0 := by
  induction actions using List.reverseRecOn generalizing σ with
  | nil =>
    cases he
    exact absurd (hcl.symm.trans hn) (by decide)
  | append_singleton pre a ih =>
    rw [exec_append] at he
    obtain ⟨ρ, hb, hl⟩ := Option.bind_eq_some_iff.mp he
    rw [exec_singleton] at hl
    have hρ : ρ.Sound := exec_induction (fun σ a σ' h hm => hm.sound h) h hb
    obtain ⟨hcu, hw⟩ := (moves_of_step hl).runCursor_of_closed hρ hcl
    rw [hcu]
    cases hopen : ρ.sched.closed with
    | true =>
      apply ih _ hb hopen
      intro first now τ hp
      exact hc first now τ (hp.trans (prefix_append pre [a]))
    | false =>
      obtain ⟨now, rfl⟩ := hw.resolve_left (by simp [hopen])
      exact hc pre now ρ prefix_rfl hb hopen

/-- The books are right after every part of a run exactly if no part of it closes the scheduler while the
cursor is not at the first run. -/
theorem accounted_iff_closed_at_first {cfg : SchedulerConfig} (hnew : newScheduler cfg = .ok s) :
    (∀ before ρ, before <+: actions → exec { sched := s } before = some ρ → ρ.sched.Accounted) ↔
      ∀ before now ρ, before ++ [.close now] <+: actions → exec { sched := s } before = some ρ →
        ρ.sched.closed = false → ρ.sched.runCursor = 0 := by
  have hi := sound_newScheduler hnew
  constructor
  · intro ha before now ρ hp hb ho
    have haf : exec { sched := s } (before ++ [.close now]) =
        some { ρ with sched := (ρ.sched.close now).1, toCall := ρ.toCall ++ (ρ.sched.close now).2 } := by
      rw [exec_append, hb, Option.bind_some, exec_singleton]
      rfl
    have hcu : (ρ.sched.close now).1.CursorInRange := (ha _ _ hp haf).cursor
    rw [close_eq ho] at hcu
    rcases hcu with hlt | ⟨-, hz⟩
    · exact absurd hlt (Nat.not_lt_zero _)
    · exact hz
  · intro hc before ρ hp hb
    have hρ : ρ.Sound := exec_induction (fun σ action σ' h hm => hm.sound h) hi hb
    refine ⟨hρ.books, ?_⟩
    cases ho : ρ.sched.closed with
    | false => exact hρ.cursor ho
    | true =>
      obtain ⟨cfg', explicit, rfl, -⟩ := newScheduler_eq_ok hnew
      right
      refine ⟨hρ.ended ho, runCursor_eq_zero_of_closed hi rfl ?_ hb ho⟩
      intro first now τ hf
      exact hc first now τ (hf.trans hp)

def defaultScheduler : ProbeScheduler :=
  { cfg := ⟨50, 25, 1024, 30000000000⟩, explicitRunConcurrency := false }

theorem newScheduler_default : newScheduler {} = .ok defaultScheduler := rfl

/-- A run in which `Close` finds the cursor at the first one. -/
theorem accounted_of_closed_at_first : ∃ σ : SchedulerSystem, σ.sched.Accounted ∧
    exec { sched := defaultScheduler } [.submit "a" "n1" "speed" .strictConflict false, .attempt 0 0, .close 0] =
      some σ := by
  have hr : ∃ σ, exec { sched := defaultScheduler }
      [.submit "a" "n1" "speed" .strictConflict false, .attempt 0 0, .close 0] = some σ := ⟨_, rfl⟩
  obtain ⟨σ, he⟩ := hr
  refine ⟨σ, (accounted_iff_closed_at_first newScheduler_default).mpr ?_ _ _ prefix_rfl he, he⟩
  intro before now ρ hp hb ho
  match before, hp with
  | [], hp => simp at hp
  | [x], hp => simp at hp
  | [x, y], hp =>
    have hc : x = .submit "a" "n1" "speed" .strictConflict false ∧ y = .attempt 0 0 := by
      simp only [cons_append, nil_append, cons_prefix_cons] at hp
      exact ⟨hp.1, hp.2.1⟩
    obtain ⟨rfl, rfl⟩ := hc
    cases hb
    rfl
  | x :: y :: z :: rest, hp =>
    have hl := hp.length_le
    simp only [length_append, length_cons, length_nil] at hl
    omega

/-- A run of two tasks and a run of one; a task is dispatched, then the scheduler is closed. -/
def closedBehindFirst : List SchedulerAction :=
  [.submit "a" "n1" "speed" .strictConflict false, .attempt 0 0,
    .submit "a" "n2" "speed" .strictConflict false, .attempt 1 0,
    .submit "b" "n3" "speed" .strictConflict false, .attempt 2 0, .dispatch, .close 0]

/-- `Close` empties the order of the runs and leaves the cursor where it was. -/
theorem exists_reachable_not_accounted : ¬∀ cfg σ, Reachable cfg σ → σ.sched.Accounted := by
  intro ha
  have hr : ∃ σ, exec { sched := defaultScheduler } closedBehindFirst = some σ ∧ σ.sched.runOrder = [] ∧
      σ.sched.runCursor = 1 := ⟨_, rfl, rfl, rfl⟩
  obtain ⟨σ, he, ho, hcu⟩ := hr
  rcases (ha {} σ ⟨_, newScheduler_default, closedBehindFirst, he⟩).cursor with hlt | ⟨-, hz⟩
  · rw [ho] at hlt
    exact absurd hlt (Nat.not_lt_zero _)
  · rw [hcu] at hz
    contradiction

end

end SchedulerSystem

end ClashSubParser
