import ClashSubParser.SchedulerRuns
import ClashSubParser.SchedulerSubmit

/-! The steps of the system: one case for each thing that can happen. -/
namespace ClashSubParser

open AssocTotals ProbeScheduler

namespace SchedulerSystem

inductive Moves (σ : SchedulerSystem) : SchedulerAction → SchedulerSystem → Prop
  | submit {runID logicalID kind : String} {mode : EnqueueMode} {wait : Bool} :
      Moves σ (.submit runID logicalID kind mode wait)
        ({ σ with nextCall := σ.nextCall + 1 }.setSubmission σ.nextCall
          ⟨⟨runID, logicalID, kind, mode, σ.nextCall⟩, wait, .trying⟩)
  | enqueued {call : ℕ} {now : Time} {sub : Submission} {sched : ProbeScheduler} {old : List ProbeTask}
      (hsub : σ.submissions.lookup call = some sub) (hphase : sub.phase = .trying)
      (h : Submitted σ.sched sub.task .enqueued sched old) :
      Moves σ (.attempt call now)
        (({ σ with sched := sched, toCall := σ.toCall ++ old }.dropSubmission call).log (.enqueued sub.task))
  | skipped {call : ℕ} {now : Time} {sub : Submission} {sched : ProbeScheduler} {old : List ProbeTask}
      (hsub : σ.submissions.lookup call = some sub) (hphase : sub.phase = .trying)
      (h : Submitted σ.sched sub.task .skipped sched old) :
      Moves σ (.attempt call now)
        ({ σ with sched := sched, toCall := σ.toCall ++ old }.setSubmission call { sub with phase := .skipping })
  | waits {call : ℕ} {now : Time} {sub : Submission} {sched : ProbeScheduler} {old : List ProbeTask}
      (hsub : σ.submissions.lookup call = some sub) (hphase : sub.phase = .trying)
      (h : Submitted σ.sched sub.task .full sched old) :
      Moves σ (.attempt call now)
        ({ σ with sched := sched, toCall := σ.toCall ++ old }.setSubmission call
          { sub with phase := .waiting sched.changed })
  | refused {call : ℕ} {now : Time} {sub : Submission} {sched : ProbeScheduler} {old : List ProbeTask}
      {attempt : Attempt} {err : SubmitError} (hsub : σ.submissions.lookup call = some sub)
      (hphase : sub.phase = .trying) (h : Submitted σ.sched sub.task attempt sched old)
      (hattempt : attempt ≠ .enqueued) :
      Moves σ (.attempt call now)
        (({ σ with sched := sched, toCall := σ.toCall ++ old }.dropSubmission call).log (.refused call err))
  | wakes {call : ℕ} {sub : Submission} {wake : ℕ} (hsub : σ.submissions.lookup call = some sub)
      (hphase : sub.phase = .waiting wake) :
      Moves σ (.wakeSubmit call) (σ.setSubmission call { sub with phase := .trying })
  | abandons {call : ℕ} {sub : Submission} (hsub : σ.submissions.lookup call = some sub)
      (hphase : sub.phase = .trying ∨ ∃ wake, sub.phase = .waiting wake) :
      Moves σ (.abandon call) ((σ.dropSubmission call).log (.refused call .contextDone))
  | skipCalls {call : ℕ} {sub : Submission} (hsub : σ.submissions.lookup call = some sub)
      (hphase : sub.phase = .skipping) :
      Moves σ (.skipCallback call) ((σ.setSubmission call { sub with phase := .skipCalled }).log (.called call))
  | skipReturns {call : ℕ} {sub : Submission} (hsub : σ.submissions.lookup call = some sub)
      (hphase : sub.phase = .skipCalled) :
      Moves σ (.skipReturn call) ((σ.dropSubmission call).log (.skipAccepted call))
  /-- the dispatcher waits, wakes up or stops -/
  | dispatcher {action : SchedulerAction} (phase : DispatcherPhase)
      (haction : action = .dispatch ∨ action = .wakeDispatcher ∨ action = .stopDispatcher)
      (hdone : phase = .done → σ.sched.closed = true ∨ σ.sched.ctxDone = true) :
      Moves σ action { σ with dispatcher := phase }
  | dispatched {task : ProbeTask} {execID : ℕ} {sched : ProbeScheduler} (hopen : σ.sched.closed = false)
      (h : σ.sched.dispatchLocked = some (task, execID, sched)) :
      Moves σ .dispatch (({ σ with sched := sched }.setWorker execID ⟨task, .started⟩).log (.dispatched task))
  | registers {execID : ℕ} {now : Time} {task : ProbeTask} (hworker : σ.workers.lookup execID = some ⟨task, .started⟩)
      (hopen : σ.sched.Admits task) :
      Moves σ (.startTask execID now)
        ({ σ with sched := { σ.sched with
            cancelSequence := σ.sched.cancelSequence + 1
            runCancels := (task.runID, σ.sched.cancelSequence) :: σ.sched.runCancels } }.setWorker execID
          ⟨task, .registered σ.sched.cancelSequence⟩)
  | stops {execID : ℕ} {now : Time} {task : ProbeTask} (hworker : σ.workers.lookup execID = some ⟨task, .started⟩)
      (hclosed : σ.sched.closed = true ∨ task.runID ∈ σ.sched.cancelledRuns) :
      Moves σ (.startTask execID now)
        ({ σ with
          sched := σ.sched.finishTaskExecutionLocked now task execID none
          toCall := σ.toCall ++ [task] }.dropWorker execID)
  | executes {execID seq : ℕ} {task : ProbeTask} (hworker : σ.workers.lookup execID = some ⟨task, .registered seq⟩) :
      Moves σ (.execute execID) ((σ.setWorker execID ⟨task, .executing seq⟩).log (.executed task (σ.live seq)))
  | finishes {execID seq : ℕ} {now : Time} {task : ProbeTask}
      (hworker : σ.workers.lookup execID = some ⟨task, .executing seq⟩) :
      Moves σ (.finishTask execID now) (σ.finishStep execID now task seq)
  | calls {i : ℕ} {task : ProbeTask} (htask : σ.toCall[i]? = some task) :
      Moves σ (.callback i)
        ({ σ with toCall := σ.toCall.eraseIdx i, calling := σ.calling ++ [task] }.log (.called task.call))
  | callReturns {i : ℕ} {task : ProbeTask} (htask : σ.calling[i]? = some task) :
      Moves σ (.finishCallback i)
        ({ σ with calling := σ.calling.eraseIdx i, sched := σ.sched.finishCallback }.log (.finished task.call))
  | cancels {runID : String} {now : Time} :
      Moves σ (.cancelRun runID now)
        { σ with sched := (σ.sched.cancelRun now runID).1, toCall := σ.toCall ++ (σ.sched.cancelRun now runID).2 }
  | closes {now : Time} :
      Moves σ (.close now)
        { σ with sched := (σ.sched.close now).1, toCall := σ.toCall ++ (σ.sched.close now).2 }
  | contextEnds : Moves σ .cancelContext { σ with sched := { σ.sched with ctxDone := true } }
  | taskEnds {execID seq : ℕ} :
      Moves σ (.cancelTask execID) { σ with sched := { σ.sched with cancelled := σ.sched.cancelled ++ [seq] } }
  | drains (hclosed : σ.sched.closed = true) (hcallbacks : σ.sched.callbacks = 0) :
      Moves σ .drainCheck { σ with drainPassed := true }
  | drainReturns (hpassed : σ.drainPassed = true) : Moves σ .drainReturn (σ.log .drained)
  | reorders {queues : FiniteMap String (List ProbeTask)} {nodes : FiniteMap String ActiveRecord}
      (hqueues : queues.entries.Perm σ.sched.queues.entries) (hnodes : nodes.entries.Perm σ.sched.activeNodes.entries) :
      Moves σ (.reorder queues nodes) { σ with sched := { σ.sched with queues := queues, activeNodes := nodes } }

variable {σ σ' : SchedulerSystem}

theorem moves_attempt {call : ℕ} {now : Time} {sub : Submission} (hs : σ.submissions.lookup call = some sub)
    (hph : sub.phase = .trying) : Moves σ (.attempt call now) (σ.attemptStep call now sub) := by
  have h := submitted_submitLocked σ.sched now sub.task
  rw [attemptStep]
  generalize σ.sched.submitLocked now sub.task = r at h ⊢
  obtain ⟨attempt, sched, old⟩ := r
  cases attempt with
  | enqueued => exact .enqueued hs hph h
  | skipped => exact .skipped hs hph h
  | full =>
    split_ifs
    · exact .waits hs hph h
    · exact .refused hs hph h (by simp)
  | failed err => exact .refused hs hph h (by simp)

theorem moves_dispatch : Moves σ .dispatch σ.dispatchStep := by
  rw [dispatchStep]
  split_ifs with hcl
  · exact .dispatcher .done (.inl rfl) fun _ => .inl hcl
  · cases hd : σ.sched.dispatchLocked with
    | none => exact .dispatcher _ (.inl rfl) (by simp)
    | some p => exact .dispatched (Bool.eq_false_iff.mpr hcl) hd

theorem moves_start {eid : ℕ} {now : Time} {task : ProbeTask}
    (hwk : σ.workers.lookup eid = some ⟨task, .started⟩) :
    Moves σ (.startTask eid now) (σ.startStep eid now task) := by
  rw [startStep, startTask]
  by_cases hcl : σ.sched.closed = true ∨ task.runID ∈ σ.sched.cancelledRuns
  · rw [if_pos hcl]
    exact .stops hwk hcl
  · rw [if_neg hcl]
    rw [not_or] at hcl
    exact .registers hwk ⟨Bool.eq_false_iff.mpr hcl.1, hcl.2⟩

/-- The cases are all that can happen in a step. -/
theorem moves_of_step {a : SchedulerAction} (h : σ.step a = some σ') : Moves σ a σ' := by
  cases a with
  | submit runID logicalID kind mode wait =>
    cases h
    exact .submit
  | attempt call now =>
    rw [step] at h
    split at h
    · rename_i sub hsub
      split_ifs at h with hph
      cases h
      exact moves_attempt hsub hph
    · contradiction
  | wakeSubmit call =>
    rw [step] at h
    split at h
    · rename_i sub hsub
      split at h
      · rename_i wake hph
        split_ifs at h
        cases h
        exact .wakes hsub hph
      · contradiction
    · contradiction
  | abandon call =>
    rw [step] at h
    split at h
    · rename_i sub hsub
      split at h
      · rename_i hph
        cases h
        exact .abandons hsub (.inl hph)
      · rename_i wake hph
        cases h
        exact .abandons hsub (.inr ⟨wake, hph⟩)
      · contradiction
    · contradiction
  | skipCallback call =>
    rw [step] at h
    split at h
    · rename_i sub hsub
      split_ifs at h with hph
      cases h
      exact .skipCalls hsub hph
    · contradiction
  | skipReturn call =>
    rw [step] at h
    split at h
    · rename_i sub hsub
      split_ifs at h with hph
      cases h
      exact .skipReturns hsub hph
    · contradiction
  | dispatch =>
    rw [step] at h
    split_ifs at h
    cases h
    exact moves_dispatch
  | wakeDispatcher =>
    rw [step] at h
    split at h
    · split_ifs at h
      cases h
      exact .dispatcher _ (.inr (.inl rfl)) (by simp)
    · contradiction
  | stopDispatcher =>
    rw [step] at h
    split at h
    · split_ifs at h with hd
      cases h
      exact .dispatcher _ (.inr (.inr rfl)) fun _ => .inr hd
    · contradiction
  | startTask eid now =>
    rw [step] at h
    split at h
    · rename_i task hworker
      cases h
      exact moves_start hworker
    · contradiction
  | execute eid =>
    rw [step] at h
    split at h
    · rename_i task seq hworker
      cases h
      exact .executes hworker
    · contradiction
  | finishTask eid now =>
    rw [step] at h
    split at h
    · rename_i task seq hworker
      cases h
      exact .finishes hworker
    · contradiction
  | callback i =>
    rw [step] at h
    split at h
    · rename_i task htask
      cases h
      exact .calls htask
    · contradiction
  | finishCallback i =>
    rw [step] at h
    split at h
    · rename_i task htask
      cases h
      exact .callReturns htask
    · contradiction
  | cancelRun runID now =>
    cases h
    exact .cancels
  | close now =>
    cases h
    exact .closes
  | cancelContext =>
    cases h
    exact .contextEnds
  | cancelTask eid =>
    rw [step] at h
    split at h
    · cases h
      exact .taskEnds
    · cases h
      exact .taskEnds
    · contradiction
  | drainCheck =>
    rw [step] at h
    split_ifs at h with hdr
    cases h
    exact .drains hdr.1 hdr.2.1
  | drainReturn =>
    rw [step] at h
    split_ifs at h with hdr
    cases h
    exact .drainReturns hdr.1
  | reorder queues nodes =>
    rw [step] at h
    split_ifs at h with hp
    cases h
    exact .reorders hp.1 hp.2

theorem exec_append (σ : SchedulerSystem) (pre after : List SchedulerAction) :
    σ.exec (pre ++ after) = (σ.exec pre).bind (·.exec after) :=
  List.foldlM_append

theorem exec_singleton (σ : SchedulerSystem) (action : SchedulerAction) : σ.exec [action] = σ.step action :=
  bind_pure (σ.step action)

theorem exec_induction {P : SchedulerSystem → Prop} (hs : ∀ σ a σ', P σ → Moves σ a σ' → P σ')
    {acts : List SchedulerAction} (h : P σ) (he : σ.exec acts = some σ') : P σ' := by
  induction acts generalizing σ with
  | nil =>
    cases he
    exact h
  | cons a acts ih =>
    obtain ⟨σ₁, hf, hr⟩ := Option.bind_eq_some_iff.mp he
    exact ih (hs σ a σ₁ h (moves_of_step hf)) hr

end SchedulerSystem

end ClashSubParser
