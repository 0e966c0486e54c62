import ClashSubParser.ProbeScheduler

/-! The scheduler with its goroutines and callers. A step is one section that holds the mutex, or what lies
between two. -/
namespace ClashSubParser

open AssocTotals

inductive SubmitPhase
  | trying
  /-- blocked on the channel that was current -/
  | waiting (wake : ℕ)
  /-- found in the pool, before `OnComplete` is called -/
  | skipping
  | skipCalled
deriving DecidableEq

structure Submission where
  task : ProbeTask
  wait : Bool
  phase : SubmitPhase

inductive WorkerPhase
  | started
  /-- the cancel function is registered, `Execute` not yet called -/
  | registered (seq : ℕ)
  | executing (seq : ℕ)
deriving DecidableEq

structure ProbeWorker where
  task : ProbeTask
  phase : WorkerPhase

inductive DispatcherPhase
  | ready
  | waiting (wake : ℕ)
  | done
deriving DecidableEq

inductive SchedulerEvent
  | enqueued (task : ProbeTask)
  | refused (call : ℕ) (err : SubmitError)
  /-- `submit` returned nil for a task that was in the pool -/
  | skipAccepted (call : ℕ)
  | dispatched (task : ProbeTask)
  /-- `Execute` was called, with a live context or a cancelled one -/
  | executed (task : ProbeTask) (live : Bool)
  | called (call : ℕ)
  | finished (call : ℕ)
  | drained
deriving DecidableEq

structure SchedulerSystem where
  sched : ProbeScheduler
  dispatcher : DispatcherPhase := .ready
  submissions : FiniteMap ℕ Submission := ∅
  workers : FiniteMap ℕ ProbeWorker := ∅
  /-- the tasks for which `completeCallback` was entered -/
  toCall : List ProbeTask := []
  /-- the tasks whose `OnComplete` was called from `completeCallback` -/
  calling : List ProbeTask := []
  /-- some `Drain` found nothing outstanding and waits for the dispatcher -/
  drainPassed : Bool := false
  nextCall : ℕ := 0
  history : List SchedulerEvent := []

inductive SchedulerAction
  | submit (runID logicalID kind : String) (mode : EnqueueMode) (wait : Bool)
  | attempt (call : ℕ) (now : Time)
  | wakeSubmit (call : ℕ)
  /-- the context of the caller, or that of the scheduler, is done -/
  | abandon (call : ℕ)
  | skipCallback (call : ℕ)
  | skipReturn (call : ℕ)
  | dispatch
  | wakeDispatcher
  | stopDispatcher
  | startTask (execID : ℕ) (now : Time)
  | execute (execID : ℕ)
  | finishTask (execID : ℕ) (now : Time)
  | callback (i : ℕ)
  | finishCallback (i : ℕ)
  | cancelRun (runID : String) (now : Time)
  | close (now : Time)
  /-- the context the scheduler was made with is done -/
  | cancelContext
  /-- the context of a task is done -/
  | cancelTask (execID : ℕ)
  | drainCheck
  | drainReturn
  /-- a Go map has no order: its entries may be found in another one -/
  | reorder (queues : FiniteMap String (List ProbeTask)) (nodes : FiniteMap String ActiveRecord)

namespace SchedulerSystem

variable (σ : SchedulerSystem)

def log (e : SchedulerEvent) : SchedulerSystem := { σ with history := σ.history ++ [e] }

def setSubmission (call : ℕ) (sub : Submission) : SchedulerSystem :=
  { σ with submissions := σ.submissions.insert call sub }

def dropSubmission (call : ℕ) : SchedulerSystem :=
  { σ with submissions := σ.submissions.erase call }

variable (execID : ℕ)

def setWorker (worker : ProbeWorker) : SchedulerSystem :=
  { σ with workers := σ.workers.insert execID worker }

def dropWorker : SchedulerSystem :=
  { σ with workers := σ.workers.erase execID }

def live (seq : ℕ) : Bool := !σ.sched.ctxDone && seq ∉ σ.sched.cancelled

def attemptStep (call : ℕ) (now : Time) (sub : Submission) : SchedulerSystem :=
  let (attempt, sched, promotedOld) := σ.sched.submitLocked now sub.task
  let σ := { σ with sched := sched, toCall := σ.toCall ++ promotedOld }
  match attempt with
  | .enqueued => (σ.dropSubmission call).log (.enqueued sub.task)
  | .skipped => σ.setSubmission call { sub with phase := .skipping }
  | .full =>
    if sub.wait then σ.setSubmission call { sub with phase := .waiting sched.changed }
    else (σ.dropSubmission call).log (.refused call .capacityExceeded)
  | .failed err => (σ.dropSubmission call).log (.refused call err)

def dispatchStep : SchedulerSystem :=
  if σ.sched.closed then { σ with dispatcher := .done }
  else
    match σ.sched.dispatchLocked with
    | none => { σ with dispatcher := .waiting σ.sched.changed }
    | some (task, execID, sched) =>
      (({ σ with sched := sched } : SchedulerSystem).setWorker execID ⟨task, .started⟩).log (.dispatched task)

def startStep (now : Time) (task : ProbeTask) : SchedulerSystem :=
  match σ.sched.startTask now task execID with
  | (sched, some seq) => ({ σ with sched := sched } : SchedulerSystem).setWorker execID ⟨task, .registered seq⟩
  | (sched, none) =>
    ({ σ with sched := sched, toCall := σ.toCall ++ [task] } : SchedulerSystem).dropWorker execID

def finishStep (now : Time) (task : ProbeTask) (seq : ℕ) : SchedulerSystem :=
  let sched := { σ.sched with cancelled := σ.sched.cancelled ++ [seq] }
  ({ σ with
    sched := sched.finishTaskExecutionLocked now task execID (some seq)
    toCall := σ.toCall ++ [task] } : SchedulerSystem).dropWorker execID

def step : SchedulerAction → Option SchedulerSystem
  | .submit runID logicalID kind mode wait =>
    let task := ⟨runID, logicalID, kind, mode, σ.nextCall⟩
    some ({ σ with nextCall := σ.nextCall + 1 }.setSubmission σ.nextCall ⟨task, wait, .trying⟩)
  | .attempt call now =>
    match σ.submissions.lookup call with
    | some sub => if sub.phase = .trying then some (σ.attemptStep call now sub) else none
    | none => none
  | .wakeSubmit call =>
    match σ.submissions.lookup call with
    | some sub =>
      match sub.phase with
      | .waiting wake =>
        if wake ≠ σ.sched.changed then some (σ.setSubmission call { sub with phase := .trying }) else none
      | _ => none
    | none => none
  | .abandon call =>
    match σ.submissions.lookup call with
    | some sub =>
      match sub.phase with
      | .trying => some ((σ.dropSubmission call).log (.refused call .contextDone))
      | .waiting _ => some ((σ.dropSubmission call).log (.refused call .contextDone))
      | _ => none
    | none => none
  | .skipCallback call =>
    match σ.submissions.lookup call with
    | some sub =>
      if sub.phase = .skipping then some ((σ.setSubmission call { sub with phase := .skipCalled }).log (.called call))
      else none
    | none => none
  | .skipReturn call =>
    match σ.submissions.lookup call with
    | some sub =>
      if sub.phase = .skipCalled then some ((σ.dropSubmission call).log (.skipAccepted call)) else none
    | none => none
  | .dispatch => if σ.dispatcher = .ready then some σ.dispatchStep else none
  | .wakeDispatcher =>
    match σ.dispatcher with
    | .waiting wake => if wake ≠ σ.sched.changed then some { σ with dispatcher := .ready } else none
    | _ => none
  | .stopDispatcher =>
    match σ.dispatcher with
    | .waiting _ => if σ.sched.ctxDone then some { σ with dispatcher := .done } else none
    | _ => none
  | .startTask execID now =>
    match σ.workers.lookup execID with
    | some ⟨task, .started⟩ => some (σ.startStep execID now task)
    | _ => none
  | .execute execID =>
    match σ.workers.lookup execID with
    | some ⟨task, .registered seq⟩ =>
      some ((σ.setWorker execID ⟨task, .executing seq⟩).log (.executed task (σ.live seq)))
    | _ => none
  | .finishTask execID now =>
    match σ.workers.lookup execID with
    | some ⟨task, .executing seq⟩ => some (σ.finishStep execID now task seq)
    | _ => none
  | .callback i =>
    match σ.toCall[i]? with
    | some task =>
      some ({ σ with toCall := σ.toCall.eraseIdx i, calling := σ.calling ++ [task] }.log (.called task.call))
    | none => none
  | .finishCallback i =>
    match σ.calling[i]? with
    | some task =>
      some ({ σ with calling := σ.calling.eraseIdx i, sched := σ.sched.finishCallback }.log (.finished task.call))
    | none => none
  | .cancelRun runID now =>
    let (sched, q) := σ.sched.cancelRun now runID
    some { σ with sched := sched, toCall := σ.toCall ++ q }
  | .close now =>
    let (sched, pending) := σ.sched.close now
    some { σ with sched := sched, toCall := σ.toCall ++ pending }
  | .cancelContext => some { σ with sched := { σ.sched with ctxDone := true } }
  | .cancelTask execID =>
    match σ.workers.lookup execID with
    | some ⟨_, .registered seq⟩ => some { σ with sched := { σ.sched with cancelled := σ.sched.cancelled ++ [seq] } }
    | some ⟨_, .executing seq⟩ => some { σ with sched := { σ.sched with cancelled := σ.sched.cancelled ++ [seq] } }
    | _ => none
  | .drainCheck =>
    if σ.sched.closed ∧ σ.sched.callbacks = 0 ∧ σ.sched.activeCount = 0 ∧ σ.sched.queued = 0 then
      some { σ with drainPassed := true }
    else none
  | .drainReturn => if σ.drainPassed ∧ σ.dispatcher = .done then some (σ.log .drained) else none
  | .reorder queues nodes =>
    if queues.entries.Perm σ.sched.queues.entries ∧ nodes.entries.Perm σ.sched.activeNodes.entries then
      some { σ with sched := { σ.sched with queues := queues, activeNodes := nodes } }
    else none

def exec (actions : List SchedulerAction) : Option SchedulerSystem :=
  actions.foldlM step σ

end SchedulerSystem

/-- The states that interleavings of the actions reach from a new scheduler. -/
def SchedulerSystem.Reachable (cfg : SchedulerConfig) (σ : SchedulerSystem) : Prop :=
  ∃ s, newScheduler cfg = .ok s ∧ ∃ actions, SchedulerSystem.exec { sched := s } actions = some σ

end ClashSubParser
