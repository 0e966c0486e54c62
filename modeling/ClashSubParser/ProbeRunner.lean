import ClashSubParser.NodeListing
import ClashSubParser.ProbeRuns
import ClashSubParser.SchedulerRuns
import Mathlib.Data.List.ProdSigma

/-! The default runner: one call of `Run` with the functions of its tasks, over a scheduler that it shares
with other callers. -/
namespace ClashSubParser

open AssocTotals

/-! ### Settings -/

structure RunBudget where
  maxTasks : Int := 10000
  maxResponseBytes : Int := 16777216
  maxTotalBytes : Int := 134217728
  taskTimeout : Int := 30000000000

def RunBudget.isValid (b : RunBudget) : Bool :=
  0 < b.maxTasks && 0 < b.maxResponseBytes && 0 < b.maxTotalBytes && 0 < b.taskTimeout

inductive ProbeStage
  | alive | media | speed
deriving DecidableEq

def ProbeKind.stage : ProbeKind → ProbeStage
  | .baseline => .alive
  | .speed => .speed
  | _ => .media

structure StageConcurrency where
  alive : Int := 50
  media : Int := 20
  speed : Int := 8

def StageConcurrency.get (c : StageConcurrency) : ProbeStage → Int
  | .alive => c.alive
  | .media => c.media
  | .speed => c.speed

structure BodyBudget where
  limit : Int
  used : Int := 0

structure DefaultRunner where
  budget : RunBudget := {}
  stageConcurrency : StageConcurrency := {}
  scope : NodeScope := .enabledSubscriptions
  /-- the allocation that several runs share, if there is one -/
  bodyBudget : Option BodyBudget := none

namespace DefaultRunner

variable (r : DefaultRunner)

def stageLimit (stage : ProbeStage) : Int :=
  let limit := r.stageConcurrency.get stage
  if limit ≤ 0 then ({} : StageConcurrency).get stage else limit

def targetScope : NodeScope := if r.scope = .default then .enabledSubscriptions else r.scope

def targetQuery (nodeIDs : List String) : NodeQuery :=
  ⟨r.targetScope, true, nodeIDs, true, 1, nodeIDs.length⟩

def pageQuery (page : ℕ) : NodeQuery := ⟨r.targetScope, true, [], true, page, 100⟩

end DefaultRunner

structure RunRequest where
  run : ProbeRun
  nodeIDs : List String
  kinds : List ProbeKind

def validKinds (kinds : List ProbeKind) : List ProbeKind :=
  let valid := kinds.filter (·.isValid)
  if valid = [] then [.baseline] else valid

def targetsOf (nodeIDs : List String) (chunk : List Node) : List Node :=
  nodeIDs.filterMap fun id => chunk.find? fun n => n.logicalID = id

def addUnseen (found chunk : List Node) : List Node :=
  chunk.foldl (fun found n => if found.any (fun m => m.logicalID = n.logicalID) then found else found ++ [n]) found

/-! ### Tasks -/

inductive DialError
  | credentialsUnavailable | probeDialingNotConfigured | clientBuildFailed | other
deriving DecidableEq

/-- `isFatalDialError`. -/
def DialError.isFatal (e : DialError) : Bool := e ≠ .other

structure ProbeOutcome where
  verdict : ProbeVerdict
  reason : String
  /-- a response was asked for and the budget did not forbid it -/
  executed : Bool
  /-- there is a `failureReason` -/
  failed : Bool
  /-- a response broke off for lack of budget -/
  overBudget : Bool
  dialErr : Option DialError
deriving DecidableEq

inductive TaskError
  | createFailed
  | dial (err : DialError)
deriving DecidableEq

/-- Where the `Execute` of a task is. -/
inductive TaskPhase
  /-- not called -/
  | submitted
  /-- waits for the semaphore of its stage -/
  | acquiring
  | probing
  /-- the observation is not stored yet -/
  | probed (outcome : ProbeOutcome)
  /-- the observation is stored, and the meter does not know of it -/
  | stored (outcome : ProbeOutcome)
  | returned
deriving DecidableEq

structure RunnerTask where
  node : Node
  kind : ProbeKind
  phase : TaskPhase

/-- Whether a task is between taking a slot of the semaphore and giving it back. -/
def RunnerTask.holdsSlot (t : RunnerTask) (stage : ProbeStage) : Bool :=
  t.kind.stage = stage &&
    match t.phase with
    | .probing => true
    | .probed _ => true
    | .stored _ => true
    | _ => false

structure RunObservation where
  probeRunID : String
  nodeLogicalID : String
  kind : ProbeKind
  verdict : ProbeVerdict
  executed : Bool
  reason : String
  connectionRevision : Option Int
deriving DecidableEq

def seenKey (logicalID : String) (kind : ProbeKind) : String := logicalID ++ "/" ++ kind.text

/-! ### The call of `Run` -/

inductive RunError
  | invalidBudget
  | updateFailed
  | listFailed
  | noTargets
  | taskBudget (count : ℕ) (max : Int)
  /-- joined with the error of the last statement where that fails -/
  | context (err : ContextError) (updateFailed : Bool)
  | submit (err : SubmitError)
  | task (err : Option TaskError)
deriving DecidableEq

/-- What `recordNotExecuted` reads before its loop. -/
structure MeterSnapshot where
  baseline : FiniteMap String ProbeVerdict
  budgetUsed : Bool

inductive RunnerPhase
  | entered
  | marking
  | selecting (page : ℕ) (found : List Node)
  /-- `current` is the call of `SubmitWithContext` that has not returned -/
  | submitting (stage : ProbeStage) (rest : List (Node × ProbeKind)) (current : Option ℕ)
  /-- at the `select` of a stage -/
  | waiting (stage : ProbeStage)
  /-- in `handleCancelOrDeadline` after `CancelRun` -/
  | draining (stage : ProbeStage)
  /-- in the deferred `recordNotExecuted` -/
  | recording (result : Option RunError) (meter : MeterSnapshot) (rest : List (Node × ProbeKind))
  | returned (result : Option RunError)

structure RunnerState where
  run : ProbeRun
  phase : RunnerPhase := .entered
  targets : List Node := []
  kinds : List ProbeKind := []
  /-- `runCtx.Err()` -/
  ctxErr : Option ContextError := none
  /-- the tasks of all stages by their calls of `SubmitWithContext` -/
  tasks : FiniteMap ℕ RunnerTask := ∅
  /-- what the wait group of the stage counts -/
  stageCalls : List ℕ := []
  submitErr : Option SubmitError := none
  taskFatalErr : Option TaskError := none
  hasSystemicDialErr : Bool := false
  fatalDialNodes : List String := []
  available : List String := []
  /-- of the meter -/
  seen : List String := []
  baseline : FiniteMap String ProbeVerdict := ∅
  bodyBudget : BodyBudget
  /-- the observations this run has stored -/
  observations : List RunObservation := []

def ProbeRun.transitionTo (run : ProbeRun) (state : ProbeRunState) : ProbeRun :=
  if run.state.canTransitionTo state then { run with state := state } else run

namespace RunnerState

variable (r : RunnerState)

def plan : List (Node × ProbeKind) := r.targets ×ˢ r.kinds

def stageKinds (stage : ProbeStage) : List ProbeKind := r.kinds.filter fun k => k.stage = stage

def eligibleNodes : List Node :=
  if r.stageKinds .alive = [] then r.targets else r.targets.filter fun n => n.logicalID ∈ r.available

def stagePairs : ProbeStage → List (Node × ProbeKind)
  | .alive => r.targets.map fun n => (n, .baseline)
  | stage => r.eligibleNodes ×ˢ r.stageKinds stage

/-- `Run` writes the state of the run and returns: the deferred `recordNotExecuted` begins. -/
def finish (state : ProbeRunState) (result : Option RunError) : RunnerState :=
  { r with
    run := r.run.transitionTo state
    phase := .recording result ⟨r.baseline, r.bodyBudget.limit ≤ r.bodyBudget.used⟩
      (r.plan.filter fun p => seenKey p.1.logicalID p.2 ∉ r.seen) }

def startStage (stage : ProbeStage) : RunnerState :=
  { r with phase := .submitting stage (r.stagePairs stage) none, stageCalls := [], submitErr := none }

def afterMedia : RunnerState :=
  if r.stageKinds .speed = [] then r.finish .succeeded none else r.startStage .speed

def afterAlive : RunnerState :=
  if r.eligibleNodes = [] ∨ (r.stageKinds .media = [] ∧ r.stageKinds .speed = []) then r.finish .succeeded none
  else if r.stageKinds .media = [] then r.afterMedia
  else r.startStage .media

def beginStages : RunnerState := if r.stageKinds .alive = [] then r.afterAlive else r.startStage .alive

def afterStage : ProbeStage → RunnerState
  | .alive => r.afterAlive
  | .media => r.afterMedia
  | .speed => r.finish .succeeded none

/-- Return before `recordNotExecuted` is deferred. -/
def reject (err : RunError) : RunnerState :=
  { r with run := r.run.transitionTo .failed, phase := .returned (some err) }

def expand (cfg : DefaultRunner) (kinds : List ProbeKind) (targets : List Node) : RunnerState :=
  if targets = [] then r.reject .noTargets
  else
    let count := targets.length * (validKinds kinds).length
    if (count : Int) > cfg.budget.maxTasks then r.reject (.taskBudget count cfg.budget.maxTasks)
    else { r with targets := targets, kinds := validKinds kinds }.beginStages

/-- `checkFatalDial`. -/
def fatalDial : Bool :=
  r.hasSystemicDialErr || (r.targets.length > 0 && r.fatalDialNodes.length = r.targets.length)

def recordTaskErr (logicalID : String) : Option TaskError → RunnerState
  | none => r
  | some err =>
    { r with
      taskFatalErr := r.taskFatalErr.or (some err)
      hasSystemicDialErr := r.hasSystemicDialErr || err = .dial .probeDialingNotConfigured
      fatalDialNodes :=
        match err with
        | .dial dialErr =>
          if dialErr.isFatal && !r.fatalDialNodes.contains logicalID then r.fatalDialNodes ++ [logicalID]
          else r.fatalDialNodes
        | .createFailed => r.fatalDialNodes }

/-- What `Execute` does after `executeTaskWithVerdict` has returned. -/
def conclude (call : ℕ) (t : RunnerTask) (verdict : ProbeVerdict) (err : Option TaskError) : RunnerState :=
  let r := r.recordTaskErr t.node.logicalID err
  { r with
    tasks := r.tasks.insert call { t with phase := .returned }
    available :=
      if t.kind.stage = .alive ∧ verdict = .available then r.available ++ [t.node.logicalID] else r.available }

def mark (t : RunnerTask) (o : ProbeOutcome) : RunnerState :=
  { r with
    seen := r.seen ++ [seenKey t.node.logicalID t.kind]
    baseline :=
      if t.kind = .baseline ∧ (o.executed ∨ (o.failed ∧ ¬ o.overBudget)) then
        r.baseline.insert t.node.logicalID o.verdict
      else r.baseline }

def setPhase (call : ℕ) (t : RunnerTask) (phase : TaskPhase) : RunnerState :=
  { r with tasks := r.tasks.insert call { t with phase := phase } }

def endContext (err : ContextError) : RunnerState := { r with ctxErr := r.ctxErr.or (some err) }

def revisionOf (n : Node) : Option Int := if n.connectionRevision > 0 then some n.connectionRevision else none

def observe (t : RunnerTask) (o : ProbeOutcome) : RunObservation where
  probeRunID := r.run.id
  nodeLogicalID := t.node.logicalID
  kind := t.kind
  verdict := o.verdict
  executed := o.executed
  reason := o.reason
  connectionRevision := revisionOf t.node

def notExecutedReason (meter : MeterSnapshot) (n : Node) (kind : ProbeKind) : String :=
  if kind ≠ .baseline ∧ (meter.baseline.lookup n.logicalID).any (· ≠ .available) then "dependency_skipped"
  else if meter.budgetUsed then "budget_not_executed"
  else
    match r.ctxErr with
    | some .deadlineExceeded => "deadline_exceeded"
    | some .canceled => "cancelled"
    | none => "not_scheduled"

def observeMissing (meter : MeterSnapshot) (n : Node) (kind : ProbeKind) : RunObservation where
  probeRunID := r.run.id
  nodeLogicalID := n.logicalID
  kind := kind
  verdict := .unknown
  executed := false
  reason := r.notExecutedReason meter n kind
  connectionRevision := revisionOf n

def enqueueMode : EnqueueMode :=
  if r.run.actorScope = "system:periodic-probe" then .periodicDedupe else .manualPreemptFront

end RunnerState

/-! ### The steps -/

namespace SchedulerSystem

def submitResult (σ : SchedulerSystem) (call : ℕ) : Option (Option SubmitError) :=
  σ.history.findSome? fun
    | .enqueued task => if task.call = call then some none else none
    | .skipAccepted call' => if call' = call then some none else none
    | .refused call' err => if call' = call then some (some err) else none
    | _ => none

/-- The wait group was told that this task is over: by its callback, or because `submit` failed. -/
def isOver (σ : SchedulerSystem) (call : ℕ) : Bool :=
  σ.history.any fun
    | .called call' => call' = call
    | .refused call' _ => call' = call
    | _ => false

end SchedulerSystem

structure RunnerSystem where
  sched : SchedulerSystem
  runner : RunnerState

inductive RunnerAction
  /-- any step of the scheduler, its goroutines and its callers -/
  | scheduler (action : SchedulerAction)
  | enter
  | markRunning (ok : Bool)
  /-- the tables are those the statement finds -/
  | list (db : NodeTables) (ok : Bool)
  | submit
  | submitReturns
  | submitDone
  | cancelStage (now : Time)
  | stageDone
  | drained (ok : Bool)
  | record (ok : Bool)
  | leave
  | contextEnds (err : ContextError)
  /-- bodies were read, by this run or by another one that shares the budget -/
  | spend (bytes : ℕ)
  /-- a response of the task found no budget left -/
  | exhaust (call : ℕ)
  | acquire (call : ℕ)
  | giveUp (execID : ℕ)
  | probe (call : ℕ) (outcome : ProbeOutcome)
  | store (call : ℕ) (ok : Bool)
  | conclude (call : ℕ)

namespace RunnerSystem

variable (cfg : DefaultRunner) (req : RunRequest)

def start (sched : SchedulerSystem) : RunnerSystem where
  sched := sched
  runner := { run := req.run, bodyBudget := cfg.bodyBudget.getD ⟨cfg.budget.maxTotalBytes, 0⟩ }

variable (s : RunnerSystem)

def taskOf (execID : ℕ) : Option (ℕ × RunnerTask) :=
  (s.sched.workers.lookup execID).bind fun worker =>
    (s.runner.tasks.lookup worker.task.call).map fun t => (worker.task.call, t)

/-- Whether the scheduler can take this step: `Execute` has to return first, and the submissions of this call
are given up only for its own context or that of the scheduler. -/
def permits : SchedulerAction → Bool
  | .finishTask execID _ => (s.taskOf execID).all fun p => p.2.phase = .returned
  | .abandon call => (s.runner.tasks.lookup call).isNone || s.runner.ctxErr.isSome || s.sched.sched.ctxDone
  | _ => true

def called : SchedulerAction → RunnerState
  | .execute execID =>
    match s.taskOf execID with
    | some (call, t) => s.runner.setPhase call t .acquiring
    | none => s.runner
  | _ => s.runner

def stageOver : Bool := s.runner.stageCalls.all s.sched.isOver

def slotsTaken (stage : ProbeStage) : ℕ := s.runner.tasks.entries.countP fun e => e.2.holdsSlot stage

/-- One section of `Run` itself. -/
def runStep : RunnerAction → Option RunnerSystem
  | .enter =>
    match s.runner.phase with
    | .entered =>
      if s.runner.run.state.isTerminal then some { s with runner := { s.runner with phase := .returned none } }
      else if !cfg.budget.isValid then
        some { s with runner := { s.runner with phase := .returned (some .invalidBudget) } }
      else if s.runner.run.state = .queued then
        some { s with runner := { s.runner with run := s.runner.run.transitionTo .running, phase := .marking } }
      else some { s with runner := { s.runner with phase := .selecting 1 [] } }
    | _ => none
  | .markRunning ok =>
    match s.runner.phase with
    | .marking =>
      if ok then some { s with runner := { s.runner with phase := .selecting 1 [] } }
      else some { s with runner := { s.runner with phase := .returned (some .updateFailed) } }
    | _ => none
  | .list db ok =>
    match s.runner.phase with
    | .selecting page found =>
      if !ok then some { s with runner := s.runner.reject .listFailed }
      else if req.nodeIDs ≠ [] then
        let (chunk, _) := db.list (cfg.targetQuery req.nodeIDs)
        some { s with runner := s.runner.expand cfg req.kinds (targetsOf req.nodeIDs chunk) }
      else
        let (chunk, total) := db.list (cfg.pageQuery page)
        let targets := addUnseen found chunk
        if targets.length ≥ total ∨ chunk = [] ∨ targets.length = found.length then
          some { s with runner := s.runner.expand cfg req.kinds targets }
        else some { s with runner := { s.runner with phase := .selecting (page + 1) targets } }
    | _ => none
  | .submit =>
    match s.runner.phase with
    | .submitting stage ((n, k) :: rest) none =>
      let call := s.sched.nextCall
      (s.sched.step (.submit s.runner.run.id n.logicalID k.text s.runner.enqueueMode true)).map fun sched =>
        ⟨sched, { s.runner with
          tasks := s.runner.tasks.insert call ⟨n, k, .submitted⟩
          stageCalls := s.runner.stageCalls ++ [call]
          phase := .submitting stage rest (some call) }⟩
    | _ => none
  | .submitReturns =>
    match s.runner.phase with
    | .submitting stage rest (some call) =>
      match s.sched.submitResult call with
      | some none => some { s with runner := { s.runner with phase := .submitting stage rest none } }
      | some (some err) => some { s with runner := { s.runner with phase := .waiting stage, submitErr := some err } }
      | none => none
    | _ => none
  | .submitDone =>
    match s.runner.phase with
    | .submitting stage [] none => some { s with runner := { s.runner with phase := .waiting stage } }
    | _ => none
  | .cancelStage now =>
    match s.runner.phase with
    | .waiting stage =>
      if s.runner.ctxErr.isSome then
        (s.sched.step (.cancelRun s.runner.run.id now)).map fun sched =>
          ⟨sched, { s.runner with phase := .draining stage }⟩
      else none
    | _ => none
  | .stageDone =>
    match s.runner.phase with
    | .waiting stage =>
      if s.stageOver ∧ s.runner.ctxErr = none then
        match s.runner.submitErr with
        | some err => some { s with runner := s.runner.finish .failed (some (.submit err)) }
        | none =>
          if s.runner.fatalDial then
            some { s with runner := s.runner.finish .failed (some (.task s.runner.taskFatalErr)) }
          else some { s with runner := s.runner.afterStage stage }
      else none
    | _ => none
  | .drained ok =>
    match s.runner.phase with
    | .draining _ =>
      if s.stageOver then
        s.runner.ctxErr.map fun err =>
          let state := if err = .deadlineExceeded then .expired else .cancelled
          { s with runner := s.runner.finish state (some (.context err (!ok))) }
      else none
    | _ => none
  | .record ok =>
    match s.runner.phase with
    | .recording result meter ((n, k) :: rest) =>
      let observations :=
        if ok then s.runner.observations ++ [s.runner.observeMissing meter n k] else s.runner.observations
      some { s with runner := { s.runner with
        phase := .recording result meter rest, observations := observations } }
    | _ => none
  | .leave =>
    match s.runner.phase with
    | .recording result _ [] => some { s with runner := { s.runner with phase := .returned result } }
    | _ => none
  | _ => none

def taskStep : RunnerAction → Option RunnerState
  | .contextEnds err => some (s.runner.endContext err)
  | .spend bytes =>
    if s.runner.bodyBudget.used + bytes ≤ s.runner.bodyBudget.limit then
      some { s.runner with
        bodyBudget := { s.runner.bodyBudget with used := s.runner.bodyBudget.used + bytes } }
    else none
  | .exhaust call =>
    match s.runner.tasks.lookup call with
    | some ⟨_, _, .probing⟩ =>
      if s.runner.bodyBudget.limit ≤ s.runner.bodyBudget.used then some (s.runner.endContext .canceled) else none
    | _ => none
  | .acquire call =>
    match s.runner.tasks.lookup call with
    | some ⟨n, k, .acquiring⟩ =>
      if (s.slotsTaken k.stage : Int) < cfg.stageLimit k.stage then
        some (s.runner.setPhase call ⟨n, k, .acquiring⟩ .probing)
      else none
    | _ => none
  | .giveUp execID =>
    match s.sched.workers.lookup execID with
    | some ⟨task, .executing seq⟩ =>
      match s.runner.tasks.lookup task.call with
      | some ⟨n, k, .acquiring⟩ =>
        if s.sched.live seq then none else some (s.runner.setPhase task.call ⟨n, k, .acquiring⟩ .returned)
      | _ => none
    | _ => none
  | .probe call outcome =>
    match s.runner.tasks.lookup call with
    | some ⟨n, k, .probing⟩ => some (s.runner.setPhase call ⟨n, k, .probing⟩ (.probed outcome))
    | _ => none
  | .store call ok =>
    match s.runner.tasks.lookup call with
    | some ⟨n, k, .probed o⟩ =>
      if ok then
        some ({ s.runner with observations := s.runner.observations ++ [s.runner.observe ⟨n, k, .probed o⟩ o] }.setPhase
          call ⟨n, k, .probed o⟩ (.stored o))
      else some (s.runner.conclude call ⟨n, k, .probed o⟩ o.verdict (some .createFailed))
    | _ => none
  | .conclude call =>
    match s.runner.tasks.lookup call with
    | some ⟨n, k, .stored o⟩ =>
      let err := (o.dialErr.filter (·.isFatal)).map TaskError.dial
      some ((s.runner.mark ⟨n, k, .stored o⟩ o).conclude call ⟨n, k, .stored o⟩ o.verdict err)
    | _ => none
  | _ => none

def step (action : RunnerAction) : Option RunnerSystem :=
  match action with
  | .scheduler a =>
    if s.permits a then (s.sched.step a).map fun sched => ⟨sched, s.called a⟩ else none
  | action =>
    match s.taskStep cfg action with
    | some runner => some { s with runner := runner }
    | none => s.runStep cfg req action

def exec (actions : List RunnerAction) : Option RunnerSystem :=
  actions.foldlM (fun s action => s.step cfg req action) s

end RunnerSystem

end ClashSubParser
