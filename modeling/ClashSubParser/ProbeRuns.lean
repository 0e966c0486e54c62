import ClashSubParser.KeyedTable
import Mathlib.Logic.Function.Basic

/-! Probe runs: the stored states, and the calls of the probe service. Every statement and section is a step
of its own. -/
namespace ClashSubParser

open Function KeyedTable

/-! ### The lifecycle of a run -/

inductive ProbeRunState
  | queued | running | succeeded | failed | cancelled | expired
deriving DecidableEq

def ProbeRunState.isTerminal (s : ProbeRunState) : Bool :=
  s = .succeeded || s = .failed || s = .cancelled || s = .expired

structure ProbeRun where
  id : String
  idempotencyKey : String := ""
  actorScope : String := ""
  state : ProbeRunState
  deadlineAt : Int
deriving DecidableEq

/-- `ProbeRun.CanTransitionTo` by the run's state, and the test of `TransitionTo`. -/
def ProbeRunState.canTransitionTo (s target : ProbeRunState) : Bool :=
  if s.isTerminal then false
  else
    match s with
    | .queued => target = .running || target = .cancelled || target = .expired
    | .running => target = .succeeded || target = .failed || target = .cancelled || target = .expired
    | _ => false

theorem ProbeRunState.canTransitionTo_running {s : ProbeRunState} :
    s.canTransitionTo .running = true → s = .queued := by
  cases s <;> decide

theorem ProbeRunState.canTransitionTo_ending {s target : ProbeRunState} (hs : s.isTerminal = false)
    (h : target = .cancelled ∨ target = .expired) : s.canTransitionTo target = true := by
  revert h hs
  cases s <;> cases target <;> decide

/-- A run that is over stays in its state. -/
theorem ProbeRunState.not_canTransitionTo {s : ProbeRunState} (h : s.isTerminal = true) (target : ProbeRunState) :
    ¬ s.canTransitionTo target = true := by
  revert h
  cases s <;> cases target <;> decide

/-! ### The table -/

abbrev ProbeRunTable := Table ProbeRun.id

variable (rows : ProbeRunTable)

def ProbeRunTable.state? (id : String) : Option ProbeRunState := (rows.get? id).map ProbeRun.state

/-- `UpdateState`: the state is written whatever it was, none if there is no such row. -/
def updateState (id : String) (state : ProbeRunState) : Option ProbeRunTable :=
  (rows.get? id).map fun r => rows.put { r with state := state }

def listActive : List ProbeRun :=
  rows.rows.filter fun r => r.state = .queued || r.state = .running

theorem updateState_eq_some {rows rows' : ProbeRunTable} {id : String} {state : ProbeRunState}
    (h : updateState rows id state = some rows') : rows'.state? = update rows.state? id (some state) := by
  rw [updateState, Option.map_eq_some_iff] at h
  obtain ⟨r, hr, hro⟩ := h
  rw [← hro]
  exact rows.map_get?_put ProbeRun.state (Table.get?_eq_some.mp hr).2

theorem not_isTerminal_of_mem_listActive {rows : ProbeRunTable} {r : ProbeRun} (h : r ∈ listActive rows) :
    r.state.isTerminal = false := by
  have hs := (List.mem_filter.mp h).2
  generalize r.state = s at hs
  revert hs
  cases s <;> decide

/-! ### The service -/

inductive ContextError
  | canceled | deadlineExceeded
deriving DecidableEq

/-- The error of a workload, as `errors.Is` tells it apart. -/
structure WorkError where
  isCanceled : Bool := false
  isDeadlineExceeded : Bool := false

structure RunController where
  deadlineAt : Int
  /-- the error of its context -/
  err : Option ContextError

/-- An `Execute` from its workload on, with the error of `execCtx`. -/
structure RunExecution where
  id : String
  ctrl : ℕ
  ctxErr : Option ContextError

def RunExecution.finalState (exec : RunExecution) : Option WorkError → ProbeRunState
  | none => .succeeded
  | some err =>
    if err.isCanceled || exec.ctxErr = some .canceled then .cancelled
    else if err.isDeadlineExceeded || exec.ctxErr = some .deadlineExceeded then .expired
    else .failed

/-- What a goroutine is about to do. `known` is the state of the row as its call last read or wrote it. -/
inductive RunCall
  | idle
  /-- `Execute` writes `running` -/
  | marking (run : ProbeRun)
  /-- `Execute` takes its controller -/
  | starting (run : ProbeRun)
  /-- the workload of `Execute` returns -/
  | working (exec : RunExecution)
  /-- `Execute` reads its row again -/
  | rechecking (exec : RunExecution) (execErr : Option WorkError)
  /-- `Execute` looks at the errors -/
  | deciding (exec : RunExecution) (execErr : Option WorkError) (known : ProbeRunState)
  /-- `Execute` writes its final state -/
  | settling (exec : RunExecution) (known state : ProbeRunState)
  /-- `Execute` deletes its controller and returns -/
  | leaving (id : String)
  /-- `Cancel` writes `cancelled` -/
  | cancelling (run : ProbeRun)
  /-- `Cancel` cancels the controller -/
  | broadcasting (run : ProbeRun)
  /-- `ExpireStaleRuns` goes through the runs it has listed -/
  | expiring (now : Int) (pending : List ProbeRun)
  /-- `ExpireStaleRuns` cancels the controller of the run it has expired -/
  | releasing (id : String) (now : Int) (pending : List ProbeRun)

/-- A context of the call that derives from the controller gets the controller's error, unless it has one. -/
def RunCall.propagate (ctrl : ℕ) (err : ContextError) : RunCall → RunCall
  | .working exec => .working (inherit exec)
  | .rechecking exec execErr => .rechecking (inherit exec) execErr
  | .deciding exec execErr known => .deciding (inherit exec) execErr known
  | .settling exec known state => .settling (inherit exec) known state
  | call => call
where
  inherit (exec : RunExecution) : RunExecution :=
    if exec.ctrl = ctrl then { exec with ctxErr := exec.ctxErr.or (some err) } else exec

/-- The service with the goroutines `G` in it. -/
structure RunService (G : Type) where
  rows : ProbeRunTable
  controllers : List RunController
  /-- the map `active` -/
  active : String → Option ℕ
  calls : G → RunCall

/-- What happens next: a goroutine calls the service, its workload returns, or it does what its call is about
to do, with a flag that tells whether the statement succeeds. A context ends by its caller or its deadline. -/
inductive RunAction (G : Type)
  | execute (g : G) (id : String)
  | cancel (g : G) (id : String)
  | expireStaleRuns (g : G) (now : Int)
  | workReturns (g : G) (execErr : Option WorkError)
  | proceed (g : G) (ok : Bool)
  | callerDone (g : G)
  | deadlinePasses (ctrl : ℕ)

namespace RunService

variable {G : Type} [DecidableEq G]

def start (G : Type) (rows : ProbeRunTable) (controllers : List RunController) (active : String → Option ℕ) :
    RunService G := ⟨rows, controllers, active, fun _ => .idle⟩

variable (st : RunService G)

def setCall (g : G) (call : RunCall) : RunService G :=
  { st with calls := update st.calls g call }

def cancelController (ctrl : ℕ) (err : ContextError) : RunService G :=
  { st with
    controllers := st.controllers.modify ctrl fun c => { c with err := c.err.or (some err) }
    calls := fun g => (st.calls g).propagate ctrl err }

/-- Write a state and go on with `next`, or with `failed` if the statement fails. -/
def writeState (g : G) (ok : Bool) (id : String) (state : ProbeRunState) (next failed : RunCall) :
    RunService G :=
  match ok, updateState st.rows id state with
  | true, some rows => setCall { st with rows := rows } g next
  | _, _ => st.setCall g failed

def takeController (g : G) (run : ProbeRun) : RunService G :=
  match st.active run.id with
  | some ctrl => st.setCall g (.working ⟨run.id, ctrl, (st.controllers[ctrl]?).bind RunController.err⟩)
  | none =>
    let st' : RunService G :=
      { st with
        controllers := st.controllers ++ [⟨run.deadlineAt, none⟩]
        active := update st.active run.id (some st.controllers.length) }
    st'.setCall g (.working ⟨run.id, st.controllers.length, none⟩)

def dropController (id : String) (delete : Bool) : RunService G :=
  match st.active id with
  | none => st
  | some ctrl =>
    let st' := st.cancelController ctrl .canceled
    if delete then { st' with active := update st'.active id none } else st'

def proceed (g : G) (ok : Bool) : RunService G :=
  match st.calls g with
  | .idle | .working _ => st
  | .marking run => st.writeState g ok run.id .running (.starting run) .idle
  | .starting run => st.takeController g run
  | .rechecking exec execErr =>
    -- a read that fails leaves the call with the state it has written itself
    match ok, st.rows.get? exec.id with
    | true, some current =>
      if current.state = .cancelled then st.setCall g (.leaving exec.id)
      else st.setCall g (.deciding exec execErr current.state)
    | _, _ => st.setCall g (.deciding exec execErr .running)
  | .deciding exec execErr known => st.setCall g (.settling exec known (exec.finalState execErr))
  | .settling exec _ state => st.writeState g ok exec.id state (.leaving exec.id) (.leaving exec.id)
  | .leaving id => setCall { st with active := update st.active id none } g .idle
  | .cancelling run => st.writeState g ok run.id .cancelled (.broadcasting run) .idle
  | .broadcasting run => (st.dropController run.id (run.state = .queued)).setCall g .idle
  | .expiring _ [] => st.setCall g .idle
  | .expiring now (run :: pending) =>
    if now > run.deadlineAt then
      st.writeState g ok run.id .expired (.releasing run.id now pending) (.expiring now pending)
    else st.setCall g (.expiring now pending)
  | .releasing id now pending => (st.dropController id true).setCall g (.expiring now pending)

def step : RunAction G → RunService G
  | .execute g id =>
    match st.calls g, st.rows.get? id with
    | .idle, some run => if run.state.canTransitionTo .running then st.setCall g (.marking run) else st
    | _, _ => st
  | .cancel g id =>
    match st.calls g, st.rows.get? id with
    | .idle, some run => if run.state.isTerminal then st else st.setCall g (.cancelling run)
    | _, _ => st
  | .expireStaleRuns g now =>
    match st.calls g with
    | .idle => st.setCall g (.expiring now (listActive st.rows))
    | _ => st
  | .workReturns g execErr =>
    match st.calls g with
    | .working exec => st.setCall g (.rechecking exec execErr)
    | _ => st
  | .proceed g ok => st.proceed g ok
  | .callerDone g =>
    match st.calls g with
    | .working exec => st.setCall g (.working { exec with ctxErr := exec.ctxErr.or (some .canceled) })
    | .rechecking exec execErr =>
      st.setCall g (.rechecking { exec with ctxErr := exec.ctxErr.or (some .canceled) } execErr)
    | .deciding exec execErr known =>
      st.setCall g (.deciding { exec with ctxErr := exec.ctxErr.or (some .canceled) } execErr known)
    | _ => st
  | .deadlinePasses ctrl => st.cancelController ctrl .deadlineExceeded

end RunService

end ClashSubParser
