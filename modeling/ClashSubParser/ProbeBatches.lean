import ClashSubParser.ProbeRuns
import ClashSubParser.SweepPlan

/-! Probe batches: the statements on their rows, and the calls that make them. Every statement, look at a
channel and section under a mutex is a step of its own. -/
namespace ClashSubParser

open Function KeyedTable StableSort

/-! ### Rows -/

inductive ProbeBatchState
  | pending | running | succeeded | failed | cancelled | expired
deriving DecidableEq

def ProbeBatchState.isTerminal (s : ProbeBatchState) : Bool :=
  s = .succeeded || s = .failed || s = .cancelled || s = .expired

structure ProbeBatchCounts where
  totalNodes : ℕ := 0
  dispatchedRuns : ℕ := 0
  completedRuns : ℕ := 0
  skippedNodes : ℕ := 0
deriving DecidableEq

structure ProbeBatch where
  id : String
  windowAt : Time
  generation : Int
  owner : String := ""
  leaseUntil : Option Time := none
  state : ProbeBatchState := .pending
  runIDs : List String := []
  counts : ProbeBatchCounts := {}
  redactedError : String := ""
  createdAt : Time
  updatedAt : Time
deriving DecidableEq

/-- `ProbeBatch.CanTransitionTo` by the batch's state, and the test of `TransitionTo`. -/
def ProbeBatchState.canTransitionTo (s target : ProbeBatchState) : Bool :=
  if s.isTerminal then false
  else
    match s with
    | .pending => target = .running || target = .cancelled || target = .expired
    | .running => target = .succeeded || target = .failed || target = .cancelled || target = .expired
    | _ => false

/-- `TransitionTo` where the caller ignores its error. -/
def ProbeBatch.moveTo (b : ProbeBatch) (target : ProbeBatchState) : ProbeBatch :=
  if b.state.canTransitionTo target then { b with state := target } else b

abbrev ProbeBatchTable := Table ProbeBatch.id

variable (rows : ProbeBatchTable)

def ProbeBatchTable.state? (id : String) : Option ProbeBatchState :=
  (rows.get? id).map ProbeBatch.state

/-! ### Statements -/

def Time.truncate (t : Time) : Time := t / 1000000000 * 1000000000

def createBatch (batch : ProbeBatch) : Option ProbeBatchTable :=
  if h : batch.id ∉ rows.keys ∧ Strings.trimSpace batch.id ≠ "" ∧
      ∀ b ∈ rows.rows, (b.generation, b.windowAt) ≠ (batch.generation, batch.windowAt) then
    some (rows.insert batch h.1)
  else none

/-- `UpdateBatch`: all columns but those of the lease, whoever holds it and whatever the state was. -/
def updateBatch (batch : ProbeBatch) (now : Time) : Option ProbeBatchTable :=
  (rows.get? batch.id).map fun b => rows.put
    { b with
      state := batch.state
      runIDs := batch.runIDs
      counts := batch.counts
      redactedError := batch.redactedError
      updatedAt := now.truncate }

section

variable (rows : ProbeBatchTable) (batchID owner : String)

/-- `AcquireLease`: none if the lease is not acquired. -/
def acquireLease (leaseDuration : Int) (now : Time) : Option ProbeBatchTable :=
  if Strings.trimSpace batchID = "" ∨ Strings.trimSpace owner = "" then none
  else
    match rows.get? batchID with
    | none => none
    | some b =>
      if !b.state.isTerminal && (b.owner = "" || b.owner = owner || b.leaseUntil.all (· < now.truncate)) then
        some (rows.put
          { b with owner := owner, leaseUntil := some (now + leaseDuration).truncate, updatedAt := now.truncate })
      else none

/-- `HeartbeatLease`: none if the lease is lost. -/
def heartbeatLease (leaseDuration : Int) (now : Time) : Option ProbeBatchTable :=
  match rows.get? batchID with
  | none => none
  | some b =>
    if b.owner = owner ∧ b.state.isTerminal = false then
      some (rows.put { b with leaseUntil := some (now + leaseDuration).truncate, updatedAt := now.truncate })
    else none

def releaseLease (now : Time) : ProbeBatchTable :=
  match rows.get? batchID with
  | none => rows
  | some b =>
    if b.owner = owner then rows.put { b with owner := "", leaseUntil := none, updatedAt := now.truncate } else rows

end

/-- `ListBatches`: a page of the rows, the latest window first. -/
def listBatches (page pageSize : ℕ) : List ProbeBatch :=
  let sorted := stableSort (thenLess (fun b : ProbeBatch => -b.windowAt) (keyLess fun b => -b.createdAt)) rows.rows
  (sorted.drop ((page - 1) * pageSize)).take pageSize

def getByIdempotencyKey (runs : ProbeRunTable) (actorScope key : String) : Option ProbeRun :=
  runs.rows.find? fun r => r.actorScope = actorScope && r.idempotencyKey = key

/-- `Create` of a run: its ID and its key are unique. -/
def createRun (runs : ProbeRunTable) (run : ProbeRun) : Option ProbeRunTable :=
  if h : run.id ∉ runs.keys ∧ getByIdempotencyKey runs run.actorScope run.idempotencyKey = none then
    some (runs.insert run h.1)
  else none

/-! ### Calls -/

/-- What an `executeBatch` does after a look at `leaseLost`. -/
inductive CheckedPhase
  /-- the run of the next chunk that another call has created meanwhile -/
  | refinding (chunks : List RunChunk) (runs : List ProbeRun)
  /-- `UpdateBatch` with the run IDs -/
  | recording (chunks : List RunChunk) (runs : List ProbeRun)
  /-- `UpdateBatch` after a run -/
  | reporting (todo : List (ProbeRun × RunChunk)) (hasRunError : Bool)
  /-- `UpdateBatch` to a last state, under the background context -/
  | closing (target : ProbeBatchState)
  /-- `ReleaseLease` -/
  | releasing

/-- What an `executeBatch` is about to do. -/
inductive BatchPhase
  /-- `AcquireLease` -/
  | acquiring
  /-- the entry in `activeBatches`, and the start of the heartbeat -/
  | registering
  /-- `UpdateBatch` to `running` -/
  | marking
  /-- the next page of active nodes -/
  | listing (fetched : List Node)
  /-- `ListLatestByNodes`, and the plan -/
  | observing (nodes candidates : List Node)
  /-- the run of the next chunk, by its idempotency key -/
  | finding (chunks : List RunChunk) (runs : List ProbeRun)
  /-- a new run for the next chunk -/
  | inserting (chunks : List RunChunk) (runs : List ProbeRun)
  /-- the look at the channels before the next run -/
  | dispatching (todo : List (ProbeRun × RunChunk)) (hasRunError : Bool)
  /-- the runner returns from the first of the runs -/
  | awaiting (run : ProbeRun) (chunk : RunChunk) (todo : List (ProbeRun × RunChunk)) (hasRunError : Bool)
  /-- a look at `leaseLost`: the call returns if it is closed -/
  | checking (next : CheckedPhase)
  | checked (next : CheckedPhase)
  /-- the deferred functions -/
  | leaving

/-- An `executeBatch`: its copy of the batch, its contexts and channels. -/
structure BatchExecution (C : Type) where
  coordinator : C
  sched : ProbeSchedule
  batch : ProbeBatch
  /-- the state of the row as this call has last read or written it -/
  known : ProbeBatchState
  /-- the clock at the planning -/
  now : Time := 0
  leaseLost : Bool := false
  /-- whether `batchCtx` is done -/
  done : Bool := false

inductive BatchCall (C : Type)
  | idle
  | executing (x : BatchExecution C) (phase : BatchPhase)
  /-- `CancelBatch` writes `cancelled` -/
  | cancelling (coordinator : Option C) (batch : ProbeBatch)
  /-- `CancelBatch` cancels the execution on its own coordinator -/
  | interrupting (coordinator : Option C) (batchID : String)
  /-- `Recover` lists a page -/
  | paging (now : Time) (page : ℕ)
  /-- `Recover` goes through a page -/
  | recovering (now : Time) (page total : ℕ) (pending : List ProbeBatch)

/-- What the surroundings answer to a step: each step uses the fields that concern it. -/
structure BatchReply where
  /-- whether the statement succeeds -/
  ok : Bool := true
  /-- the clock of the process -/
  now : Time
  page : List Node := []
  total : ℕ := 0
  inPool : String → Bool := fun _ => false
  /-- no map without an observation repository -/
  latest : Option LatestObservations := none
  uuid : String := ""
  /-- the error of the runner, or the text of a failed statement -/
  err : Option String := none

inductive BatchAction (C G : Type)
  /-- a batch is created and executed -/
  | create (g : G) (coordinator : C) (sched : ProbeSchedule) (batchID : String) (windowAt now : Time)
  /-- a batch is read and executed -/
  | execute (g : G) (coordinator : C) (sched : ProbeSchedule) (batchID : String)
  | cancelBatch (g : G) (coordinator : Option C) (batchID : String)
  | recover (g : G) (now : Time)
  /-- a goroutine does what its call is about to do -/
  | proceed (g : G) (reply : BatchReply)
  /-- the heartbeat goroutine of an execution ticks -/
  | heartbeat (g : G) (reply : BatchReply)
  /-- the context of an execution ends from outside -/
  | ctxDone (g : G)
  /-- the table of runs is written by other calls -/
  | writeRuns (runs : ProbeRunTable)

/-- The store, the maps `activeBatches` of the coordinators `C`, and the goroutines `G`. -/
structure BatchSystem (C G : Type) where
  batches : ProbeBatchTable
  runs : ProbeRunTable
  active : C → String → Option G
  calls : G → BatchCall C

def BatchExecution.runKey {C : Type} (rt : Runtime) (x : BatchExecution C) (chunkIdx : ℕ) : String :=
  "periodic:" ++ toString x.sched.generation ++ ":" ++ rt.formatRFC3339Nano x.batch.windowAt ++ ":" ++ toString chunkIdx

namespace BatchSystem

variable {C G : Type} [DecidableEq C] [DecidableEq G]

def start (C G : Type) (batches : ProbeBatchTable) (runs : ProbeRunTable) : BatchSystem C G :=
  ⟨batches, runs, fun _ _ => none, fun _ => .idle⟩

variable (st : BatchSystem C G)

def setCall (g : G) (call : BatchCall C) : BatchSystem C G :=
  { st with calls := update st.calls g call }

def writeBatch (g : G) (ok : Bool) (now : Time) (batch : ProbeBatch) (next failed : BatchCall C) :
    BatchSystem C G :=
  match ok, updateBatch st.batches batch now with
  | true, some batches => setCall { st with batches := batches } g next
  | _, _ => st.setCall g failed

def writeCopy (g : G) (ok : Bool) (now : Time) (x : BatchExecution C) (next failed : BatchPhase) :
    BatchSystem C G :=
  st.writeBatch g ok now x.batch (.executing { x with known := x.batch.state } next) (.executing x failed)

def interrupt (coordinator : Option C) (batchID : String) : BatchSystem C G :=
  match coordinator.bind (fun c => st.active c batchID) with
  | none => st
  | some g =>
    match st.calls g with
    | .executing x phase => st.setCall g (.executing { x with done := true } phase)
    | _ => st

section

variable (rt : Runtime) (cfg : C → Coordinator)

/-- The steps of `executeBatch`. A statement under `batchCtx` fails once that is done. -/
def advance (st : BatchSystem C G) (g : G) (x : BatchExecution C) (reply : BatchReply) : BatchPhase → BatchSystem C G
  | .acquiring =>
    let c := cfg x.coordinator
    match reply.ok, acquireLease st.batches x.batch.id c.ownerID c.leaseDuration reply.now with
    | true, some batches =>
      setCall { st with batches := batches } g
        (.executing { x with batch := { x.batch with owner := c.ownerID } } .registering)
    | _, _ => st.setCall g .idle
  | .registering =>
    match st.active x.coordinator x.batch.id with
    | some _ => st.setCall g .idle
    | none =>
      setCall
        { st with
          active := update st.active x.coordinator
            (update (st.active x.coordinator) x.batch.id (some g)) } g (.executing x .marking)
  | .marking =>
    if x.batch.state.canTransitionTo .running then
      st.writeCopy g (reply.ok && !x.done) reply.now { x with batch := x.batch.moveTo .running } (.listing [])
        (.checked .releasing)
    else st.setCall g (.executing x (.listing []))
  | .listing fetched =>
    if reply.ok && !x.done then
      let fetched := fetched ++ reply.page
      if fetched.length ≥ reply.total ∨ reply.page = [] then
        let nodes := stableSort (keyLess Node.logicalID) fetched
        let candidates := nodes.filter fun n => !reply.inPool n.logicalID
        let counts := { x.batch.counts with totalNodes := nodes.length }
        if candidates = [] then
          let batch := { x.batch with counts := { counts with skippedNodes := nodes.length } }
          st.setCall g (.executing { x with batch := batch } (.checking (.closing .succeeded)))
        else
          st.setCall g (.executing { x with batch := { x.batch with counts := counts } } (.observing nodes candidates))
      else st.setCall g (.executing x (.listing fetched))
    else
      let batch := { x.batch with redactedError := "failed to list active nodes" }
      st.setCall g (.executing { x with batch := batch } (.checking (.closing .failed)))
  | .observing nodes candidates =>
    if reply.ok && (reply.latest.isNone || !x.done) then
      let plan := planSweep (cfg x.coordinator) x.sched reply.now reply.latest candidates
      let counts := { x.batch.counts with skippedNodes := nodes.length - plan.selected.length }
      if plan.selected = [] then
        st.setCall g (.executing { x with batch := { x.batch with counts := counts } } (.checking (.closing .succeeded)))
      else
        let batch := { x.batch with counts := { counts with dispatchedRuns := plan.chunks.length } }
        st.setCall g (.executing { x with batch := batch, now := reply.now } (.finding plan.chunks []))
    else
      let text := redactSensitiveInfo rt (reply.err.getD "")
      let batch := { x.batch with redactedError := "failed to query latest observations: " ++ text }
      st.setCall g (.executing { x with batch := batch } (.checking (.closing .failed)))
  | .finding chunks runs =>
    if runs.length < chunks.length then
      match reply.ok && !x.done, getByIdempotencyKey st.runs "system:periodic-probe" (x.runKey rt runs.length) with
      | true, some run => st.setCall g (.executing x (.finding chunks (runs ++ [run])))
      | _, _ => st.setCall g (.executing x (.inserting chunks runs))
    else
      let batch := { x.batch with runIDs := runs.map ProbeRun.id }
      st.setCall g (.executing { x with batch := batch } (.checking (.recording chunks runs)))
  | .inserting chunks runs =>
    let run : ProbeRun :=
      { id := reply.uuid
        idempotencyKey := x.runKey rt runs.length
        actorScope := "system:periodic-probe"
        state := .queued
        deadlineAt := x.now + (cfg x.coordinator).runTimeout }
    match reply.ok && !x.done, createRun st.runs run with
    | true, some rows => setCall { st with runs := rows } g (.executing x (.finding chunks (runs ++ [run])))
    | _, _ => st.setCall g (.executing x (.checking (.refinding chunks runs)))
  | .checked (.refinding chunks runs) =>
    match reply.ok && !x.done, getByIdempotencyKey st.runs "system:periodic-probe" (x.runKey rt runs.length) with
    | true, some run => st.setCall g (.executing x (.finding chunks (runs ++ [run])))
    | _, _ =>
      let batch := { x.batch with redactedError := "failed to create probe run chunk" }
      st.setCall g (.executing { x with batch := batch } (.checked (.closing .failed)))
  | .checked (.recording chunks runs) =>
    let counts := { x.batch.counts with completedRuns := runs.countP fun r => r.state.isTerminal }
    st.writeBatch g (reply.ok && !x.done) reply.now x.batch
      (.executing { x with batch := { x.batch with counts := counts }, known := x.batch.state }
        (.dispatching (runs.zip chunks) false))
      (.executing x (.checking .releasing))
  | .dispatching [] hasRunError =>
    st.setCall g (.executing x (.checking (.closing (if hasRunError then .failed else .succeeded))))
  | .dispatching ((run, chunk) :: todo) hasRunError =>
    -- with both channels ready either case of the `select` ends in the look at `leaseLost`
    if x.leaseLost then st.setCall g (.executing x .leaving)
    else if x.done then st.setCall g (.executing x (.checking (.closing .cancelled)))
    else if run.state.isTerminal then st.setCall g (.executing x (.dispatching todo hasRunError))
    else st.setCall g (.executing x (.awaiting run chunk todo hasRunError))
  | .awaiting _ _ todo hasRunError =>
    match reply.err with
    | some text =>
      let batch := { x.batch with redactedError := redactSensitiveInfo rt text }
      st.setCall g (.executing { x with batch := batch } (.checking (.reporting todo true)))
    | none =>
      let counts := { x.batch.counts with completedRuns := x.batch.counts.completedRuns + 1 }
      st.setCall g (.executing { x with batch := { x.batch with counts := counts } }
        (.checking (.reporting todo hasRunError)))
  | .checked (.reporting todo hasRunError) =>
    st.writeCopy g (reply.ok && !x.done) reply.now x (.dispatching todo hasRunError) (.dispatching todo hasRunError)
  | .checked (.closing target) =>
    st.writeCopy g reply.ok reply.now { x with batch := x.batch.moveTo target } (.checked .releasing)
      (.checked .releasing)
  | .checked .releasing =>
    let batches :=
      if reply.ok then releaseLease st.batches x.batch.id (cfg x.coordinator).ownerID reply.now else st.batches
    setCall { st with batches := batches } g (.executing x .leaving)
  | .leaving =>
    setCall
      { st with
        active := update st.active x.coordinator
          (update (st.active x.coordinator) x.batch.id none) } g .idle
  | .checking next => st.setCall g (.executing x (if x.leaseLost then .leaving else .checked next))

def proceed (st : BatchSystem C G) (g : G) (reply : BatchReply) : BatchSystem C G :=
  match st.calls g with
  | .idle => st
  | .executing x phase => st.advance rt cfg g x reply phase
  | .cancelling coordinator batch =>
    st.writeBatch g reply.ok reply.now (batch.moveTo .cancelled) (.interrupting coordinator batch.id) .idle
  | .interrupting coordinator batchID => (st.interrupt coordinator batchID).setCall g .idle
  | .paging now page =>
    let batches := listBatches st.batches page 50
    if reply.ok ∧ batches ≠ [] then st.setCall g (.recovering now page st.batches.rows.length batches)
    else st.setCall g .idle
  | .recovering now page total [] =>
    st.setCall g (if page * 50 ≥ total then .idle else .paging now (page + 1))
  | .recovering now page total (b :: pending) =>
    if !b.state.isTerminal && b.leaseUntil.all (· < now) then
      st.writeBatch g reply.ok reply.now
        { b with state := .expired, redactedError := "batch lease expired during startup recovery" }
        (.recovering now page total pending) (.recovering now page total pending)
    else st.setCall g (.recovering now page total pending)

/-- One tick of the heartbeat. It fails when the lease is lost and when `batchCtx` is done. -/
def beat (st : BatchSystem C G) (g : G) (reply : BatchReply) : BatchSystem C G :=
  match st.calls g with
  | .executing _ .acquiring | .executing _ .registering => st
  | .executing x phase =>
    let c := cfg x.coordinator
    match reply.ok && !x.done, heartbeatLease st.batches x.batch.id c.ownerID c.leaseDuration reply.now with
    | true, some batches => { st with batches := batches }
    | _, _ => st.setCall g (.executing { x with leaseLost := true, done := true } phase)
  | _ => st

def step (st : BatchSystem C G) : BatchAction C G → BatchSystem C G
  | .create g coordinator sched batchID windowAt now =>
    let batch : ProbeBatch :=
      { id := batchID
        windowAt := windowAt.truncate
        generation := sched.generation
        createdAt := now.truncate
        updatedAt := now.truncate }
    match st.calls g, createBatch st.batches batch with
    | .idle, some batches =>
      setCall { st with batches := batches } g
        (.executing { coordinator := coordinator, sched := sched, batch := batch, known := batch.state } .acquiring)
    | _, _ => st
  | .execute g coordinator sched batchID =>
    match st.calls g, st.batches.get? batchID with
    | .idle, some batch =>
      if batch.state.isTerminal then st
      else
        st.setCall g
          (.executing { coordinator := coordinator, sched := sched, batch := batch, known := batch.state } .acquiring)
    | _, _ => st
  | .cancelBatch g coordinator batchID =>
    match st.calls g, st.batches.get? batchID with
    | .idle, some batch => if batch.state.isTerminal then st else st.setCall g (.cancelling coordinator batch)
    | _, _ => st
  | .recover g now =>
    match st.calls g with
    | .idle => st.setCall g (.paging now 1)
    | _ => st
  | .proceed g reply => st.proceed rt cfg g reply
  | .heartbeat g reply => st.beat cfg g reply
  | .ctxDone g =>
    match st.calls g with
    | .executing x phase => st.setCall g (.executing { x with done := true } phase)
    | _ => st
  | .writeRuns runs => { st with runs := runs }

end

end BatchSystem

end ClashSubParser
