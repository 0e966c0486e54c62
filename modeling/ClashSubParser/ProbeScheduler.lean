import ClashSubParser.AssocTotals
import ClashSubParser.GoRuntime

/-! The probe scheduler: what each section of `scheduler.go` that holds the mutex does to the fields the
mutex guards. `nextExecID` and `cancelSequence` are natural numbers here and an `int64` there: each goes up by one when
a task is started, so it would wrap only after 2^63 tasks in one process. -/
namespace ClashSubParser

open AssocTotals

inductive EnqueueMode
  | strictConflict
  | periodicDedupe
  | manualPreemptFront
deriving DecidableEq

structure ProbeTask where
  runID : String
  logicalID : String
  kind : String
  mode : EnqueueMode
  /-- which call of `submit` brought the task; stands for its functions `Execute` and `OnComplete` -/
  call : ℕ
deriving DecidableEq

structure ActiveRecord where
  active : Bool := false
  count : Int := 0
  untilTime : Time := 0
  lastRunID : String := ""
deriving DecidableEq

structure SchedulerConfig where
  concurrency : Int := 0
  runConcurrency : Int := 0
  queueSize : Int := 0
  nodeTTL : Int := 0

inductive SubmitError
  | schedulerClosed
  | canceled
  | nodeConflict
  | capacityExceeded
  | contextDone
deriving DecidableEq

structure ProbeScheduler where
  cfg : SchedulerConfig
  explicitRunConcurrency : Bool
  closed : Bool := false
  queues : FiniteMap String (List ProbeTask) := ∅
  runOrder : List String := []
  runCursor : ℕ := 0
  queued : Int := 0
  activeByRun : FiniteMap String Int := ∅
  activeNodes : FiniteMap String ActiveRecord := ∅
  probingTasks : FiniteMap ℕ ProbeTask := ∅
  nextExecID : ℕ := 0
  /-- the run and the sequence number of every registered cancel function -/
  runCancels : List (String × ℕ) := []
  cancelledRuns : List String := []
  cancelSequence : ℕ := 0
  /-- how many channels were closed by `signalLocked` so far -/
  changed : ℕ := 0
  activeCount : Int := 0
  taskCount : Int := 0
  callbacks : Int := 0
  /-- whether the context of the scheduler is done -/
  ctxDone : Bool := false
  /-- the cancel functions that were called, by sequence number -/
  cancelled : List ℕ := []

def defaultConcurrency : Int := 50

def minConcurrency : Int := 1

def hardMaxConcurrency : Int := 256

def defaultQueueSize : Int := 1024

def defaultNodeTTL : Int := 30000000000

def newScheduler (cfg : SchedulerConfig) : Except String ProbeScheduler :=
  let concurrency := if cfg.concurrency = 0 then defaultConcurrency else cfg.concurrency
  if concurrency < minConcurrency ∨ concurrency > hardMaxConcurrency then
    .error "concurrency must be between 1 and 256"
  else if cfg.runConcurrency < 0 ∨ cfg.runConcurrency > concurrency then
    .error "run concurrency must be between zero and global concurrency"
  else .ok {
    cfg := {
      concurrency
      runConcurrency := if cfg.runConcurrency = 0 then (concurrency + 1) / 2 else cfg.runConcurrency
      queueSize := if cfg.queueSize ≤ 0 then defaultQueueSize else cfg.queueSize
      nodeTTL := if cfg.nodeTTL ≤ 0 then defaultNodeTTL else cfg.nodeTTL }
    explicitRunConcurrency := decide (cfg.runConcurrency > 0) }

def makeNodeKey (logicalID kind : String) : String := logicalID ++ "#" ++ kind

def ProbeTask.key (t : ProbeTask) : String := makeNodeKey t.logicalID t.kind

/-- The record with the smallest time among those that are not active. -/
def oldestInactive (nodes : FiniteMap String ActiveRecord) : Option (String × Time) :=
  nodes.entries.foldl (fun oldest e =>
    if e.2.active then oldest
    else
      match oldest with
      | none => some (e.1, e.2.untilTime)
      | some (key, time) => if e.2.untilTime < time then some (e.1, e.2.untilTime) else some (key, time)) none

/-- The second loop of `pruneActiveNodesLocked`; every round takes one record away. -/
def evictOldest (limit : Int) : ℕ → FiniteMap String ActiveRecord → FiniteMap String ActiveRecord
  | 0, nodes => nodes
  | fuel + 1, nodes =>
    if (nodes.entries.length : Int) > limit then
      match oldestInactive nodes with
      | none => nodes
      | some (key, _) => evictOldest limit fuel (nodes.erase key)
    else nodes

namespace ProbeScheduler

variable (s : ProbeScheduler)

def signalLocked : ProbeScheduler := { s with changed := s.changed + 1 }

def pruneActiveNodesLocked (now : Time) : ProbeScheduler :=
  let nodes := keep (fun record => record.active || decide (now < record.untilTime)) s.activeNodes
  { s with activeNodes := evictOldest (s.cfg.queueSize + s.cfg.concurrency) nodes.entries.length nodes }

/-- `s.queues[run]`. -/
def queue (run : String) : List ProbeTask := (s.queues.lookup run).getD []

/-- `s.activeNodes[key]`. -/
def record (key : String) : ActiveRecord := (s.activeNodes.lookup key).getD {}

def setQueue (run : String) (q : List ProbeTask) : ProbeScheduler :=
  { s with queues := if q = [] then s.queues.erase run else s.queues.insert run q }

def dropRun (run : String) : ProbeScheduler :=
  let order := s.runOrder.erase run
  if run ∈ s.runOrder then
    { s with runOrder := order, runCursor := if order.length > 0 then s.runCursor % order.length else 0 }
  else s

section

def activeCompetingRunsLocked (s : ProbeScheduler) : ℕ :=
  s.queues.entries.length + s.activeByRun.keys.countP fun run => run ∉ s.queues

/-- Take the first task of the run at index `i` of the order. The cursor becomes `kept` where the run has
more tasks, else `emptied` brought into the range of what is left. -/
def takeFront (s : ProbeScheduler) (i emptied kept : ℕ) : Option (ProbeTask × ProbeScheduler) :=
  let run := s.runOrder.getD i ""
  match s.queue run with
  | [] => none
  | task :: rest =>
    let order := if rest = [] then s.runOrder.eraseIdx i else s.runOrder
    let cursor := if rest = [] then (if order.length > 0 then emptied % order.length else 0) else kept
    some (task, ({ s.setQueue run rest with
      queued := s.queued - 1, runOrder := order, runCursor := cursor } : ProbeScheduler).signalLocked)

def manualFront (s : ProbeScheduler) (run : String) : Bool :=
  match s.queue run with
  | task :: _ => task.mode = .manualPreemptFront
  | [] => false

def belowLimit (s : ProbeScheduler) (competing : ℕ) (run : String) : Bool :=
  let limit := if !s.explicitRunConcurrency && competing ≤ 1 then s.cfg.concurrency else s.cfg.runConcurrency
  s.queue run ≠ [] ∧ (s.activeByRun.lookup run).getD 0 < limit

def nextEligibleLocked (s : ProbeScheduler) : Option (ProbeTask × ProbeScheduler) :=
  match s.runOrder.findIdx? s.manualFront with
  | some i => s.takeFront i s.runCursor s.runCursor
  | none =>
    let size := s.runOrder.length
    let competing := s.activeCompetingRunsLocked
    match (List.range size).find? (fun n => s.belowLimit competing (s.runOrder.getD ((s.runCursor + n) % size) "")) with
    | none => none
    | some n =>
      let i := (s.runCursor + n) % size
      s.takeFront i i ((i + 1) % size)

/-- The section of `dispatch`: the task that a new worker gets, and its number. -/
def dispatchLocked (s : ProbeScheduler) : Option (ProbeTask × ℕ × ProbeScheduler) :=
  if s.activeCount ≥ s.cfg.concurrency ∨ s.queued = 0 then none
  else
    match s.nextEligibleLocked with
    | none => none
    | some (task, s) =>
      let execID := s.nextExecID + 1
      some (task, execID, { s with
        activeByRun := s.activeByRun.insert task.runID ((s.activeByRun.lookup task.runID).getD 0 + 1)
        nextExecID := execID
        probingTasks := s.probingTasks.insert execID task
        activeCount := s.activeCount + 1 })

end

section

inductive Attempt
  | enqueued
  /-- the node is in the pool already -/
  | skipped
  /-- there is no room in the queue -/
  | full
  | failed (err : SubmitError)
deriving DecidableEq

variable (s : ProbeScheduler)

def appendTask (task : ProbeTask) : ProbeScheduler :=
  ({ s.setQueue task.runID (s.queue task.runID ++ [task]) with
    taskCount := s.taskCount + 1
    callbacks := s.callbacks + 1
    runOrder := if s.queue task.runID = [] then s.runOrder ++ [task.runID] else s.runOrder
    queued := s.queued + 1 } : ProbeScheduler).signalLocked

def enqueueTaskLocked (key : String) (task : ProbeTask) : ProbeScheduler :=
  ({ s with activeNodes := s.activeNodes.insert key { active := true, count := 1, lastRunID := task.runID } } :
    ProbeScheduler).appendTask task

def strictEnqueue (key : String) (task : ProbeTask) : Attempt × ProbeScheduler :=
  if s.queued < s.cfg.queueSize then (.enqueued, s.enqueueTaskLocked key task) else (.full, s)

variable (now : Time)

def submitStrictConflict (task : ProbeTask) : Attempt × ProbeScheduler :=
  if s.closed then (.failed .schedulerClosed, s)
  else if task.runID ∈ s.cancelledRuns then (.failed .canceled, s)
  else
    let s := s.pruneActiveNodesLocked now
    match s.activeNodes.lookup task.key with
    | some record =>
      if record.active ∨ now < record.untilTime then (.failed .nodeConflict, s)
      else ({ s with activeNodes := s.activeNodes.erase task.key } : ProbeScheduler).strictEnqueue task.key task
    | none => s.strictEnqueue task.key task

def inPoolFor (task t : ProbeTask) : Bool :=
  t.logicalID = task.logicalID ∧ (t.runID ≠ task.runID ∨ task.runID = "" ∨ t.kind = task.kind)

def isNodeInPoolForPeriodicLocked (task : ProbeTask) : Bool :=
  task.logicalID ≠ "" ∧ (s.probingTasks.entries.any (fun e => inPoolFor task e.2) ∨
    s.queues.entries.any fun e => e.2.any (inPoolFor task))

def occupy (key runID : String) : ProbeScheduler :=
  let record := { s.record key with
    count := (s.record key).count + 1, active := true, untilTime := 0, lastRunID := runID }
  { s with activeNodes := s.activeNodes.insert key record }

def submitPeriodicDedupe (task : ProbeTask) : Attempt × ProbeScheduler :=
  if s.closed then (.failed .schedulerClosed, s)
  else if task.runID ∈ s.cancelledRuns then (.failed .canceled, s)
  else if s.isNodeInPoolForPeriodicLocked task then (.skipped, s)
  else
    let s := s.pruneActiveNodesLocked now
    if s.queued < s.cfg.queueSize then (.enqueued, (s.occupy task.key task.runID).appendTask task)
    else (.full, s)

def manualLen (q : List ProbeTask) : ℕ := (q.takeWhile fun t => t.mode = .manualPreemptFront).length

def insertManual (task : ProbeTask) (q : List ProbeTask) : List ProbeTask :=
  q.take (manualLen q) ++ task :: q.drop (manualLen q)

/-- Whether a queued task of the same node makes room for the manual one. -/
def replaces (task t : ProbeTask) : Bool := t.kind = task.kind ∨ t.kind = "" ∨ task.kind = ""

/-- The loop over one queue in `submitManualPreemptFront`, at index `i`: the queue it leaves and the tasks it
takes out. Every round either shortens the queue or goes on by one. -/
def promoteLoop (task : ProbeTask) : ℕ → List ProbeTask → ℕ → List ProbeTask × List ProbeTask
  | 0, q, _ => (q, [])
  | fuel + 1, q, i =>
    match q[i]? with
    | none => (q, [])
    | some t =>
      if t.logicalID ≠ task.logicalID then promoteLoop task fuel q (i + 1)
      else if replaces task t then
        let (q, removed) := promoteLoop task fuel (q.eraseIdx i) i
        (q, t :: removed)
      else if t.mode ≠ .manualPreemptFront then
        promoteLoop task fuel (insertManual { t with mode := .manualPreemptFront } (q.eraseIdx i)) (i + 1)
      else promoteLoop task fuel q (i + 1)

def releaseQueued (t : ProbeTask) : ProbeScheduler :=
  let s := { s with queued := s.queued - 1, taskCount := s.taskCount - 1 }
  match s.activeNodes.lookup t.key with
  | none => s
  | some record =>
    if record.count - 1 ≤ 0 then { s with activeNodes := s.activeNodes.erase t.key }
    else { s with activeNodes := s.activeNodes.insert t.key { record with count := record.count - 1, active := true } }

/-- One round of the loop over the queues in `submitManualPreemptFront`, with the tasks taken out so far. -/
def promoteRun (task : ProbeTask) (acc : ProbeScheduler × List ProbeTask) (run : String) :
    ProbeScheduler × List ProbeTask :=
  let (s, promotedOld) := acc
  if run = task.runID ∧ task.runID ≠ "" then (s, promotedOld)
  else
    let (q, removed) := promoteLoop task (s.queue run).length (s.queue run) 0
    let s := (removed.foldl releaseQueued s).setQueue run q
    (if q = [] then s.dropRun run else s, promotedOld ++ removed)

def promoteQueued (task : ProbeTask) : ProbeScheduler × List ProbeTask :=
  s.queues.keys.foldl (promoteRun task) (s, [])

def frontRun (order : List String) (run : String) : List String := run :: order.erase run

def insertTask (task : ProbeTask) : ProbeScheduler :=
  ({ s.setQueue task.runID (insertManual task (s.queue task.runID)) with
    taskCount := s.taskCount + 1
    callbacks := s.callbacks + 1
    runOrder := frontRun s.runOrder task.runID
    runCursor := 0
    queued := s.queued + 1 } : ProbeScheduler).signalLocked

/-- Whether the run of the manual task has or had this node and kind. -/
def sameRunConflict (task : ProbeTask) : Bool :=
  let recorded : Bool :=
    match s.activeNodes.lookup task.key with
    | some record => decide (record.lastRunID = task.runID ∧ (record.active ∨ now < record.untilTime))
    | none => false
  let probing := s.probingTasks.entries.any fun e =>
    e.2.runID = task.runID ∧ e.2.logicalID = task.logicalID ∧ e.2.kind = task.kind
  let queued := (s.queue task.runID).any fun t => t.logicalID = task.logicalID ∧ t.kind = task.kind
  task.runID ≠ "" ∧ (recorded ∨ probing ∨ queued)

/-- The tasks taken out of the queues are completed in the background. -/
def submitManualPreemptFront (task : ProbeTask) :
    Attempt × ProbeScheduler × List ProbeTask :=
  if s.closed then (.failed .schedulerClosed, s, [])
  else if task.runID ∈ s.cancelledRuns then (.failed .canceled, s, [])
  else
    let s := s.pruneActiveNodesLocked now
    if s.sameRunConflict now task then (.failed .nodeConflict, s, [])
    else
      let (s, promotedOld) := s.promoteQueued task
      if s.queued < s.cfg.queueSize then
        (.enqueued, (s.occupy task.key task.runID).insertTask task, promotedOld)
      else (.full, s, promotedOld)

def submitLocked (task : ProbeTask) : Attempt × ProbeScheduler × List ProbeTask :=
  match task.mode with
  | .strictConflict =>
    let (attempt, s) := s.submitStrictConflict now task
    (attempt, s, [])
  | .periodicDedupe =>
    let (attempt, s) := s.submitPeriodicDedupe now task
    (attempt, s, [])
  | .manualPreemptFront => s.submitManualPreemptFront now task

end

section

def releaseRecord (s : ProbeScheduler) (record : ActiveRecord) (now : Time) : ActiveRecord :=
  if record.count - 1 ≤ 0 then { record with count := 0, active := false, untilTime := now + s.cfg.nodeTTL }
  else { record with count := record.count - 1, active := true }

def finishTaskExecutionLocked (s : ProbeScheduler) (now : Time) (task : ProbeTask) (execID : ℕ) (seq : Option ℕ) :
    ProbeScheduler :=
  let inFlight := (s.activeByRun.lookup task.runID).getD 0 - 1
  ({ s with
    runCancels :=
      match seq with
      | some seq => s.runCancels.filter fun c => ¬(c.1 = task.runID ∧ c.2 = seq)
      | none => s.runCancels
    probingTasks := s.probingTasks.erase execID
    activeCount := s.activeCount - 1
    activeByRun :=
      if inFlight = 0 then s.activeByRun.erase task.runID else s.activeByRun.insert task.runID inFlight
    activeNodes :=
      match s.activeNodes.lookup task.key with
      | some record => s.activeNodes.insert task.key (s.releaseRecord record now)
      | none => s.activeNodes
    taskCount := s.taskCount - 1 } : ProbeScheduler).signalLocked

/-- The first section of `processTask`: the sequence number of the cancel function it registers, or none where
the task is over at once. -/
def startTask (s : ProbeScheduler) (now : Time) (task : ProbeTask) (execID : ℕ) : ProbeScheduler × Option ℕ :=
  if s.closed ∨ task.runID ∈ s.cancelledRuns then (s.finishTaskExecutionLocked now task execID none, none)
  else
    ({ s with
      cancelSequence := s.cancelSequence + 1
      runCancels := (task.runID, s.cancelSequence) :: s.runCancels }, some s.cancelSequence)

/-- The section of `completeCallback`. -/
def finishCallback (s : ProbeScheduler) : ProbeScheduler :=
  ({ s with callbacks := s.callbacks - 1 } : ProbeScheduler).signalLocked

/-- One round of the loops of `CancelRun` and `Close` over the tasks they take out. -/
def cancelQueued (now : Time) (s : ProbeScheduler) (t : ProbeTask) : ProbeScheduler :=
  { s with activeNodes := s.activeNodes.insert t.key (s.releaseRecord (s.record t.key) now) }

/-- The section of `CancelRun`, with the tasks it completes afterwards. -/
def cancelRun (s : ProbeScheduler) (now : Time) (runID : String) : ProbeScheduler × List ProbeTask :=
  let q := s.queue runID
  let s : ProbeScheduler := { s with
    cancelledRuns := runID :: s.cancelledRuns
    cancelled := s.cancelled ++ (s.runCancels.filter fun c => c.1 = runID).map (·.2) }
  let s := q.foldl (cancelQueued now) ({ s.setQueue runID [] with queued := s.queued - q.length } : ProbeScheduler)
  let s := s.dropRun runID
  (({ s with taskCount := s.taskCount - q.length } : ProbeScheduler).signalLocked, q)

/-- The section of `Close`, with the tasks it completes in the background. -/
def close (s : ProbeScheduler) (now : Time) : ProbeScheduler × List ProbeTask :=
  if s.closed then (s, [])
  else
    let pending := s.queues.entries.flatMap (·.2)
    let s := pending.foldl (cancelQueued now)
      ({ s with closed := true, ctxDone := true, queues := ∅, runOrder := [], queued := 0 } : ProbeScheduler)
    (({ s with
      cancelled := s.cancelled ++ s.runCancels.map (·.2)
      taskCount := s.taskCount - pending.length } : ProbeScheduler).signalLocked, pending)

end

end ProbeScheduler

end ClashSubParser
