import ClashSubParser.PolicyTypes
import ClashSubParser.StableSort

/-! The sweep that a periodic batch plans: which probes are due, which fit into the quota, and their runs. -/
namespace ClashSubParser

open StableSort

structure Coordinator where
  ownerID : String
  leaseDuration : Int
  runTimeout : Int := 0
  maxTasksPerRun : Int := 512
  failureCooldown : Int := 300000000000
  sweepQuota : Int := 512

namespace Coordinator

def cooldown (c : Coordinator) : Int := if c.failureCooldown ≤ 0 then 300000000000 else c.failureCooldown

def quota (c : Coordinator) : ℕ := if c.sweepQuota ≤ 0 then 512 else c.sweepQuota.toNat

def maxTasks (c : Coordinator) : ℕ := if c.maxTasksPerRun ≤ 0 then 512 else c.maxTasksPerRun.toNat

end Coordinator

structure ProbeSchedule where
  intervalSeconds : Int
  kinds : List ProbeKind
  generation : Int

def ProbeSchedule.configuredKinds (s : ProbeSchedule) : List ProbeKind := if s.kinds = [] then [.baseline] else s.kinds

/-- An observation with the revision of the connection it was made on, if it is recorded. -/
structure LatestObservation extends ProbeObservation where
  connectionRevision : Option Int

/-- The map of `ListLatestByNodes`. -/
abbrev LatestObservations := String → ProbeKind → Option LatestObservation

/-- What the loop over the kinds has found for a node. `oldestObs` is set with the first observation. -/
structure KindScan where
  expiredKinds : List ProbeKind := []
  hasUnobserved : Bool := false
  hasRevisionMismatch : Bool := false
  oldestObs : Option Time := none

structure SweepCandidate where
  node : Node
  expiredKinds : List ProbeKind
  hasUnobserved : Bool
  hasRevisionMismatch : Bool
  oldestObservedAt : Time

section

variable (now : Time) (interval cooldown : Int) (latest : Option LatestObservations)

/-- One round of the loop over the configured kinds; without a repository every kind is due. -/
def KindScan.visit (n : Node) (scan : KindScan) (k : ProbeKind) : KindScan :=
  match latest.bind (fun m => m n.logicalID k) with
  | none => { scan with expiredKinds := scan.expiredKinds ++ [k], hasUnobserved := true }
  | some obs =>
    let obsAge := max 0 (now.sub obs.observedAt)
    let isFailure := obs.verdict = .error || obs.verdict = .unknown
    if isFailure && obsAge < cooldown then scan
    else
      let revisionMismatch := n.connectionRevision > 0 && obs.connectionRevision ≠ some n.connectionRevision
      if revisionMismatch || obsAge ≥ interval then
        { scan with
          expiredKinds := scan.expiredKinds ++ [k]
          hasRevisionMismatch := scan.hasRevisionMismatch || revisionMismatch
          oldestObs := some (scan.oldestObs.elim obs.observedAt (min obs.observedAt)) }
      else scan

def sweepCandidate (kinds : List ProbeKind) (n : Node) : Option SweepCandidate :=
  let scan := kinds.foldl (KindScan.visit now interval cooldown latest n) {}
  if scan.expiredKinds = [] then none
  else some ⟨n, scan.expiredKinds, scan.hasUnobserved, scan.hasRevisionMismatch, scan.oldestObs.getD 0⟩

end

/-- Unobserved nodes first, then those with a changed connection, then by age and logical ID. -/
def SweepCandidate.less (a b : SweepCandidate) : Bool :=
  if a.hasUnobserved ≠ b.hasUnobserved then a.hasUnobserved
  else if a.hasRevisionMismatch ≠ b.hasRevisionMismatch then a.hasRevisionMismatch
  else if !a.hasUnobserved && !a.hasRevisionMismatch && a.oldestObservedAt ≠ b.oldestObservedAt then
    a.oldestObservedAt < b.oldestObservedAt
  else a.node.logicalID < b.node.logicalID

def kindLess (a b : ProbeKind) : Bool :=
  if a = .baseline then true else if b = .baseline then false else a.text < b.text

def selectCandidates (quota : ℕ) : ℕ → List SweepCandidate → List SweepCandidate
  | _, [] => []
  | accumulatedTasks, cand :: rest =>
    if accumulatedTasks ≥ quota then []
    else
      let remaining := quota - accumulatedTasks
      let candKinds :=
        if cand.expiredKinds.length > remaining then (stableSort kindLess cand.expiredKinds).take remaining
        else cand.expiredKinds
      { cand with expiredKinds := candKinds } :: selectCandidates quota (accumulatedTasks + candKinds.length) rest

structure RunChunk where
  nodes : List Node
  kinds : List ProbeKind

def SweepCandidate.signature (cand : SweepCandidate) : String :=
  Strings.join (sortStrings (cand.expiredKinds.map ProbeKind.text)) ","

/-- A group has the kinds of its first candidate, and the nodes of all in their order. -/
def candidateGroups (selected : List SweepCandidate) : List RunChunk :=
  (sortedSet (selected.map SweepCandidate.signature)).filterMap fun key =>
    match selected.filter (fun cand => cand.signature = key) with
    | [] => none
    | cand :: rest => some ⟨(cand :: rest).map SweepCandidate.node, cand.expiredKinds⟩

/-- Cut a group into runs of at most `maxTasks` tasks, or of one node. -/
def RunChunk.cut (maxTasks : ℕ) (group : RunChunk) : List RunChunk :=
  let nodesPerChunk := max 1 (maxTasks / max 1 group.kinds.length)
  (List.range ((group.nodes.length + nodesPerChunk - 1) / nodesPerChunk)).map fun i =>
    ⟨(group.nodes.drop (i * nodesPerChunk)).take nodesPerChunk, group.kinds⟩

structure SweepPlan where
  selected : List SweepCandidate
  chunks : List RunChunk

/-- The selection and the chunks for the nodes that are not in the probe pool. -/
def planSweep (c : Coordinator) (sched : ProbeSchedule) (now : Time) (latest : Option LatestObservations)
    (candidateNodes : List Node) : SweepPlan :=
  let candidates := candidateNodes.filterMap
    (sweepCandidate now (Time.seconds sched.intervalSeconds) c.cooldown latest sched.configuredKinds)
  let selected := selectCandidates c.quota 0 (stableSort SweepCandidate.less candidates)
  ⟨selected, (candidateGroups selected).flatMap (RunChunk.cut c.maxTasks)⟩

end ClashSubParser
