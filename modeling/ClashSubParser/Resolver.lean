import ClashSubParser.Digest
import ClashSubParser.PolicyTopology

/-! `Resolve`: validation, admission, the global filter, the groups and the digests. -/
namespace ClashSubParser

open StableSort

/-- What `time.Now().UTC()` returns at its three places in one resolution. -/
structure Clock where
  asOf : Time
  digestAsOf : Time
  resolvedAt : Time

section

variable (rt : Runtime) (enc : Encoder)

/-- The input as `Resolve` rewrites it: the sources are the sole graph input. -/
def normalizeInput (input : ResolveInput) : ResolveInput :=
  { input with
    compilerVersion := if input.compilerVersion = "" then "1.0.0" else input.compilerVersion
    groups := input.groups.map (fun g =>
      { g with
        sources := if input.groupSources.isSome then givenSources input g.id else g.sources
        nodeFilter := none })
    edges := GoMap.empty
    groupFilters := GoMap.empty }

def validateGlobalFilter (spec : Option NodeFilterSpec) : Except GoError Unit :=
  spec.elim (.ok ()) (NodeFilterSpec.validate rt)

def validateGroupFilter (entry : String × NodeFilterSpec) : Except GoError Unit :=
  match entry.2.validate rt with
  | .error err => .error (.wrapped ("group " ++ entry.1 ++ " filter invalid: ") err)
  | .ok _ => .ok ()

def validateNodeFilter (g : NodeGroup) : Except GoError Unit :=
  match g.nodeFilter.elim (.ok ()) (NodeFilterSpec.validate rt) with
  | .error err =>
    .error (.wrapped ("group " ++ g.name ++ " (" ++ g.id ++ ") filter invalid: ") err)
  | .ok _ => .ok ()

/-- The checks `Resolve` makes on the rewritten input. -/
def validateInput (input : ResolveInput) : Except GoError Unit := do
  validatePolicyTopology rt input.groups input.edges.entries input.policyRules false
  validateGlobalFilter rt input.globalFilter
  forEach (validateGroupFilter rt) input.groupFilters.entries
  forEach (validateNodeFilter rt) input.groups

variable (clock : Clock)

def asOfTime (input : ResolveInput) : Time :=
  if input.asOf.IsZero then clock.asOf else input.asOf

def nodeSourcesOf (input : ResolveInput) (nid : String) : List NodeSource :=
  (input.nodeSources.get? nid).getD []

def observationsOf (input : ResolveInput) (nid : String) : GoMap ProbeObservation :=
  (input.latestObservations.get? nid).getD GoMap.empty

def riskAdmission (input : ResolveInput) : List String × List Diagnostic :=
  evaluateRiskAdmission input.nodes input.riskPolicyRevision input.riskDecisions input.riskReviewAction

def admission (input : ResolveInput) : NodeAdmissionResult :=
  evaluateNodeAdmission rt input.nodes input.admissionRules
    (input.excludedNodeIDs ++ (riskAdmission input).1)

def globalVerdict (input : ResolveInput) (node : Node) : Bool × String :=
  matchesFilter rt input.globalFilter node (nodeSourcesOf input node.logicalID)
    (observationsOf input node.logicalID) (asOfTime clock input)

def globalAdmittedNodes (input : ResolveInput) : List Node :=
  (admission rt input).admittedNodes.filter (fun n => (globalVerdict rt clock input n).1)

def globalExcludedNodes (input : ResolveInput) : List Node :=
  (admission rt input).admittedNodes.filter (fun n => !(globalVerdict rt clock input n).1)

def globalFilterDiagnostic (input : ResolveInput) (node : Node) : Diagnostic :=
  let reason := (globalVerdict rt clock input node).2
  { severity := .info
    code := "global_filter_excluded"
    message := "node " ++ Strconv.quote rt node.displayName ++ " excluded by global filter: " ++ reason
    target := node.logicalID
    reason := reason }

def resolvedNodeOf (n : Node) (position : ℕ) : ResolvedNode :=
  ⟨n.logicalID, n.displayName, n.protocol, n.server, n.port, n.credentials, n.active,
    n.connectionRevision, position⟩

def sortedAdmittedNodes (nodes : List Node) : List ResolvedNode :=
  (sortNodes nodes).mapIdx (fun i n => resolvedNodeOf n i)

def resolveContext (input : ResolveInput) : GroupContext :=
  groupContext input.groups (globalAdmittedNodes rt clock input) (admission rt input).admittedNodeMap
    (nodeSourcesOf input) (observationsOf input) (asOfTime clock input)

def anyFilterDefined (input : ResolveInput) : Bool :=
  !NodeFilterSpec.isEmpty input.globalFilter ||
    input.groupFilters.entries.any (fun entry => !NodeFilterSpec.isEmpty (some entry.2))

def groupResults (input : ResolveInput) : GroupResults :=
  resolveGroups rt (resolveContext rt clock input) input.groups (anyFilterDefined input) input.policyRules

def diagnosticLess : Diagnostic → Diagnostic → Bool :=
  thenLess (·.code) (thenLess (·.target) (keyLess (·.message)))

def allDiagnostics (input : ResolveInput) : List Diagnostic :=
  stableSort diagnosticLess ((admission rt input).diagnostics ++ (riskAdmission input).2 ++
    (globalExcludedNodes rt clock input).map (globalFilterDiagnostic rt clock input) ++
    (groupResults rt clock input).diagnostics)

def finalAdmittedIDs (input : ResolveInput) : List String :=
  sortStrings ((globalAdmittedNodes rt clock input).map (·.logicalID))

def finalExcludedIDs (input : ResolveInput) : List String :=
  uniqueStrings (sortStrings ((admission rt input).excludedNodeIDs ++
    (globalExcludedNodes rt clock input).map (·.logicalID)))

def filterCountsOf (input : ResolveInput) : FilterLayerCounts where
  rawTotal := input.nodes.length
  admittedTotal := (admission rt input).admittedNodes.length
  globalFilteredTotal := (globalAdmittedNodes rt clock input).length
  groupFilteredTotal :=
    ((groupResults rt clock input).groups.flatMap (·.allNodeLogicalIDs)).dedup.length
  groupCounts := (groupResults rt clock input).groupCounts

def draftSnapshot (input : ResolveInput) : ResolvedPolicySnapshot where
  inputDigest := computeInputDigest rt enc input clock.digestAsOf
  snapshotDigest := ""
  revisionID := input.revisionID
  inventoryWatermark := input.inventoryWatermark
  compilerVersion := input.compilerVersion
  nodes := sortedAdmittedNodes (globalAdmittedNodes rt clock input)
  nodeLogicalIDs := (sortedAdmittedNodes (globalAdmittedNodes rt clock input)).map (·.logicalID)
  groups := (groupResults rt clock input).groups
  rules := resolveRules rt input.policyRules input.groups
  dns := input.dns
  diagnostics := allDiagnostics rt clock input
  riskPolicyRevision := input.riskPolicyRevision
  riskDecisionDigest := input.riskDecisionDigest
  riskEvaluatedAt := input.riskEvaluatedAt
  admittedNodeIDs := finalAdmittedIDs rt clock input
  excludedNodeIDs := finalExcludedIDs rt clock input
  filterCounts := filterCountsOf rt clock input
  resolvedAt := clock.resolvedAt

def snapshotOf (input : ResolveInput) : ResolvedPolicySnapshot :=
  { draftSnapshot rt enc clock input with
    snapshotDigest := computeSnapshotDigest rt enc (draftSnapshot rt enc clock input) }

/-- `ctxErr` is the error of a context that is done when the call starts. -/
def resolve (ctxErr : Option GoError) (input : ResolveInput) :
    Except GoError ResolvedPolicySnapshot :=
  match ctxErr with
  | some err => .error err
  | none =>
    match validateInput rt (normalizeInput input) with
    | .error err => .error err
    | .ok _ => .ok (snapshotOf rt enc clock (normalizeInput input))

end

end ClashSubParser
