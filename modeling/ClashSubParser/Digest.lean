import ClashSubParser.ResolveGroups

/-! The canonical payloads of a resolution and their digests. -/
namespace ClashSubParser

open StableSort

structure DNSConfig where
  enabled : Bool
  nameservers : List String
  fallback : List String := []
deriving DecidableEq

structure ResolveInput where
  revisionID : String := ""
  inventoryWatermark : String := ""
  compilerVersion : String := ""
  nodes : List Node := []
  groups : List NodeGroup := []
  /-- nil is `none` -/
  groupSources : Option (GoMap (List MemberSource)) := none
  edges : GoMap (List GroupEdge) := GoMap.empty
  policyRules : List PolicyRule := []
  admissionRules : List AdmissionRule := []
  dns : DNSConfig := ⟨false, [], []⟩
  riskPolicyRevision : String := ""
  riskDecisionDigest : String := ""
  riskEvaluatedAt : Option Time := none
  riskReviewAction : RiskAction := .block
  riskDecisions : List RiskDecision := []
  excludedNodeIDs : List String := []
  globalFilter : Option NodeFilterSpec := none
  groupFilters : GoMap NodeFilterSpec := GoMap.empty
  nodeSources : GoMap (List NodeSource) := GoMap.empty
  latestObservations : GoMap (GoMap ProbeObservation) := GoMap.empty
  asOf : Time := 0

structure CanonicalInputNode where
  logicalID : String
  displayName : String
  protocol : Protocol
  active : Bool
deriving DecidableEq

structure CanonicalSourceLogical where
  operation : SourceOperation
  kind : MemberSourceKind
  position : Int
  nodeLogicalID : Option String
  targetGroupID : Option String
  pattern : Option String
  filterSpec : Option NodeFilterSpec
  builtinName : Option String
deriving DecidableEq

structure CanonicalInputGroup where
  emptyFallbackPass : Bool
  id : String
  name : String
  groupType : GroupType
  sources : List CanonicalSourceLogical
deriving DecidableEq

structure CanonicalInputEdge where
  parentGroupID : String
  childGroupID : Option String
  nodeLogicalID : Option String
  position : Int
deriving DecidableEq

structure CanonicalInputRule where
  targetGroupID : String
  expression : String
  position : Int
deriving DecidableEq

structure CanonicalAdmissionRule where
  name : String
  expression : String
  action : RuleAction
  position : Int
deriving DecidableEq

structure CanonicalRiskDecision where
  nodeLogicalID : String
  policyRevisionID : String
  decision : RiskAction
  reasonCode : String
  evaluatedAt : String
deriving DecidableEq

structure CanonicalInputPayload where
  revisionID : String
  inventoryWatermark : String
  compilerVersion : String
  nodes : List CanonicalInputNode
  groups : List CanonicalInputGroup
  edges : List CanonicalInputEdge
  policyRules : List CanonicalInputRule
  admissionRules : List CanonicalAdmissionRule
  dns : DNSConfig
  riskPolicyRevision : String
  riskDecisionDigest : String
  riskDecisions : List CanonicalRiskDecision
  globalFilter : Option NodeFilterSpec
  groupFilters : GoMap NodeFilterSpec
  nodeSources : GoMap (List String)
  observationDigest : String

section

variable (rt : Runtime)

def canonicalNode (n : Node) : CanonicalInputNode := ⟨n.logicalID, n.displayName, n.protocol, n.active⟩

def canonicalSource (s : MemberSource) : CanonicalSourceLogical :=
  ⟨s.operation, s.kind, s.position, s.nodeLogicalID, s.targetGroupID, s.pattern, s.filterSpec,
    s.builtinName⟩

def canonicalizeSources (sources : List MemberSource) : List CanonicalSourceLogical :=
  sources.map canonicalSource

variable (input : ResolveInput)

/-- `groupSources[gid]` of the input, empty where the map is nil or has no entry. -/
def givenSources (gid : String) : List MemberSource :=
  (input.groupSources.bind (·.get? gid)).getD []

def canonicalGroup (g : NodeGroup) : CanonicalInputGroup :=
  ⟨g.emptyFallbackPass, g.id, g.name, g.groupType,
    canonicalizeSources (if g.sources = [] then givenSources input g.id else g.sources)⟩

def canonicalEdges (edges : GoMap (List GroupEdge)) : List CanonicalInputEdge :=
  stableSort (thenLess (·.parentGroupID) (keyLess (·.position)))
    (edges.entries.flatMap (fun entry => entry.2.map (fun e =>
      ⟨entry.1, e.childGroupID, e.nodeLogicalID, e.position⟩)))

def canonicalRule (r : PolicyRule) : CanonicalInputRule := ⟨r.targetGroupID, r.expression, r.position⟩

def canonicalAdmissionRule (r : AdmissionRule) : CanonicalAdmissionRule :=
  ⟨r.name, r.expression, r.action, r.position⟩

def canonicalRiskDecision (d : RiskDecision) : CanonicalRiskDecision :=
  ⟨d.nodeLogicalID, d.policyRevisionID, d.decision, d.reasonCode, rt.formatRFC3339Nano d.evaluatedAt⟩

def sortDecisions (decisions : List RiskDecision) : List RiskDecision :=
  stableSort (thenLess (·.nodeLogicalID) (keyLess (·.reasonCode))) decisions

def nonEmptyFilter (spec : Option NodeFilterSpec) : Option NodeFilterSpec :=
  spec.filter (fun s => !s.conditions.isEmpty)

def canonicalNodeSources (sources : GoMap (List NodeSource)) : GoMap (List String) :=
  sources.filterMap (fun srcs =>
    if srcs = [] then none else some (sortStrings (srcs.map (·.subscriptionID))))

def observationLine (nid : String) (obs : ProbeObservation) (asOf : Time) : String :=
  let fresh : Bool := asOf.sub obs.observedAt ≤ Time.seconds 86400
  nid ++ ":" ++ obs.kind.text ++ ":" ++ obs.verdict.text ++ ":" ++ toString obs.latencyMS ++ ":" ++
    toString fresh ++ ";"

def observationDigest (observations : GoMap (GoMap ProbeObservation)) (asOf : Time) : String :=
  if observations.entries = [] then ""
  else Strconv.hexEncode (rt.sha256 (String.join (observations.entries.flatMap (fun entry =>
    entry.2.entries.map (fun o => observationLine entry.1 o.2 asOf)))))

/-- The payload of `computeInputDigest`; `now` is what the clock shows when the input has no time. -/
def canonicalInput (now : Time) : CanonicalInputPayload where
  revisionID := input.revisionID
  inventoryWatermark := input.inventoryWatermark
  compilerVersion := input.compilerVersion
  nodes := stableSort (keyLess (·.logicalID)) (input.nodes.map canonicalNode)
  groups := stableSort (keyLess (·.id)) (input.groups.map (canonicalGroup input))
  edges := canonicalEdges input.edges
  policyRules := stableSort (keyLess (·.position)) (input.policyRules.map canonicalRule)
  admissionRules := stableSort (keyLess (·.position)) (input.admissionRules.map canonicalAdmissionRule)
  dns := input.dns
  riskPolicyRevision := input.riskPolicyRevision
  riskDecisionDigest := input.riskDecisionDigest
  riskDecisions := (sortDecisions input.riskDecisions).map (canonicalRiskDecision rt)
  globalFilter := nonEmptyFilter input.globalFilter
  groupFilters := input.groupFilters.filterMap (fun s => if s.conditions = [] then none else some s)
  nodeSources := canonicalNodeSources input.nodeSources
  observationDigest := observationDigest rt input.latestObservations
    (if input.asOf.IsZero then now else input.asOf)

end

structure ResolvedNode where
  logicalID : String
  displayName : String
  protocol : Protocol
  server : String
  port : Int
  credentials : InboundProtocolCredential
  active : Bool
  connectionRevision : Int
  position : ℕ

structure FilterLayerCounts where
  rawTotal : ℕ
  admittedTotal : ℕ
  globalFilteredTotal : ℕ
  groupFilteredTotal : ℕ
  groupCounts : String → Option GroupFilterCount

structure ResolvedPolicySnapshot where
  inputDigest : String
  snapshotDigest : String
  revisionID : String
  inventoryWatermark : String
  compilerVersion : String
  nodes : List ResolvedNode
  nodeLogicalIDs : List String
  groups : List ResolvedGroup
  rules : List ResolvedRule
  dns : DNSConfig
  diagnostics : List Diagnostic
  riskPolicyRevision : String
  riskDecisionDigest : String
  riskEvaluatedAt : Option Time
  admittedNodeIDs : List String
  excludedNodeIDs : List String
  filterCounts : FilterLayerCounts
  resolvedAt : Time

structure CanonicalSnapshotGroup where
  emptyFallbackPass : Bool
  effectiveEmptyPass : Bool
  id : String
  name : String
  groupType : GroupType
  members : List ResolvedGroupMember
  childGroupIDs : List String
  nodeLogicalIDs : List String
  allNodeLogicalIDs : List String
  expandedNodeIDs : List String
  sources : List CanonicalSourceLogical
  position : ℕ
deriving DecidableEq

structure CanonicalSnapshotPayload where
  revisionID : String
  inventoryWatermark : String
  compilerVersion : String
  nodes : List ResolvedNode
  nodeLogicalIDs : List String
  groups : List CanonicalSnapshotGroup
  rules : List ResolvedRule
  dns : DNSConfig
  diagnostics : List Diagnostic
  admittedNodeIDs : List String
  excludedNodeIDs : List String
  riskPolicyRevision : String
  riskEvaluatedAt : String
  riskDecisionDigest : String

def canonicalSnapshotGroup (g : ResolvedGroup) : CanonicalSnapshotGroup where
  emptyFallbackPass := g.emptyFallbackPass
  effectiveEmptyPass := g.effectiveEmptyPass
  id := g.id
  name := g.name
  groupType := g.groupType
  members := g.members
  childGroupIDs := g.childGroupIDs
  nodeLogicalIDs := g.nodeLogicalIDs
  allNodeLogicalIDs := g.allNodeLogicalIDs
  expandedNodeIDs := g.expandedNodeIDs
  sources := canonicalizeSources g.sources
  position := g.position

def canonicalSnapshot (rt : Runtime) (snap : ResolvedPolicySnapshot) : CanonicalSnapshotPayload where
  revisionID := snap.revisionID
  inventoryWatermark := snap.inventoryWatermark
  compilerVersion := snap.compilerVersion
  nodes := snap.nodes
  nodeLogicalIDs := snap.nodeLogicalIDs
  groups := snap.groups.map canonicalSnapshotGroup
  rules := snap.rules
  dns := snap.dns
  diagnostics := snap.diagnostics
  admittedNodeIDs := snap.admittedNodeIDs
  excludedNodeIDs := snap.excludedNodeIDs
  riskPolicyRevision := snap.riskPolicyRevision
  riskEvaluatedAt := snap.riskEvaluatedAt.elim "" rt.formatRFC3339Nano
  riskDecisionDigest := snap.riskDecisionDigest

/-- `json.Marshal` on the two payloads. They hold strings, numbers, booleans, lists and string-keyed
maps, on which it does not fail. -/
structure Encoder where
  marshalInput : CanonicalInputPayload → String
  marshalSnapshot : CanonicalSnapshotPayload → String

def computeInputDigest (rt : Runtime) (enc : Encoder) (input : ResolveInput) (now : Time) : String :=
  Strconv.hexEncode (rt.sha256 (enc.marshalInput (canonicalInput rt input now)))

def computeSnapshotDigest (rt : Runtime) (enc : Encoder) (snap : ResolvedPolicySnapshot) : String :=
  Strconv.hexEncode (rt.sha256 (enc.marshalSnapshot (canonicalSnapshot rt snap)))

end ClashSubParser
