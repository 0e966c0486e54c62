import ClashSubParser.NodeAdmission
import ClashSubParser.PolicyRepository

/-! The commands of the policy service that change groups. The audit records are left out. -/
namespace ClashSubParser

structure ServiceEnv where
  /-- whether `GetByLogicalID` returns a node, where the service has a node repository -/
  nodeRepo : Option (String → Except GoError Bool)
  /-- what `NewUUIDv7` returns for the group, for the edge at an index and for the source at an index -/
  groupID : Except GoError String
  edgeID : ℕ → Except GoError String
  sourceID : ℕ → Except GoError String

structure EdgeInput where
  id : String := ""
  childGroupID : Option String := none
  nodeLogicalID : Option String := none
  position : Int := 0

structure CreateGroupCommand where
  emptyFallbackPass : Bool := false
  id : String := ""
  name : String
  groupType : GroupType
  sources : List MemberSource := []
  edges : List EdgeInput := []
  nodeFilter : Option NodeFilterSpec := none

structure UpdateGroupCommand where
  emptyFallbackPass : Option Bool := none
  id : String
  name : Option String := none
  groupType : Option GroupType := none
  expectedRevision : Option Int := none
  sources : Option (List MemberSource) := none
  edges : Option (List EdgeInput) := none
  nodeFilter : Option NodeFilterSpec := none
  clearNodeFilter : Bool := false

structure SetGroupEdgesCommand where
  parentGroupID : String
  edges : List EdgeInput

structure GroupView where
  emptyFallbackPass : Bool
  id : String
  name : String
  groupType : GroupType
  revision : Int
  sources : List MemberSource
  edges : List GroupEdge
  nodeFilter : Option NodeFilterSpec
deriving DecidableEq

/-- The old filter field shows the filter of a group whose only source is a filter. -/
def toGroupView (group : NodeGroup) : GroupView where
  emptyFallbackPass := group.emptyFallbackPass
  id := group.id
  name := group.name
  groupType := group.groupType
  revision := if group.revision ≤ 0 then 1 else group.revision
  sources := group.sources
  edges := projectSourceEdges group.sources
  nodeFilter :=
    match group.sources with
    | [s] => if s.kind = .filter ∧ s.operation = .add then s.filterSpec else none
    | _ => none

section

variable (rt : Runtime)

def validateAdmissionRule (rule : AdmissionRule) : Except GoError Unit :=
  if Strings.trimSpace rule.name = "" then
    invalid rt "invalid_admission_rule_name" "admission rule name cannot be empty"
  else if Strings.trimSpace rule.expression = "" then
    invalid rt "invalid_expression" "admission rule expression cannot be empty"
  else if rule.action.isValid = false then
    invalid rt "invalid_rule_action" ("unsupported rule action: " ++ rule.action.text)
  else if rule.position < 0 then
    invalid rt "invalid_position" "admission rule position must be non-negative"
  else .ok ()

def validateAdmissionRules (rules : List AdmissionRule) : Except GoError Unit :=
  forEach (validateAdmissionRule rt) rules

def validatePolicyGraph (groups : List NodeGroup) (edges : EdgeMap) (policyRules : List PolicyRule)
    (admissionRules : List AdmissionRule) : Except GoError Unit := do
  validatePolicyTopology rt groups edges policyRules true
  validateAdmissionRules rt admissionRules

def checkNodeTarget (getByLogicalID : String → Except GoError Bool) (edge : GroupEdge) :
    Except GoError Unit :=
  if isBlank edge.nodeLogicalID then .ok ()
  else
    let logicalID := Strings.trimSpace (edge.nodeLogicalID.getD "")
    let missing := invalid rt "node_target_not_found" ("target node " ++ logicalID ++ " does not exist")
    match getByLogicalID logicalID with
    | .error err =>
      if err.asDomainError.map (·.category) = some .notFound then missing
      else .error (.wrapped ("failed to query target node " ++ logicalID ++ ": ") err)
    | .ok found => if found then .ok () else missing

def validateNodeTargets (env : ServiceEnv) (edges : List GroupEdge) : Except GoError Unit :=
  match env.nodeRepo with
  | none => .ok ()
  | some getByLogicalID => forEach (checkNodeTarget rt getByLogicalID) edges

end

namespace PolicyService

section

variable (rt : Runtime) (env : ServiceEnv) (st : PolicyStore)

/-- The edges of a command. A position that is not given is the index. -/
def edgesOfInput (parentGroupID : String) : List (EdgeInput × ℕ) → Except GoError (List GroupEdge)
  | [] => .ok []
  | (input, i) :: rest =>
    match if input.id = "" then env.edgeID i else .ok input.id with
    | .error err => .error err
    | .ok id =>
      match edgesOfInput parentGroupID rest with
      | .error err => .error err
      | .ok edges =>
        let position := if input.position = 0 ∧ 0 < i then (i : Int) else input.position
        .ok (⟨id, parentGroupID, input.childGroupID, input.nodeLogicalID, position⟩ :: edges)

def numberSources (groupID : String) (sources : List MemberSource) : List MemberSource :=
  sources.mapIdx (fun i s => { s with position := i, groupID := groupID })

variable (cmd : CreateGroupCommand)

def newGroupID : Except GoError String :=
  if cmd.id = "" then env.groupID else .ok cmd.id

def newGroup : Except GoError NodeGroup := do
  let name := Strings.trimSpace cmd.name
  if name = "" then invalid rt "invalid_group_name" "group name cannot be empty"
  else if cmd.groupType.isValid = false then
    invalid rt "invalid_group_type" ("unsupported group type: " ++ cmd.groupType.text)
  else
    let groupID ← newGroupID env cmd
    if cmd.id ≠ "" ∧ isValidUUIDv7 groupID = false then
      invalid rt "invalid_group_id" ("invalid group UUIDv7: " ++ groupID)
    else
      cmd.nodeFilter.elim (.ok ()) (NodeFilterSpec.validate rt)
      .ok
        { emptyFallbackPass := cmd.emptyFallbackPass
          sources := cmd.sources
          id := groupID
          name := name
          groupType := cmd.groupType
          nodeFilter := cmd.nodeFilter }

def createGroup : Except GoError (PolicyStore × GroupView) := do
  let group ← newGroup rt env cmd
  let edges ← edgesOfInput env group.id cmd.edges.zipIdx
  let existing := st.listGroups
  -- the new entry replaces the one of an existing group with this ID
  let edgeMap := (existing.filter (·.id ≠ group.id)).map (fun g => (g.id, st.listEdgesByGroup g.id)) ++
    [(group.id, edges)]
  validatePolicyGraph rt (existing ++ [group]) edgeMap [] []
  validateNodeTargets rt env edges
  if cmd.sources = [] then
    let (st', saved) ← st.saveGroup rt env.sourceID group true (some edges) cmd.nodeFilter.isSome cmd.nodeFilter
    .ok (st', toGroupView saved)
  else
    let sources := numberSources group.id cmd.sources
    forEach (validateMemberSource rt) sources
    let group := { group with sources := sources }
    validatePolicyTopology rt (existing ++ [group]) [] [] false
    let (st', saved) ← st.saveGroupWithSources rt env.sourceID group 0 sources
    .ok (st', toGroupView saved)

def changeNames (group : NodeGroup) (cmd : UpdateGroupCommand) : Except GoError NodeGroup :=
  let name := cmd.name.elim group.name Strings.trimSpace
  if cmd.name.isSome ∧ name = "" then invalid rt "invalid_group_name" "group name cannot be empty"
  else
    let groupType := cmd.groupType.getD group.groupType
    if cmd.groupType.isSome ∧ groupType.isValid = false then
      invalid rt "invalid_group_type" ("unsupported group type: " ++ groupType.text)
    else .ok { group with name := name, groupType := groupType }

def updateEdges (groupID : String) (edges : List EdgeInput) : List GroupEdge :=
  edges.mapIdx (fun i e => ⟨e.id, groupID, e.childGroupID, e.nodeLogicalID, i⟩)

/-- The sources and the expected revision of an update: as given, or the sources of the group after a
legacy edit. -/
def updateSources (group : NodeGroup) (cmd : UpdateGroupCommand) :
    Except GoError (List MemberSource × Option Int) :=
  match cmd.sources with
  | some sources => .ok (sources, cmd.expectedRevision)
  | none => do
    let edges := cmd.edges.map (updateEdges group.id)
    edges.elim (.ok ()) (validateNodeTargets rt env)
    let changeFilter := cmd.clearNodeFilter || cmd.nodeFilter.isSome
    let filter := if cmd.clearNodeFilter then none else cmd.nodeFilter
    let sources ← if edges.isSome || changeFilter then
      editLegacySources rt group.id group.sources edges changeFilter filter else .ok group.sources
    .ok (sources, some (cmd.expectedRevision.getD group.revision))

def replaceGroup (group : NodeGroup) : List NodeGroup → List NodeGroup
  | [] => []
  | g :: rest => if g.id = group.id then group :: rest else g :: replaceGroup group rest

def expectedOf (group : NodeGroup) (expected : Option Int) : Except GoError Int :=
  match expected with
  | none => .ok group.revision
  | some e => if e ≤ 0 then invalid rt "invalid_revision" "expected_revision must be positive" else .ok e

def updateGroup (cmd : UpdateGroupCommand) : Except GoError (PolicyStore × GroupView) := do
  let group ← st.getGroupByID rt cmd.id
  let group ← changeNames rt group cmd
  let (sources, expected) ← updateSources rt env group cmd
  let sources := numberSources group.id sources
  forEach (validateMemberSource rt) sources
  let nodes := sources.filter (·.kind = .manualNode)
  validateNodeTargets rt env (nodes.map (fun s => ⟨"", "", none, s.nodeLogicalID, 0⟩))
  let fallback := cmd.emptyFallbackPass.getD group.emptyFallbackPass
  let group := { group with emptyFallbackPass := fallback, sources := sources }
  validatePolicyTopology rt (replaceGroup group st.listGroups) [] [] false
  let expected ← expectedOf rt group expected
  let (st', saved) ← st.saveGroupWithSources rt env.sourceID group expected sources
  .ok (st', toGroupView saved)

def deleteGroup (id : String) : Except GoError PolicyStore := do
  let _ ← st.getGroupByID rt id
  st.deleteGroup rt id

def setGroupEdges (cmd : SetGroupEdgesCommand) : Except GoError PolicyStore := do
  let _ ← st.getGroupByID rt cmd.parentGroupID
  let edges ← edgesOfInput env cmd.parentGroupID cmd.edges.zipIdx
  let existing := st.listGroups
  let edgeMap := existing.map (fun g =>
    (g.id, if g.id = cmd.parentGroupID then edges else st.listEdgesByGroup g.id))
  validatePolicyGraph rt existing edgeMap [] []
  validateNodeTargets rt env edges
  st.setEdgesForGroup rt env.sourceID cmd.parentGroupID edges

end

end PolicyService

end ClashSubParser
