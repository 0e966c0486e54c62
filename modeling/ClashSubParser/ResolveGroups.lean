import ClashSubParser.GroupPipeline
import ClashSubParser.Reachability

/-! `resolveGroups`: resolved and derived groups, their node sets, and the diagnostics for empty ones. -/
namespace ClashSubParser

open MemoRecursion Reachability StableSort

structure ResolvedGroup where
  emptyFallbackPass : Bool := false
  effectiveEmptyPass : Bool := false
  id : String
  name : String
  groupType : GroupType
  members : List ResolvedGroupMember
  childGroupIDs : List String
  nodeLogicalIDs : List String
  allNodeLogicalIDs : List String
  expandedNodeIDs : List String
  sources : List MemberSource := []
  position : ℕ
deriving DecidableEq

/-- Never treats PASS as a node or inherits permission from children. -/
def ResolvedGroup.usesEmptyPass (g : ResolvedGroup) : Bool :=
  g.emptyFallbackPass && g.effectiveEmptyPass && g.allNodeLogicalIDs.isEmpty

structure GroupFilterCount where
  candidate : ℕ
  kept : ℕ
  excluded : ℕ
deriving DecidableEq

def sortNodes (nodes : List Node) : List Node :=
  stableSort (thenLess (·.displayName) (keyLess (·.logicalID))) nodes

def sortGroups (groups : List NodeGroup) : List NodeGroup :=
  stableSort (thenLess (·.name) (keyLess (·.id))) groups

section

variable (rt : Runtime) (ctx : GroupContext)

/-- The loop that resolves every group in turn, with the stored results it reads. -/
def resolveEach (fuel : ℕ) : List NodeGroup → GroupMemoState →
    List (NodeGroup × GroupMemo) × GroupMemoState
  | [], st => ([], st)
  | g :: groups, st =>
    let r := resolveGroupMemo rt ctx fuel g.id st
    let rest := resolveEach fuel groups r.2
    ((g, r.1) :: rest.1, rest.2)

def resolvedGroupOf (g : NodeGroup) (m : GroupMemo) (position : ℕ) : ResolvedGroup where
  emptyFallbackPass := g.emptyFallbackPass
  effectiveEmptyPass := m.effectiveEmptyPass
  id := g.id
  name := g.name
  groupType := g.groupType
  members := m.members
  childGroupIDs := m.childGroupIDs
  nodeLogicalIDs := m.nodeLogicalIDs
  allNodeLogicalIDs := m.expandedNodeIDs
  expandedNodeIDs := m.expandedNodeIDs
  sources := ctx.groupSources g.id
  position := position

def groupCountOf (m : GroupMemo) : GroupFilterCount :=
  let kept := m.expandedNodeIDs.length
  let candidate := max m.candidateCount kept
  ⟨candidate, kept, candidate - kept⟩

def groupCountsOf (results : List (NodeGroup × GroupMemo)) (gid : String) : Option GroupFilterCount :=
  (mapOf (fun r : NodeGroup × GroupMemo => r.1.id) results gid).map (fun r => groupCountOf r.2)

def deterministicDerivedUUID (parentID childID : String) : String :=
  let sum := rt.sha256 ("derived-group:" ++ parentID ++ ":" ++ childID)
  let raw : Fin 16 → BitVec 8 := fun i =>
    if i = 6 then (sum 6 &&& 0x0f#8) ||| 0x70#8
    else if i = 8 then (sum 8 &&& 0x3f#8) ||| 0x80#8
    else sum (i.castLE (by decide))
  let hex (l : List (Fin 16)) : String := String.join (l.map (fun i => Strconv.hexByte (raw i)))
  hex [0, 1, 2, 3] ++ "-" ++ hex [4, 5] ++ "-" ++ hex [6, 7] ++ "-" ++ hex [8, 9] ++ "-" ++
    hex [10, 11, 12, 13, 14, 15]

/-- The filter of the first add `group_ref` source for the child, by position. -/
def pFilter (parentID childID : String) : Option NodeFilterSpec :=
  ((ctx.groupSources parentID).find? (fun s => s.operation = .add && s.kind = .groupRef &&
    s.targetGroupID = some childID)).bind (·.filterSpec)

def derivedItem (leaf : ResolvedItem) : ResolvedItem :=
  if leaf.kind = .node then
    (ctx.globalAdmittedMap leaf.targetID).elim leaf (fun node => nodeItem leaf.targetID node.displayName)
  else leaf

/-- The member and child lists of the groups. Groups of one ID share them, as their slices do. -/
structure Slices where
  members : List ResolvedGroupMember
  childGroupIDs : List String

structure DeriveState where
  slices : String → Slices
  derived : List ResolvedGroup
  memo : GroupMemoState

def derivedGroupOf (parent child : ResolvedGroup) (surviving : List ResolvedItem) (position : ℕ) :
    ResolvedGroup where
  id := deterministicDerivedUUID rt parent.id child.id
  name := child.name ++ " [" ++ parent.name ++ "]"
  groupType := child.groupType
  members := membersOf (surviving.map (derivedItem ctx))
  childGroupIDs := []
  nodeLogicalIDs := nodeTargets surviving
  allNodeLogicalIDs := nodeTargets surviving
  expandedNodeIDs := nodeTargets surviving
  position := position

/-- Point the member at `mIdx`, and the first child entry for its target, to a derived group. -/
def Slices.substitute (sl : Slices) (mIdx : ℕ) (member : ResolvedGroupMember) (d : ResolvedGroup) :
    Slices where
  members := sl.members.set mIdx { member with targetID := d.id, displayName := d.name }
  childGroupIDs := sl.childGroupIDs.replace member.targetID d.id

/-- One member of a parent: where the filter on the reference drops a leaf of the child, the
reference is replaced by a group made of the surviving leaves. -/
def deriveMember (fuel : ℕ) (resolved : List ResolvedGroup) (parent : ResolvedGroup)
    (st : DeriveState) (member : ResolvedGroupMember × ℕ) : DeriveState :=
  let childID := member.1.targetID
  let spec := pFilter ctx parent.id childID
  if member.1.kind ≠ .group ∨ NodeFilterSpec.isEmpty spec then st
  else
    match mapOf (fun g : ResolvedGroup => g.id) resolved childID with
    | none => st
    | some child =>
      let r := resolveGroupMemo rt ctx fuel childID st.memo
      let surviving := r.1.leafItems.filter (leafSurvives rt ctx spec)
      if r.1.leafItems.all (leafSurvives rt ctx spec) then { st with memo := r.2 }
      else
        let d := derivedGroupOf rt ctx parent child surviving (resolved.length + st.derived.length)
        { slices := Function.update st.slices parent.id ((st.slices parent.id).substitute member.2 member.1 d)
          derived := st.derived ++ [d]
          memo := r.2 }

def deriveParent (fuel : ℕ) (resolved : List ResolvedGroup) (st : DeriveState)
    (parent : ResolvedGroup) : DeriveState :=
  (st.slices parent.id).members.zipIdx.foldl (deriveMember rt ctx fuel resolved parent) st

def slicesOf (resolved : List ResolvedGroup) (gid : String) : Slices :=
  (mapOf (fun g : ResolvedGroup => g.id) resolved gid).elim ⟨[], []⟩
    (fun g => ⟨g.members, g.childGroupIDs⟩)

def deriveGroups (fuel : ℕ) (resolved : List ResolvedGroup) (memo : GroupMemoState) : DeriveState :=
  resolved.foldl (deriveParent rt ctx fuel resolved) ⟨slicesOf resolved, [], memo⟩

def withSlices (slices : String → Slices) (g : ResolvedGroup) : ResolvedGroup :=
  { g with
    members := (slices g.id).members
    childGroupIDs := (slices g.id).childGroupIDs }

end

section

def collectNodes (groups : List ResolvedGroup) (gid : String) : List String :=
  let target := mapOf (fun g : ResolvedGroup => g.id) groups
  (collect (fun k => (target k).elim [] (·.childGroupIDs)) (fun k => (target k).elim [] (·.nodeLogicalIDs))
    (groups.length+1) gid ([], [])).2

def hasBuiltin (g : ResolvedGroup) : Bool := g.members.any (·.kind = .builtin)

def recollect (groups : List ResolvedGroup) (g : ResolvedGroup) : ResolvedGroup :=
  let all := sortedSet (collectNodes groups g.id)
  { g with
    allNodeLogicalIDs := all
    expandedNodeIDs := all
    effectiveEmptyPass := g.emptyFallbackPass && all.isEmpty && !hasBuiltin g }

end

section

variable (rt : Runtime)

def reportsEmpty (g : ResolvedGroup) : Bool :=
  !g.usesEmptyPass &&
    (g.members.isEmpty || !(!g.allNodeLogicalIDs.isEmpty || hasBuiltin g))

def emptyRoutedMessage (noNodes anyFilterDefined : Bool) (g : ResolvedGroup) (rule : PolicyRule) :
    String :=
  let about := "routed group " ++ Strconv.quote rt g.name ++ " (" ++ g.id ++ ") referenced by rule " ++
    Strconv.quote rt rule.expression ++ " has 0 available nodes"
  if noNodes then "current effective inventory is empty; " ++ about
  else if anyFilterDefined then about ++ " after filtering"
  else about

/-- `routedGroups[id]`: the last rule of the list that targets the group. -/
def routedRule (rules : List PolicyRule) (gid : String) : Option PolicyRule :=
  mapOf (·.targetGroupID) rules gid

def emptyDiagnostic (noNodes anyFilterDefined : Bool) (rules : List PolicyRule) (g : ResolvedGroup) :
    Diagnostic :=
  match routedRule rules g.id with
  | some rule =>
    { severity := .error
      code := "empty_routed_group"
      message := emptyRoutedMessage rt noNodes anyFilterDefined g rule
      target := g.id }
  | none =>
    { severity := .warning
      code := "empty_group"
      message := "group " ++ Strconv.quote rt g.name ++ " has 0 active members after resolution"
      target := g.id }

def emptyDiagnostics (noNodes anyFilterDefined : Bool) (rules : List PolicyRule)
    (groups : List ResolvedGroup) : List Diagnostic :=
  (groups.filter reportsEmpty).map (emptyDiagnostic rt noNodes anyFilterDefined rules)

end

structure GroupResults where
  groups : List ResolvedGroup
  diagnostics : List Diagnostic
  groupCounts : String → Option GroupFilterCount

def groupContext (groups : List NodeGroup) (globalAdmittedNodes : List Node)
    (admittedNodeMap : String → Option Node) (nodeSources : String → List NodeSource)
    (latestObs : String → GoMap ProbeObservation) (asOf : Time) : GroupContext where
  groupMap := mapOf (·.id) groups
  globalAdmittedMap := mapOf (·.logicalID) globalAdmittedNodes
  admittedNodeMap := admittedNodeMap
  sortedGlobalNodes := sortNodes globalAdmittedNodes
  nodeSources := nodeSources
  latestObs := latestObs
  asOf := asOf

section

variable (rt : Runtime)

def resolvedList (ctx : GroupContext) (results : List (NodeGroup × GroupMemo)) : List ResolvedGroup :=
  results.mapIdx (fun i r => resolvedGroupOf ctx r.1 r.2 i)

def allGroups (resolved : List ResolvedGroup) (d : DeriveState) : List ResolvedGroup :=
  resolved.map (withSlices d.slices) ++ d.derived

def resolveGroups (ctx : GroupContext) (groups : List NodeGroup) (anyFilterDefined : Bool)
    (rules : List PolicyRule) : GroupResults :=
  let fuel := groups.length+1
  let first := resolveEach rt ctx fuel (sortGroups groups) MemoState.init
  let resolved := resolvedList ctx first.1
  let d := deriveGroups rt ctx fuel resolved first.2
  let final := (allGroups resolved d).map (recollect (allGroups resolved d))
  { groups := final
    diagnostics := d.memo.log ++
      emptyDiagnostics rt ctx.sortedGlobalNodes.isEmpty anyFilterDefined rules final
    groupCounts := groupCountsOf first.1 }

structure ResolvedRule where
  id : String
  targetGroupID : String
  targetGroupName : String
  expression : String
  position : ℕ
  isTerminal : Bool
deriving DecidableEq

def resolveRules (rules : List PolicyRule) (groups : List NodeGroup) : List ResolvedRule :=
  let sorted := sortRules rules
  let standard := sorted.filter (fun r => !isMatchRule rt r.expression)
  let terminal := sorted.filter (fun r => isMatchRule rt r.expression)
  (standard ++ terminal).mapIdx (fun i r =>
    { id := r.id
      targetGroupID := r.targetGroupID
      targetGroupName := (mapOf (·.id) groups r.targetGroupID).elim "" (·.name)
      expression := r.expression
      position := i
      isTerminal := isMatchRule rt r.expression })

end

end ClashSubParser
