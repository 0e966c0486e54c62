import ClashSubParser.MemberSources
import ClashSubParser.MemoRecursion
import ClashSubParser.NodeAdmission

/-! The member pipeline of a policy group. Recursive calls go through the memo table of `MemoRecursion`. -/
namespace ClashSubParser

open MemoRecursion StableSort

inductive MemberKind
  | group | node | builtin
deriving DecidableEq

structure ResolvedItem where
  kind : MemberKind
  targetID : String
  displayName : String
deriving DecidableEq

def ResolvedItem.id (item : ResolvedItem) : String :=
  match item.kind with
  | .node => "node:" ++ item.targetID
  | .group => "group:" ++ item.targetID
  | .builtin => "builtin:" ++ item.targetID

structure ResolvedGroupMember where
  kind : MemberKind
  targetID : String
  displayName : String
  position : ℕ
deriving DecidableEq

structure GroupMemo where
  members : List ResolvedGroupMember := []
  childGroupIDs : List String := []
  nodeLogicalIDs : List String := []
  expandedNodeIDs : List String := []
  effectiveEmptyPass : Bool := false
  leafItems : List ResolvedItem := []
  leafNodeSet : List String := []
  candidateCount : ℕ := 0

def GroupMemo.empty : GroupMemo := {}

/-- The variables the closures of `resolveGroups` share. -/
structure GroupContext where
  groupMap : String → Option NodeGroup
  globalAdmittedMap : String → Option Node
  admittedNodeMap : String → Option Node
  sortedGlobalNodes : List Node
  nodeSources : String → List NodeSource
  latestObs : String → GoMap ProbeObservation
  asOf : Time

def sortSources (sources : List MemberSource) : List MemberSource :=
  stableSort (keyLess (·.position)) sources

namespace GroupContext

def groupSources (ctx : GroupContext) (gid : String) : List MemberSource :=
  (ctx.groupMap gid).elim [] (fun g => sortSources g.sources)

def matchesNode (ctx : GroupContext) (rt : Runtime) (spec : Option NodeFilterSpec) (nodeID : String)
    (node : Node) : Bool × String :=
  matchesFilter rt spec node (ctx.nodeSources nodeID) (ctx.latestObs nodeID) ctx.asOf

end GroupContext

def nodeItem (nodeID displayName : String) : ResolvedItem := ⟨.node, nodeID, displayName⟩

def groupItem (g : NodeGroup) (targetID : String) : ResolvedItem := ⟨.group, targetID, g.name⟩

def builtinItem (name : String) : ResolvedItem := ⟨.builtin, name, name⟩

def builtinOf (rt : Runtime) (given : String) : String := Strings.toUpper rt (Strings.trimSpace given)

structure PipelineState where
  currentItems : List ResolvedItem := []
  seenInCurrentSet : String → Bool := fun _ => false
  candidateCount : ℕ := 0

namespace PipelineState

variable (st : PipelineState)

def push (item : ResolvedItem) : PipelineState :=
  if st.seenInCurrentSet item.id then st
  else { st with
    seenInCurrentSet := Function.update st.seenInCurrentSet item.id true
    currentItems := st.currentItems ++ [item] }

def pushAll (items : List ResolvedItem) : PipelineState := items.foldl push st

def count (n : ℕ) : PipelineState :=
  { st with candidateCount := st.candidateCount + n }

end PipelineState

/-- A computation inside `resolveGroupMemo`: it may resolve other groups and emit diagnostics. -/
abbrev GroupComp (α : Type) := Comp String GroupMemo Diagnostic α

section

variable (rt : Runtime) (ctx : GroupContext) (g : NodeGroup)

def addManualNode (s : MemberSource) (st : PipelineState) : GroupComp PipelineState :=
  let st := st.count 1
  match s.nodeLogicalID with
  | none => pure st
  | some nodeID =>
    match ctx.globalAdmittedMap nodeID, ctx.admittedNodeMap nodeID with
    | some node, _ =>
      let r := ctx.matchesNode rt s.filterSpec nodeID node
      if r.1 then pure (st.push (nodeItem nodeID node.displayName))
      else do
        Comp.tell
          { severity := .warning
            code := "group_member_filtered"
            message := "group " ++ Strconv.quote rt g.name ++ " explicit member " ++
              Strconv.quote rt node.displayName ++ " (" ++ nodeID ++ ") excluded by source filter: " ++ r.2
            target := nodeID
            reason := r.2 }
        pure st
    | none, some origNode => do
      Comp.tell
        { severity := .warning
          code := "group_member_filtered"
          message := "group " ++ Strconv.quote rt g.name ++ " explicit member " ++
            Strconv.quote rt origNode.displayName ++ " (" ++ nodeID ++ ") excluded by global filter"
          target := nodeID
          reason := "excluded by global filter" }
      pure st
    | none, none => do
      Comp.tell
        { severity := .warning
          code := "node_inactive_or_missing"
          message := "group " ++ Strconv.quote rt g.name ++ " references node " ++ nodeID ++
            " which is missing, inactive, or excluded"
          target := nodeID }
      pure st

variable (s : MemberSource) (st : PipelineState)

def addGroupRef : GroupComp PipelineState :=
  match s.targetGroupID with
  | none => pure st
  | some targetID =>
    match ctx.groupMap targetID with
    | some tg => pure (st.push (groupItem tg targetID))
    | none => do
      Comp.tell
        { severity := .warning
          code := "target_group_not_found"
          message := "target group " ++ targetID ++ " not found"
          target := targetID }
      pure st

/-- Whether a leaf of the target group passes the pattern and the filter of a `group_nodes` source.
A pattern that does not compile is not applied. -/
def leafPasses (leaf : ResolvedItem) : Bool :=
  if leaf.kind = .node then
    match ctx.globalAdmittedMap leaf.targetID with
    | none => false
    | some node =>
      (isBlank s.pattern ||
        match compileFilterRegex rt (s.pattern.getD "") with
        | .ok re => matchOrFalse re node.displayName
        | .error _ => true) &&
      (ctx.matchesNode rt s.filterSpec leaf.targetID node).1
  else true

def addGroupNodes : GroupComp PipelineState :=
  match s.targetGroupID with
  | none => pure st
  | some targetID =>
    match ctx.groupMap targetID with
    | none => pure st
    | some _ => do
      let childRes ← Comp.ask targetID
      pure ((st.count childRes.leafItems.length).pushAll
        (childRes.leafItems.filter (leafPasses rt ctx s)))

def addRegex (s : MemberSource) (st : PipelineState) : GroupComp PipelineState :=
  let st := st.count ctx.sortedGlobalNodes.length
  if isBlank s.pattern then pure st
  else
    match compileFilterRegex rt (s.pattern.getD "") with
    | .error err => do
      Comp.tell
        { severity := .error
          code := "invalid_regex"
          message := "group " ++ Strconv.quote rt g.name ++ " regex invalid: " ++ err.error }
      pure st
    | .ok re =>
      pure (st.pushAll ((ctx.sortedGlobalNodes.filter (fun n => matchOrFalse re n.displayName)).map
        (fun n => nodeItem n.logicalID n.displayName)))

def addFilter : GroupComp PipelineState :=
  let st := st.count ctx.sortedGlobalNodes.length
  match s.filterSpec with
  | none => pure st
  | some spec =>
    pure (st.pushAll ((ctx.sortedGlobalNodes.filter
        (fun n => (ctx.matchesNode rt (some spec) n.logicalID n).1)).map
      (fun n => nodeItem n.logicalID n.displayName)))

def addTypedBuiltin : GroupComp PipelineState :=
  match s.builtinName with
  | none => pure st
  | some given => pure (st.push (builtinItem (builtinOf rt given)))

def addSource (s : MemberSource) (st : PipelineState) : GroupComp PipelineState :=
  match s.kind with
  | .manualNode => addManualNode rt ctx g s st
  | .groupRef => addGroupRef ctx s st
  | .groupNodes => addGroupNodes rt ctx s st
  | .regex => addRegex rt ctx g s st
  | .filter => addFilter rt ctx s st
  | .typedBuiltin => addTypedBuiltin rt s st
  | .other _ _ => pure st

variable (item : ResolvedItem)

def shouldRemove : GroupComp Bool :=
  match s.kind with
  | .manualNode => pure (item.kind = .node && s.nodeLogicalID = some item.targetID)
  | .groupRef => pure (item.kind = .group && s.targetGroupID = some item.targetID)
  | .groupNodes =>
    match s.targetGroupID with
    | none => pure false
    | some targetID =>
      if item.kind = .node then do
        let childRes ← Comp.ask targetID
        pure (childRes.leafNodeSet.contains item.targetID)
      else pure false
  | .regex =>
    match s.pattern with
    | none => pure false
    | some pattern =>
      match compileFilterRegex rt pattern with
      | .ok re => pure (item.kind = .node && matchOrFalse re item.displayName)
      | .error _ => pure false
  | .filter =>
    match s.filterSpec, ctx.globalAdmittedMap item.targetID with
    | some spec, some node =>
      pure (item.kind = .node && (ctx.matchesNode rt (some spec) item.targetID node).1)
    | _, _ => pure false
  | .typedBuiltin =>
    pure (item.kind = .builtin && s.builtinName.any (fun given => item.targetID = builtinOf rt given))
  | .other _ _ => pure false

/-- One item of the removal loop: it goes to the remaining ones or loses its seen marker. -/
def removeStep :
    GroupComp PipelineState := do
  if ← shouldRemove rt ctx s item then
    pure { st with seenInCurrentSet := Function.update st.seenInCurrentSet item.id false }
  else pure { st with currentItems := st.currentItems ++ [item] }

def removeSource : GroupComp PipelineState :=
  st.currentItems.foldlM (removeStep rt ctx s) { st with currentItems := [] }

def sourceStep (st : PipelineState) (s : MemberSource) : GroupComp PipelineState :=
  match s.operation with
  | .add => addSource rt ctx g s st
  | .remove => removeSource rt ctx s st
  | .other _ _ => pure st

structure LeafState where
  childGroupIDs : List String := []
  nodeLogicalIDs : List String := []
  leafItems : List ResolvedItem := []
  leafNodeSet : List String := []

/-- The filter of the first `group_ref` source for the child that has one, in input order and
whatever its operation. -/
def srcFilter (childID : String) : Option NodeFilterSpec :=
  (g.sources.find? (fun src => src.kind = .groupRef && src.targetGroupID = some childID &&
    src.filterSpec.isSome)).bind (·.filterSpec)

/-- Whether a leaf of a child survives the filter `spec` on the reference to the child. -/
def leafSurvives (spec : Option NodeFilterSpec) (leaf : ResolvedItem) : Bool :=
  if leaf.kind = .node ∧ spec.isSome then
    match ctx.globalAdmittedMap leaf.targetID with
    | none => false
    | some node => (ctx.matchesNode rt spec leaf.targetID node).1
  else true

def nodeTargets (items : List ResolvedItem) : List String :=
  (items.filter (·.kind = .node)).map (·.targetID)

def leafStep (st : LeafState) (item : ResolvedItem) : GroupComp LeafState :=
  match item.kind with
  | .group => do
    let childRes ← Comp.ask item.targetID
    let kept := childRes.leafItems.filter (leafSurvives rt ctx (srcFilter g item.targetID))
    pure { st with
      childGroupIDs := st.childGroupIDs ++ [item.targetID]
      leafItems := st.leafItems ++ kept
      leafNodeSet := st.leafNodeSet ++ nodeTargets kept }
  | .node => pure { st with
      nodeLogicalIDs := st.nodeLogicalIDs ++ [item.targetID]
      leafItems := st.leafItems ++ [item]
      leafNodeSet := st.leafNodeSet ++ [item.targetID] }
  | .builtin => pure { st with leafItems := st.leafItems ++ [item] }

def memberOf (position : ℕ) : ResolvedGroupMember :=
  ⟨item.kind, item.targetID, item.displayName, position⟩

def membersOf (items : List ResolvedItem) : List ResolvedGroupMember :=
  items.mapIdx (fun i item => memberOf item i)

def finishGroup (st : PipelineState) (leaf : LeafState) : GroupMemo :=
  let expanded := sortedSet leaf.leafNodeSet
  let hasDestinations := !expanded.isEmpty || st.currentItems.any (·.kind = .builtin)
  { members := membersOf st.currentItems
    childGroupIDs := leaf.childGroupIDs
    nodeLogicalIDs := leaf.nodeLogicalIDs
    expandedNodeIDs := expanded
    effectiveEmptyPass := g.emptyFallbackPass && !hasDestinations
    leafItems := leaf.leafItems
    leafNodeSet := leaf.leafNodeSet
    candidateCount := st.candidateCount }

def groupBody (gid : String) : Option (GroupComp GroupMemo) :=
  (ctx.groupMap gid).map fun g => do
    let st ← (sortSources g.sources).foldlM (sourceStep rt ctx g) {}
    let leaf ← st.currentItems.foldlM (leafStep rt ctx g) {}
    pure (finishGroup g st leaf)

abbrev GroupMemoState := MemoState String GroupMemo Diagnostic

def resolveGroupMemo (fuel : ℕ) (gid : String) (st : GroupMemoState) : GroupMemo × GroupMemoState :=
  memoRec (groupBody rt ctx) GroupMemo.empty fuel gid st

end

end ClashSubParser
