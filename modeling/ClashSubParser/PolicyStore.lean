import ClashSubParser.KeyedTable
import ClashSubParser.LegacySources

/-! The tables of the policy graph with the constraints of the schema. Each function is one transaction. -/
namespace ClashSubParser

open List KeyedTable StableSort

structure GroupRow where
  id : String
  name : String
  groupType : GroupType
  emptyFallbackPass : Bool
  revision : Int
deriving DecidableEq

/-- A row of `policy_group_sources`; a filter is kept as the value its JSON text stands for. -/
structure SourceRow where
  id : String
  groupID : String
  operation : SourceOperation
  kind : MemberSourceKind
  position : Int
  nodeLogicalID : Option String
  targetGroupID : Option String
  pattern : Option String
  filterSpec : Option NodeFilterSpec
  builtinName : Option String
deriving DecidableEq

def SourceRow.checked (r : SourceRow) : Bool :=
  r.operation.isValid && r.kind.isValid &&
    r.builtinName.all (["PASS", "DIRECT", "REJECT", "REJECT-DROP"].contains ·)

def SourceRow.toSource (r : SourceRow) : MemberSource where
  id := r.id
  groupID := r.groupID
  operation := r.operation
  kind := r.kind
  position := r.position
  nodeLogicalID := r.nodeLogicalID
  targetGroupID := r.targetGroupID
  pattern := r.pattern
  filterSpec := r.filterSpec
  builtinName := r.builtinName

/-- The three tables of the graph, with primary keys, foreign keys and CHECK constraints. -/
structure PolicyStore where
  groups : Table GroupRow.id
  sources : Table SourceRow.id
  rules : Table PolicyRule.id
  checked : ∀ s ∈ sources.rows, s.checked = true
  owner : ∀ s ∈ sources.rows, s.groupID ∈ groups.keys
  target : ∀ s ∈ sources.rows, ∀ t ∈ s.targetGroupID, t ∈ groups.keys
  ruleTarget : ∀ r ∈ rules.rows, r.targetGroupID ∈ groups.keys

namespace PolicyStore

def empty : PolicyStore :=
  ⟨Table.empty, Table.empty, Table.empty, by simp, by simp, by simp, by simp⟩

section

def constraintError (which : String) : GoError := .plain ("constraint failed: " ++ which)

variable (st : PolicyStore)

def putGroup (row : GroupRow) : PolicyStore where
  groups := st.groups.put row
  sources := st.sources
  rules := st.rules
  checked := st.checked
  owner s hs := Table.mem_keys_put.mpr (Or.inl (st.owner s hs))
  target s hs t ht := Table.mem_keys_put.mpr (Or.inl (st.target s hs t ht))
  ruleTarget r hr := Table.mem_keys_put.mpr (Or.inl (st.ruleTarget r hr))

def clearSources (p : SourceRow → Bool) : PolicyStore where
  groups := st.groups
  sources := st.sources.deleteWhere p
  rules := st.rules
  checked s hs := st.checked s (Table.mem_deleteWhere.mp hs).1
  owner s hs := st.owner s (Table.mem_deleteWhere.mp hs).1
  target s hs := st.target s (Table.mem_deleteWhere.mp hs).1
  ruleTarget := st.ruleTarget

def insertSource (row : SourceRow) : Except GoError PolicyStore :=
  if hcheck : row.checked = true then
    if hkey : row.id ∈ st.sources.keys then .error (constraintError "UNIQUE constraint failed: policy_group_sources.id")
    else if hforeign : row.groupID ∈ st.groups.keys ∧ ∀ t ∈ row.targetGroupID, t ∈ st.groups.keys then
      .ok
        { groups := st.groups
          sources := st.sources.insert row hkey
          rules := st.rules
          checked := by
            intro s hs
            rcases mem_append.mp hs with hs | hs
            · exact st.checked s hs
            · exact mem_singleton.mp hs ▸ hcheck
          owner := by
            intro s hs
            rcases mem_append.mp hs with hs | hs
            · exact st.owner s hs
            · exact mem_singleton.mp hs ▸ hforeign.1
          target := by
            intro s hs
            rcases mem_append.mp hs with hs | hs
            · exact st.target s hs
            · exact mem_singleton.mp hs ▸ hforeign.2
          ruleTarget := st.ruleTarget }
    else .error (constraintError "FOREIGN KEY constraint failed")
  else .error (constraintError "CHECK constraint failed")

/-- DELETE of a group: its sources and the rules that lead to it go with it, and a source that refers to
it forbids the deletion. -/
def removeGroup (id : String) : Except GoError PolicyStore :=
  if hfree : ∀ s ∈ st.sources.rows, s.targetGroupID ≠ some id then
    .ok
      { groups := st.groups.deleteWhere (·.id = id)
        sources := st.sources.deleteWhere (·.groupID = id)
        rules := st.rules.deleteWhere (·.targetGroupID = id)
        checked := fun s hs => st.checked s (Table.mem_deleteWhere.mp hs).1
        owner := by
          intro s hs
          obtain ⟨hs, hne⟩ := Table.mem_deleteWhere.mp hs
          obtain ⟨row, hrow, hid⟩ := Table.mem_keys.mp (st.owner s hs)
          refine Table.mem_keys.mpr ⟨row, Table.mem_deleteWhere.mpr ⟨hrow, ?_⟩, hid⟩
          rwa [hid]
        target := by
          intro s hs t ht
          obtain ⟨hmem, -⟩ := Table.mem_deleteWhere.mp hs
          obtain ⟨row, hrow, hid⟩ := Table.mem_keys.mp (st.target s hmem t ht)
          refine Table.mem_keys.mpr ⟨row, Table.mem_deleteWhere.mpr ⟨hrow, decide_eq_false ?_⟩, hid⟩
          intro heq
          apply hfree s hmem
          rw [← heq, hid]
          exact ht
        ruleTarget := by
          intro r hr
          obtain ⟨hr, hne⟩ := Table.mem_deleteWhere.mp hr
          obtain ⟨row, hrow, hid⟩ := Table.mem_keys.mp (st.ruleTarget r hr)
          refine Table.mem_keys.mpr ⟨row, Table.mem_deleteWhere.mpr ⟨hrow, ?_⟩, hid⟩
          rwa [hid] }
  else .error (constraintError "FOREIGN KEY constraint failed")

end

section

variable (rt : Runtime) (st : PolicyStore)

def fetchSourcesForGroup (gid : String) : List MemberSource :=
  (stableSort (keyLess (·.position)) (st.sources.rows.filter (·.groupID = gid))).map SourceRow.toSource

def groupOf (row : GroupRow) : NodeGroup where
  emptyFallbackPass := row.emptyFallbackPass
  id := row.id
  name := row.name
  groupType := row.groupType
  revision := row.revision
  sources := st.fetchSourcesForGroup row.id

def getGroupByID (id : String) : Except GoError NodeGroup :=
  match st.groups.get? id with
  | none => .error (.domain (newNotFoundError rt "node_group_not_found" ("node group " ++ id ++ " not found")))
  | some row => .ok (st.groupOf row)

def listGroups : List NodeGroup :=
  stableSort (thenLess (·.name) (keyLess (·.id))) (st.groups.rows.map st.groupOf)

def listEdgesByGroup (gid : String) : List GroupEdge := projectSourceEdges (st.fetchSourcesForGroup gid)

end

end PolicyStore

end ClashSubParser
