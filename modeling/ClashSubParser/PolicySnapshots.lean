import ClashSubParser.PolicyRepository

/-! `RestorePolicySnapshot`: the rollback of all groups to a snapshot, and where its rows come from. -/
namespace ClashSubParser

open List FirstError KeyedTable

abbrev RevisionVector := Table (Prod.fst : String × Int → String)

namespace PolicyStore

section

variable (rt : Runtime)

def checkExpected (expected : RevisionVector) (row : GroupRow) : Except GoError Unit :=
  if (expected.get? row.id).map Prod.snd = some row.revision then .ok ()
  else
    .error (.domain
      { newConflictError rt "revision_conflict" "policy group changed; reload before rollback" with
        currentRevision := some row.revision })

def checkVector (st : PolicyStore) (expected : RevisionVector) : Except GoError Unit :=
  if st.groups.rows.length ≠ expected.rows.length then
    .error (.domain (newConflictError rt "revision_conflict" "policy group set changed; reload before rollback"))
  else forEach (checkExpected rt expected) st.groups.rows

/-- The revision a restored group gets: above the current one and above that of the snapshot. -/
def restoreRevision (st : PolicyStore) (g : NodeGroup) : Int :=
  let current := ((st.groups.get? g.id).map (·.revision)).getD 0
  let next := int64 (current+1)
  if next ≤ g.revision then int64 (g.revision+1) else next

def upsertGroups (st : PolicyStore) : List NodeGroup → PolicyStore → PolicyStore
  | [], acc => acc
  | g :: rest, acc => upsertGroups st rest (acc.putGroup (groupRow g (restoreRevision st g)))

def removeGroups : List String → PolicyStore → Except GoError PolicyStore
  | [], st => .ok st
  | id :: rest, st =>
    if 0 < (st.rules.rows.filter (·.targetGroupID = id)).length then
      .error (.domain (newConflictError rt "group_in_use" "rollback would remove a routing rule target"))
    else
      match st.removeGroup id with
      | .error err => .error err
      | .ok st' => removeGroups rest st'

def snapshotRow (gid : String) (s : MemberSource) : SourceRow where
  id := s.id
  groupID := gid
  operation := s.operation
  kind := s.kind
  position := s.position
  nodeLogicalID := s.nodeLogicalID
  targetGroupID := s.targetGroupID
  pattern := s.pattern
  filterSpec := s.filterSpec
  builtinName := s.builtinName

def insertRows : List SourceRow → PolicyStore → Except GoError PolicyStore
  | [], st => .ok st
  | row :: rest, st =>
    match st.insertSource row with
    | .error err => .error err
    | .ok st' => insertRows rest st'

/-- `RestorePolicySnapshot`, where `snapshot` is what `GetPolicySnapshot` returns. -/
def restorePolicySnapshot (st : PolicyStore) (snapshot : Except GoError (List NodeGroup))
    (expected : RevisionVector) : Except GoError PolicyStore := do
  let groups ← snapshot
  validatePolicyTopology rt groups [] [] false
  checkVector rt st expected
  let upserted := upsertGroups st groups (st.clearSources (fun _ => true))
  let kept ← removeGroups rt (st.groups.keys.filter (· ∉ groupIDs groups)) upserted
  insertRows (groups.flatMap (fun g => g.sources.map (snapshotRow g.id))) kept

end

section

variable {rt : Runtime} {st st' : PolicyStore}

theorem lt_restoreRevision {g : NodeGroup} {row : GroupRow} (hg : int64 (g.revision+1) = g.revision+1)
    (hge : st.groups.get? g.id = some row) (hr : int64 (row.revision+1) = row.revision+1) :
    row.revision < restoreRevision st g := by
  have hn : restoreRevision st g =
      if int64 (row.revision+1) ≤ g.revision then int64 (g.revision+1) else int64 (row.revision+1) := by
    rw [restoreRevision, hge]
    rfl
  rw [hn, hg, hr]
  split_ifs <;> omega

theorem max_lt_restoreRevision {g : NodeGroup} (hg : int64 (g.revision+1) = g.revision+1)
    (hge : st.groups.get? g.id = none) : max 0 g.revision < restoreRevision st g := by
  have ho : int64 (0+1) = 1 := by decide
  have hn : restoreRevision st g =
      if int64 (0+1) ≤ g.revision then int64 (g.revision+1) else int64 (0+1) := by
    rw [restoreRevision, hge]
    rfl
  rw [hn, hg, ho]
  split_ifs <;> omega

theorem insertRows_groups : ∀ {rows : List SourceRow} {st st' : PolicyStore},
    insertRows rows st = .ok st' → st'.groups = st.groups := by
  intro rows
  induction rows with
  | nil =>
    intro st st' h
    rw [← Except.ok.inj h]
  | cons row rest ih =>
    intro st st' h
    rw [insertRows] at h
    cases ho : st.insertSource row with
    | error err => simp [ho] at h
    | ok st₁ =>
      simp only [ho] at h
      exact (ih h).trans (insertSource_ok ho).1

theorem mem_removeGroups : ∀ {ids : List String} {st st' : PolicyStore}, removeGroups rt ids st = .ok st' →
    ∀ row ∈ st'.groups.rows, row ∈ st.groups.rows ∧ row.id ∉ ids := by
  intro ids
  induction ids with
  | nil =>
    intro st st' h row hr
    rw [← Except.ok.inj h] at hr
    exact ⟨hr, not_mem_nil⟩
  | cons id rest ih =>
    intro st st' h row hr
    rw [removeGroups] at h
    split_ifs at h
    cases hre : st.removeGroup id with
    | error err => simp [hre] at h
    | ok st₁ =>
      simp only [hre] at h
      obtain ⟨hm, hrt⟩ := ih h row hr
      rw [(removeGroup_ok hre).1, Table.mem_deleteWhere, decide_eq_false_iff_not] at hm
      refine ⟨hm.1, ?_⟩
      intro hid
      rcases mem_cons.mp hid with heq | hid
      · exact hm.2 heq
      · exact hrt hid

theorem mem_upsertGroups : ∀ {groups : List NodeGroup} {acc : PolicyStore}, ∀ row ∈
    (upsertGroups st groups acc).groups.rows, (row ∈ acc.groups.rows ∧ row.id ∉ groupIDs groups) ∨
    ∃ g ∈ groups, row = groupRow g (restoreRevision st g) := by
  intro groups
  induction groups with
  | nil =>
    intro acc row hr
    exact Or.inl ⟨hr, not_mem_nil⟩
  | cons g rest ih =>
    intro acc row hr
    rcases ih row hr with ⟨hm, hre⟩ | ⟨g', hg', rfl⟩
    · rcases Table.mem_put.mp hm with ⟨ho, hne⟩ | rfl
      · refine Or.inl ⟨ho, ?_⟩
        intro hid
        rcases mem_cons.mp hid with heq | hid
        · exact hne heq
        · exact hre hid
      · exact Or.inr ⟨g, mem_cons_self, rfl⟩
    · exact Or.inr ⟨g', mem_cons_of_mem _ hg', rfl⟩

/-- After a rollback every row is that of a group of the snapshot, at its new revision. -/
theorem restorePolicySnapshot_ok {snapshot : Except GoError (List NodeGroup)} {expected : RevisionVector}
    (h : restorePolicySnapshot rt st snapshot expected = .ok st') : ∃ groups, snapshot = .ok groups ∧
      ∀ row ∈ st'.groups.rows, ∃ g ∈ groups, row = groupRow g (restoreRevision st g) := by
  obtain ⟨groups, hs, h⟩ := bind_eq_ok_iff.mp h
  obtain ⟨_, -, h⟩ := bind_eq_ok_iff.mp h
  obtain ⟨_, -, h⟩ := bind_eq_ok_iff.mp h
  obtain ⟨kept, hk, h⟩ := bind_eq_ok_iff.mp h
  refine ⟨groups, hs, fun row hr => ?_⟩
  rw [insertRows_groups h] at hr
  obtain ⟨hm, ho⟩ := mem_removeGroups hk row hr
  rcases mem_upsertGroups row hm with ⟨hol, hid⟩ | hre
  · -- a group that is not in the snapshot has been deleted
    have hke : row.id ∈ st.groups.keys := Table.mem_keys.mpr ⟨row, hol, rfl⟩
    exact absurd (mem_filter.mpr ⟨hke, decide_eq_true hid⟩) ho
  · exact hre

end

end PolicyStore

end ClashSubParser
