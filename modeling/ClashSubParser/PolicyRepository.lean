import ClashSubParser.PolicyStore

/-! The writing functions of the policy repository and what a successful call has done. -/
namespace ClashSubParser

open List KeyedTable StableSort

namespace PolicyStore

section

variable (rt : Runtime)

/-- The row for the source at index `i`; empty texts become NULL. -/
def sourceRow (gid : String) (i : ℕ) (id : String) (s : MemberSource) : SourceRow where
  id := id
  groupID := gid
  operation := s.operation
  kind := s.kind
  position := i
  nodeLogicalID := nonEmpty s.nodeLogicalID
  targetGroupID := nonEmpty s.targetGroupID
  pattern := nonEmpty s.pattern
  filterSpec := s.filterSpec
  builtinName := nonEmpty s.builtinName

/-- The loop that inserts the sources; `newID i` is what `NewUUIDv7` returns for the source at `i`.
Also returns the sources as they are reported back. -/
def insertSources (gid : String) (newID : ℕ → Except GoError String) :
    List (MemberSource × ℕ) → PolicyStore → Except GoError (PolicyStore × List MemberSource)
  | [], st => .ok (st, [])
  | (s, i) :: rest, st =>
    match if s.id = "" then newID i else .ok s.id with
    | .error err => .error err
    | .ok id =>
      match st.insertSource (sourceRow gid i id s) with
      | .error err => .error (.wrapped ("failed to insert source " ++ toString i ++ ": ") err)
      | .ok st' =>
        match insertSources gid newID rest st' with
        | .error err => .error err
        | .ok (st'', saved) => .ok (st'', { s with id := id, groupID := gid, position := i } :: saved)

def revisionConflict (current : Int) : GoError :=
  .domain
    { newConflictError rt "revision_conflict"
        ("Policy group revision mismatch. Current revision is " ++ toString current ++ ".") with
      currentRevision := some current }

/-- The optimistic check of `SaveGroupWithSources` and the revision it goes on to. An expected revision
that is not positive is not compared. -/
def nextRevision (st : PolicyStore) (gid : String) (expected : Int) : Except GoError Int :=
  match st.groups.get? gid with
  | some row =>
    if 0 < expected ∧ expected ≠ row.revision then .error (revisionConflict rt row.revision)
    else .ok (int64 (row.revision+1))
  | none => if 0 < expected then .error (revisionConflict rt 0) else .ok 1

def groupRow (group : NodeGroup) (revision : Int) : GroupRow :=
  ⟨group.id, group.name, group.groupType, group.emptyFallbackPass, revision⟩

variable (newID : ℕ → Except GoError String)

def saveGroupWithSources (st : PolicyStore) (group : NodeGroup)
    (expected : Int) (sources : List MemberSource) : Except GoError (PolicyStore × NodeGroup) :=
  let numbered := sources.mapIdx (fun i s => { s with position := i })
  match forEach (validateMemberSource rt) numbered with
  | .error err => .error err
  | .ok _ =>
    match nextRevision rt st group.id expected with
    | .error err => .error err
    | .ok revision =>
      let cleared := (st.putGroup (groupRow group revision)).clearSources (·.groupID = group.id)
      match insertSources group.id newID numbered.zipIdx cleared with
      | .error err => .error err
      | .ok (st', saved) => .ok (st', { group with revision := revision, sources := saved })

def saveBase (st : PolicyStore) (group : NodeGroup) (create : Bool) :
    Except GoError (List MemberSource × Int) :=
  if create then .ok (group.sources, 0)
  else
    match st.getGroupByID rt group.id with
    | .error err => .error err
    | .ok current => .ok (current.sources, if group.revision = 0 then current.revision else group.revision)

def saveGroup (st : PolicyStore) (group : NodeGroup) (create : Bool)
    (edges : Option (List GroupEdge)) (changeFilter : Bool) (filter : Option NodeFilterSpec) :
    Except GoError (PolicyStore × NodeGroup) :=
  match filter.elim (.ok ()) (NodeFilterSpec.validate rt) with
  | .error err => .error err
  | .ok _ =>
    match saveBase rt st group create with
    | .error err => .error err
    | .ok (sources, expected) =>
      match if edges.isSome || changeFilter then
          editLegacySources rt group.id sources edges changeFilter filter else .ok sources with
      | .error err => .error err
      | .ok sources => saveGroupWithSources rt newID st group expected sources

def setEdgesForGroup (st : PolicyStore) (parentGroupID : String)
    (edges : List GroupEdge) : Except GoError PolicyStore :=
  match st.getGroupByID rt parentGroupID with
  | .error err => .error err
  | .ok group =>
    match saveGroup rt newID st group false (some edges) false none with
    | .error err => .error err
    | .ok (st', _) => .ok st'

def deleteGroup (st : PolicyStore) (id : String) : Except GoError PolicyStore :=
  let n := (st.sources.rows.filter (fun s => s.targetGroupID = some id && s.groupID ≠ id)).length +
    (st.rules.rows.filter (·.targetGroupID = id)).length
  if 0 < n then
    .error (.domain (newConflictError rt "group_in_use"
      "group is referenced by member sources or routing rules"))
  else
    match st.removeGroup id with
    | .error err => .error err
    | .ok st' =>
      if id ∈ st.groups.keys then .ok st'
      else .error (.domain (newNotFoundError rt "node_group_not_found" "group not found"))

end

section

variable {rt : Runtime} {newID : ℕ → Except GoError String} {st st' : PolicyStore}

theorem insertSource_ok {row : SourceRow} (h : st.insertSource row = .ok st') :
    st'.groups = st.groups ∧ st'.rules = st.rules ∧ st'.sources.rows = st.sources.rows ++ [row] := by
  unfold insertSource at h
  split_ifs at h
  obtain rfl := Except.ok.inj h
  exact ⟨rfl, rfl, rfl⟩

theorem insertSources_ok {gid : String} : ∀ {list : List (MemberSource × ℕ)} {st st' : PolicyStore}
    {saved : List MemberSource}, insertSources gid newID list st = .ok (st', saved) →
    st'.groups = st.groups ∧ st'.rules = st.rules ∧ ∃ rows, st'.sources.rows = st.sources.rows ++ rows ∧
      List.Forall₂ (fun p row => ∃ id, row = sourceRow gid p.2 id p.1) list rows := by
  intro list
  induction list with
  | nil =>
    intro st st' saved h
    obtain ⟨rfl, -⟩ := Prod.mk.inj (Except.ok.inj h)
    exact ⟨rfl, rfl, [], (append_nil _).symm, .nil⟩
  | cons p rest ih =>
    obtain ⟨s, i⟩ := p
    intro st st' saved h
    rw [insertSources] at h
    cases hid : (if s.id = "" then newID i else .ok s.id) with
    | error err => simp [hid] at h
    | ok id =>
      simp only [hid] at h
      cases ho : st.insertSource (sourceRow gid i id s) with
      | error err => simp [ho] at h
      | ok st₁ =>
        simp only [ho] at h
        cases hr : insertSources gid newID rest st₁ with
        | error err => simp [hr] at h
        | ok r =>
          obtain ⟨st₂, saved₂⟩ := r
          simp only [hr, Except.ok.injEq, Prod.mk.injEq] at h
          obtain ⟨rfl, -⟩ := h
          obtain ⟨hgs, hrl, hro⟩ := insertSource_ok ho
          obtain ⟨hg₂, hrl₂, rows, hr₂, ha⟩ := ih hr
          refine ⟨hg₂.trans hgs, hrl₂.trans hrl, sourceRow gid i id s :: rows, ?_,
            .cons ⟨id, rfl⟩ ha⟩
          rw [hr₂, hro, append_assoc, singleton_append]

structure Saved (rt : Runtime) (st : PolicyStore) (group : NodeGroup) (expected : Int)
    (given : List MemberSource) (st' : PolicyStore) (next : Int) (inserted : List SourceRow) : Prop where
  valid : ∀ p ∈ given.zipIdx, validateMemberSource rt { p.1 with position := p.2 } = .ok ()
  revision : nextRevision rt st group.id expected = .ok next
  groups : st'.groups = st.groups.put (groupRow group next)
  rules : st'.rules = st.rules
  sources : st'.sources.rows = (st.sources.deleteWhere (·.groupID = group.id)).rows ++ inserted
  rows : List.Forall₂ (fun p row => ∃ id, row = sourceRow group.id p.2 id p.1) given.zipIdx inserted

theorem saveGroupWithSources_ok {group saved : NodeGroup} {expected : Int} {srcs : List MemberSource}
    (h : saveGroupWithSources rt newID st group expected srcs = .ok (st', saved)) :
    ∃ rev rows, Saved rt st group expected srcs st' rev rows := by
  rw [saveGroupWithSources] at h
  -- numbering the numbered sources changes nothing
  have hn : (srcs.mapIdx (fun i s => { s with position := (i : Int) })).zipIdx =
      srcs.zipIdx.map (fun p => ({ p.1 with position := (p.2 : Int) }, p.2)) := by
    apply ext_getElem
    · simp
    · intro i _ _
      simp
  cases hv : forEach (validateMemberSource rt) (srcs.mapIdx fun i s => { s with position := (i : Int) }) with
  | error err => simp [hv] at h
  | ok u =>
    simp only [hv] at h
    cases hr : nextRevision rt st group.id expected with
    | error err => simp [hr] at h
    | ok rev =>
      simp only [hr, hn] at h
      split at h
      · contradiction
      · rename_i st₂ saved₂ hinsert
        obtain ⟨rfl, -⟩ := Prod.mk.inj (Except.ok.inj h)
        obtain ⟨hgs, hrl, rows, hro, ha⟩ := insertSources_ok hinsert
        refine ⟨rev, rows, ?_, hr, hgs, hrl, hro, ?_⟩
        · intro p hp
          apply (forEach_ok_iff _).mp hv
          obtain ⟨i, hi, rfl⟩ := mem_iff_getElem.mp hp
          rw [length_zipIdx] at hi
          exact mem_mapIdx.mpr ⟨i, hi, by simp⟩
        · rw [List.forall₂_map_left_iff] at ha
          exact ha

theorem saveGroup_ok {group saved : NodeGroup} {create : Bool} {edges : Option (List GroupEdge)}
    {changeFilter : Bool} {filter : Option NodeFilterSpec}
    (h : saveGroup rt newID st group create edges changeFilter filter = .ok (st', saved)) :
    ∃ cur expected given rev rows, saveBase rt st group create = .ok (cur, expected) ∧
      (if edges.isSome || changeFilter then editLegacySources rt group.id cur edges changeFilter filter
        else .ok cur) = .ok given ∧
      Saved rt st group expected given st' rev rows := by
  rw [saveGroup] at h
  split at h
  · contradiction
  · cases hb : saveBase rt st group create with
    | error err => simp [hb] at h
    | ok base =>
      obtain ⟨cur, expected⟩ := base
      simp only [hb] at h
      split at h
      · contradiction
      · rename_i given hgv
        obtain ⟨rev, rows, hsv⟩ := saveGroupWithSources_ok h
        exact ⟨cur, expected, given, rev, rows, rfl, hgv, hsv⟩

theorem setEdgesForGroup_ok {parentGroupID : String} {edges : List GroupEdge}
    (h : setEdgesForGroup rt newID st parentGroupID edges = .ok st') :
    ∃ group cur expected given rev rows, st.getGroupByID rt parentGroupID = .ok group ∧
      editLegacySources rt group.id cur (some edges) false none = .ok given ∧
      Saved rt st group expected given st' rev rows := by
  rw [setEdgesForGroup] at h
  cases hgr : st.getGroupByID rt parentGroupID with
  | error err => simp [hgr] at h
  | ok group =>
    simp only [hgr] at h
    split at h
    · contradiction
    · rename_i st₁ saved hsave
      obtain rfl := Except.ok.inj h
      obtain ⟨cur, expected, given, rev, rows, -, hgv, hsv⟩ := saveGroup_ok hsave
      exact ⟨group, cur, expected, given, rev, rows, rfl, hgv, hsv⟩

theorem removeGroup_ok {id : String} (h : st.removeGroup id = .ok st') :
    st'.groups = st.groups.deleteWhere (·.id = id) ∧ st'.sources = st.sources.deleteWhere (·.groupID = id) := by
  unfold removeGroup at h
  split_ifs at h
  obtain rfl := Except.ok.inj h
  exact ⟨rfl, rfl⟩

theorem deleteGroup_ok {id : String} (h : deleteGroup rt st id = .ok st') : st.removeGroup id = .ok st' := by
  rw [deleteGroup] at h
  cases hremove : st.removeGroup id with
  | error err =>
    rw [hremove] at h
    split_ifs at h
  | ok st₁ =>
    rw [hremove] at h
    split_ifs at h
    exact h

end

section

variable {rt : Runtime} {st st' : PolicyStore}

theorem mem_fetchSourcesForGroup {gid : String} {s : MemberSource} :
    s ∈ st.fetchSourcesForGroup gid ↔ ∃ row ∈ st.sources.rows, row.groupID = gid ∧ row.toSource = s := by
  simp only [fetchSourcesForGroup, mem_map, mem_stableSort, mem_filter, decide_eq_true_eq, and_assoc]

theorem mem_listGroups {g : NodeGroup} : g ∈ st.listGroups ↔ ∃ row ∈ st.groups.rows, st.groupOf row = g := by
  rw [listGroups, mem_stableSort, mem_map]

theorem mem_groupIDs_listGroups {u : String} : u ∈ groupIDs st.listGroups ↔ u ∈ st.groups.keys := by
  rw [mem_groupIDs, Table.mem_keys]
  constructor
  · rintro ⟨g, hg, rfl⟩
    obtain ⟨row, hr, rfl⟩ := mem_listGroups.mp hg
    exact ⟨row, hr, rfl⟩
  · rintro ⟨row, hr, rfl⟩
    exact ⟨st.groupOf row, mem_listGroups.mpr ⟨row, hr, rfl⟩, rfl⟩

theorem filter_sources_of_ne {id gid : String} (hne : gid ≠ id) :
    (st.sources.deleteWhere (·.groupID = id)).rows.filter (·.groupID = gid) =
      st.sources.rows.filter (·.groupID = gid) := by
  rw [Table.rows_deleteWhere, filter_filter]
  apply filter_congr
  intro s _
  by_cases hs : s.groupID = gid
  · simp [hs, hne]
  · simp [hs]

theorem sourceTarget_mem {gid v : String} {s : MemberSource} (hs : s ∈ st.fetchSourcesForGroup gid)
    (hv : sourceTarget s = some v) : v ∈ groupIDs st.listGroups := by
  obtain ⟨row, hr, -, rfl⟩ := mem_fetchSourcesForGroup.mp hs
  unfold sourceTarget at hv
  split_ifs at hv
  have htg : row.targetGroupID = some v := (Option.filter_eq_some_iff.mp hv).1
  exact mem_groupIDs_listGroups.mpr (st.target row hr v htg)

theorem getGroupByID_ok {id : String} {g : NodeGroup} (h : st.getGroupByID rt id = .ok g) :
    ∃ row ∈ st.groups.rows, row.id = id ∧ st.groupOf row = g := by
  unfold getGroupByID at h
  cases hg : st.groups.get? id with
  | none => simp [hg] at h
  | some row =>
    rw [hg] at h
    obtain ⟨hr, hid⟩ := Table.get?_eq_some.mp hg
    exact ⟨row, hr, hid, Except.ok.inj h⟩

theorem sourceTarget_sourceRow (gid : String) (i : ℕ) (id : String) (s : MemberSource) :
    sourceTarget (sourceRow gid i id s).toSource = sourceTarget s := by
  have hi (t : Option String) : nonEmpty (nonEmpty t) = nonEmpty t := by
    rw [nonEmpty, nonEmpty, Option.filter_filter]
    simp only [Bool.and_self]
  change (if s.kind = .groupRef ∨ s.kind = .groupNodes then nonEmpty (nonEmpty s.targetGroupID) else none) = _
  rw [hi]
  rfl

theorem isBlank_nonEmpty (t : Option String) : isBlank (nonEmpty t) = isBlank t := by
  cases t with
  | none => rfl
  | some t =>
    by_cases ht : t = ""
    · subst ht
      decide
    · have hk : nonEmpty (some t) = some t := Option.filter_eq_some_iff.mpr ⟨rfl, decide_eq_true ht⟩
      rw [hk]

theorem nonEmpty_of_not_isBlank {t : Option String} (h : ¬isBlank t = true) : nonEmpty t = t := by
  obtain ⟨u, rfl, hu⟩ := (isBlank_eq_false_iff t).mp (Bool.eq_false_iff.mpr h)
  refine Option.filter_eq_some_iff.mpr ⟨rfl, decide_eq_true ?_⟩
  rintro rfl
  exact hu (by decide)

theorem isSome_of_isSome_nonEmpty {t : Option String} (h : (nonEmpty t).isSome = true) : t.isSome = true := by
  cases t with
  | none => exact h
  | some t => rfl

/-- A valid source is valid as it is read back: a text that must not be blank is kept, and a field that
must be absent stays absent. -/
theorem validateMemberSource_sourceRow {s : MemberSource} {i : ℕ}
    (h : validateMemberSource rt { s with position := i } = .ok ()) (gid id : String) :
    validateMemberSource rt (sourceRow gid i id s).toSource = .ok () := by
  have hab {t : Option String} (ht : ¬t.isSome = true) : ¬(nonEmpty t).isSome = true :=
    fun h => ht (isSome_of_isSome_nonEmpty h)
  unfold validateMemberSource at h ⊢
  simp only [ite_invalid_eq_ok] at h ⊢
  obtain ⟨hop, hki, hpo, h⟩ := h
  refine ⟨hop, hki, hpo, ?_⟩
  have hk : (sourceRow gid i id s).toSource.kind = s.kind := rfl
  rw [hk]
  cases hcase : s.kind with
  | manualNode =>
    simp only [hcase, validateManualNode, ite_invalid_eq_ok, not_or] at h ⊢
    obtain ⟨hbl, hid, ⟨htg, hbi⟩, -⟩ := h
    have hn : nonEmpty s.nodeLogicalID = s.nodeLogicalID := nonEmpty_of_not_isBlank hbl
    simp only [sourceRow, SourceRow.toSource, hn]
    exact ⟨hbl, hid, ⟨hab htg, hab hbi⟩, trivial⟩
  | groupRef =>
    simp only [hcase, validateGroupRef, ite_invalid_eq_ok, not_or] at h ⊢
    obtain ⟨hbl, hid, ⟨hn, hbi, hpa⟩, -⟩ := h
    have htg : nonEmpty s.targetGroupID = s.targetGroupID := nonEmpty_of_not_isBlank hbl
    simp only [sourceRow, SourceRow.toSource, htg, isBlank_nonEmpty]
    exact ⟨hbl, hid, ⟨hab hn, hab hbi, hpa⟩, trivial⟩
  | groupNodes =>
    simp only [hcase, validateGroupNodes, ite_invalid_eq_ok, not_or] at h ⊢
    obtain ⟨hbl, hid, ⟨hn, hbi⟩, h⟩ := h
    have htg : nonEmpty s.targetGroupID = s.targetGroupID := nonEmpty_of_not_isBlank hbl
    simp only [sourceRow, SourceRow.toSource, htg, isBlank_nonEmpty]
    refine ⟨hbl, hid, ⟨hab hn, hab hbi⟩, ?_⟩
    by_cases hp : isBlank s.pattern = true
    · simpa only [hp, if_true] using h
    · rw [nonEmpty_of_not_isBlank hp]
      exact h
  | regex =>
    simp only [hcase, validateRegex, ite_invalid_eq_ok] at h ⊢
    obtain ⟨hbl, h⟩ := h
    have hpa : nonEmpty s.pattern = s.pattern := nonEmpty_of_not_isBlank hbl
    simp only [sourceRow, SourceRow.toSource, hpa]
    refine ⟨hbl, ?_⟩
    cases hre : compileFilterRegex rt (s.pattern.getD "") with
    | error err => simp [hre] at h
    | ok re =>
      simp only [hre, ite_invalid_eq_ok, not_or] at h ⊢
      obtain ⟨⟨hn, htg, hbi⟩, -⟩ := h
      exact ⟨⟨hab hn, hab htg, hab hbi⟩, trivial⟩
  | filter =>
    simp only [hcase, validateFilter] at h ⊢
    simp only [sourceRow, SourceRow.toSource]
    cases hs : s.filterSpec with
    | none => simp [hs] at h
    | some spec =>
      simp only [hs] at h ⊢
      cases hv : spec.validate rt with
      | error err => simp [hv] at h
      | ok u =>
        simp only [hv, ite_invalid_eq_ok, not_or] at h ⊢
        obtain ⟨⟨hn, htg, hbi⟩, -⟩ := h
        exact if_neg (not_or.mpr ⟨hab hn, not_or.mpr ⟨hab htg, hab hbi⟩⟩)
  | typedBuiltin =>
    simp only [hcase, validateTypedBuiltin, ite_invalid_eq_ok, not_or] at h ⊢
    obtain ⟨hbl, hna, ⟨hn, htg, hpa, hs⟩, -⟩ := h
    have hbi : nonEmpty s.builtinName = s.builtinName := nonEmpty_of_not_isBlank hbl
    simp only [sourceRow, SourceRow.toSource, hbi]
    exact ⟨hbl, hna, ⟨hab hn, hab htg, hab hpa, hs⟩, trivial⟩
  | other text known => rfl

namespace Saved

variable {group : NodeGroup} {expected next : Int} {given : List MemberSource} {inserted : List SourceRow}

variable (h : Saved rt st group expected given st' next inserted)
include h

theorem mem_groups {row : GroupRow} :
    row ∈ st'.groups.rows ↔ (row ∈ st.groups.rows ∧ row.id ≠ group.id) ∨ row = groupRow group next := by
  rw [h.groups, Table.mem_put]
  rfl

theorem exists_of_mem_inserted {row : SourceRow}
    (hr : row ∈ inserted) : ∃ p ∈ given.zipIdx, ∃ id, row = sourceRow group.id p.2 id p.1 := by
  obtain ⟨i, hi, rfl⟩ := mem_iff_getElem.mp hr
  have hl := h.rows.length_eq
  obtain ⟨id, hid⟩ := h.rows.get (hl ▸ hi) hi
  exact ⟨_, getElem_mem (hl ▸ hi), id, hid⟩

theorem fetchSourcesForGroup_of_ne {gid : String}
    (hne : gid ≠ group.id) : st'.fetchSourcesForGroup gid = st.fetchSourcesForGroup gid := by
  have hn : inserted.filter (·.groupID = gid) = [] := by
    rw [filter_eq_nil_iff]
    intro row hr
    obtain ⟨p, -, -, rfl⟩ := h.exists_of_mem_inserted hr
    exact fun heq => hne (of_decide_eq_true heq).symm
  rw [fetchSourcesForGroup, h.sources, filter_append, hn, append_nil, filter_sources_of_ne hne]
  rfl

theorem groupOf_of_ne {row : GroupRow} (hne : row.id ≠ group.id) : st'.groupOf row = st.groupOf row := by
  rw [groupOf, h.fetchSourcesForGroup_of_ne hne]
  rfl

theorem mem_listGroups {g : NodeGroup} :
    g ∈ st'.listGroups ↔ (g ∈ st.listGroups ∧ g.id ≠ group.id) ∨ g = st'.groupOf (groupRow group next) := by
  rw [PolicyStore.mem_listGroups, PolicyStore.mem_listGroups]
  constructor
  · rintro ⟨row, hr, rfl⟩
    rcases h.mem_groups.mp hr with ⟨hr, hne⟩ | rfl
    · exact .inl ⟨⟨row, hr, (h.groupOf_of_ne hne).symm⟩, hne⟩
    · exact .inr rfl
  · rintro (⟨⟨row, hr, rfl⟩, hne⟩ | rfl)
    · exact ⟨row, h.mem_groups.mpr (.inl ⟨hr, hne⟩), h.groupOf_of_ne hne⟩
    · exact ⟨_, h.mem_groups.mpr (.inr rfl), rfl⟩

theorem exists_of_mem_fetch {s : MemberSource} (hs : s ∈ st'.fetchSourcesForGroup group.id) :
    validateMemberSource rt s = .ok () ∧ ∃ s' ∈ given, sourceTarget s = sourceTarget s' := by
  obtain ⟨row, hr, hgr, rfl⟩ := mem_fetchSourcesForGroup.mp hs
  rw [h.sources, mem_append, Table.mem_deleteWhere] at hr
  rcases hr with ⟨-, hne⟩ | hr
  · exact absurd hgr (of_decide_eq_false hne)
  · obtain ⟨p, hp, id, rfl⟩ := h.exists_of_mem_inserted hr
    exact ⟨validateMemberSource_sourceRow (h.valid p hp) group.id id, p.1, fst_mem_of_mem_zipIdx hp,
      sourceTarget_sourceRow group.id p.2 id p.1⟩

end Saved

end

end PolicyStore

end ClashSubParser
