import ClashSubParser.PolicyTopology
import ClashSubParser.TrimmedText

/-! The legacy view of member sources: edges projected from a pipeline, and edits of a pipeline through
edges and a group filter. -/
namespace ClashSubParser

open List MemberSourceKind

def isLegacyEdge (s : MemberSource) : Bool :=
  s.operation = .add && (s.kind = .groupRef || s.kind = .manualNode)

def projectSourceEdges (sources : List MemberSource) : List GroupEdge :=
  (sources.filter isLegacyEdge).map (fun s =>
    ⟨s.id, s.groupID, s.targetGroupID, s.nodeLogicalID, s.position⟩)

section

variable (rt : Runtime)

def isLegacySource (s : MemberSource) : Bool :=
  s.operation = .add && (s.kind = .manualNode || s.kind = .groupRef || s.kind = .filter)

variable (groupID : String)

def edgeSource (i : ℕ) (e : GroupEdge) : MemberSource where
  id := e.id
  groupID := groupID
  operation := .add
  kind := if e.childGroupID.isSome then .groupRef else .manualNode
  position := i
  nodeLogicalID := e.nodeLogicalID
  targetGroupID := e.childGroupID

def edgeSources (edges : List GroupEdge) : Except GoError (List MemberSource) :=
  match forEach (fun e : GroupEdge × ℕ =>
      validateGroupEdge rt { e.1 with parentGroupID := groupID, position := e.2 }) edges.zipIdx with
  | .error err => .error err
  | .ok _ => .ok (edges.mapIdx (edgeSource groupID))

def filterSource (filter : Option NodeFilterSpec) : MemberSource where
  id := ""
  groupID := groupID
  operation := .add
  kind := .filter
  position := 0
  filterSpec := filter

/-- Every source but the filter sources gets the one filter; where none is left and the filter has
conditions, a filter source stands for it. -/
def withFilter (filter : Option NodeFilterSpec) (sources : List MemberSource) :
    List MemberSource :=
  let spec := if NodeFilterSpec.isEmpty filter then none else filter
  let out := (sources.filter (·.kind ≠ .filter)).map (fun s => { s with filterSpec := spec })
  if out = [] ∧ !NodeFilterSpec.isEmpty filter then [filterSource groupID filter] else out

def editLegacySources (current : List MemberSource) (edges : Option (List GroupEdge))
    (changeFilter : Bool) (filter : Option NodeFilterSpec) : Except GoError (List MemberSource) :=
  if current.all isLegacySource = false then
    .error (.domain (newConflictError rt "sources_edit_required"
      "this group uses a member pipeline; edit sources instead of legacy edges/filter"))
  else
    match edges.elim (.ok current) (edgeSources rt groupID) with
    | .error err => .error err
    | .ok out =>
      -- new edges keep the filter of the first source
      let inherits := edges.isSome && !changeFilter && !current.isEmpty
      let filter := if inherits then current.head?.bind (·.filterSpec) else filter
      if changeFilter || inherits then
        match filter.elim (.ok ()) (NodeFilterSpec.validate rt) with
        | .error err => .error err
        | .ok _ => .ok (withFilter groupID filter out)
      else .ok out

end

section

variable {rt : Runtime} {groupID : String} {current out : List MemberSource} {edges : Option (List GroupEdge)}
  {changeFilter : Bool} {filter : Option NodeFilterSpec}

theorem edgeSources_eq_ok {list : List GroupEdge} (h : edgeSources rt groupID list = .ok out) :
    (∀ (i : ℕ) (e : GroupEdge), list[i]? = some e →
      validateGroupEdge rt { e with parentGroupID := groupID, position := i } = .ok ()) ∧
    out = list.mapIdx (edgeSource groupID) := by
  rw [edgeSources] at h
  split at h
  · contradiction
  · refine ⟨?_, (Except.ok.inj h).symm⟩
    rename_i u hloop
    intro i e he
    exact (forEach_ok_iff _).mp hloop (e, i) (mem_zipIdx_iff_getElem?.mpr he)

/-- The steps of an edit that returns: the sources of the edges, or the current ones, and perhaps a
valid filter put on them. -/
theorem editLegacySources_eq_ok (h : editLegacySources rt groupID current edges changeFilter filter = .ok out) :
    current.all isLegacySource = true ∧ ∃ raw, edges.elim (.ok current) (edgeSources rt groupID) = .ok raw ∧
      (out = raw ∨ ∃ spec : Option NodeFilterSpec, spec.elim (.ok ()) (NodeFilterSpec.validate rt) = .ok () ∧
        out = withFilter groupID spec raw) := by
  rw [editLegacySources] at h
  split_ifs at h with ha
  refine ⟨by simpa using ha, ?_⟩
  cases ho : edges.elim (.ok current) (edgeSources rt groupID) with
  | error err => simp [ho] at h
  | ok raw =>
    refine ⟨raw, rfl, ?_⟩
    simp only [ho] at h
    split at h
    · split at h
      · contradiction
      · next hs => exact .inr ⟨_, hs, (Except.ok.inj h).symm⟩
    · exact .inl (Except.ok.inj h).symm

end

section

variable {rt : Runtime} {groupID : String}

theorem sourceTarget_edgeSource {i : ℕ} {e : GroupEdge} {v : String}
    (h : sourceTarget (edgeSource groupID i e) = some v) : nonEmpty e.childGroupID = some v := by
  unfold sourceTarget at h
  split_ifs at h
  exact h

theorem exists_of_mem_withFilter {filter : Option NodeFilterSpec} {sources : List MemberSource}
    {s : MemberSource} (h : s ∈ withFilter groupID filter sources) {v : String}
    (hv : sourceTarget s = some v) : ∃ s' ∈ sources, sourceTarget s' = some v := by
  rw [withFilter] at h
  generalize (if NodeFilterSpec.isEmpty filter then none else filter) = spec at h
  split_ifs at h
  · rw [mem_singleton] at h
    subst h
    simp [sourceTarget, filterSource] at hv
  · obtain ⟨s', hs', rfl⟩ := mem_map.mp h
    exact ⟨s', (mem_filter.mp hs').1, hv⟩

theorem exists_of_mem_editLegacySources {current out : List MemberSource} {edges : Option (List GroupEdge)}
    {changeFilter : Bool} {filter : Option NodeFilterSpec}
    (h : editLegacySources rt groupID current edges changeFilter filter = .ok out) {s : MemberSource}
    (hs : s ∈ out) {v : String} (hv : sourceTarget s = some v) :
    (∃ list ∈ edges, ∃ e ∈ list, nonEmpty e.childGroupID = some v) ∨
    (edges = none ∧ ∃ s' ∈ current, sourceTarget s' = some v) := by
  obtain ⟨-, raw, hr, ho⟩ := editLegacySources_eq_ok h
  -- the sources before the filter is put on them
  obtain ⟨s', hs', hv'⟩ : ∃ s' ∈ raw, sourceTarget s' = some v := by
    rcases ho with rfl | ⟨spec, -, rfl⟩
    · exact ⟨s, hs, hv⟩
    · exact exists_of_mem_withFilter hs hv
  cases edges with
  | none =>
    obtain rfl := Except.ok.inj hr
    exact .inr ⟨rfl, s', hs', hv'⟩
  | some list =>
    obtain ⟨-, rfl⟩ := edgeSources_eq_ok hr
    obtain ⟨i, hi, rfl⟩ := mem_mapIdx.mp hs'
    exact .inl ⟨list, rfl, list[i], getElem_mem hi, sourceTarget_edgeSource hv'⟩

end

section

def edgeTarget (e : GroupEdge) : Option (MemberSourceKind × String) :=
  ((nonEmpty e.childGroupID).map (.groupRef, ·)).or ((nonEmpty e.nodeLogicalID).map (.manualNode, ·))

def linkTarget (s : MemberSource) : Option (MemberSourceKind × String) :=
  match s.kind with
  | .groupRef => s.targetGroupID.map (.groupRef, ·)
  | .manualNode => s.nodeLogicalID.map (.manualNode, ·)
  | _ => none

def GroupEdge.Plain (e : GroupEdge) : Prop := e.childGroupID ≠ some "" ∧ e.nodeLogicalID ≠ some ""

variable {rt : Runtime} {groupID : String}

theorem trimSpace_ne_of_uuid {s : String} (h : isValidUUIDv7 s = true) : Strings.trimSpace s ≠ "" := by
  rw [trimSpace_eq_self fun c hc => isSpace_of_isUUIDChar (isUUIDChar_of_valid h c hc)]
  rintro rfl
  revert h
  decide

theorem trimSpace_ne_of_logicalID {s : String} (h : isValidLogicalID s = true) : Strings.trimSpace s ≠ "" := by
  rw [Ne, trimSpace_eq_empty_iff]
  intro hs
  simp only [isValidLogicalID, Bool.or_eq_true, Bool.and_eq_true, decide_eq_true_eq] at h
  rcases h with ⟨⟨hl, -⟩, hh⟩ | ⟨ht, -⟩
  · have hne : s.toList ≠ [] := ne_nil_of_length_pos (by omega)
    have hf := isSpace_of_isUUIDChar (by
      rw [isUUIDChar, all_eq_true.mp hh _ (head_mem hne), Bool.or_true])
    rw [hs _ (head_mem hne)] at hf
    contradiction
  · have hn : 'n' ∈ s.toList := ( isPrefixOf_iff_prefix.mp ht).subset (by decide)
    exact absurd (hs 'n' hn) (by decide)

theorem nonEmpty_eq_none_iff {t : Option String} : nonEmpty t = none ↔ t = none ∨ t = some "" := by
  cases t <;> simp [nonEmpty]

theorem nonEmpty_eq_some_iff {t : Option String} {s : String} : nonEmpty t = some s ↔ t = some s ∧ s ≠ "" := by
  rw [nonEmpty, Option.filter_eq_some_iff]
  simp

theorem validateMemberSource_edgeSource_iff {e : GroupEdge} {i : ℕ} {p : Int}
    (h : validateGroupEdge rt { e with parentGroupID := groupID, position := p } = .ok ()) :
    validateMemberSource rt (edgeSource groupID i e) = .ok () ↔ e.Plain := by
  rw [validateGroupEdge, ite_invalid_eq_ok] at h
  obtain ⟨-, h⟩ := h
  cases hch : nonEmpty e.childGroupID with
  | none =>
    cases hno : nonEmpty e.nodeLogicalID with
    | none => simp [hch, hno] at h
    | some n =>
      obtain ⟨hn, hne⟩ := nonEmpty_eq_some_iff.mp hno
      simp only [hch, hno, ite_invalid_eq_ok, Bool.not_eq_false] at h
      have hbl : isBlank (some n) = false := by simp [isBlank, trimSpace_ne_of_logicalID h.1]
      rcases nonEmpty_eq_none_iff.mp hch with hc | hc
      · simp [validateMemberSource, edgeSource, validateManualNode, GroupEdge.Plain, SourceOperation.isValid,
          isValid, hc, hn, hne, hbl, h.1]
      · -- the conversion takes the empty group for a reference
        simp [validateMemberSource, edgeSource, validateGroupRef, GroupEdge.Plain, SourceOperation.isValid,
          isValid, hc, isBlank, show Strings.trimSpace "" = "" by decide]
  | some c =>
    cases hno : nonEmpty e.nodeLogicalID with
    | some n => simp [hch, hno] at h
    | none =>
      obtain ⟨hc, hne⟩ := nonEmpty_eq_some_iff.mp hch
      simp only [hch, hno, ite_invalid_eq_ok, Bool.not_eq_false] at h
      have hbl : isBlank (some c) = false := by simp [isBlank, trimSpace_ne_of_uuid h.1]
      have hp : isBlank none = true := rfl
      rcases nonEmpty_eq_none_iff.mp hno with hn | hn <;>
        simp [validateMemberSource, edgeSource, validateGroupRef, GroupEdge.Plain, SourceOperation.isValid,
          isValid, hc, hn, hne, hbl, h.1, hp]

theorem linkTarget_edgeSource {e : GroupEdge} (h : e.Plain) (groupID : String) (i : ℕ) :
    linkTarget (edgeSource groupID i e) = edgeTarget e := by
  have hpl {t : Option String} (ht : t ≠ some "") : nonEmpty t = t := by
    cases t with
    | none => rfl
    | some s => exact nonEmpty_eq_some_iff.mpr ⟨rfl, fun hs => ht (congrArg some hs)⟩
  rw [edgeTarget, hpl h.1, hpl h.2]
  cases hc : e.childGroupID with
  | none | some c => simp [linkTarget, edgeSource, hc]

theorem validateMemberSource_filterSpec {s : MemberSource} (hl : isLegacySource s = true)
    (hki : s.kind ≠ .filter) (spec : Option NodeFilterSpec) :
    validateMemberSource rt { s with filterSpec := spec } = validateMemberSource rt s := by
  have hk : s.kind = .manualNode ∨ s.kind = .groupRef := by
    simpa [isLegacySource, hki] using (Bool.and_eq_true_iff.mp hl).2
  rcases hk with hk | hk <;> simp [validateMemberSource, hk, validateManualNode, validateGroupRef, sourcePath]

theorem valid_withFilter {spec : Option NodeFilterSpec} {raw : List MemberSource}
    (hsp : spec.elim (.ok ()) (NodeFilterSpec.validate rt) = .ok ()) (hl : raw.all isLegacySource = true)
    (hr : ∀ s ∈ raw, validateMemberSource rt s = .ok ()) :
    ∀ s ∈ withFilter groupID spec raw, validateMemberSource rt s = .ok () := by
  intro s hs
  rw [withFilter] at hs
  generalize (if NodeFilterSpec.isEmpty spec then none else spec) = put at hs
  split_ifs at hs with hn
  · -- a filter source stands for the filter
    rw [mem_singleton] at hs
    subst hs
    cases spec with
    | none => simp [NodeFilterSpec.isEmpty] at hn
    | some f =>
      rw [Option.elim_some] at hsp
      simp [validateMemberSource, filterSource, validateFilter, SourceOperation.isValid, isValid, hsp]
  · obtain ⟨s', hs', rfl⟩ := mem_map.mp hs
    obtain ⟨hm, hk⟩ := mem_filter.mp hs'
    rw [validateMemberSource_filterSpec (all_eq_true.mp hl s' hm) (of_decide_eq_true hk)]
    exact hr s' hm

theorem isLegacySource_edgeSource (groupID : String) (e : GroupEdge) (i : ℕ) :
    isLegacySource (edgeSource groupID i e) = true ∧ (edgeSource groupID i e).kind ≠ .filter := by
  cases h : e.childGroupID.isSome <;> simp [isLegacySource, edgeSource, h]

theorem getElem?_withFilter {spec : Option NodeFilterSpec} {list : List GroupEdge} {i : ℕ} {e : GroupEdge}
    (h : list[i]? = some e) : ∃ put, (withFilter groupID spec (list.mapIdx (edgeSource groupID)))[i]? =
      some { edgeSource groupID i e with filterSpec := put } := by
  have hsa : (list.mapIdx (edgeSource groupID)).filter (·.kind ≠ .filter) = list.mapIdx (edgeSource groupID) := by
    rw [filter_eq_self]
    intro s hs
    obtain ⟨j, -, rfl⟩ := mem_mapIdx.mp hs
    exact decide_eq_true (isLegacySource_edgeSource groupID list[j] j).2
  have hne : list.mapIdx (edgeSource groupID) ≠ [] := by
    rw [Ne, mapIdx_eq_nil_iff]
    rintro rfl
    simp at h
  refine ⟨if NodeFilterSpec.isEmpty spec then none else spec, ?_⟩
  rw [withFilter, hsa]
  rw [if_neg (fun hn => hne (map_eq_nil_iff.mp hn.1)), getElem?_map, getElem?_mapIdx, h]
  rfl

end

/-- What a legacy edit of valid sources returns is valid and leads where its edges lead, exactly when no
edge carries an empty text in place of nil. -/
theorem legacy_edit_valid_iff {rt : Runtime} {groupID : String} {current out : List MemberSource}
    {edges : Option (List GroupEdge)} {changeFilter : Bool} {filter : Option NodeFilterSpec}
    (hcurrent : ∀ s ∈ current, validateMemberSource rt s = .ok ())
    (h : editLegacySources rt groupID current edges changeFilter filter = .ok out) :
    ((∀ s ∈ out, validateMemberSource rt s = .ok ()) ∧ ∀ list ∈ edges, ∀ (i : ℕ) (e : GroupEdge),
      list[i]? = some e → ∃ s, out[i]? = some s ∧ linkTarget s = edgeTarget e) ↔
    ∀ list ∈ edges, ∀ e ∈ list, e.Plain := by
  obtain ⟨hla, raw, hr, ho⟩ := editLegacySources_eq_ok h
  have hpa {list : List GroupEdge} (hl : list ∈ edges) (i : ℕ) (e : GroupEdge) (he : list[i]? = some e) :
      validateGroupEdge rt { e with parentGroupID := groupID, position := i } = .ok () ∧
      ∃ put, out[i]? = some { edgeSource groupID i e with filterSpec := put } := by
    rw [hl] at hr
    obtain ⟨hv, rfl⟩ := edgeSources_eq_ok hr
    refine ⟨hv i e he, ?_⟩
    rcases ho with rfl | ⟨spec, -, rfl⟩
    · exact ⟨_, by rw [getElem?_mapIdx, he]; rfl⟩
    · exact getElem?_withFilter he
  constructor
  · rintro ⟨hv, -⟩ list hl e he
    obtain ⟨i, hi⟩ := mem_iff_getElem?.mp he
    obtain ⟨hed, put, hp⟩ := hpa hl i e hi
    have hs := hv _ (mem_of_getElem? hp)
    obtain ⟨hle, hk⟩ := isLegacySource_edgeSource groupID e i
    rw [validateMemberSource_filterSpec hle hk] at hs
    exact (validateMemberSource_edgeSource_iff hed).mp hs
  · intro hpl
    refine ⟨?_, ?_⟩
    · -- the sources before the filter is put on them
      have hb : raw.all isLegacySource = true ∧ ∀ s ∈ raw, validateMemberSource rt s = .ok () := by
        cases edges with
        | none =>
          obtain rfl := Except.ok.inj hr
          exact ⟨hla, hcurrent⟩
        | some list =>
          obtain ⟨hv, rfl⟩ := edgeSources_eq_ok hr
          have hed {s : MemberSource} (hs : s ∈ list.mapIdx (edgeSource groupID)) :
              isLegacySource s = true ∧ validateMemberSource rt s = .ok () := by
            obtain ⟨i, hi, rfl⟩ := mem_mapIdx.mp hs
            refine ⟨(isLegacySource_edgeSource groupID _ i).1, ?_⟩
            rw [validateMemberSource_edgeSource_iff (hv i list[i] (getElem?_eq_getElem hi))]
            exact hpl list rfl list[i] (getElem_mem hi)
          exact ⟨all_eq_true.mpr fun s hs => (hed hs).1, fun s hs => (hed hs).2⟩
      rcases ho with rfl | ⟨spec, hsp, rfl⟩
      · exact hb.2
      · exact valid_withFilter hsp hb.1 hb.2
    · intro list hl i e he
      obtain ⟨-, put, hp⟩ := hpa hl i e he
      exact ⟨_, hp, linkTarget_edgeSource (hpl list hl e (mem_of_getElem? he)) groupID i⟩

theorem legacy_edit_valid_sample : ∃ s,
    editLegacySources asciiRuntime idA [] (some [⟨"", "", some idB, none, 0⟩]) false none = .ok [s] ∧
    validateMemberSource asciiRuntime s = .ok () := by
  have hok : editLegacySources asciiRuntime idA [] (some [⟨"", "", some idB, none, 0⟩]) false none =
      .ok [edgeSource idA 0 ⟨"", "", some idB, none, 0⟩] := rfl
  have hv := ((legacy_edit_valid_iff (fun _ hs => absurd hs not_mem_nil) hok).mpr (by
    simp [GroupEdge.Plain, idB])).1
  exact ⟨_, hok, hv _ (mem_singleton_self _)⟩

/-- An edge to a group that carries an empty node ID is accepted, and its source is not. -/
theorem legacy_edit_invalid : ∃ s,
    editLegacySources asciiRuntime idA [] (some [⟨"", "", some idB, some "", 0⟩]) false none = .ok [s] ∧
    validateMemberSource asciiRuntime s ≠ .ok () := by
  refine ⟨_, rfl, ?_⟩
  simp [validateMemberSource, edgeSource, validateGroupRef, SourceOperation.isValid, isValid]

end ClashSubParser
