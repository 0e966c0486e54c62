import ClashSubParser.AdmittedNodes
import ClashSubParser.TrimmedText

/-! Every reference in a resolved snapshot finds its target there and carries its name. -/
namespace ClashSubParser

open List MemoRecursion StableSort

def sourceBuiltins : List String := ["PASS", "DIRECT", "REJECT", "REJECT-DROP"]

section

theorem ne_empty_of_valid {s : String} (h : isValidUUIDv7 s = true) : s ≠ "" := by
  rintro rfl
  revert h
  decide

theorem isUUIDChar_of_mem_hexByte {b : BitVec 8} {c : Char} (h : c ∈ (Strconv.hexByte b).toList) :
    isUUIDChar c = true := by
  have hd : ∀ n < 16, isUUIDChar (Nat.digitChar n) = true := by decide
  rw [Strconv.hexByte, String.toList_ofList, Strconv.hexDigits, mem_map] at h
  obtain ⟨i, -, rfl⟩ := h
  exact hd _ (Nat.mod_lt _ (by decide))

theorem isUUIDChar_of_mem_hexBytes {n : ℕ} (f : Fin n → BitVec 8) (l : List (Fin n)) :
    ∀ c ∈ (String.join (l.map (fun i => Strconv.hexByte (f i)))).toList, isUUIDChar c = true := by
  induction l with
  | nil => simp [String.join]
  | cons i l ih =>
    intro c hc
    rw [map_cons, String.join_cons, String.toList_append, mem_append] at hc
    rcases hc with hc | hc
    · exact isUUIDChar_of_mem_hexByte hc
    · exact ih c hc

theorem isUUIDChar_of_mem_dashed {s t : String} (hs : ∀ c ∈ s.toList, isUUIDChar c = true)
    (ht : ∀ c ∈ t.toList, isUUIDChar c = true) : ∀ c ∈ (s ++ "-" ++ t).toList, isUUIDChar c = true := by
  have hd : ∀ c ∈ "-".toList, isUUIDChar c = true := all_iff_forall_prop.mp (by decide)
  intro c hc
  rw [String.toList_append, String.toList_append, mem_append, mem_append] at hc
  rcases hc with (hc | hc) | hc
  · exact hs c hc
  · exact hd c hc
  · exact ht c hc

theorem isUUIDChar_of_mem_derived (rt : Runtime) (pid childID : String) :
    ∀ c ∈ (deterministicDerivedUUID rt pid childID).toList, isUUIDChar c = true := by
  apply isUUIDChar_of_mem_dashed _ (isUUIDChar_of_mem_hexBytes _ _)
  apply isUUIDChar_of_mem_dashed _ (isUUIDChar_of_mem_hexBytes _ _)
  apply isUUIDChar_of_mem_dashed _ (isUUIDChar_of_mem_hexBytes _ _)
  exact isUUIDChar_of_mem_dashed (isUUIDChar_of_mem_hexBytes _ _) (isUUIDChar_of_mem_hexBytes _ _)

theorem derivedUUID_ne_empty (rt : Runtime) (pid childID : String) :
    deterministicDerivedUUID rt pid childID ≠ "" := by
  intro h
  rw [deterministicDerivedUUID] at h
  have hl := congrArg String.toList h
  simp at hl

end

/-- What the resolver relies on about its context: admitted nodes are found under their ID, and the
sources only name builtin policies that exist. -/
structure GroupContext.Checked (ctx : GroupContext) (rt : Runtime) : Prop where
  admitted : ∀ id n, ctx.globalAdmittedMap id = some n → n ∈ ctx.sortedGlobalNodes ∧ n.logicalID = id
  builtin : ∀ gid g, ctx.groupMap gid = some g → ∀ s ∈ g.sources, s.kind = .typedBuiltin →
    ∀ given, s.builtinName = some given → builtinOf rt given ∈ sourceBuiltins

structure GroupContext.Names (ctx : GroupContext) (item : ResolvedItem) : Prop where
  node : item.kind = .node → ∃ n ∈ ctx.sortedGlobalNodes,
    n.logicalID = item.targetID ∧ n.displayName = item.displayName
  group : item.kind = .group → ∃ g, ctx.groupMap item.targetID = some g ∧ g.name = item.displayName
  builtin : item.kind = .builtin → item.displayName = item.targetID ∧ item.targetID ∈ sourceBuiltins

section

variable {rt : Runtime} {ctx : GroupContext} {fuel : ℕ} {rank : String → ℕ}

theorem names_nodeItem {n : Node} (hn : n ∈ ctx.sortedGlobalNodes) {id : String} (hid : n.logicalID = id) :
    ctx.Names (nodeItem id n.displayName) := by
  refine ⟨fun _ => ⟨n, hn, hid, rfl⟩, ?_, ?_⟩
  · intro hk
    contradiction
  · intro hk
    contradiction

variable (hctx : ctx.Checked rt)
include hctx

theorem names_of_mem_specItems {leaves : String → List ResolvedItem}
    (hlv : ∀ gid, ∀ leaf ∈ leaves gid, ctx.Names leaf) {gid : String} {g : NodeGroup}
    (hg : ctx.groupMap gid = some g) {item : ResolvedItem}
    (h : item ∈ specItems rt ctx leaves (sortSources g.sources)) : ctx.Names item := by
  obtain ⟨s, hs, -, hm⟩ := mem_specItems h
  cases proposed_of_mem hm with
  | listed node _ hn hit =>
    obtain ⟨hin, hid⟩ := hctx.admitted _ _ hn
    rw [hit]
    exact names_nodeItem hin hid
  | selected _ node hn hit =>
    rw [hit]
    exact names_nodeItem hn rfl
  | referenced tg _ htg hit =>
    rw [hit]
    refine ⟨?_, fun _ => ⟨tg, htg, rfl⟩, ?_⟩
    · intro hk
      contradiction
    · intro hk
      contradiction
  | leaf tid _ hl _ => exact hlv tid item hl
  | named hs' _ =>
    rw [candidates, hs'] at hm
    simp only [Option.mem_toList, Option.map_eq_some_iff] at hm
    obtain ⟨given, hgv, rfl⟩ := hm
    refine ⟨?_, ?_, fun _ => ⟨rfl, hctx.builtin gid g hg s ((mem_stableSort _ _ _).mp hs) hs' given hgv⟩⟩
    · intro hk
      contradiction
    · intro hk
      contradiction

theorem names_of_mem_specLeaves :
    ∀ (depth : ℕ) (gid : String), ∀ leaf ∈ specLeaves rt ctx depth gid, ctx.Names leaf :=
  specLeaves_induction fun _ ih _ _ hg _ hi => names_of_mem_specItems hctx ih hg hi

theorem names_of_mem_itemsOf {gid : String} {item : ResolvedItem}
    (h : item ∈ itemsOf rt ctx fuel gid) : ctx.Names item := by
  cases hg : ctx.groupMap gid with
  | none => simp [itemsOf, GroupContext.groupSources, hg, specItems] at h
  | some g =>
    rw [itemsOf_eq hg] at h
    exact names_of_mem_specItems hctx (names_of_mem_specLeaves hctx fuel) hg h

theorem names_derivedItem {leaf : ResolvedItem} (h : ctx.Names leaf) : ctx.Names (derivedItem ctx leaf) := by
  rw [derivedItem]
  split_ifs with hk
  · cases hn : ctx.globalAdmittedMap leaf.targetID with
    | none => exact h
    | some node =>
      obtain ⟨hin, hid⟩ := hctx.admitted _ _ hn
      exact names_nodeItem hin hid
  · exact h

end

def ResolvedGroupMember.item (m : ResolvedGroupMember) : ResolvedItem := ⟨m.kind, m.targetID, m.displayName⟩

theorem item_mem_of_mem_membersOf {items : List ResolvedItem} {m : ResolvedGroupMember}
    (h : m ∈ membersOf items) : m.item ∈ items := by
  rw [membersOf, mem_mapIdx] at h
  obtain ⟨i, hi, rfl⟩ := h
  exact getElem_mem hi

/-- The state of the loop that derives groups: members name their targets, and where that is a derived
group, it is there. -/
structure DeriveState.Named (ctx : GroupContext) (first : ℕ) (st : DeriveState) : Prop where
  slices : ∀ gid, ∀ m ∈ (st.slices gid).members, ctx.Names m.item ∨
    m.kind = .group ∧ ∃ d ∈ st.derived, d.id = m.targetID ∧ d.name = m.displayName
  derived : ∀ d ∈ st.derived, ∀ m ∈ d.members, ctx.Names m.item ∧ m.kind ≠ .group
  ids : ∀ d ∈ st.derived, (∀ c ∈ d.id.toList, isUUIDChar c = true) ∧ d.id ≠ ""
  names : ∀ d ∈ st.derived, Strings.trimSpace d.name ≠ ""
  positions : st.derived.map (·.position) = List.range' first st.derived.length

section

variable {rt : Runtime} {ctx : GroupContext} {fuel : ℕ} {rank : String → ℕ} {resolved : List ResolvedGroup}

theorem DeriveState.Named.step (hctx : ctx.Checked rt) {p : ResolvedGroup}
    {member : ResolvedGroupMember × ℕ} {st st' : DeriveState} (h : st.Named ctx resolved.length)
    (hst : DeriveStep rt ctx fuel resolved p member st st') : st'.Named ctx resolved.length := by
  cases hst with
  | kept hs hd _ =>
    refine ⟨?_, ?_, ?_, ?_, ?_⟩
    · rw [hs, hd]
      exact h.slices
    all_goals rw [hd]
    exacts [h.derived, h.ids, h.names, h.positions]
  | replaced child d hki _ _ hd hs hds =>
    have hmo (m : ResolvedGroupMember) (hm : ctx.Names m.item ∨
        m.kind = .group ∧ ∃ e ∈ st.derived, e.id = m.targetID ∧ e.name = m.displayName) :
        ctx.Names m.item ∨ m.kind = .group ∧ ∃ e ∈ st'.derived, e.id = m.targetID ∧ e.name = m.displayName := by
      refine hm.imp_right ?_
      rintro ⟨hk, e, he, hf⟩
      exact ⟨hk, e, by rw [hds]; exact mem_append_left _ he, hf⟩
    have hsp (P : ResolvedGroup → Prop) (ho : ∀ e ∈ st.derived, P e) (hn : P d) :
        ∀ e ∈ st'.derived, P e := by
      intro e he
      rw [hds] at he
      rcases mem_append.mp he with he | he
      · exact ho e he
      · rwa [mem_singleton.mp he]
    refine ⟨?_, hsp _ h.derived ?_, hsp _ h.ids ?_, hsp _ h.names ?_, ?_⟩
    · intro gid m hm
      rw [hs] at hm
      by_cases hg : gid = p.id
      · rw [hg, Function.update_self] at hm
        rcases mem_or_eq_of_mem_set hm with hm | rfl
        · exact hmo m (h.slices _ m hm)
        · exact .inr ⟨hki, d, by simp [hds], rfl, rfl⟩
      · rw [Function.update_of_ne hg] at hm
        exact hmo m (h.slices gid m hm)
    · intro m hm
      rw [hd, derivedGroupOf] at hm
      obtain ⟨leaf, hl, heq⟩ := mem_map.mp (item_mem_of_mem_membersOf hm)
      have hsc : leaf ∈ specLeaves rt ctx fuel member.1.targetID := (mem_filter.mp hl).1
      refine ⟨heq ▸ names_derivedItem hctx (names_of_mem_specLeaves hctx fuel _ leaf hsc), ?_⟩
      have hke := key_derivedItem ctx leaf
      rw [heq] at hke
      rw [show m.kind = leaf.kind from congrArg Prod.fst hke]
      exact specLeaves_ne_group fuel _ leaf hsc
    · rw [hd]
      exact ⟨isUUIDChar_of_mem_derived rt _ _, derivedUUID_ne_empty rt _ _⟩
    · rw [hd, ne_eq, trimSpace_eq_empty_iff]
      intro ha
      have hb : Strings.isSpace ']' = true := ha ']' (by simp [derivedGroupOf])
      contradiction
    · rw [hds, map_append, h.positions, length_append, length_singleton, List.range'_concat, hd]
      simp [derivedGroupOf]

theorem named_deriveGroups (h : ctx.Ranked fuel rank) (hctx : ctx.Checked rt)
    (hf : FirstPass rt ctx fuel resolved) {memo : GroupMemoState} (hmo : Settled rt ctx fuel memo) :
    (deriveGroups rt ctx fuel resolved memo).Named ctx resolved.length := by
  apply deriveGroups_induction h (fun gid g hg => (hf.ids gid).mpr ⟨g, hg⟩) hmo
    (fun st => st.Named ctx resolved.length)
  · refine ⟨?_, by simp, by simp, by simp, rfl⟩
    intro gid m hm
    obtain ⟨rg, hme, -, hm⟩ := mem_members_of_slicesOf hm
    rw [hf.members rg hme] at hm
    exact .inl (names_of_mem_itemsOf hctx (item_mem_of_mem_membersOf hm))
  · intro parent _ member st st' hst hs
    exact hst.step hctx hs

end

structure ResolvedPolicySnapshot.Finds (snap : ResolvedPolicySnapshot) (m : ResolvedGroupMember) : Prop where
  node : m.kind = .node → ∃ n ∈ snap.nodes, n.logicalID = m.targetID ∧ n.displayName = m.displayName
  group : m.kind = .group → ∃ g ∈ snap.groups, g.id = m.targetID ∧ g.name = m.displayName
  builtin : m.kind = .builtin → m.displayName = m.targetID ∧ m.targetID ∈ sourceBuiltins

structure ResolvedPolicySnapshot.Referential (snap : ResolvedPolicySnapshot) : Prop where
  members : ∀ g ∈ snap.groups, ∀ m ∈ g.members, snap.Finds m
  rules : ∀ r ∈ snap.rules, snap.groups ≠ [] → ∃ g ∈ snap.groups, g.id = r.targetGroupID ∧ g.name = r.targetGroupName
  ids : ∀ g ∈ snap.groups, Strings.trimSpace g.id = g.id ∧ g.id ≠ ""
  names : ∀ g ∈ snap.groups, Strings.trimSpace g.name ≠ ""
  positions : (snap.groups.map (·.position)).Nodup

section

variable {rt : Runtime} {enc : Encoder} {clock : Clock} {input : ResolveInput}

theorem builtinOf_of_valid {s : MemberSource} (h : validateMemberSource rt s = .ok ())
    (hk : s.kind = .typedBuiltin) {given : String} (hgv : s.builtinName = some given) :
    builtinOf rt given ∈ sourceBuiltins := by
  by_contra hnot
  have hne : builtinOf rt given ≠ "PASS" ∧ builtinOf rt given ≠ "DIRECT" ∧ builtinOf rt given ≠ "REJECT" ∧
      builtinOf rt given ≠ "REJECT-DROP" := by
    simpa [sourceBuiltins] using hnot
  unfold builtinOf at hne
  unfold validateMemberSource at h
  rw [hk] at h
  unfold validateTypedBuiltin at h
  simp only [hgv, Option.getD_some, hne, ne_eq, not_false_eq_true, and_self, if_true] at h
  split_ifs at h <;> simp [invalid] at h

theorem checked_resolveContext (h : validateInput rt (normalizeInput input) = .ok ()) :
    (resolveContext rt clock (normalizeInput input)).Checked rt := by
  obtain ⟨hok, -, -⟩ := validatePolicyTopology_ok_iff.mp (validateInput_ok_iff.mp h).1
  refine ⟨?_, ?_⟩
  · intro id n hn
    obtain ⟨hin, hid⟩ := mapOf_some hn
    exact ⟨(mem_stableSort _ _ _).mpr hin, hid⟩
  · intro gid g hg s hs hk given hgv
    obtain ⟨hm, -⟩ := mapOf_some hg
    have hsr := checkSources_ok_iff.mp (hok.source g hm) s hs
    exact builtinOf_of_valid (checkSource_ok_iff.mp hsr).1 hk hgv

theorem valid_of_validateGroup {g : NodeGroup} (h : validateGroup rt g = .ok ()) :
    isValidUUIDv7 g.id = true ∧ Strings.trimSpace g.name ≠ "" := by
  unfold validateGroup at h
  split_ifs at h with hid hn ht
  · simp [invalid] at h
  · simp [invalid] at h
  · simp [invalid] at h
  · exact ⟨by simpa using hid, hn⟩

theorem positions_resolvedList (ctx : GroupContext) (rs : List (NodeGroup × GroupMemo)) :
    (resolvedList ctx rs).map (·.position) = List.range rs.length := by
  apply ext_getElem
  · simp [resolvedList]
  · intro i _ _
    simp [resolvedList, resolvedGroupOf]

section

variable (h : validateInput rt (normalizeInput input) = .ok ())
include h

theorem snapshotOf_groups_cases {P : ResolvedGroup → Prop}
    (hs : ∀ g ∈ (normalizeInput input).groups, ∀ m i,
      let ctx := resolveContext rt clock (normalizeInput input)
      let united := unitedGroups rt ctx (normalizeInput input).groups
      P (recollect united (withSlices (derivedState rt ctx (normalizeInput input).groups).slices
        (resolvedGroupOf ctx g m i))))
    (hd :
      let ctx := resolveContext rt clock (normalizeInput input)
      let united := unitedGroups rt ctx (normalizeInput input).groups
      ∀ d ∈ (derivedState rt ctx (normalizeInput input).groups).derived, P (recollect united d)) :
    ∀ g ∈ (snapshotOf rt enc clock (normalizeInput input)).groups, P g := by
  obtain ⟨rank, hf⟩ := @exists_ranked_fuel rt clock input h
  intro g hg
  obtain ⟨u, hu, rfl⟩ := mem_map.mp hg
  rcases mem_append.mp hu with hu | hu
  · obtain ⟨rg, hrg, rfl⟩ := mem_map.mp hu
    obtain ⟨g₀, hg₀, i, rfl⟩ := mem_resolvedList hf hrg
    exact hs g₀ ((mem_stableSort _ _ _).mp hg₀) _ i
  · exact hd u hu

theorem exists_snapshotOf_group {g : NodeGroup} (hg : g ∈ (normalizeInput input).groups) :
    ∃ rg ∈ (snapshotOf rt enc clock (normalizeInput input)).groups, rg.id = g.id ∧ rg.name = g.name := by
  obtain ⟨rank, hf⟩ := @exists_ranked_fuel rt clock input h
  obtain ⟨i, hi⟩ := @exists_firstResolved rt _ _ rank hf g hg
  exact ⟨_, mem_map_of_mem (mem_append_left _ (mem_map_of_mem hi)), rfl, rfl⟩

theorem finds_of_names {m : ResolvedGroupMember}
    (hm : (resolveContext rt clock (normalizeInput input)).Names m.item) :
    (snapshotOf rt enc clock (normalizeInput input)).Finds m := by
  refine ⟨?_, ?_, hm.builtin⟩
  · intro hk
    obtain ⟨n, hn, hid, hna⟩ := hm.node hk
    obtain ⟨i, hi, rfl⟩ := mem_iff_getElem.mp hn
    exact ⟨resolvedNodeOf _ i, mem_mapIdx.mpr ⟨i, hi, rfl⟩, hid, hna⟩
  · intro hk
    obtain ⟨g, hg, hna⟩ := hm.group hk
    obtain ⟨hme, hid⟩ := mapOf_some hg
    obtain ⟨rg, hrg, hr, hrn⟩ := @exists_snapshotOf_group rt enc clock input h g hme
    exact ⟨rg, hrg, hr.trans hid, hrn.trans hna⟩

end

theorem finds_derived {d : ResolvedGroup} {m : ResolvedGroupMember}
    (hd : d ∈ (derivedState rt (resolveContext rt clock (normalizeInput input)) (normalizeInput input).groups).derived)
    (hk : m.kind = .group) (hid : d.id = m.targetID) (hn : d.name = m.displayName) :
    (snapshotOf rt enc clock (normalizeInput input)).Finds m := by
  refine ⟨?_, fun _ => ⟨recollect _ d, mem_map_of_mem (mem_append_right _ hd), hid, hn⟩, ?_⟩
  · intro hk'
    rw [hk] at hk'
    contradiction
  · intro hk'
    rw [hk] at hk'
    contradiction

theorem named_derivedState (h : validateInput rt (normalizeInput input) = .ok ()) :
    let ctx := resolveContext rt clock (normalizeInput input)
    (derivedState rt ctx (normalizeInput input).groups).Named ctx
      (firstResolved rt ctx (normalizeInput input).groups).length := by
  obtain ⟨rank, hf⟩ := @exists_ranked_fuel rt clock input h
  exact named_deriveGroups hf (checked_resolveContext h) (firstPass hf rfl)
    (resolveEach_eq hf _ (settled_init _)).2

theorem exists_target_of_mem_rules (h : validateInput rt (normalizeInput input) = .ok ()) {r : ResolvedRule}
    (hr : r ∈ (snapshotOf rt enc clock (normalizeInput input)).rules) (hne : (normalizeInput input).groups ≠ []) :
    ∃ g ∈ (snapshotOf rt enc clock (normalizeInput input)).groups,
      g.id = r.targetGroupID ∧ g.name = r.targetGroupName := by
  obtain ⟨-, -, hrl⟩ := validatePolicyTopology_ok_iff.mp (validateInput_ok_iff.mp h).1
  change r ∈ resolveRules rt input.policyRules (normalizeInput input).groups at hr
  rw [resolveRules, mem_mapIdx] at hr
  obtain ⟨i, hi, rfl⟩ := hr
  have hm := getElem_mem hi
  have hru := (mem_stableSort _ _ _).mp
    ((mem_append.mp hm).elim (fun h => (mem_filter.mp h).1) (fun h => (mem_filter.mp h).1))
  have htg := targetGroupID_mem hrl hru (by simpa [groupIDs] using hne)
  obtain ⟨g, hg⟩ := Option.isSome_iff_exists.mp
    (@mapOf_isSome_iff _ (fun g : NodeGroup => g.id) _ _ |>.mpr (mem_groupIDs.mp htg))
  obtain ⟨hgm, hgi⟩ := mapOf_some hg
  obtain ⟨rg, hrg, hid, hn⟩ := @exists_snapshotOf_group rt enc clock input h g hgm
  refine ⟨rg, hrg, hid.trans hgi, ?_⟩
  rw [hn]
  rw [hg, Option.elim_some]

theorem positions_allGroups (rgs all : List ResolvedGroup) (d : DeriveState) :
    ((allGroups rgs d).map (recollect all)).map (·.position) =
      rgs.map (·.position) ++ d.derived.map (·.position) := by
  rw [allGroups, map_append, map_append, map_map, map_map, map_map]
  rfl

theorem positions_snapshotOf (h : validateInput rt (normalizeInput input) = .ok ()) :
    ((snapshotOf rt enc clock (normalizeInput input)).groups.map (·.position)).Nodup := by
  have hd := (@named_derivedState rt clock input h).positions
  have hf (ctx : GroupContext) (gs : List NodeGroup) : (firstResolved rt ctx gs).map (·.position) =
      List.range' 0 (firstResolved rt ctx gs).length := by
    rw [firstResolved, positions_resolvedList, resolvedList, length_mapIdx, range_eq_range']
  change (((allGroups (firstResolved rt _ _) (derivedState rt _ _)).map (recollect _)).map (·.position)).Nodup
  rw [positions_allGroups, hf, hd]
  have ha (m n : ℕ) : List.range' 0 m ++ List.range' m n = List.range' 0 (m+n) := by
    simpa using @List.range'_append_1 0 m n
  rw [ha]
  exact nodup_range'

/-- Every reference of a resolved snapshot has its target in it. -/
theorem referential_of_resolve {err : Option GoError} {snap : ResolvedPolicySnapshot}
    (hre : resolve rt enc clock err input = .ok snap) : snap.Referential := by
  obtain ⟨-, hv, rfl⟩ := resolve_eq_ok_iff.mp hre
  have hnm := @named_derivedState rt clock input hv
  obtain ⟨hok, -, -⟩ := validatePolicyTopology_ok_iff.mp (validateInput_ok_iff.mp hv).1
  have hfs (g : NodeGroup) (hg : g ∈ (normalizeInput input).groups) :=
    valid_of_validateGroup (hok.group g hg)
  refine ⟨snapshotOf_groups_cases hv ?_ ?_, ?_, snapshotOf_groups_cases hv ?_ ?_,
    snapshotOf_groups_cases hv ?_ ?_, positions_snapshotOf hv⟩
  · intro g _ _ _ ctx united m hm
    rcases hnm.slices g.id m hm with hm | ⟨hk, d, hd, hid, hn⟩
    · exact finds_of_names hv hm
    · exact finds_derived hd hk hid hn
  · intro ctx united d hd m hm
    exact finds_of_names hv (hnm.derived d hd m hm).1
  · intro r hr hne
    apply exists_target_of_mem_rules hv hr
    intro hni
    -- without stored groups there are no derived ones either
    apply hne
    change (unitedGroups rt _ _).map _ = []
    rw [hni]
    rfl
  · intro g hg _ _ _ _
    obtain ⟨hid, -⟩ := hfs g hg
    exact ⟨trimSpace_eq_self fun c hc => isSpace_of_isUUIDChar (isUUIDChar_of_valid hid c hc), ne_empty_of_valid hid⟩
  · intro ctx united d hd
    obtain ⟨hch, hne⟩ := hnm.ids d hd
    exact ⟨trimSpace_eq_self fun c hc => isSpace_of_isUUIDChar (hch c hc), hne⟩
  · intro g hg _ _ _ _
    exact (hfs g hg).2
  · exact hnm.names

end

end ClashSubParser
