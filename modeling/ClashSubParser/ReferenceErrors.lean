import ClashSubParser.MihomoClosure
import ClashSubParser.MihomoErrors

/-! When the compiler finds every reference of a resolved snapshot: it looks for trimmed names among
untrimmed ones. -/
namespace ClashSubParser

open List FirstError StableSort Strings ResolvedPolicySnapshot

section

variable {rt : Runtime} {enc : Encoder} {clock : Clock} {input : ResolveInput}

theorem isValid_of_validateGroup {g : NodeGroup} (h : validateGroup rt g = .ok ()) : g.groupType.isValid = true := by
  unfold validateGroup at h
  split_ifs at h with hid hn ht
  · simp [invalid] at h
  · simp [invalid] at h
  · simp [invalid] at h
  · simpa using ht

theorem types_deriveGroups {ctx : GroupContext} {fuel : ℕ} {rank : String → ℕ} {resolved : List ResolvedGroup}
    (h : ctx.Ranked fuel rank) (hf : FirstPass rt ctx fuel resolved) {memo : GroupMemoState}
    (hm : Settled rt ctx fuel memo) {P : GroupType → Prop} (hP : ∀ g ∈ resolved, P g.groupType) :
    ∀ d ∈ (deriveGroups rt ctx fuel resolved memo).derived, P d.groupType := by
  apply deriveGroups_induction h (fun gid g hg => (hf.ids gid).mpr ⟨g, hg⟩) hm
    (fun st => ∀ d ∈ st.derived, P d.groupType)
  · simp
  · intro parent _ member st st' hst hs
    cases hs with
    | kept _ hd _ =>
      rw [hd]
      exact hst
    | replaced child d _ _ hch hd _ hds =>
      intro e he
      rw [hds] at he
      rcases mem_append.mp he with he | he
      · exact hst e he
      · rw [mem_singleton.mp he, hd]
        exact hP child hch.1

variable {ctxErr : Option GoError} {snap : ResolvedPolicySnapshot}

variable (hres : resolve rt enc clock ctxErr input = .ok snap)
include hres

theorem isValid_of_resolve : ∀ g ∈ snap.groups, g.groupType.isValid = true := by
  obtain ⟨-, hv, rfl⟩ := resolve_eq_ok_iff.mp hres
  obtain ⟨hok, -, -⟩ := validatePolicyTopology_ok_iff.mp (validateInput_ok_iff.mp hv).1
  have ht (g : NodeGroup) (hg : g ∈ (normalizeInput input).groups) := isValid_of_validateGroup (hok.group g hg)
  obtain ⟨rank, hf⟩ := @exists_ranked_fuel rt clock input hv
  refine snapshotOf_groups_cases hv ?_ ?_
  · intro g hg _ _ _ _
    exact ht g hg
  · intro ctx united d hd
    refine types_deriveGroups (P := fun t => t.isValid = true) hf (firstPass hf rfl)
      (resolveEach_eq hf _ (settled_init _)).2 ?_ d hd
    intro rg hrg
    obtain ⟨g, hg, i, rfl⟩ := mem_resolvedList hf hrg
    exact ht g ((mem_stableSort _ _ _).mp hg)

theorem exists_node_of_resolve {n : ResolvedNode} (hn : n ∈ snap.nodes) :
    ∃ node ∈ input.nodes, node.displayName = n.displayName := by
  obtain ⟨-, -, rfl⟩ := resolve_eq_ok_iff.mp hres
  obtain ⟨i, hi, rfl⟩ := mem_mapIdx.mp hn
  have hno : (sortNodes (globalAdmittedNodes rt clock (normalizeInput input)))[i] ∈ _ :=
    (mem_stableSort _ _ _).mp (getElem_mem hi)
  exact ⟨_, (mem_globalAdmittedNodes.mp hno).1, rfl⟩

theorem target_of_resolve {r : ResolvedRule} (hr : r ∈ snap.rules) :
    r.targetGroupName = "" ∨ ∃ g ∈ snap.groups, g.id = r.targetGroupID ∧ g.name = r.targetGroupName := by
  obtain ⟨-, hv, rfl⟩ := resolve_eq_ok_iff.mp hres
  change r ∈ resolveRules rt input.policyRules (normalizeInput input).groups at hr
  rw [resolveRules, mem_mapIdx] at hr
  obtain ⟨i, -, rfl⟩ := hr
  cases hg : mapOf (fun g : NodeGroup => g.id) (normalizeInput input).groups _ with
  | none => exact .inl rfl
  | some g =>
    obtain ⟨hgm, hgi⟩ := mapOf_some hg
    obtain ⟨rg, hrg, hid, hn⟩ := @exists_snapshotOf_group rt enc clock input hv g hgm
    exact .inr ⟨rg, hrg, hid.trans hgi, hn⟩

end

section

variable (lib : Libraries) (snap : ResolvedPolicySnapshot) (m : ResolvedGroupMember)

def MissingNode : Prop :=
  m.kind = .node ∧ trimSpace m.displayName ≠ "" ∧
    ((trimSpace m.targetID ≠ "" ∧ m.targetID ∉ snap.nodeIDs) ∨ trimSpace m.displayName ∉ snap.nodeNames)

def MissingGroup : Prop :=
  m.kind = .group ∧ trimSpace m.displayName ≠ "" ∧
    ((trimSpace m.targetID ≠ "" ∧ m.targetID ∉ snap.groupIDs) ∨ trimSpace m.displayName ∉ snap.groupNames)

def RefusedMember : Prop :=
  trimSpace m.displayName = "" ∨
    (m.kind = .builtin ∧ isBuiltInPolicyTarget lib.toRuntime (trimSpace m.displayName) = false)

variable {i : ℕ} {m : ResolvedGroupMember}

theorem validateMember_eq_ok_iff {target : CompilerTarget} {g : ResolvedGroup} :
    validateMember lib snap target i g m = .ok () ↔
      ¬MissingNode snap m ∧ ¬MissingGroup snap m ∧ ¬RefusedMember lib m := by
  rw [validateMember, ite_reject_eq_ok, MissingNode, MissingGroup, RefusedMember]
  by_cases hn : trimSpace m.displayName = ""
  · simp [hn]
  · cases hk : m.kind <;> simp [hn]

theorem not_refused_of_missing (h : MissingNode snap m ∨ MissingGroup snap m) : ¬RefusedMember lib m := by
  rintro (hbl | ⟨hk, -⟩)
  · exact h.elim (fun h => h.2.1 hbl) (fun h => h.2.1 hbl)
  · have hne : m.kind ≠ .builtin := by
      rcases h with h | h <;> simp [h.1]
    exact hne hk

theorem validateMember_error {target : CompilerTarget} {g : ResolvedGroup}
    {e : CapabilityError} (h : validateMember lib snap target i g m = .error e) : e.location = groupLocation i ∧
      ((MissingNode snap m ∧ e.reason = "group member references unknown node") ∨
        (MissingGroup snap m ∧ e.reason = "group member references unknown policy group") ∨
        (RefusedMember lib m ∧ ¬UnknownReference e.reason)) := by
  rw [validateMember] at h
  by_cases hn : trimSpace m.displayName = ""
  · rw [if_pos hn] at h
    cases h
    have hrs : ¬UnknownReference "group member display name is required" := by decide
    exact ⟨rfl, .inr (.inr ⟨.inl hn, hrs⟩)⟩
  · cases hk : m.kind with
    | node =>
      simp only [hk] at h
      split_ifs at h with hm
      cases h
      exact ⟨rfl, .inl ⟨⟨hk, hn, hm⟩, rfl⟩⟩
    | group =>
      simp only [hk] at h
      split_ifs at h with hm
      cases h
      exact ⟨rfl, .inr (.inl ⟨⟨hk, hn, hm⟩, rfl⟩)⟩
    | builtin =>
      simp only [hk] at h
      split_ifs at h with hbi
      cases h
      exact ⟨rfl, .inr (.inr ⟨.inr ⟨hk, hbi⟩, not_unknownReference_append _ (otherStart rfl rfl)⟩)⟩

def ReadableRule (r : ResolvedRule) : Prop :=
  ruleKind lib.toRuntime (trimSpace r.expression) ∈ mihomoCapability.ruleKinds ∧
    (isMatchRule lib.toRuntime (trimSpace r.expression) = true ∨
      trimSpace ((split (trimSpace r.expression) ',').getD 1 "") ≠ "") ∧
    trimSpace r.targetGroupName ≠ ""

def UnknownTarget (r : ResolvedRule) : Prop :=
  isBuiltInPolicyTarget lib.toRuntime (trimSpace r.targetGroupName) = false ∧
    trimSpace r.targetGroupName ∉ snap.groupNames

instance (r : ResolvedRule) : Decidable (UnknownTarget lib snap r) := inferInstanceAs (Decidable (_ ∧ _))

variable {lib snap}

theorem validateRule_unreadable {r : ResolvedRule} (h : ¬ReadableRule lib r) :
    ∃ e, validateRule lib snap .mihomo mihomoCapability i r = .error e ∧ ¬UnknownReference e.reason := by
  have hr : ∀ reason ∈ ["routing rule expression is required", "routing rule kind is not supported",
      "routing rule value is required", "routing rule target group is required"], ¬UnknownReference reason := by
    decide
  rw [validateRule]
  by_cases he : ruleKind lib.toRuntime (trimSpace r.expression) = ""
  · rw [if_pos he]
    exact ⟨_, rfl, hr _ (by simp)⟩
  rw [if_neg he]
  by_cases hk : ruleKind lib.toRuntime (trimSpace r.expression) ∉ mihomoCapability.ruleKinds
  · rw [if_pos hk]
    exact ⟨_, rfl, hr _ (by simp)⟩
  rw [if_neg hk]
  by_cases hvl : isMatchRule lib.toRuntime (trimSpace r.expression) = false ∧
      trimSpace ((split (trimSpace r.expression) ',').getD 1 "") = ""
  · rw [if_pos hvl]
    exact ⟨_, rfl, hr _ (by simp)⟩
  rw [if_neg hvl]
  by_cases htg : trimSpace r.targetGroupName = ""
  · rw [if_pos htg]
    exact ⟨_, rfl, hr _ (by simp)⟩
  · refine absurd ⟨not_not.mp hk, ?_, htg⟩ h
    by_contra hneither
    rw [not_or, not_not, Bool.not_eq_true] at hneither
    exact hvl hneither

/-- The check of the target of a readable rule. That its ID is unknown is never said, since it is there. -/
theorem validateRule_readable {r : ResolvedRule} (h : ReadableRule lib r)
    (hid : snap.groups ≠ [] → r.targetGroupID ∈ snap.groupIDs) : validateRule lib snap .mihomo mihomoCapability i r =
      if UnknownTarget lib snap r then
        .error ⟨.mihomo, ruleLocation i, trimSpace r.targetGroupName, "routing rule references unknown target group"⟩
      else .ok () := by
  obtain ⟨hk, hvl, htg⟩ := h
  have he : ruleKind lib.toRuntime (trimSpace r.expression) ≠ "" := by
    intro he
    rw [he] at hk
    exact absurd hk (by decide)
  have hv' : ¬(isMatchRule lib.toRuntime (trimSpace r.expression) = false ∧
      trimSpace ((split (trimSpace r.expression) ',').getD 1 "") = "") := by
    rintro ⟨hm, hbl⟩
    exact hvl.elim (fun h => by simp [hm] at h) (fun h => h hbl)
  rw [validateRule, if_neg he, if_neg (not_not.mpr hk), if_neg hv', if_neg htg]
  by_cases hbi : isBuiltInPolicyTarget lib.toRuntime (trimSpace r.targetGroupName) = true
  · rw [if_pos hbi, if_neg (fun hu => by simp [hu.1] at hbi)]
  rw [if_neg hbi]
  by_cases hn : trimSpace r.targetGroupName ∈ snap.groupNames
  · have hgs : snap.groups ≠ [] := by
      intro hni
      simp [groupNames, hni] at hn
    rw [if_neg (not_or.mpr ⟨hgs, not_not.mpr hn⟩), if_neg (fun hmi => hmi.2.2 (hid hgs)),
      if_neg (fun hu => hu.2 hn)]
  · rw [if_pos (.inr hn), if_pos ⟨by simpa using hbi, hn⟩]
    rfl

end

section

variable (lib : Libraries) (snap : ResolvedPolicySnapshot)

def UnknownMember (m : ResolvedGroupMember) : Prop :=
  (m.kind = .node ∧ trimSpace m.displayName ∉ snap.nodeNames) ∨
    (m.kind = .group ∧ trimSpace m.displayName ∉ snap.groupNames)

def RejectedBuiltin (m : ResolvedGroupMember) : Prop :=
  m.kind = .builtin ∧ isBuiltInPolicyTarget lib.toRuntime (trimSpace m.displayName) = false

def ResolvedPolicySnapshot.allMembers : List ResolvedGroupMember := snap.groups.flatMap (·.members)

/-- Every reference is found under its trimmed name, unless something before it is refused. -/
structure FindsReferences : Prop where
  members : Covered (UnknownMember snap) (RejectedBuiltin lib) snap.allMembers
  rules : (∀ m ∈ snap.allMembers, ¬UnknownMember snap m ∧ ¬RejectedBuiltin lib m) →
    Covered (fun r => ReadableRule lib r ∧ UnknownTarget lib snap r) (fun r => ¬ReadableRule lib r) snap.rules

variable {lib snap}

theorem mem_groupIDs_of_referential (hr : snap.Referential) {g : ResolvedGroup} (hg : g ∈ snap.groups) :
    g.id ∈ snap.groupIDs := by
  obtain ⟨ht, hne⟩ := hr.ids g hg
  exact mem_filter.mpr ⟨mem_map_of_mem hg, by simpa [ht] using hne⟩

theorem mem_groupNameSet {g : ResolvedGroup} (hr : snap.Referential) (hg : g ∈ snap.groups) :
    g.id ∈ groupNameSet snap := by
  refine mem_filter.mpr ⟨mem_append_right _ (mem_map_of_mem hg), ?_⟩
  simpa using (hr.ids g hg).2

theorem rendered_of_resolve {enc : Encoder} {clock : Clock} {ctxErr : Option GoError} {input : ResolveInput}
    (hres : resolve lib.toRuntime enc clock ctxErr input = .ok snap) : snap.Rendered lib := by
  have hre := referential_of_resolve hres
  refine ⟨?_, ?_⟩
  · intro g hg m hm loc
    rw [checkMihomoMember, if_neg]
    rintro ⟨hk, ⟨-, hid⟩, -⟩
    obtain ⟨child, hch, htg, -⟩ := (hre.members g hg m hm).group hk
    apply hid
    rw [← htg, (hre.ids child hch).1]
    exact mem_groupNameSet hre hch
  · intro r hr i
    rw [checkMihomoRuleTarget, if_neg]
    rintro ⟨hn, -, hid⟩
    rcases target_of_resolve hres hr with he | ⟨g, hg, htg, -⟩
    · apply hn
      rw [he]
      decide
    · apply hid
      rw [← htg, (hre.ids g hg).1]
      exact mem_groupNameSet hre hg

theorem missing_iff_unknown (hr : snap.Referential) (hnm : ∀ n ∈ snap.nodes, trimSpace n.displayName ≠ "")
    {m : ResolvedGroupMember} (hm : m ∈ snap.allMembers) :
    (MissingNode snap m ∨ MissingGroup snap m ↔ UnknownMember snap m) ∧
      (RefusedMember lib m ↔ RejectedBuiltin lib m) := by
  obtain ⟨g, hg, hm⟩ := mem_flatMap.mp hm
  have hf := hr.members g hg m hm
  rw [MissingNode, MissingGroup, UnknownMember, RefusedMember, RejectedBuiltin]
  cases hk : m.kind with
  | node =>
    obtain ⟨n, hn, hid, hna⟩ := hf.node hk
    have hnb := hnm n hn
    have hme : m.targetID ∈ snap.nodeIDs := hid ▸ mem_map_of_mem hn
    rw [hna] at hnb
    simp [hnb, hme]
  | group =>
    obtain ⟨child, hch, hid, hna⟩ := hf.group hk
    have hnb := hr.names child hch
    have hme : m.targetID ∈ snap.groupIDs := hid ▸ mem_groupIDs_of_referential hr hch
    rw [hna] at hnb
    simp [hnb, hme]
  | builtin =>
    obtain ⟨hna, hbi⟩ := hf.builtin hk
    have ha : ∀ b ∈ sourceBuiltins, trimSpace b ≠ "" := by decide
    have hnb := ha _ hbi
    rw [← hna] at hnb
    simp [hnb]

def ResolvedPolicySnapshot.memberEntries (snap : ResolvedPolicySnapshot) :
    List (ℕ × ResolvedGroup × ResolvedGroupMember) :=
  (snap.groups.mapIdx (fun i g => g.members.map (fun m => (i, g, m)))).flatten

theorem map_memberEntries : snap.memberEntries.map (·.2.2) = snap.allMembers := by
  rw [memberEntries, allMembers, List.flatMap, map_flatten]
  congr 1
  apply ext_getElem
  · simp
  · intro i _ _
    simp [Function.comp_def]

theorem validateMembers_eq (target : CompilerTarget) : validateMembers lib snap target =
    snap.memberEntries.map (fun t => validateMember lib snap target t.1 t.2.1 t.2.2) := by
  rw [memberEntries, validateMembers, map_flatten]
  congr 1
  apply ext_getElem
  · simp
  · intro i _ _
    simp [Function.comp_def]

theorem onlyErrors_validateMembers {target : CompilerTarget} {P : CapabilityError → Prop}
    {bad cover : ResolvedGroupMember → Prop}
    (h : ∀ m ∈ snap.allMembers, ∀ i g, (¬OnlyErrors P (validateMember lib snap target i g m) ↔ bad m) ∧
      (validateMember lib snap target i g m ≠ .ok () ∧ OnlyErrors P (validateMember lib snap target i g m) ↔ cover m)) :
    OnlyErrors P (checks (validateMembers lib snap target)) ↔ Covered bad cover snap.allMembers := by
  rw [validateMembers_eq, onlyErrors_checks_iff, covered_map, ← map_memberEntries, covered_map]
  have hm (t : ℕ × ResolvedGroup × ResolvedGroupMember) (ht : t ∈ snap.memberEntries) : t.2.2 ∈ snap.allMembers := by
    rw [← map_memberEntries]
    exact mem_map_of_mem ht
  exact covered_congr (fun t ht => (h t.2.2 (hm t ht) t.1 t.2.1).1) (fun t ht => (h t.2.2 (hm t ht) t.1 t.2.1).2)

theorem checks_validateMembers_eq_ok_iff {target : CompilerTarget} :
    checks (validateMembers lib snap target) = .ok () ↔
      ∀ m ∈ snap.allMembers, ¬MissingNode snap m ∧ ¬MissingGroup snap m ∧ ¬RefusedMember lib m := by
  rw [checks_eq_ok_iff, validateMembers_eq, ← map_memberEntries]
  simp only [forall_mem_map, validateMember_eq_ok_iff]

theorem mem_protocols_iff (p : Protocol) : p ∈ mihomoCapability.protocols ↔ p.isValid = true := by
  cases p <;> simp [mihomoCapability, Protocol.isValid]

theorem checks_validateNode_eq_ok_iff : checks (snap.nodes.mapIdx (validateNode .mihomo mihomoCapability)) = .ok () ↔
      ∀ n ∈ snap.nodes, n.protocol.isValid = true ∧ trimSpace n.logicalID ≠ "" ∧ trimSpace n.displayName ≠ "" := by
  apply checks_mapIdx_eq_ok_iff
  intro i n _
  simp only [validateNode, ite_reject_eq_ok, not_not, mem_protocols_iff, and_true, ne_eq]

theorem checks_validateGroupType (hn : ∀ g ∈ snap.groups, trimSpace g.name ≠ "")
    (ht : ∀ g ∈ snap.groups, g.groupType.isValid = true) :
    checks (snap.groups.mapIdx (validateGroupType .mihomo mihomoCapability)) = .ok () := by
  apply checks_eq_ok_iff.mpr
  intro r hr
  obtain ⟨i, hi, rfl⟩ := mem_mapIdx.mp hr
  have hm := getElem_mem hi
  rw [validateGroupType, ite_reject_eq_ok, ite_reject_eq_ok]
  refine ⟨?_, hn _ hm, rfl⟩
  have hty := ht _ hm
  revert hty
  cases snap.groups[i].groupType <;> simp [mihomoCapability, GroupType.isValid]

end

section

variable {lib : Libraries} {enc : Encoder} {encs : Encoders} {clock : Clock} {input : ResolveInput}
  {snap : ResolvedPolicySnapshot}

theorem onlyErrors_members (hr : snap.Referential) (hnm : ∀ n ∈ snap.nodes, trimSpace n.displayName ≠ "") :
    OnlyErrors (fun e => ¬UnknownReference e.reason) (checks (validateMembers lib snap .mihomo)) ↔
      Covered (UnknownMember snap) (RejectedBuiltin lib) snap.allMembers := by
  apply onlyErrors_validateMembers
  intro m hm i g
  obtain ⟨hmi, hre⟩ := @missing_iff_unknown lib snap hr hnm m hm
  rw [← hmi, ← hre]
  apply onlyErrors_cases
  · intro hok
    obtain ⟨hn, hgr, hno⟩ := (validateMember_eq_ok_iff lib snap).mp hok
    exact ⟨not_or.mpr ⟨hn, hgr⟩, hno⟩
  · intro e he
    obtain ⟨-, ⟨hn, hrs⟩ | ⟨hgr, hrs⟩ | ho⟩ := validateMember_error lib snap he
    · refine .inl ⟨.inl hn, ?_⟩
      rw [hrs]
      decide
    · refine .inl ⟨.inr hgr, ?_⟩
      rw [hrs]
      decide
    · exact .inr ho
  · exact not_refused_of_missing lib snap

theorem onlyErrors_rules (hid : ∀ r ∈ snap.rules, snap.groups ≠ [] → r.targetGroupID ∈ snap.groupIDs) :
    OnlyErrors (fun e => ¬UnknownReference e.reason)
        (checks (snap.rules.mapIdx (validateRule lib snap .mihomo mihomoCapability))) ↔
      Covered (fun r => ReadableRule lib r ∧ UnknownTarget lib snap r) (fun r => ¬ReadableRule lib r) snap.rules := by
  apply onlyErrors_checks_mapIdx_iff
  intro i r hr
  by_cases hre : ReadableRule lib r
  · rw [validateRule_readable hre (hid r hr)]
    by_cases hu : UnknownTarget lib snap r
    · have hrs : UnknownReference "routing rule references unknown target group" := by decide
      simp [hre, hu, hrs]
    · simp [hre, hu]
  · obtain ⟨e, he, hrs⟩ := @validateRule_unreadable lib snap i r hre
    rw [he]
    simp [hre, hrs]

/-- A Mihomo compilation of a resolved snapshot with names does not say that a reference is missing exactly when
every trimmed name is found, or something is refused before. -/
theorem compile_finds_references_iff {ctxErr ctxErr' : Option GoError}
    (hres : resolve lib.toRuntime enc clock ctxErr input = .ok snap)
    (hnames : ∀ n ∈ input.nodes, trimSpace n.displayName ≠ "") :
    (∀ e, compile lib encs ctxErr' snap .mihomo = .error (.capability e) → ¬UnknownReference e.reason) ↔
      (ctxErr' = none → (∀ n ∈ snap.nodes, n.protocol.isValid = true ∧ trimSpace n.logicalID ≠ "") →
        FindsReferences lib snap) := by
  have hre := referential_of_resolve hres
  have hs (n : ResolvedNode) (hn : n ∈ snap.nodes) : trimSpace n.displayName ≠ "" := by
    obtain ⟨node, hno, hna⟩ := exists_node_of_resolve hres hn
    exact hna ▸ hnames node hno
  cases ctxErr' with
  | some err => simp [compile]
  | none =>
    have ho {α : Type} {x : Except CapabilityError α} {place : String} (h : OnlyErrors (OrdinaryAt place) x) :
        OnlyErrors (fun e => ¬UnknownReference e.reason) x := h.mono fun _ he => he.2
    have hp := ho (onlyErrors_allOk (ordinary_mapIdx (l := snap.nodes) hasPrefix_nodes
      fun i n _ => ordinary_renderMihomoProxy lib i n))
    have hrn : OnlyErrors (fun e => ¬UnknownReference e.reason) (renderMihomo lib snap) :=
      (onlyErrors_renderMihomo_iff (rendered_of_resolve hres) (fun _ he => he.2) (fun _ he => he.2)).mpr
        ⟨ho (ordinary_nodes (ordinary_validateMihomoNode lib) snap.nodes), fun _ => hp⟩
    have hen := ho (ordinary_nodes (ordinary_envelope lib .mihomo) snap.nodes)
    have hns := ho (ordinary_nodes (ordinary_validateNode .mihomo mihomoCapability) snap.nodes)
    have ht := checks_validateGroupType hre.names (isValid_of_resolve hres)
    have hid (r : ResolvedRule) (hr : r ∈ snap.rules) (hne : snap.groups ≠ []) : r.targetGroupID ∈ snap.groupIDs := by
      obtain ⟨g, hg, htg, -⟩ := hre.rules r hr hne
      exact htg ▸ mem_groupIDs_of_referential hre hg
    have hok : checks (validateMembers lib snap .mihomo) = .ok () ↔
        ∀ m ∈ snap.allMembers, ¬UnknownMember snap m ∧ ¬RejectedBuiltin lib m := by
      rw [checks_validateMembers_eq_ok_iff]
      refine forall₂_congr fun m hm => ?_
      obtain ⟨hmi, hru⟩ := @missing_iff_unknown lib snap hre hs m hm
      rw [← hmi, ← hru, not_or, and_assoc]
    -- only the checks of members and rules can say that a reference is missing
    rw [← onlyErrors_iff_located, onlyErrors_compile rfl]
    simp only [validate, onlyErrors_bind_unit, ne_eq, not_true_eq_false, if_false, hns, true_and, ht,
      onlyErrors_ok,
      true_implies, checks_validateNode_eq_ok_iff, onlyErrors_members hre hs, hok, onlyErrors_rules hid,
      hen, render]
    simp only [onlyErrors_bind, onlyErrors_located, hrn, onlyErrors_encoded, onlyErrors_ok, implies_true, and_true]
    constructor
    · intro h ha
      obtain ⟨hms, hrl⟩ := h (fun n hn => ⟨(ha n hn).1, (ha n hn).2, hs n hn⟩)
      exact ⟨hms, hrl⟩
    · intro h ha
      have hf := h (fun n hn => ⟨(ha n hn).1, (ha n hn).2.1⟩)
      exact ⟨hf.members, hf.rules⟩

end

theorem linkedInput_finds_references :
    ∃ snap, resolve asciiRuntime jsonEncoder sampleClock none linkedInput = .ok snap ∧
      FindsReferences asciiLibraries snap := by
  have hres := resolve_sample linkedInput (by decide)
  obtain ⟨result, hc⟩ := exists_of_isOk (x := compile asciiLibraries blankEncoders none
    (snapshotOf asciiRuntime jsonEncoder sampleClock (normalizeInput linkedInput)) .mihomo) (by decide)
  have hi := @compile_finds_references_iff asciiLibraries _ blankEncoders _ _ _ none none hres (by decide)
  refine ⟨_, hres, hi.mp ?_ rfl (by decide)⟩
  intro e he
  cases he

/-- `Proxy` refers to a group whose name has blanks around it. -/
def paddedInput : ResolveInput where
  nodes := [nodeHK]
  groups := [sampleGroup idA " HK " [manualSource nodeHK 0], sampleGroup idB "Proxy" [groupRefTo idA 0]]
  asOf := 63000000000000000000

/-- The resolver accepts the reference, the compiler does not find its trimmed name. -/
theorem padded_name_not_found : ∃ snap e, resolve asciiRuntime jsonEncoder sampleClock none paddedInput = .ok snap ∧
      (∀ n ∈ paddedInput.nodes, trimSpace n.displayName ≠ "") ∧
      (∀ g ∈ paddedInput.groups, trimSpace g.name ≠ "") ∧
      compile asciiLibraries blankEncoders none snap .mihomo = .error (.capability e) ∧
      e = ⟨.mihomo, "groups[1]", "HK", "group member references unknown policy group"⟩ := by
  have hres := resolve_sample paddedInput (by decide)
  refine ⟨_, _, hres, by decide, by decide, failure?_eq_some_iff.mp ?_, rfl⟩
  decide

end ClashSubParser
