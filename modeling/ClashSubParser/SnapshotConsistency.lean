import ClashSubParser.CompilerCapability
import ClashSubParser.NodeSets
import ClashSubParser.PrunedSnapshots

/-! The fields of a group that repeat what its members say, after resolving, pruning and filtering. -/
namespace ClashSubParser

open List Reachability StableSort

/-- The node IDs a group leads to over its group members, through groups of the given set. -/
inductive Reaches (groups : Set ResolvedGroup) : ResolvedGroup → String → Prop
  | node {g : ResolvedGroup} {m : ResolvedGroupMember} (hm : m ∈ g.members) (hk : m.kind = .node) :
      Reaches groups g m.targetID
  | group {g h : ResolvedGroup} {m : ResolvedGroupMember} {x : String} (hm : m ∈ g.members) (hk : m.kind = .group)
      (hh : h ∈ groups) (hid : h.id = m.targetID) (hr : Reaches groups h x) : Reaches groups g x

variable (snap : ResolvedPolicySnapshot)

def ResolvedPolicySnapshot.groupSet : Set ResolvedGroup := {g | g ∈ snap.groups}

/-- Every group repeats its members correctly, and every node it leads to is there. -/
structure ResolvedPolicySnapshot.Consistent (snap : ResolvedPolicySnapshot) : Prop where
  nodes : ∀ g ∈ snap.groups, ∀ x, x ∈ g.nodeLogicalIDs ↔ ∃ m ∈ g.members, m.kind = .node ∧ m.targetID = x
  children : ∀ g ∈ snap.groups, ∀ x, x ∈ g.childGroupIDs ↔ ∃ m ∈ g.members, m.kind = .group ∧ m.targetID = x
  all : ∀ g ∈ snap.groups, ∀ x, x ∈ g.allNodeLogicalIDs ↔ Reaches snap.groupSet g x
  known : ∀ g ∈ snap.groups, ∀ x, Reaches snap.groupSet g x → x ∈ snap.nodes.map (·.logicalID)
  pass : ∀ g ∈ snap.groups, g.effectiveEmptyPass = true ↔
    g.emptyFallbackPass = true ∧ (∀ x, ¬Reaches snap.groupSet g x) ∧ ∀ m ∈ g.members, m.kind ≠ .builtin

theorem Reaches.mono {G H : Set ResolvedGroup} (hGH : G ⊆ H) {g : ResolvedGroup} {x : String}
    (h : Reaches G g x) : Reaches H g x := by
  induction h with
  | node hm hk => exact .node hm hk
  | group hm hk hh hid _ ih => exact .group hm hk (hGH hh) hid ih

section

variable {rt : Runtime} {ctx : GroupContext} {groups : List NodeGroup}

variable (hu : UnitedFacts rt ctx groups)
include hu

theorem UnitedFacts.own {u : ResolvedGroup} (hin : u ∈ unitedGroups rt ctx groups) :
    (∀ x, x ∈ u.nodeLogicalIDs ↔ (MemberKind.node, x) ∈ u.members.map (·.key)) ∧
    ∀ x, x ∈ u.childGroupIDs ↔ (MemberKind.group, x) ∈ u.members.map (·.key) := by
  have hns (items : List ResolvedItem) (x : String) :
      x ∈ nodeTargets items ↔ (MemberKind.node, x) ∈ items.map (·.key) := by
    simp [mem_nodeTargets, ResolvedItem.key]
  rcases mem_append.mp hin with hin | hin
  · obtain ⟨rg, hrg, rfl⟩ := mem_map.mp hin
    have hid : rg.id ∈ (firstResolved rt ctx groups).map (·.id) := mem_map_of_mem hrg
    have hks := hu.run.keys rg.id hid
    rw [if_pos (mem_reverse.mpr hid)] at hks
    refine ⟨fun x => ?_, fun x => ?_⟩
    · change x ∈ rg.nodeLogicalIDs ↔ _ ∈ ((derivedState rt ctx groups).slices rg.id).members.map (·.key)
      rw [hks, hu.first.nodeLogicalIDs rg hrg, hns]
      -- only group keys are replaced
      constructor
      · intro h
        exact mem_map.mpr ⟨_, h, by simp [replaceKey]⟩
      · intro h
        obtain ⟨k, hk, hkx⟩ := mem_map.mp h
        rw [replaceKey] at hkx
        split_ifs at hkx
        · simp at hkx
        · rwa [← hkx]
    · change x ∈ ((derivedState rt ctx groups).slices rg.id).childGroupIDs ↔ _
      rw [hu.run.childGroupIDs _ hid, mem_groupKeys]
      rfl
  · obtain ⟨p, -, c, -, hf⟩ := hu.run.origin u hin
    have hks : u.members.map (·.key) = (survivors rt ctx (groups.length+1) p c).map (·.key) := by
      rw [hf.members, map_key_membersOf, map_map]
      exact map_congr_left fun leaf _ => key_derivedItem ctx leaf
    rw [hks, hf.nodeLogicalIDs, hf.childGroupIDs]
    refine ⟨hns _, fun x => ?_⟩
    -- the leaves that survive are no groups
    simp only [not_mem_nil, false_iff]
    intro h
    obtain ⟨leaf, hl, hke⟩ := mem_map.mp h
    exact specLeaves_ne_group _ _ leaf (mem_filter.mp hl).1 (congrArg Prod.fst hke)

theorem UnitedFacts.lookup_any {u : ResolvedGroup} (hin : u ∈ unitedGroups rt ctx groups) :
    ∃ v, mapOf (fun g : ResolvedGroup => g.id) (unitedGroups rt ctx groups) u.id = some v ∧
      v.nodeLogicalIDs = u.nodeLogicalIDs ∧ v.childGroupIDs = u.childGroupIDs := by
  rcases mem_append.mp hin with hin | hin
  · obtain ⟨rg, hrg, rfl⟩ := mem_map.mp hin
    have hid : rg.id ∈ (firstResolved rt ctx groups).map (·.id) := mem_map_of_mem hrg
    obtain ⟨v, hv, hns, hk⟩ := hu.lookup hid
    refine ⟨v, hv, hns.trans (hu.first.nodeLogicalIDs rg hrg).symm, hk.trans ?_⟩
    change _ = ((derivedState rt ctx groups).slices rg.id).childGroupIDs
    rw [hu.run.childGroupIDs _ hid, hu.run.keys _ hid, if_pos (mem_reverse.mpr hid),
      groupTargets_eq_groupKeys, groupKeys_map_replaceKey]
  · obtain ⟨p, hp, c, hc, hf⟩ := hu.run.origin u hin
    obtain ⟨d, hd, hdf⟩ := hu.lookup_derived hp hc hf.derives
    rw [hf.id]
    exact ⟨d, hd, hdf.nodeLogicalIDs.trans hf.nodeLogicalIDs.symm,
      hdf.childGroupIDs.trans hf.childGroupIDs.symm⟩

theorem UnitedFacts.collectNodes_iff {u : ResolvedGroup}
    (hin : u ∈ unitedGroups rt ctx groups) (x : String) :
    let final := (unitedGroups rt ctx groups).map (recollect (unitedGroups rt ctx groups))
    x ∈ collectNodes (unitedGroups rt ctx groups) u.id ↔
      Reaches {g | g ∈ final} (recollect (unitedGroups rt ctx groups) u) x := by
  intro final
  have hf : ((unitedGroups rt ctx groups).map (·.id)).length < (unitedGroups rt ctx groups).length+1 := by
    rw [length_map]
    exact Nat.lt_succ_self _
  let payload := fun k => (mapOf (fun g : ResolvedGroup => g.id) (unitedGroups rt ctx groups) k).elim []
    (·.nodeLogicalIDs)
  have hid (v : ResolvedGroup) (hv : v ∈ unitedGroups rt ctx groups) :
      v.id ∈ (unitedGroups rt ctx groups).map (·.id) := mem_map_of_mem hv
  have hmb (v : ResolvedGroup) (k : MemberKind) (y : String) (h : (k, y) ∈ v.members.map (·.key)) :
      ∃ m ∈ v.members, m.kind = k ∧ m.targetID = y := by
    obtain ⟨m, hm, hke⟩ := mem_map.mp h
    exact ⟨m, hm, congrArg Prod.fst hke, congrArg Prod.snd hke⟩
  constructor
  · intro hx
    obtain ⟨w, hrc, hw⟩ := (mem_collect payload hu.children_closed hf (hid u hin) x).mp hx
    -- from the end of the path back to its start, whichever group has the ID
    have hp : ∀ k, Relation.ReflTransGen (fun a b => b ∈
        (mapOf (fun g : ResolvedGroup => g.id) (unitedGroups rt ctx groups) a).elim [] (·.childGroupIDs)) k w →
        ∀ v ∈ unitedGroups rt ctx groups, v.id = k →
          Reaches {g | g ∈ final} (recollect (unitedGroups rt ctx groups) v) x := by
      intro k hk
      induction hk using Relation.ReflTransGen.head_induction_on with
      | refl =>
        intro v hv hvi
        obtain ⟨found, hfd, hns, -⟩ := hu.lookup_any hv
        rw [hvi] at hfd
        change x ∈ (mapOf _ _ w).elim [] (fun g : ResolvedGroup => g.nodeLogicalIDs) at hw
        rw [hfd, Option.elim_some, hns, (hu.own hv).1] at hw
        obtain ⟨m, hm, hki, rfl⟩ := hmb v _ _ hw
        exact .node hm hki
      | head hac _ ih =>
        intro v hv hvi
        obtain ⟨found, hfd, -, hks⟩ := hu.lookup_any hv
        rw [hvi] at hfd
        have hcl := hu.children_closed _ (hvi ▸ hid v hv) _ hac
        rw [hfd, Option.elim_some, hks, (hu.own hv).2] at hac
        obtain ⟨m, hm, hki, htg⟩ := hmb v _ _ hac
        obtain ⟨h, hh, hhi⟩ := mem_map.mp hcl
        exact .group hm hki (mem_map_of_mem hh) (hhi.trans htg.symm) (ih h hh hhi)
    exact hp _ hrc u hin rfl
  · intro hx
    -- along the members, one step of the walk each
    have ha : ∀ g x, Reaches {g | g ∈ final} g x → g ∈ final →
        x ∈ collectNodes (unitedGroups rt ctx groups) g.id := by
      intro g x hr
      induction hr with
      | node hm hk =>
        intro hg
        obtain ⟨v, hv, rfl⟩ := mem_map.mp hg
        obtain ⟨found, hfd, hns, -⟩ := hu.lookup_any hv
        refine (mem_collect_step payload hu.children_closed hf (hid v hv) _).mpr (.inl ?_)
        change _ ∈ (mapOf _ _ v.id).elim [] (fun g : ResolvedGroup => g.nodeLogicalIDs)
        rw [hfd, Option.elim_some, hns, (hu.own hv).1, ← hk]
        exact mem_map_of_mem hm
      | @group g h m x hm hk hh hhi _ ih =>
        intro hg
        obtain ⟨v, hv, rfl⟩ := mem_map.mp hg
        obtain ⟨found, hfd, -, hks⟩ := hu.lookup_any hv
        refine (mem_collect_step payload hu.children_closed hf (hid v hv) x).mpr (.inr ⟨h.id, ?_, ih hh⟩)
        rw [hfd, Option.elim_some, hks, (hu.own hv).2, hhi, ← hk]
        exact mem_map_of_mem hm
    exact ha (recollect _ u) x hx (mem_map_of_mem hin)

end

theorem Reaches.known {snap : ResolvedPolicySnapshot} (hr : snap.Referential) {g : ResolvedGroup} {x : String}
    (h : Reaches snap.groupSet g x) (hg : g ∈ snap.groups) : x ∈ snap.nodes.map (·.logicalID) := by
  induction h with
  | node hm hk =>
    obtain ⟨n, hn, hid, -⟩ := (hr.members _ hg _ hm).node hk
    exact mem_map.mpr ⟨n, hn, hid⟩
  | group _ _ hh _ _ ih => exact ih hh

theorem consistent_of_resolve {rt : Runtime} {enc : Encoder} {clock : Clock} {err : Option GoError}
    {input : ResolveInput} {snap : ResolvedPolicySnapshot} (hr : resolve rt enc clock err input = .ok snap)
    (hfr : DerivedFresh rt (groupIDs input.groups)) : snap.Consistent := by
  have hre := referential_of_resolve hr
  obtain ⟨-, hv, rfl⟩ := resolve_eq_ok_iff.mp hr
  obtain ⟨rank, hf⟩ := @exists_ranked_fuel rt clock input hv
  rw [← groupIDs_normalizeInput] at hfr
  let ctx := resolveContext rt clock (normalizeInput input)
  have hu : UnitedFacts rt ctx (normalizeInput input).groups := unitedFacts hf rfl hfr
  have hk (k : MemberKind) (x : String) (ms : List ResolvedGroupMember) :
      (k, x) ∈ ms.map (·.key) ↔ ∃ m ∈ ms, m.kind = k ∧ m.targetID = x := by
    simp [ResolvedGroupMember.key]
  have ha (u : ResolvedGroup) (hin : u ∈ unitedGroups rt ctx (normalizeInput input).groups) (x : String) :
      x ∈ (recollect (unitedGroups rt ctx (normalizeInput input).groups) u).allNodeLogicalIDs ↔
        Reaches (snapshotOf rt enc clock (normalizeInput input)).groupSet
          (recollect (unitedGroups rt ctx (normalizeInput input).groups) u) x :=
    (mem_sortedSet _ _).trans (hu.collectNodes_iff hin x)
  refine ⟨?_, ?_, ?_, fun g hg x hx => hx.known hre hg, ?_⟩
  · intro g hg x
    obtain ⟨u, hin, rfl⟩ := mem_map.mp hg
    exact ((hu.own hin).1 x).trans (hk _ x _)
  · intro g hg x
    obtain ⟨u, hin, rfl⟩ := mem_map.mp hg
    exact ((hu.own hin).2 x).trans (hk _ x _)
  · intro g hg x
    obtain ⟨u, hin, rfl⟩ := mem_map.mp hg
    exact ha u hin x
  · intro g hg
    obtain ⟨u, hin, rfl⟩ := mem_map.mp hg
    have he : (sortedSet (collectNodes (unitedGroups rt ctx (normalizeInput input).groups) u.id)).isEmpty = true ↔
        ∀ x, ¬Reaches (snapshotOf rt enc clock (normalizeInput input)).groupSet
          (recollect (unitedGroups rt ctx (normalizeInput input).groups) u) x := by
      rw [List.isEmpty_iff, eq_nil_iff_forall_not_mem]
      exact forall_congr' fun x => not_congr (ha u hin x)
    change (u.emptyFallbackPass &&
      (sortedSet (collectNodes (unitedGroups rt ctx (normalizeInput input).groups) u.id)).isEmpty &&
      !hasBuiltin u) = true ↔ u.emptyFallbackPass = true ∧
        (∀ x, ¬Reaches (snapshotOf rt enc clock (normalizeInput input)).groupSet
          (recollect (unitedGroups rt ctx (normalizeInput input).groups) u) x) ∧
        ∀ m ∈ u.members, m.kind ≠ .builtin
    rw [Bool.and_eq_true, Bool.and_eq_true, he, and_assoc]
    refine and_congr_right fun _ => and_congr_right fun _ => ?_
    simp [hasBuiltin]

def ResolvedPolicySnapshot.Stays (g : ResolvedGroup) : Prop :=
  ∀ e, snap.Prunes e → g.goesWith e = false

def ResolvedPolicySnapshot.Spares (m : ResolvedGroupMember) : Prop :=
  ∀ e, snap.Prunes e → m.refersTo e = false

/-- Pruning takes nothing from a group that stays but members that are there twice, builtin policies beside
nodes, and ways to nodes that lead there otherwise too. -/
structure ResolvedPolicySnapshot.PrunesConsistently (snap : ResolvedPolicySnapshot) : Prop where
  twins : ∀ g ∈ snap.groups, snap.Stays g → ∀ m ∈ g.members, m.kind ≠ .builtin →
    ∃ m' ∈ g.members, m'.key = m.key ∧ snap.Spares m'
  builtins : ∀ g ∈ snap.groups, snap.Stays g → g.emptyFallbackPass = true → (∀ x, ¬Reaches snap.groupSet g x) →
    ∀ m ∈ g.members, m.kind = .builtin → ∃ m' ∈ g.members, m'.kind = .builtin ∧ snap.Spares m'
  ways : ∀ g ∈ snap.groups, snap.Stays g → ∀ x, Reaches snap.groupSet g x →
    Reaches {h | h ∈ snap.groups ∧ snap.Stays h} g x

section

variable {snap : ResolvedPolicySnapshot}

theorem mem_pruned_iff {g' : ResolvedGroup} : g' ∈ (pruneUnavailableOptionalGroups snap).1.groups ↔
    ∃ g ∈ snap.groups, snap.Stays g ∧ { g with members := keptMembers snap g } = g' := mem_pruned_groups

theorem mem_kept_iff {g : ResolvedGroup} {m : ResolvedGroupMember} :
    m ∈ keptMembers snap g ↔ m ∈ g.members ∧ snap.Spares m := mem_keptMembers

theorem reaches_of_pruned {g : ResolvedGroup} {x : String}
    (h : Reaches (pruneUnavailableOptionalGroups snap).1.groupSet { g with members := keptMembers snap g } x) :
    Reaches {h | h ∈ snap.groups ∧ snap.Stays h} g x := by
  generalize hg' : { g with members := keptMembers snap g } = g' at h
  induction h generalizing g with
  | node hm hk =>
    subst hg'
    exact .node (mem_kept_iff.mp hm).1 hk
  | group hm hk hh hid _ ih =>
    subst hg'
    obtain ⟨h₀, hh₀, hstays, rfl⟩ := mem_pruned_iff.mp hh
    exact .group (mem_kept_iff.mp hm).1 hk ⟨hh₀, hstays⟩ hid (ih rfl)

/-- Where no member goes without a twin, what is reached through the groups that stay is still reached. -/
theorem pruned_of_reaches (ht : ∀ g ∈ snap.groups, snap.Stays g → ∀ m ∈ g.members, m.kind ≠ .builtin →
      ∃ m' ∈ g.members, m'.key = m.key ∧ snap.Spares m') {g : ResolvedGroup} {x : String}
    (h : Reaches {h | h ∈ snap.groups ∧ snap.Stays h} g x) (hg : g ∈ snap.groups) (hstays : snap.Stays g) :
    Reaches (pruneUnavailableOptionalGroups snap).1.groupSet { g with members := keptMembers snap g } x := by
  induction h with
  | @node g m hm hk =>
    obtain ⟨m', hm', hke, hs⟩ := ht g hg hstays m hm (by simp [hk])
    obtain ⟨hki, htg⟩ := Prod.mk.inj hke
    rw [← htg]
    exact .node (mem_kept_iff.mpr ⟨hm', hs⟩) (hki.trans hk)
  | @group g h m x hm hk hh hid _ ih =>
    obtain ⟨m', hm', hke, hs⟩ := ht g hg hstays m hm (by simp [hk])
    obtain ⟨hki, htg⟩ := Prod.mk.inj hke
    exact .group (mem_kept_iff.mpr ⟨hm', hs⟩) (hki.trans hk) (mem_pruned_iff.mpr ⟨h, hh.1, hh.2, rfl⟩)
      (hid.trans htg.symm) (ih hh.1 hh.2)

theorem nodes_pruned : (pruneUnavailableOptionalGroups snap).1.nodes = snap.nodes := by
  rw [pruneUnavailableOptionalGroups_fst]
  exact (beforeRound_nodes_rules snap _).1

/-- The conditions are necessary: the stored IDs of a group that stays are those of its members before. -/
theorem prunesConsistently_of_consistent (hc : snap.Consistent)
    (h : (pruneUnavailableOptionalGroups snap).1.Consistent) : snap.PrunesConsistently := by
  have hrs (g : ResolvedGroup) (hg : g ∈ snap.groups) (hstays : snap.Stays g) :
      { g with members := keptMembers snap g } ∈ (pruneUnavailableOptionalGroups snap).1.groups :=
    mem_pruned_iff.mpr ⟨g, hg, hstays, rfl⟩
  have hr (g : ResolvedGroup) (hg : g ∈ snap.groups) (hstays : snap.Stays g) (x : String) :
      Reaches snap.groupSet g x ↔ Reaches (pruneUnavailableOptionalGroups snap).1.groupSet
        { g with members := keptMembers snap g } x :=
    (hc.all g hg x).symm.trans (h.all _ (hrs g hg hstays) x)
  refine ⟨?_, ?_, ?_⟩
  · intro g hg hstays m hm hk
    -- the stored IDs still name the target, so a member of the result does
    have hfd : ∃ m' ∈ keptMembers snap g, m'.kind = m.kind ∧ m'.targetID = m.targetID := by
      cases hki : m.kind with
      | node =>
        exact (h.nodes _ (hrs g hg hstays) _).mp ((hc.nodes g hg _).mpr ⟨m, hm, hki, rfl⟩)
      | group =>
        exact (h.children _ (hrs g hg hstays) _).mp ((hc.children g hg _).mpr ⟨m, hm, hki, rfl⟩)
      | builtin => exact absurd hki hk
    obtain ⟨m', hm', hki, htg⟩ := hfd
    obtain ⟨hin, hs⟩ := mem_kept_iff.mp hm'
    exact ⟨m', hin, Prod.ext hki htg, hs⟩
  · intro g hg hstays hf hn m hm hk
    by_contra hno
    push Not at hno
    -- the group would have to use PASS now, but did not before
    have hp : g.effectiveEmptyPass = true := by
      refine (h.pass _ (hrs g hg hstays)).mpr ⟨hf, fun x hx => hn x ?_, fun m' hm' hk' => ?_⟩
      · exact (hr g hg hstays x).mpr hx
      · obtain ⟨hin, hs⟩ := mem_kept_iff.mp hm'
        exact hno m' hin hk' hs
    exact ((hc.pass g hg).mp hp).2.2 m hm hk
  · intro g hg hstays x hx
    exact reaches_of_pruned ((hr g hg hstays x).mp hx)

section

variable (h : snap.PrunesConsistently) {g : ResolvedGroup} (hg : g ∈ snap.groups) (hstays : snap.Stays g)
include h hg hstays

theorem ResolvedPolicySnapshot.PrunesConsistently.reaches_iff (x : String) :
    Reaches (pruneUnavailableOptionalGroups snap).1.groupSet { g with members := keptMembers snap g } x ↔
      Reaches snap.groupSet g x := by
  have hs : {h | h ∈ snap.groups ∧ snap.Stays h} ⊆ snap.groupSet := fun h hh => hh.1
  constructor
  · intro hx
    exact (reaches_of_pruned hx).mono hs
  · intro hx
    exact pruned_of_reaches h.twins (h.ways g hg hstays x hx) hg hstays

theorem ResolvedPolicySnapshot.PrunesConsistently.target_iff {k : MemberKind} (hk : k ≠ .builtin) (x : String) :
    (∃ m ∈ g.members, m.kind = k ∧ m.targetID = x) ↔
      ∃ m ∈ keptMembers snap g, m.kind = k ∧ m.targetID = x := by
  constructor
  · rintro ⟨m, hm, hki, rfl⟩
    obtain ⟨m', hm', hke, hs⟩ := h.twins g hg hstays m hm (by rwa [hki])
    obtain ⟨hk', htg⟩ := Prod.mk.inj hke
    exact ⟨m', mem_kept_iff.mpr ⟨hm', hs⟩, hk'.trans hki, htg⟩
  · rintro ⟨m, hm, hki, htg⟩
    exact ⟨m, (mem_kept_iff.mp hm).1, hki, htg⟩

end

theorem consistent_prune_iff (hc : snap.Consistent) :
    (pruneUnavailableOptionalGroups snap).1.Consistent ↔ snap.PrunesConsistently := by
  refine ⟨prunesConsistently_of_consistent hc, fun h => ⟨?_, ?_, ?_, ?_, ?_⟩⟩
  · intro g' hg' x
    obtain ⟨g, hg, hstays, rfl⟩ := mem_pruned_iff.mp hg'
    exact (hc.nodes g hg x).trans (h.target_iff hg hstays (by simp) x)
  · intro g' hg' x
    obtain ⟨g, hg, hstays, rfl⟩ := mem_pruned_iff.mp hg'
    exact (hc.children g hg x).trans (h.target_iff hg hstays (by simp) x)
  · intro g' hg' x
    obtain ⟨g, hg, hstays, rfl⟩ := mem_pruned_iff.mp hg'
    exact (hc.all g hg x).trans (h.reaches_iff hg hstays x).symm
  · intro g' hg' x hx
    obtain ⟨g, hg, hstays, rfl⟩ := mem_pruned_iff.mp hg'
    rw [nodes_pruned]
    exact hc.known g hg x ((h.reaches_iff hg hstays x).mp hx)
  · intro g' hg'
    obtain ⟨g, hg, hstays, rfl⟩ := mem_pruned_iff.mp hg'
    refine (hc.pass g hg).trans (and_congr_right fun hf => ?_)
    simp only [h.reaches_iff hg hstays]
    refine and_congr_right fun hn => ⟨fun hno m hm => hno m (mem_kept_iff.mp hm).1, fun hno m hm hk => ?_⟩
    -- a builtin policy that pruning takes away leaves another one behind
    obtain ⟨m', hm', hk', hs⟩ := h.builtins g hg hstays hf hn m hm hk
    exact hno m' (mem_kept_iff.mpr ⟨hm', hs⟩) hk'

end

section

variable {lib : Libraries} {snap : ResolvedPolicySnapshot} {target : CompilerTarget}

/-- Every node a group leads to is the ID of a node the target admits. -/
def ResolvedPolicySnapshot.ReachesAdmitted (snap : ResolvedPolicySnapshot) (lib : Libraries)
    (target : CompilerTarget) : Prop :=
  ∀ capability, capabilityForTarget target = some capability → ∀ g ∈ snap.groups, ∀ x, Reaches snap.groupSet g x →
    ∃ n ∈ snap.nodes, Admits lib target capability n ∧ n.logicalID = x

/-- The filter keeps a consistent snapshot consistent exactly when no group leads to a node it leaves out. -/
theorem consistent_filter_iff (hc : snap.Consistent) :
    (filterCompatibleSnapshot lib snap target).1.Consistent ↔ snap.ReachesAdmitted lib target := by
  unfold filterCompatibleSnapshot ResolvedPolicySnapshot.ReachesAdmitted
  cases hcap : capabilityForTarget target with
  | none => simp [hc]
  | some cap =>
    simp only [Option.some.injEq, forall_eq']
    constructor
    · intro h g hg x hx
      have hx' := (h.all _ (mem_map_of_mem hg) x).mp ((hc.all g hg x).mpr hx)
      obtain ⟨n, hn, hid⟩ := mem_map.mp (h.known _ (mem_map_of_mem hg) x hx')
      obtain ⟨hin, ha⟩ := mem_admittedNodes.mp hn
      exact ⟨n, hin, ha, hid⟩
    · intro h
      -- every node member is kept, so the groups are unchanged
      have hs : snap.groups.map (filterGroup (admittedNodes lib target cap snap.nodes)) = snap.groups := by
        conv_rhs => rw [← map_id snap.groups]
        apply map_congr_left
        intro g hg
        have hke : g.members.filter (keepsMember (admittedNodes lib target cap snap.nodes)) = g.members := by
          rw [filter_eq_self]
          intro m hm
          by_cases hk : m.kind = .node
          · obtain ⟨n, hn, ha, hid⟩ := h g hg _ (.node hm hk)
            have hin : m.targetID ∈ (admittedNodes lib target cap snap.nodes).map (·.logicalID) :=
              mem_map.mpr ⟨n, mem_admittedNodes.mpr ⟨hn, ha⟩, hid⟩
            have hse : m.targetID ∈ admittedSet (admittedNodes lib target cap snap.nodes) :=
              mem_append_left _ hin
            simp [keepsMember, hse]
          · simp [keepsMember, hk]
        rw [filterGroup, hke, id]
      rw [hs]
      refine ⟨hc.nodes, hc.children, hc.all, ?_, hc.pass⟩
      intro g hg x hx
      obtain ⟨n, hn, ha, hid⟩ := h g hg x hx
      exact mem_map.mpr ⟨n, mem_admittedNodes.mpr ⟨hn, ha⟩, hid⟩

end

/-- The resolver returns consistent snapshots, and on every consistent snapshot pruning and the filter for
any target give a consistent one exactly under their conditions. -/
theorem consistency_kept_iff (lib : Libraries) (enc : Encoder) (clock : Clock) (ctxErr : Option GoError)
    (input : ResolveInput) (target : CompilerTarget) (snap : ResolvedPolicySnapshot) :
    (resolve lib.toRuntime enc clock ctxErr input = .ok snap →
      DerivedFresh lib.toRuntime (groupIDs input.groups) → snap.Consistent) ∧
    (snap.Consistent → ((pruneUnavailableOptionalGroups snap).1.Consistent ↔ snap.PrunesConsistently)) ∧
    (snap.Consistent → ((filterCompatibleSnapshot lib snap target).1.Consistent ↔ snap.ReachesAdmitted lib target)) :=
  ⟨fun hr hfr => consistent_of_resolve hr hfr, consistent_prune_iff, consistent_filter_iff⟩

/-- An empty group and a node without password, which nothing refers to. -/
def unusedInput : ResolveInput where
  nodes := [nodeHK, { nodeUS with credentials := { } }]
  groups := [sampleGroup idB "Proxy" [manualSource nodeHK 0], sampleGroup idA "Empty" []]
  policyRules := [⟨"", "", idB, "MATCH", 0⟩]
  asOf := 63000000000000000000

/-- Pruning takes the group and the filter takes the node, and the rest stays consistent. -/
theorem unusedInput_stays_consistent :
    ∃ snap, resolve asciiRuntime jsonEncoder sampleClock none unusedInput = .ok snap ∧ snap.Consistent ∧
      (pruneUnavailableOptionalGroups snap).1.groups.map (·.name) = ["Proxy"] ∧
      (pruneUnavailableOptionalGroups snap).1.Consistent ∧
      (filterCompatibleSnapshot asciiLibraries snap .mihomo).1.nodes.map (·.logicalID) = [nodeHK.logicalID] ∧
      (filterCompatibleSnapshot asciiLibraries snap .mihomo).1.Consistent := by
  have hr := resolve_sample unusedInput (by decide)
  let snap := snapshotOf asciiRuntime jsonEncoder sampleClock (normalizeInput unusedInput)
  have hke := consistency_kept_iff asciiLibraries jsonEncoder sampleClock none unusedInput .mihomo snap
  have hc : snap.Consistent := hke.1 hr sample_fresh
  have hs : ∀ g ∈ snap.groups, ∀ m ∈ g.members, snap.Spares m := by
    have hany : ∀ g ∈ snap.groups, ∀ m ∈ g.members,
        (prunedBefore snap (snap.groups.length+1)).any m.refersTo = false := by decide
    exact fun g hg m hm => any_refersTo_eq_false_iff.mp (hany g hg m hm)
  have hflat : ∀ g ∈ snap.groups, ∀ m ∈ g.members, m.kind ≠ .group := by decide
  have ha : ∀ g ∈ snap.groups, ∀ x ∈ g.allNodeLogicalIDs,
      ∃ n ∈ snap.nodes, Admits asciiLibraries .mihomo mihomoCapability n ∧ n.logicalID = x := by decide
  refine ⟨_, hr, hc, by decide, (hke.2.1 hc).mpr ⟨?_, ?_, ?_⟩, by decide, (hke.2.2 hc).mpr ?_⟩
  · exact fun g hg _ m hm _ => ⟨m, hm, rfl, hs g hg m hm⟩
  · exact fun g hg _ _ _ m hm hk => ⟨m, hm, hk, hs g hg m hm⟩
  · intro g hg _ x hx
    cases hx with
    | node hm hk => exact .node hm hk
    | group hm hk => exact absurd hk (hflat g hg _ hm)
  · rintro - ⟨⟩ g hg x hx
    exact ha g hg x ((hc.all g hg x).mpr hx)

/-- A selector with a reference to an empty group and a node without password. -/
def staleInput : ResolveInput where
  nodes := [{ nodeHK with credentials := { } }]
  groups := [sampleGroup idB "Proxy" [groupRefTo idA 0, manualSource nodeHK 1], sampleGroup idA "Empty" []]
  policyRules := [⟨"", "", idB, "MATCH", 0⟩]
  asOf := 63000000000000000000

/-- Pruning takes the reference and leaves its target among the child groups; the filter takes the node and
leaves it among the nodes of the group. -/
theorem staleInput_gets_inconsistent :
    ∃ snap, resolve asciiRuntime jsonEncoder sampleClock none staleInput = .ok snap ∧ snap.Consistent ∧
      ¬(pruneUnavailableOptionalGroups snap).1.Consistent ∧
      ¬(filterCompatibleSnapshot asciiLibraries snap .mihomo).1.Consistent := by
  have hr := resolve_sample staleInput (by decide)
  refine ⟨_, hr, consistent_of_resolve hr sample_fresh, ?_, ?_⟩
  · intro h
    have hs : ∃ g ∈ (pruneUnavailableOptionalGroups
        (snapshotOf asciiRuntime jsonEncoder sampleClock (normalizeInput staleInput))).1.groups,
        idA ∈ g.childGroupIDs ∧ ¬∃ m ∈ g.members, m.kind = .group ∧ m.targetID = idA := by decide
    obtain ⟨g, hg, hin, hn⟩ := hs
    exact hn ((h.children g hg idA).mp hin)
  · intro h
    have hs : ∃ g ∈ (filterCompatibleSnapshot asciiLibraries
        (snapshotOf asciiRuntime jsonEncoder sampleClock (normalizeInput staleInput)) .mihomo).1.groups,
        nodeHK.logicalID ∈ g.nodeLogicalIDs ∧
          ¬∃ m ∈ g.members, m.kind = .node ∧ m.targetID = nodeHK.logicalID := by decide
    obtain ⟨g, hg, hin, hn⟩ := hs
    exact hn ((h.nodes g hg _).mp hin)

end ClashSubParser
