import ClashSubParser.AdmittedNodes

/-! Two node sets of a group: the one expanded from the leaves, and the one collected over the child links.
They agree exactly when the filters they use have the same effect. -/
namespace ClashSubParser

open List MemoRecursion Reachability StableSort

section

variable (rt : Runtime) (ctx : GroupContext) (depth : ℕ)

/-- The nodes of a group when the leaves of each child go through the filter given for it. -/
def nodesThrough (filter : String → Option NodeFilterSpec) (gid : String) : List String :=
  nodeTargets (itemsOf rt ctx depth gid) ++ (groupTargets (itemsOf rt ctx depth gid)).flatMap (fun c =>
    nodeTargets ((specLeaves rt ctx depth c).filter (leafSurvives rt ctx (filter c))))

end

section

variable {rt : Runtime} {ctx : GroupContext} {fuel : ℕ} {rank : String → ℕ}

theorem mem_nodesThrough {filter : String → Option NodeFilterSpec} {gid x : String} :
    x ∈ nodesThrough rt ctx fuel filter gid ↔ x ∈ nodeTargets (itemsOf rt ctx fuel gid) ∨
      ∃ c ∈ groupTargets (itemsOf rt ctx fuel gid),
        x ∈ nodeTargets ((specLeaves rt ctx fuel c).filter (leafSurvives rt ctx (filter c))) := by
  rw [nodesThrough, mem_append, mem_flatMap]

theorem mem_leafNodes (h : ctx.Ranked fuel rank) {gid : String} {g : NodeGroup}
    (hg : ctx.groupMap gid = some g) (x : String) :
    x ∈ nodeTargets (specLeaves rt ctx fuel gid) ↔ x ∈ nodesThrough rt ctx fuel (srcFilter g) gid := by
  have hlv : specLeaves rt ctx fuel gid =
      (itemsOf rt ctx fuel gid).flatMap (expandItem rt ctx (specLeaves rt ctx fuel) g) := by
    rw [← leafItems_groupValue, itemsOf_eq hg]
    exact (groupValue_meets h hg).leafItems
  rw [mem_nodesThrough, hlv, mem_nodeTargets, mem_nodeTargets]
  simp only [mem_flatMap]
  constructor
  · rintro ⟨leaf, ⟨item, hi, hl⟩, hk, ht⟩
    unfold expandItem at hl
    cases hki : item.kind with
    | group =>
      rw [hki] at hl
      have hc : item.targetID ∈ groupTargets (itemsOf rt ctx fuel gid) :=
        mem_map_of_mem (mem_filter.mpr ⟨hi, decide_eq_true hki⟩)
      exact .inr ⟨item.targetID, hc, mem_nodeTargets.mpr ⟨leaf, hl, hk, ht⟩⟩
    | node =>
      rw [hki] at hl
      obtain rfl := mem_singleton.mp hl
      exact .inl ⟨leaf, hi, hk, ht⟩
    | builtin =>
      rw [hki] at hl
      obtain rfl := mem_singleton.mp hl
      rw [hk] at hki
      contradiction
  · rintro (⟨item, hi, hk, ht⟩ | ⟨c, hc, hx⟩)
    · have hs : item ∈ expandItem rt ctx (specLeaves rt ctx fuel) g item := by simp [expandItem, hk]
      exact ⟨item, ⟨item, hi, hs⟩, hk, ht⟩
    · obtain ⟨item, hi, rfl⟩ := mem_map.mp hc
      obtain ⟨hm, hki⟩ := mem_filter.mp hi
      obtain ⟨leaf, hl, hk, ht⟩ := mem_nodeTargets.mp hx
      refine ⟨leaf, ⟨item, hm, ?_⟩, hk, ht⟩
      rw [expandItem, of_decide_eq_true hki]
      exact hl

theorem survivors_of_not_derives
    (hc : ∀ n ∈ ctx.sortedGlobalNodes, (ctx.globalAdmittedMap n.logicalID).isSome) {p c : String}
    (h : derives rt ctx fuel p c = false) : survivors rt ctx fuel p c = specLeaves rt ctx fuel c := by
  rw [survivors, filter_eq_self]
  intro leaf hl
  by_cases he : NodeFilterSpec.isEmpty (pFilter ctx p c) = true
  · -- a filter without conditions still looks the node up, and finds it
    unfold leafSurvives
    split_ifs with hk
    · obtain ⟨node, hn⟩ :=
        Option.isSome_iff_exists.mp (admits_of_mem_specLeaves hc fuel c leaf hl hk.1)
      change ctx.globalAdmittedMap leaf.targetID = some node at hn
      rw [hn]
      exact congrArg Prod.fst (matchesFilter_of_isEmpty rt he _ _ _ _)
    · rfl
  · have ha : (specLeaves rt ctx fuel c).all (leafSurvives rt ctx (pFilter ctx p c)) = true := by
      simpa [derives, he] using h
    exact all_eq_true.mp ha leaf hl

end

section

variable {rt : Runtime} {ctx : GroupContext} {groups : List NodeGroup} {rank : String → ℕ}

structure UnitedFacts (rt : Runtime) (ctx : GroupContext) (groups : List NodeGroup) : Prop where
  first : FirstPass rt ctx (groups.length+1) (firstResolved rt ctx groups)
  fresh : DerivedFresh rt ((firstResolved rt ctx groups).map (·.id))
  run : RunUpTo rt ctx (groups.length+1) ((firstResolved rt ctx groups).map (·.id))
    ((firstResolved rt ctx groups).map (·.id)).reverse (derivedState rt ctx groups)

theorem firstResolved_ids (h : ctx.Ranked (groups.length+1) rank) (gid : String) :
    gid ∈ (firstResolved rt ctx groups).map (·.id) ↔ gid ∈ groupIDs groups := by
  rw [firstResolved, ids_resolvedList h, groupIDs, mem_map, mem_map]
  simp only [sortGroups, mem_stableSort]

theorem unitedFacts (h : ctx.Ranked (groups.length+1) rank) (hm : ctx.groupMap = mapOf (·.id) groups)
    (hfr : DerivedFresh rt (groupIDs groups)) : UnitedFacts rt ctx groups := by
  have hf : FirstPass rt ctx (groups.length+1) (firstResolved rt ctx groups) := firstPass h hm
  have hf' : DerivedFresh rt ((firstResolved rt ctx groups).map (·.id)) := by
    refine ⟨?_, ?_⟩
    · intro p hp c hc
      rw [firstResolved_ids h] at hp hc ⊢
      exact hfr.notGroup p hp c hc
    · intro p hp c hc p' hp' c' hc'
      rw [firstResolved_ids h] at hp hc hp' hc'
      exact hfr.injective p hp c hc p' hp' c' hc'
  exact ⟨hf, hf', hf.deriveGroups h hf' (resolveEach_eq h (sortGroups groups) (settled_init _)).2⟩

theorem UnitedFacts.lookup (hu : UnitedFacts rt ctx groups) {gid : String}
    (hg : gid ∈ (firstResolved rt ctx groups).map (·.id)) :
    ∃ rg, mapOf (fun g : ResolvedGroup => g.id) (unitedGroups rt ctx groups) gid = some rg ∧
      rg.nodeLogicalIDs = nodeTargets (itemsOf rt ctx (groups.length+1) gid) ∧
      rg.childGroupIDs = (groupTargets (itemsOf rt ctx (groups.length+1) gid)).map
        (referenceTo rt ctx (groups.length+1) gid) := by
  obtain ⟨rg₀, hr₀, rfl⟩ := mem_map.mp hg
  have hm : withSlices (derivedState rt ctx groups).slices rg₀ ∈ unitedGroups rt ctx groups :=
    mem_append_left _ (mem_map_of_mem hr₀)
  obtain ⟨rg, hrg⟩ := Option.isSome_iff_exists.mp
    (@mapOf_isSome_iff _ (fun g : ResolvedGroup => g.id) _ rg₀.id |>.mpr ⟨_, hm, rfl⟩)
  refine ⟨rg, hrg, ?_⟩
  obtain ⟨hin, hid⟩ := mapOf_some hrg
  rcases mem_append.mp hin with hin | hin
  · obtain ⟨rg₁, hr₁, rfl⟩ := mem_map.mp hin
    change rg₁.id = rg₀.id at hid
    refine ⟨hid ▸ hu.first.nodeLogicalIDs rg₁ hr₁, ?_⟩
    change ((derivedState rt ctx groups).slices rg₁.id).childGroupIDs = _
    rw [hid, hu.run.childGroupIDs _ hg, hu.run.keys _ hg, if_pos (mem_reverse.mpr hg),
      groupTargets_eq_groupKeys, groupKeys_map_replaceKey]
  · -- the ID of a derived group is no group's ID
    obtain ⟨p, hp, c, hc, hf⟩ := hu.run.origin rg hin
    have hci := (hu.first.ids c).mpr (exists_of_mem_groupTargets hc)
    rw [← hid, hf.id] at hg
    exact absurd hg (hu.fresh.notGroup p hp c hci)

theorem UnitedFacts.lookup_derived (hu : UnitedFacts rt ctx groups) {p c : String}
    (hp : p ∈ (firstResolved rt ctx groups).map (·.id)) (hc : c ∈ groupTargets (itemsOf rt ctx (groups.length+1) p))
    (hde : derives rt ctx (groups.length+1) p c = true) :
    ∃ d, mapOf (fun g : ResolvedGroup => g.id) (unitedGroups rt ctx groups)
        (deterministicDerivedUUID rt p c) = some d ∧ DerivedFor rt ctx (groups.length+1) p c d := by
  have hci := (hu.first.ids c).mpr (exists_of_mem_groupTargets hc)
  obtain ⟨d₀, hd₀, hi₀⟩ := hu.run.complete p (mem_reverse.mpr hp) c hc hde
  obtain ⟨d, hd⟩ := Option.isSome_iff_exists.mp
    (@mapOf_isSome_iff _ (fun g : ResolvedGroup => g.id) (unitedGroups rt ctx groups)
      (deterministicDerivedUUID rt p c) |>.mpr ⟨d₀, mem_append_right _ hd₀, hi₀⟩)
  refine ⟨d, hd, ?_⟩
  obtain ⟨hin, hid⟩ := mapOf_some hd
  rcases mem_append.mp hin with hin | hin
  · obtain ⟨rg, hrg, rfl⟩ := mem_map.mp hin
    have hr : deterministicDerivedUUID rt p c ∈ (firstResolved rt ctx groups).map (·.id) :=
      mem_map.mpr ⟨rg, hrg, hid⟩
    exact absurd hr (hu.fresh.notGroup p hp c hci)
  · obtain ⟨p', hp', c', hc', hf⟩ := hu.run.origin d hin
    have hci' := (hu.first.ids c').mpr (exists_of_mem_groupTargets hc')
    obtain ⟨rfl, rfl⟩ := hu.fresh.injective p' hp' c' hci' p hp c hci (hf.id.symm.trans hid)
    exact hf

end

section

variable {rt : Runtime} {ctx : GroupContext} {groups : List NodeGroup} {rank : String → ℕ}

theorem UnitedFacts.children_closed (hu : UnitedFacts rt ctx groups) : ∀ u ∈ (unitedGroups rt ctx groups).map (·.id),
      ∀ c ∈ (mapOf (fun g : ResolvedGroup => g.id) (unitedGroups rt ctx groups) u).elim [] (·.childGroupIDs),
        c ∈ (unitedGroups rt ctx groups).map (·.id) := by
  intro u hu' c hc
  obtain ⟨rg, hrg, rfl⟩ := mem_map.mp hu'
  rcases mem_append.mp hrg with hrg | hrg
  · obtain ⟨rg₀, hr₀, rfl⟩ := mem_map.mp hrg
    have hid : rg₀.id ∈ (firstResolved rt ctx groups).map (·.id) := mem_map_of_mem hr₀
    obtain ⟨found, hfd, -, hch⟩ := hu.lookup hid
    change c ∈ (mapOf _ _ rg₀.id).elim _ _ at hc
    rw [hfd, Option.elim_some, hch] at hc
    obtain ⟨t, htg, rfl⟩ := mem_map.mp hc
    unfold referenceTo
    split_ifs with hde
    · obtain ⟨d, hd, hdi⟩ := hu.run.complete _ (mem_reverse.mpr hid) t htg hde
      exact mem_map.mpr ⟨d, mem_append_right _ hd, hdi⟩
    · obtain ⟨rg₁, hr₁, h₁⟩ := mem_map.mp ((hu.first.ids _).mpr (exists_of_mem_groupTargets htg))
      exact mem_map.mpr ⟨_, mem_append_left _ (mem_map_of_mem hr₁), h₁⟩
  · obtain ⟨p, hp, c', hc', hf⟩ := hu.run.origin rg hrg
    obtain ⟨d, hd, hdf⟩ := hu.lookup_derived hp hc' hf.derives
    rw [hf.id, hd, Option.elim_some, hdf.childGroupIDs] at hc
    simp at hc

/-- The collected nodes of a group: its own, and for each child those of the derived group or of the
child. -/
theorem UnitedFacts.mem_collectNodes (hu : UnitedFacts rt ctx groups) {gid : String}
    (hg : gid ∈ (firstResolved rt ctx groups).map (·.id)) (x : String) :
    x ∈ collectNodes (unitedGroups rt ctx groups) gid ↔
      x ∈ nodeTargets (itemsOf rt ctx (groups.length+1) gid) ∨
      ∃ c ∈ groupTargets (itemsOf rt ctx (groups.length+1) gid),
        x ∈ if derives rt ctx (groups.length+1) gid c
          then nodeTargets (survivors rt ctx (groups.length+1) gid c)
          else collectNodes (unitedGroups rt ctx groups) c := by
  have hfu : ((unitedGroups rt ctx groups).map (·.id)).length < (unitedGroups rt ctx groups).length+1 := by
    rw [length_map]
    exact Nat.lt_succ_self _
  -- one unfolding of the walk at any group
  have hs (k : String) (hk : k ∈ (unitedGroups rt ctx groups).map (·.id)) :=
    mem_collect_step
      (fun k => (mapOf (fun g : ResolvedGroup => g.id) (unitedGroups rt ctx groups) k).elim []
        (·.nodeLogicalIDs)) hu.children_closed hfu hk x
  have hin : gid ∈ (unitedGroups rt ctx groups).map (·.id) := by
    obtain ⟨rg, hrg, hid⟩ := mem_map.mp hg
    exact mem_map.mpr ⟨_, mem_append_left _ (mem_map_of_mem hrg), hid⟩
  obtain ⟨rg, hrg, hns, hch⟩ := hu.lookup hg
  have hgr := hs gid hin
  simp only [hrg, Option.elim_some, hns, hch, mem_map, exists_exists_and_eq_and] at hgr
  rw [collectNodes, hgr]
  refine or_congr_right (exists_congr fun c => and_congr_right fun hc => ?_)
  unfold referenceTo
  split_ifs with hde
  · -- a derived group has nodes and no children
    obtain ⟨d, hd, hf⟩ := hu.lookup_derived hg hc hde
    obtain ⟨hdn, hdd⟩ := mapOf_some hd
    have hdi := hs _ (mem_map.mpr ⟨d, hdn, hdd⟩)
    simp only [hd, Option.elim_some, hf.nodeLogicalIDs, hf.childGroupIDs, not_mem_nil,
      false_and, exists_false, or_false] at hdi
    exact hdi
  · rfl

/-- The collected nodes are the expanded ones for all groups exactly when, for all groups, the filter
of the first add source has the effect of the filter found in input order. -/
theorem collectNodes_eq_leafNodes_iff (h : ctx.Ranked (groups.length+1) rank)
    (hm : ctx.groupMap = mapOf (·.id) groups) (hfr : DerivedFresh rt (groupIDs groups))
    (hct : ∀ n ∈ ctx.sortedGlobalNodes, (ctx.globalAdmittedMap n.logicalID).isSome) :
    (∀ gid g, ctx.groupMap gid = some g → ∀ x, x ∈ nodeTargets (specLeaves rt ctx (groups.length+1) gid) ↔
      x ∈ collectNodes (unitedGroups rt ctx groups) gid) ↔
    ∀ gid g, ctx.groupMap gid = some g → ∀ x, x ∈ nodesThrough rt ctx (groups.length+1) (srcFilter g) gid ↔
      x ∈ nodesThrough rt ctx (groups.length+1) (pFilter ctx gid) gid := by
  have hu := unitedFacts h hm hfr
  -- where the children agree, collecting goes through the filter of the first add source
  have hco (gid : String) (g : NodeGroup) (hg : ctx.groupMap gid = some g)
      (hk : ∀ c ∈ groupTargets (itemsOf rt ctx (groups.length+1) gid), ∀ x,
        x ∈ nodeTargets (specLeaves rt ctx (groups.length+1) c) ↔
          x ∈ collectNodes (unitedGroups rt ctx groups) c) (x : String) :
      x ∈ collectNodes (unitedGroups rt ctx groups) gid ↔
        x ∈ nodesThrough rt ctx (groups.length+1) (pFilter ctx gid) gid := by
    rw [hu.mem_collectNodes ((hu.first.ids gid).mpr ⟨g, hg⟩), mem_nodesThrough]
    refine or_congr_right (exists_congr fun c => and_congr_right fun hc => ?_)
    change _ ↔ x ∈ nodeTargets (survivors rt ctx (groups.length+1) gid c)
    cases hd : derives rt ctx (groups.length+1) gid c with
    | true => rw [if_pos rfl]
    | false => rw [if_neg (by simp), survivors_of_not_derives hct hd, hk c hc]
  constructor
  · intro ha gid g hg x
    rw [← mem_leafNodes h hg, ha gid g hg]
    refine hco gid g hg (fun c hc => ?_) x
    obtain ⟨g', hg'⟩ := exists_of_mem_groupTargets hc
    exact ha c g' hg'
  · intro hs
    -- induction on the rank of the group
    have hr : ∀ (n : ℕ) (gid : String) (g : NodeGroup), rank gid < n → ctx.groupMap gid = some g →
        ∀ x, x ∈ nodeTargets (specLeaves rt ctx (groups.length+1) gid) ↔
          x ∈ collectNodes (unitedGroups rt ctx groups) gid := by
      intro n
      induction n with
      | zero => exact fun gid g hlt => absurd hlt (Nat.not_lt_zero _)
      | succ n ih =>
        intro gid g hlt hg x
        rw [mem_leafNodes h hg, hs gid g hg]
        refine (hco gid g hg (fun c hc => ?_) x).symm
        obtain ⟨g', hg'⟩ := exists_of_mem_groupTargets hc
        have hl := rank_lt_of_mem_groupTargets h hg hc
        exact ih c g' (by omega) hg'
    exact fun gid g hg => hr (rank gid+1) gid g (Nat.lt_succ_self _) hg

end

section

variable {rt : Runtime} {ctx : GroupContext} {groups : List NodeGroup} {rank : String → ℕ} {fuel : ℕ}

theorem expandedNodeIDs_eq (h : ctx.Ranked fuel rank) {gid : String} {g : NodeGroup}
    (hg : ctx.groupMap gid = some g) : (resolveGroupMemo rt ctx fuel gid MemoState.init).1.expandedNodeIDs =
      sortedSet (nodeTargets (specLeaves rt ctx fuel gid)) := by
  rw [((settled_init fuel).resolve h (le_rfl) gid).1, ← leafItems_groupValue]
  exact (groupValue_meets h hg).expandedNodeIDs

theorem kept_groupCounts (h : ctx.Ranked (groups.length+1) rank)
    (hm : ctx.groupMap = mapOf (·.id) groups) {gid : String} {g : NodeGroup}
    (hg : ctx.groupMap gid = some g) (filtered : Bool) (rules : List PolicyRule) :
    ((resolveGroups rt ctx groups filtered rules).groupCounts gid).map (·.kept) =
      some (sortedSet (nodeTargets (specLeaves rt ctx (groups.length+1) gid))).length := by
  change (groupCountsOf (resolveEach rt ctx (groups.length+1) (sortGroups groups) MemoState.init).1 gid).map
    (·.kept) = _
  rw [(resolveEach_eq h _ (settled_init _)).1, groupCountsOf]
  -- the entry that is found is the value of a group of this ID
  obtain ⟨hin, hid⟩ := mapOf_some (hm ▸ hg)
  have hs : (mapOf (fun r : NodeGroup × GroupMemo => r.1.id)
      ((sortGroups groups).map (fun g => (g, groupValue rt ctx (groups.length+1) g.id))) gid).isSome :=
    mapOf_isSome_iff.mpr ⟨_, mem_map_of_mem ((mem_stableSort _ _ _).mpr hin), hid⟩
  obtain ⟨r, hr⟩ := Option.isSome_iff_exists.mp hs
  obtain ⟨hri, hrd⟩ := mapOf_some hr
  obtain ⟨g', -, rfl⟩ := mem_map.mp hri
  rw [hr, Option.map_some, Option.map_some]
  dsimp only [groupCountOf]
  rw [hrd, (groupValue_meets h hg).expandedNodeIDs, leafItems_groupValue]

theorem allNodeLogicalIDs_eq {filtered : Bool} {rules : List PolicyRule} {rg : ResolvedGroup}
    (hrg : rg ∈ (resolveGroups rt ctx groups filtered rules).groups) :
    rg.allNodeLogicalIDs = sortedSet (collectNodes (unitedGroups rt ctx groups) rg.id) := by
  obtain ⟨-, -, rfl⟩ := mem_map.mp hrg
  rfl

theorem exists_resolvedGroup (h : ctx.Ranked (groups.length+1) rank) {gid : String}
    (hg : gid ∈ groupIDs groups) (filtered : Bool) (rules : List PolicyRule) :
    ∃ rg ∈ (resolveGroups rt ctx groups filtered rules).groups, rg.id = gid := by
  obtain ⟨rg₀, hr₀, hi₀⟩ := mem_map.mp ((@firstResolved_ids rt ctx groups rank h gid).mpr hg)
  exact ⟨_, mem_map_of_mem (mem_append_left _ (mem_map_of_mem hr₀)), hi₀⟩

end

/-- For every accepted input: the expanded node set of every group is its final node set, and its count
of kept nodes the size of that, exactly when on every group the first add reference to a child filters
like the first filter found for the child in input order. -/
theorem leafNodes_eq_allNodes_iff {rt : Runtime} {enc : Encoder} {clock : Clock}
    {ctxErr : Option GoError} {input : ResolveInput} {snap : ResolvedPolicySnapshot}
    (hres : resolve rt enc clock ctxErr input = .ok snap) (hids : (groupIDs input.groups).Nodup)
    (hfresh : DerivedFresh rt (groupIDs input.groups)) :
    let ctx := resolveContext rt clock (normalizeInput input)
    let depth := (normalizeInput input).groups.length+1
    (∀ g ∈ (normalizeInput input).groups, ∃ rg ∈ snap.groups, rg.id = g.id ∧
      (∀ x, x ∈ (resolveGroupMemo rt ctx depth g.id MemoState.init).1.expandedNodeIDs ↔
        x ∈ rg.allNodeLogicalIDs) ∧
      (snap.filterCounts.groupCounts g.id).map (·.kept) = some rg.allNodeLogicalIDs.length) ↔
    ∀ g ∈ (normalizeInput input).groups, ∀ x, x ∈ nodesThrough rt ctx depth (srcFilter g) g.id ↔
      x ∈ nodesThrough rt ctx depth (pFilter ctx g.id) g.id := by
  intro ctx depth
  obtain ⟨-, hv, rfl⟩ := resolve_eq_ok_iff.mp hres
  obtain ⟨rank, hf⟩ := @exists_ranked_fuel rt clock input hv
  rw [← groupIDs_normalizeInput] at hids hfresh
  have hfd (g : NodeGroup) (hg : g ∈ (normalizeInput input).groups) : ctx.groupMap g.id = some g :=
    mapOf_eq_some hids hg
  have ha (rg : ResolvedGroup) (hrg : rg ∈ (snapshotOf rt enc clock (normalizeInput input)).groups) :
      rg.allNodeLogicalIDs = sortedSet (collectNodes (unitedGroups rt ctx (normalizeInput input).groups) rg.id) :=
    @allNodeLogicalIDs_eq rt ctx _ (anyFilterDefined (normalizeInput input))
      (normalizeInput input).policyRules rg hrg
  have hc := collectNodes_eq_leafNodes_iff hf rfl hfresh sortedGlobalNodes_found
  constructor
  · intro hp g hg
    refine hc.mp ?_ g.id g (hfd g hg)
    intro gid g' hg' x
    obtain ⟨hin, rfl⟩ := mapOf_some hg'
    obtain ⟨rg, hrg, hid, hs, -⟩ := hp g' hin
    have hx := hs x
    rwa [expandedNodeIDs_eq hf hg', ha rg hrg, hid, mem_sortedSet, mem_sortedSet] at hx
  · intro hco g hg
    have hs := hc.mpr (fun gid g' hg' => (mapOf_some hg').2 ▸ hco g' (mapOf_some hg').1) g.id g
      (hfd g hg)
    obtain ⟨rg, hrg, hid⟩ := exists_resolvedGroup hf (mem_map_of_mem hg)
      (anyFilterDefined (normalizeInput input)) (normalizeInput input).policyRules
    have hl : rg.allNodeLogicalIDs = sortedSet (nodeTargets (specLeaves rt ctx depth g.id)) := by
      rw [ha rg hrg, hid]
      exact sortedSet_congr fun x => (hs x).symm
    refine ⟨rg, hrg, hid, ?_, ?_⟩
    · intro x
      rw [expandedNodeIDs_eq hf (hfd g hg), hl]
    · rw [hl]
      exact kept_groupCounts hf rfl (hfd g hg) (anyFilterDefined (normalizeInput input))
        (normalizeInput input).policyRules

def matchingName (name : String) (s : MemberSource) : MemberSource :=
  { s with filterSpec := some ⟨[{ field := "display_name", op := "contains", value := name }]⟩ }

/-- `B` refers to `A` through the given sources. -/
def referringInput (sources : List MemberSource) : ResolveInput where
  nodes := [nodeHK, nodeUS]
  groups := [sampleGroup idB "B" sources, sampleGroup idA "A" [manualSource nodeHK 0, manualSource nodeUS 1]]
  asOf := 63000000000000000000

theorem sample_derivedIDs : [idA, idB].map (fun p => [idA, idB].map (deterministicDerivedUUID asciiRuntime p)) =
    [["fd6b6f8a-f5e7-7802-9eb4-2b490de69956", "fe21a58f-7a58-7765-9cf4-f94c92902ac0"],
     ["48d1cd21-b46d-7c87-808b-e4c3e1adde18", "1a5b4a23-510f-7ef9-b8eb-b5ff19eee726"]] := by
  decide +kernel

theorem sample_fresh : DerivedFresh asciiRuntime [idB, idA] := by
  have h := sample_derivedIDs
  simp only [map_cons, map_nil, List.cons.injEq, and_true] at h
  obtain ⟨⟨haa, hab⟩, hba, hbb⟩ := h
  constructor
  · simp only [forall_mem_cons, not_mem_nil, false_implies, implies_true, and_true, haa, hab, hba, hbb]
    decide
  · simp only [forall_mem_cons, not_mem_nil, false_implies, implies_true, and_true, haa, hab, hba, hbb]
    decide

/-- One filtered reference: the derived group and the expanded leaves agree. -/
theorem filteredReference_sets :
    let input := referringInput [matchingName "US" (groupRefTo idA 0)]
    let ctx := resolveContext asciiRuntime sampleClock (normalizeInput input)
    ∀ g ∈ (normalizeInput input).groups, ∃ rg ∈ (groupResults asciiRuntime sampleClock (normalizeInput input)).groups,
      rg.id = g.id ∧
      (∀ x, x ∈ (resolveGroupMemo asciiRuntime ctx 3 g.id MemoState.init).1.expandedNodeIDs ↔
        x ∈ rg.allNodeLogicalIDs) ∧
      ((groupResults asciiRuntime sampleClock (normalizeInput input)).groupCounts g.id).map (·.kept) =
        some rg.allNodeLogicalIDs.length := by
  intro input ctx
  have hr := resolve_sample input (by decide)
  refine (leafNodes_eq_allNodes_iff hr (by decide) sample_fresh).mpr ?_
  have hs : ∀ g ∈ (normalizeInput input).groups, nodesThrough asciiRuntime ctx 3 (srcFilter g) g.id =
      nodesThrough asciiRuntime ctx 3 (pFilter ctx g.id) g.id := by decide
  intro g hg x
  exact iff_of_eq (congrArg (x ∈ ·) (hs g hg))

/-- Two references to one child, the second one filtered: the first add source has no filter, so no
group is derived, but the expanded leaves go through the filter of the second. -/
theorem doubleReference_sets_differ :
    let input := referringInput [groupRefTo idA 0, matchingName "US" (groupRefTo idA 1)]
    let results := groupResults asciiRuntime sampleClock (normalizeInput input)
    validateInput asciiRuntime (normalizeInput input) = .ok () ∧
    (groupIDs input.groups).Nodup ∧ (input.nodes.map (·.logicalID)).Nodup ∧
    results.groups.map (fun rg => (rg.id, rg.allNodeLogicalIDs)) =
      [(idA, [nodeHK.logicalID, nodeUS.logicalID]), (idB, [nodeHK.logicalID, nodeUS.logicalID])] ∧
    (results.groupCounts idB).map (·.kept) = some 1 := by
  refine ⟨by decide, by decide, by decide, by decide +kernel, by decide +kernel⟩

end ClashSubParser
