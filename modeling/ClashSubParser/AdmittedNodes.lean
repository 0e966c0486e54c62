import ClashSubParser.DerivedRun
import ClashSubParser.ResolveMembers

/-! Only nodes that pass every stage of admission reach the snapshot. -/
namespace ClashSubParser

open List MemoRecursion Reachability StableSort

theorem mem_nodeTargets {items : List ResolvedItem} {x : String} :
    x ∈ nodeTargets items ↔ ∃ item ∈ items, item.kind = .node ∧ item.targetID = x := by
  simp [nodeTargets, and_assoc]

theorem key_derivedItem (ctx : GroupContext) (leaf : ResolvedItem) : (derivedItem ctx leaf).key = leaf.key := by
  unfold derivedItem
  split_ifs with hk
  · cases ctx.globalAdmittedMap leaf.targetID with
    | none => rfl
    | some node => exact Prod.ext hk.symm rfl
  · rfl

def GroupContext.Admits (ctx : GroupContext) (k : MemberKey) : Prop :=
  k.1 = .node → (ctx.globalAdmittedMap k.2).isSome

section

variable {rt : Runtime} {ctx : GroupContext} {fuel : ℕ} {rank : String → ℕ}

section

variable (hctx : ∀ n ∈ ctx.sortedGlobalNodes, (ctx.globalAdmittedMap n.logicalID).isSome)
include hctx

theorem admits_of_mem_specItems
    {leaves : String → List ResolvedItem} {srcs : List MemberSource} {item : ResolvedItem}
    (h : item ∈ specItems rt ctx leaves srcs) : ctx.Admits item.key := by
  intro (hk : item.kind = .node)
  change (ctx.globalAdmittedMap item.targetID).isSome
  obtain ⟨s, -, -, hm⟩ := mem_specItems h
  cases proposed_of_mem hm with
  | listed node _ hn _ => simp [hn]
  | selected _ node hn hit =>
    rw [hit]
    exact hctx node hn
  | referenced tg _ _ hit | named _ hit =>
    rw [hit] at hk
    contradiction
  | leaf targetID _ _ hp =>
    -- the pipeline looks a leaf up again before it takes it over
    rw [leafPasses, if_pos hk] at hp
    cases hn : ctx.globalAdmittedMap item.targetID with
    | some node => rfl
    | none => simp [hn] at hp

theorem admits_of_mem_specLeaves :
    ∀ (depth : ℕ) (gid : String), ∀ leaf ∈ specLeaves rt ctx depth gid, ctx.Admits leaf.key :=
  specLeaves_induction fun _ _ _ _ _ _ hi => admits_of_mem_specItems hctx hi

end

structure ResolvedGroup.AdmittedIn (rg : ResolvedGroup) (ctx : GroupContext) : Prop where
  members : ∀ m ∈ rg.members, ctx.Admits m.key
  nodeLogicalIDs : ∀ x ∈ rg.nodeLogicalIDs, (ctx.globalAdmittedMap x).isSome

theorem admittedIn_of_items {rg : ResolvedGroup} {items : List ResolvedItem}
    (hms : rg.members.map (·.key) = items.map (·.key)) (hns : rg.nodeLogicalIDs = nodeTargets items)
    (hit : ∀ item ∈ items, ctx.Admits item.key) : rg.AdmittedIn ctx := by
  refine ⟨?_, ?_⟩
  · intro m hm
    have hke : m.key ∈ items.map (·.key) := hms ▸ mem_map_of_mem hm
    obtain ⟨item, hi, heq⟩ := mem_map.mp hke
    exact heq ▸ hit item hi
  · intro x hx
    rw [hns] at hx
    obtain ⟨item, hi, hk, rfl⟩ := mem_nodeTargets.mp hx
    exact hit item hi hk

theorem allGroups_admitted (h : ctx.Ranked fuel rank)
    (hctx : ∀ n ∈ ctx.sortedGlobalNodes, (ctx.globalAdmittedMap n.logicalID).isSome)
    {rgs : List ResolvedGroup} (hf : FirstPass rt ctx fuel rgs) {memo : GroupMemoState}
    (hmo : Settled rt ctx fuel memo) :
    ∀ rg ∈ allGroups rgs (deriveGroups rt ctx fuel rgs memo), rg.AdmittedIn ctx := by
  have hi (rg : ResolvedGroup) (hrg : rg ∈ rgs) : rg.AdmittedIn ctx := by
    apply admittedIn_of_items _ (hf.nodeLogicalIDs rg hrg) fun item hit => admits_of_mem_specItems hctx hit
    rw [hf.members rg hrg, map_key_membersOf]
  have hkn (gid : String) (g : NodeGroup) (hg : ctx.groupMap gid = some g) :
      gid ∈ rgs.map (·.id) := (hf.ids gid).mpr ⟨g, hg⟩
  have hr := deriveGroups_induction h hkn hmo
    (fun st => (∀ gid, ∀ m ∈ (st.slices gid).members, ctx.Admits m.key) ∧ ∀ d ∈ st.derived, d.AdmittedIn ctx) ?_ ?_
  · intro rg hrg
    rcases mem_append.mp hrg with hrg | hrg
    · obtain ⟨rg₀, hr₀, rfl⟩ := mem_map.mp hrg
      exact ⟨hr.1 rg₀.id, (hi rg₀ hr₀).nodeLogicalIDs⟩
    · exact hr.2 rg hrg
  · refine ⟨?_, by simp⟩
    intro gid m hm
    obtain ⟨rg, hme, -, hm⟩ := mem_members_of_slicesOf hm
    exact (hi rg hme).members m hm
  · rintro p - member st st' ⟨hsl, hde⟩ hst
    cases hst with
    | kept hs hd _ =>
      rw [hs, hd]
      exact ⟨hsl, hde⟩
    | replaced child d hki _ _ hd hs hds =>
      rw [hs, hds]
      refine ⟨?_, ?_⟩
      · intro gid m hm
        by_cases hgi : gid = p.id
        · rw [hgi, Function.update_self] at hm
          rcases mem_or_eq_of_mem_set hm with hm | rfl
          · exact hsl _ m hm
          · intro hk
            rw [show _ = member.1.kind from rfl, hki] at hk
            contradiction
        · rw [Function.update_of_ne hgi] at hm
          exact hsl gid m hm
      · intro e he
        rcases mem_append.mp he with he | he
        · exact hde e he
        · obtain rfl := mem_singleton.mp he
          have hlv (leaf : ResolvedItem)
              (hl : leaf ∈ survivors rt ctx fuel p.id member.1.targetID) :
              ctx.Admits leaf.key :=
            admits_of_mem_specLeaves hctx fuel _ leaf (mem_filter.mp hl).1
          refine admittedIn_of_items ?_ (by rw [hd]; rfl) hlv
          rw [hd, derivedGroupOf, map_key_membersOf, map_map]
          exact map_congr_left fun leaf _ => key_derivedItem ctx leaf

theorem resolveGroups_admitted {gs : List NodeGroup} (h : ctx.Ranked (gs.length+1) rank)
    (hctx : ∀ n ∈ ctx.sortedGlobalNodes, (ctx.globalAdmittedMap n.logicalID).isSome)
    (hm : ctx.groupMap = mapOf (·.id) gs) (filtered : Bool) (rules : List PolicyRule) :
    ∀ g ∈ (resolveGroups rt ctx gs filtered rules).groups,
      (∀ m ∈ g.members, ctx.Admits m.key) ∧
      ∀ x ∈ g.allNodeLogicalIDs, (ctx.globalAdmittedMap x).isSome := by
  have ha : ∀ rg ∈ unitedGroups rt ctx gs, rg.AdmittedIn ctx :=
    allGroups_admitted h hctx (firstPass h hm)
      (resolveEach_eq h (sortGroups gs) (settled_init _)).2
  intro g hg
  obtain ⟨rg, hrg, rfl⟩ := mem_map.mp hg
  refine ⟨(ha rg hrg).members, ?_⟩
  intro x hx
  -- the recomputed set takes the node IDs of groups and nothing else
  have hc : x ∈ collectNodes (unitedGroups rt ctx gs) rg.id := (mem_sortedSet _ _).mp hx
  obtain ⟨w, hw⟩ := (payload_of_mem_collect _ _ _ hc).resolve_left (by simp)
  cases hfd : mapOf (fun g : ResolvedGroup => g.id) (unitedGroups rt ctx gs) w with
  | none => simp [hfd] at hw
  | some rg' =>
    rw [hfd, Option.elim_some] at hw
    exact (ha rg' (mapOf_some hfd).1).nodeLogicalIDs x hw

end

section

variable {rt : Runtime} {clock : Clock} {input : ResolveInput}

structure Admissible (rt : Runtime) (clock : Clock) (input : ResolveInput) (n : Node) : Prop where
  active : n.active = true
  notExcluded : n.logicalID ∉ input.excludedNodeIDs
  notRisky : n.logicalID ∉ (riskAdmission input).1
  byRules : admissionRuleVerdict rt (sortAdmissionRules input.admissionRules) n = none
  byFilter : (globalVerdict rt clock input n).1 = true

def nodeVerdict (rt : Runtime) (input : ResolveInput) (n : Node) : Option Diagnostic :=
  admissionVerdict rt (sortAdmissionRules input.admissionRules)
    (input.excludedNodeIDs ++ (riskAdmission input).1) n

theorem admissible_iff (n : Node) : Admissible rt clock input n ↔
    nodeVerdict rt input n = none ∧ (globalVerdict rt clock input n).1 = true := by
  unfold nodeVerdict admissionVerdict
  constructor
  · intro h
    have ho : n.logicalID ∉ input.excludedNodeIDs ++ (riskAdmission input).1 := by
      rw [mem_append, not_or]
      exact ⟨h.notExcluded, h.notRisky⟩
    rw [if_neg (by simp [h.active]), if_neg ho]
    exact ⟨h.byRules, h.byFilter⟩
  · rintro ⟨hv, hf⟩
    split_ifs at hv with ha ho
    rw [mem_append, not_or] at ho
    exact ⟨by simpa using ha, ho.1, ho.2, hv, hf⟩

theorem mem_globalAdmittedNodes {n : Node} :
    n ∈ globalAdmittedNodes rt clock input ↔ n ∈ input.nodes ∧ Admissible rt clock input n := by
  rw [admissible_iff, globalAdmittedNodes, mem_filter]
  have ha : n ∈ (admission rt input).admittedNodes ↔
      n ∈ input.nodes ∧ nodeVerdict rt input n = none := by
    rw [← Option.isNone_iff_eq_none]
    exact mem_filter
  rw [ha, and_assoc]

theorem mem_finalAdmittedIDs {id : String} : id ∈ finalAdmittedIDs rt clock input ↔
    ∃ n ∈ input.nodes, Admissible rt clock input n ∧ n.logicalID = id := by
  simp only [finalAdmittedIDs, sortStrings, mem_insertionSort, mem_map, mem_globalAdmittedNodes, and_assoc]

theorem mem_finalExcludedIDs {id : String} : id ∈ finalExcludedIDs rt clock input ↔
    ∃ n ∈ input.nodes, ¬Admissible rt clock input n ∧ n.logicalID = id := by
  have hve (x : String) : x ∈ (admission rt input).excludedNodeIDs ↔
      ∃ n ∈ input.nodes, nodeVerdict rt input n ≠ none ∧ n.logicalID = x := by
    change x ∈ uniqueStrings (sortStrings _) ↔ _
    rw [uniqueStrings_sortStrings, mem_sortedSet, mem_map]
    simp only [mem_filter, Option.isSome_iff_ne_none, and_assoc]
    rfl
  have hgl (x : String) : x ∈ (globalExcludedNodes rt clock input).map (·.logicalID) ↔
      ∃ n ∈ input.nodes, (nodeVerdict rt input n = none ∧ (globalVerdict rt clock input n).1 = false) ∧
        n.logicalID = x := by
    simp only [globalExcludedNodes, admission, evaluateNodeAdmission, mem_map, mem_filter,
      Option.isNone_iff_eq_none, Bool.not_eq_true', and_assoc]
    rfl
  rw [finalExcludedIDs, uniqueStrings_sortStrings, mem_sortedSet, mem_append, hve, hgl]
  constructor
  · rintro (⟨n, hn, hv, hid⟩ | ⟨n, hn, ⟨hv, hf⟩, hid⟩)
    · exact ⟨n, hn, fun ha => hv ((admissible_iff n).mp ha).1, hid⟩
    · refine ⟨n, hn, fun ha => ?_, hid⟩
      rw [ha.byFilter] at hf
      contradiction
  · rintro ⟨n, hn, hna, hid⟩
    rw [admissible_iff, not_and] at hna
    by_cases hv : nodeVerdict rt input n = none
    · exact .inr ⟨n, hn, ⟨hv, by simpa using hna hv⟩, hid⟩
    · exact .inl ⟨n, hn, hv, hid⟩

theorem sortedGlobalNodes_found : ∀ n ∈ (resolveContext rt clock input).sortedGlobalNodes,
      ((resolveContext rt clock input).globalAdmittedMap n.logicalID).isSome := by
  intro n hn
  exact mapOf_isSome_iff.mpr ⟨n, (mem_stableSort _ _ _).mp hn, rfl⟩

theorem globalAdmittedMap_isSome_iff {id : String} : ((resolveContext rt clock input).globalAdmittedMap id).isSome ↔
      id ∈ finalAdmittedIDs rt clock input := by
  change (mapOf (·.logicalID) (globalAdmittedNodes rt clock input) id).isSome ↔ _
  rw [mapOf_isSome_iff, finalAdmittedIDs, sortStrings, mem_insertionSort, mem_map]

theorem finalIDs_partition (hns : (input.nodes.map (·.logicalID)).Nodup) :
    (finalAdmittedIDs rt clock input).Nodup ∧ (finalExcludedIDs rt clock input).Nodup ∧
    (∀ id ∈ finalAdmittedIDs rt clock input, id ∉ finalExcludedIDs rt clock input) ∧
    ∀ id, id ∈ finalAdmittedIDs rt clock input ∨ id ∈ finalExcludedIDs rt clock input ↔
      id ∈ input.nodes.map (·.logicalID) := by
  refine ⟨?_, ?_, ?_, ?_⟩
  · -- the admitted nodes are a part of the input nodes
    have hsu : ((globalAdmittedNodes rt clock input).map (·.logicalID)).Sublist
        (input.nodes.map (·.logicalID)) := (filter_sublist.trans filter_sublist).map _
    exact ((perm_insertionSort _ _).nodup_iff).mpr (hns.sublist hsu)
  · rw [finalExcludedIDs, uniqueStrings_sortStrings]
    exact sortedSet_nodup _
  · intro id hid hi'
    obtain ⟨n, hn, ha, rfl⟩ := mem_finalAdmittedIDs.mp hid
    obtain ⟨n', hn', hna, heq⟩ := mem_finalExcludedIDs.mp hi'
    have hs : n' = n := inj_on_of_nodup_map hns hn' hn heq
    exact hna (hs ▸ ha)
  · intro id
    rw [mem_finalAdmittedIDs, mem_finalExcludedIDs, mem_map]
    constructor
    · rintro (⟨n, hn, -, hid⟩ | ⟨n, hn, -, hid⟩) <;> exact ⟨n, hn, hid⟩
    · rintro ⟨n, hn, hid⟩
      by_cases ha : Admissible rt clock input n
      · exact .inl ⟨n, hn, ha, hid⟩
      · exact .inr ⟨n, hn, ha, hid⟩

theorem admitted_iff_admissible (hns : (input.nodes.map (·.logicalID)).Nodup) {n : Node} (hn : n ∈ input.nodes) :
    n.logicalID ∈ finalAdmittedIDs rt clock input ↔ Admissible rt clock input n := by
  rw [mem_finalAdmittedIDs]
  constructor
  · rintro ⟨n', hn', ha, heq⟩
    have hs : n' = n := inj_on_of_nodup_map hns hn' hn heq
    exact hs ▸ ha
  · exact fun ha => ⟨n, hn, ha, rfl⟩

theorem sortedAdmittedNodes_admitted {n : ResolvedNode}
    (hn : n ∈ sortedAdmittedNodes (globalAdmittedNodes rt clock input)) :
    n.logicalID ∈ finalAdmittedIDs rt clock input := by
  obtain ⟨i, hi, rfl⟩ := mem_mapIdx.mp hn
  have hno : (sortNodes (globalAdmittedNodes rt clock input))[i] ∈ globalAdmittedNodes rt clock input :=
    (mem_stableSort _ _ _).mp (getElem_mem hi)
  rw [finalAdmittedIDs, sortStrings, mem_insertionSort]
  exact mem_map_of_mem hno

theorem admissible_normalizeInput (n : Node) :
    Admissible rt clock (normalizeInput input) n ↔ Admissible rt clock input n := by
  rw [admissible_iff, admissible_iff]
  rfl

end

/-- Every accepted input is split into admitted and excluded IDs, a node is admitted exactly when it
passes all gates, and nothing but admitted nodes is found anywhere in the snapshot. -/
theorem resolve_only_admitted {rt : Runtime} {enc : Encoder} {clock : Clock} {ctxErr : Option GoError}
    {input : ResolveInput} {snap : ResolvedPolicySnapshot} (hres : resolve rt enc clock ctxErr input = .ok snap)
    (hnodes : (input.nodes.map (·.logicalID)).Nodup) : (snap.admittedNodeIDs.Nodup ∧ snap.excludedNodeIDs.Nodup ∧
      (∀ id ∈ snap.admittedNodeIDs, id ∉ snap.excludedNodeIDs) ∧
      ∀ id, id ∈ snap.admittedNodeIDs ∨ id ∈ snap.excludedNodeIDs ↔ id ∈ input.nodes.map (·.logicalID)) ∧
    (∀ n ∈ input.nodes, n.logicalID ∈ snap.admittedNodeIDs ↔ Admissible rt clock input n) ∧
    (∀ n ∈ snap.nodes, n.logicalID ∈ snap.admittedNodeIDs) ∧
    ∀ g ∈ snap.groups, (∀ m ∈ g.members, m.kind = .node → m.targetID ∈ snap.admittedNodeIDs) ∧
      ∀ id ∈ g.allNodeLogicalIDs, id ∈ snap.admittedNodeIDs := by
  obtain ⟨-, hv, rfl⟩ := resolve_eq_ok_iff.mp hres
  let norm := normalizeInput input
  obtain ⟨rank, hf⟩ := @exists_ranked_fuel rt clock input hv
  refine ⟨finalIDs_partition hnodes, ?_, fun n hn => sortedAdmittedNodes_admitted hn, ?_⟩
  · intro n hn
    rw [← admissible_normalizeInput]
    exact @admitted_iff_admissible rt clock norm hnodes n hn
  · intro g hg
    obtain ⟨hms, ha⟩ :=
      resolveGroups_admitted hf sortedGlobalNodes_found rfl (anyFilterDefined norm) norm.policyRules g hg
    exact ⟨fun m hm hk => globalAdmittedMap_isSome_iff.mp (hms m hm hk),
      fun id hid => globalAdmittedMap_isSome_iff.mp (ha id hid)⟩

/-- The groups of `readdInput` with an inactive node. -/
def inactiveInput : ResolveInput :=
  { readdInput with nodes := [nodeHK, { nodeUS with active := false }] }

/-- The inactive node is excluded and is in no group. -/
theorem inactiveInput_only_admitted :
    ∃ snap, resolve asciiRuntime jsonEncoder sampleClock none inactiveInput = .ok snap ∧
      snap.admittedNodeIDs = [nodeHK.logicalID] ∧ snap.excludedNodeIDs = [nodeUS.logicalID] ∧
      ∀ g ∈ snap.groups, ∀ id ∈ g.allNodeLogicalIDs, id = nodeHK.logicalID := by
  have hr := resolve_sample inactiveInput (by decide)
  have ha : finalAdmittedIDs asciiRuntime sampleClock (normalizeInput inactiveInput) =
      [nodeHK.logicalID] := by decide
  refine ⟨_, hr, ha, by decide, ?_⟩
  intro g hg id hid
  have hin := ((resolve_only_admitted hr (by decide)).2.2.2 g hg).2 id hid
  exact mem_singleton.mp (ha ▸ hin)

end ClashSubParser
