import ClashSubParser.NodeSets

/-! The members of a resolved group are numbered from zero, and distinct but in derived groups. -/
namespace ClashSubParser

open List MemoRecursion StableSort

structure ResolvedGroup.WellNumbered (rg : ResolvedGroup) : Prop where
  distinct : (rg.members.map (·.key)).Nodup
  positions : rg.members.map (·.position) = List.range rg.members.length

section

variable {rt : Runtime} {ctx : GroupContext} {groups : List NodeGroup}

theorem UnitedFacts.positions (hu : UnitedFacts rt ctx groups) {rg : ResolvedGroup}
    (hrg : rg ∈ unitedGroups rt ctx groups) : rg.members.map (·.position) = List.range rg.members.length := by
  have hr (n : ℕ) (h : rg.members.map (·.position) = List.range n) :
      rg.members.map (·.position) = List.range rg.members.length := by
    have hl := congrArg List.length h
    rw [length_map, length_range] at hl
    rw [h, hl]
  rcases mem_append.mp hrg with hrg | hrg
  · obtain ⟨rg₀, hr₀, rfl⟩ := mem_map.mp hrg
    exact hr _ (hu.run.positions rg₀.id (mem_map_of_mem hr₀))
  · obtain ⟨p, -, c, -, hf⟩ := hu.run.origin rg hrg
    apply hr (survivors rt ctx (groups.length+1) p c).length
    rw [hf.members, map_position_membersOf, length_map]

theorem DerivedFor.keys {fuel : ℕ} {p c : String} {d : ResolvedGroup} (h : DerivedFor rt ctx fuel p c d) :
    d.members.map (·.key) = (survivors rt ctx fuel p c).map (·.key) := by
  rw [h.members, map_key_membersOf, map_map]
  exact map_congr_left fun leaf _ => key_derivedItem ctx leaf

theorem UnitedFacts.distinct_iff (hu : UnitedFacts rt ctx groups) :
    (∀ rg ∈ unitedGroups rt ctx groups, (rg.members.map (·.key)).Nodup) ↔
    ∀ p ∈ (firstResolved rt ctx groups).map (·.id),
      ∀ c ∈ groupTargets (itemsOf rt ctx (groups.length+1) p), derives rt ctx (groups.length+1) p c = true →
        ((survivors rt ctx (groups.length+1) p c).map (·.key)).Nodup := by
  constructor
  · intro ha p hp c hc hde
    obtain ⟨d, hd, hf⟩ := hu.lookup_derived hp hc hde
    rw [← hf.keys]
    exact ha d (mapOf_some hd).1
  · intro hco rg hrg
    rcases mem_append.mp hrg with hrg | hrg
    · obtain ⟨rg₀, hr₀, rfl⟩ := mem_map.mp hrg
      have hid : rg₀.id ∈ (firstResolved rt ctx groups).map (·.id) := mem_map_of_mem hr₀
      change (((derivedState rt ctx groups).slices rg₀.id).members.map (·.key)).Nodup
      rw [hu.run.keys rg₀.id hid, if_pos (mem_reverse.mpr hid)]
      exact replaced_nodup hu.first hu.fresh hid
    · obtain ⟨p, hp, c, hc, hf⟩ := hu.run.origin rg hrg
      rw [hf.keys]
      exact hco p hp c hc hf.derives

end

/-- For every accepted input: all groups of the snapshot have distinct members, numbered in order,
exactly when no reference that is replaced by a derived group has repeated surviving leaves. -/
theorem members_wellNumbered_iff {rt : Runtime} {enc : Encoder} {clock : Clock}
    {ctxErr : Option GoError} {input : ResolveInput} {snap : ResolvedPolicySnapshot}
    (hres : resolve rt enc clock ctxErr input = .ok snap)
    (hfresh : DerivedFresh rt (groupIDs input.groups)) :
    let ctx := resolveContext rt clock (normalizeInput input)
    let depth := (normalizeInput input).groups.length+1
    (∀ g ∈ snap.groups, g.WellNumbered) ↔
    ∀ p ∈ groupIDs input.groups, ∀ c ∈ groupTargets (itemsOf rt ctx depth p),
      derives rt ctx depth p c = true → ((survivors rt ctx depth p c).map (·.key)).Nodup := by
  intro ctx depth
  obtain ⟨-, hv, rfl⟩ := resolve_eq_ok_iff.mp hres
  obtain ⟨rank, hf⟩ := @exists_ranked_fuel rt clock input hv
  rw [← groupIDs_normalizeInput] at hfresh ⊢
  have hu := unitedFacts hf rfl hfresh
  have hnd := hu.distinct_iff
  simp only [firstResolved_ids hf] at hnd
  rw [← hnd]
  -- the last pass leaves the members alone
  constructor
  · intro ha rg hrg
    have hl : recollect (unitedGroups rt ctx (normalizeInput input).groups) rg ∈
        (snapshotOf rt enc clock (normalizeInput input)).groups := mem_map_of_mem hrg
    exact (ha _ hl).distinct
  · intro ha g hg
    obtain ⟨rg, hrg, rfl⟩ := mem_map.mp hg
    have hp : rg.members.map (·.position) = List.range rg.members.length := hu.positions hrg
    exact ⟨ha rg hrg, hp⟩

/-- One filtered reference to a group without repeated leaves. -/
theorem filteredReference_wellNumbered :
    let input := referringInput [matchingName "US" (groupRefTo idA 0)]
    ∀ g ∈ (groupResults asciiRuntime sampleClock (normalizeInput input)).groups, g.WellNumbered := by
  intro input
  have hr := resolve_sample input (by decide)
  exact (members_wellNumbered_iff hr sample_fresh).mpr (by decide)

/-- `B` holds a node that its child `A` holds too, and `C` refers to `B` through a filter. -/
def repeatedLeafInput : ResolveInput where
  nodes := [nodeHK, nodeUS]
  groups :=
    [sampleGroup idA "A" [manualSource nodeHK 0, manualSource nodeUS 1],
     sampleGroup idB "B" [manualSource nodeUS 0, groupRefTo idA 1],
     sampleGroup idC "C" [matchingName "US" (groupRefTo idB 0)]]
  asOf := 63000000000000000000

/-- The group derived from `B` lists the node twice. -/
theorem repeatedLeafInput_repeats : validateInput asciiRuntime (normalizeInput repeatedLeafInput) = .ok () ∧
    (groupIDs repeatedLeafInput.groups).Nodup ∧
    ∃ g ∈ (groupResults asciiRuntime sampleClock (normalizeInput repeatedLeafInput)).groups,
      g.members = [⟨.node, nodeUS.logicalID, "US-1", 0⟩, ⟨.node, nodeUS.logicalID, "US-1", 1⟩] := by
  refine ⟨by decide, by decide, ?_⟩
  have ha : (groupResults asciiRuntime sampleClock (normalizeInput repeatedLeafInput)).groups.any (fun g =>
      g.members = [⟨.node, nodeUS.logicalID, "US-1", 0⟩, ⟨.node, nodeUS.logicalID, "US-1", 1⟩]) = true := by
    decide
  obtain ⟨g, hg, hms⟩ := any_eq_true.mp ha
  exact ⟨g, hg, of_decide_eq_true hms⟩

end ClashSubParser
