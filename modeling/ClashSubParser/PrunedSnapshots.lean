import ClashSubParser.GroupPruning
import ClashSubParser.ResolvedReferences

/-! What pruning keeps of a resolved snapshot. -/
namespace ClashSubParser

open List FixpointLoop

variable (snap : ResolvedPolicySnapshot)

def ResolvedPolicySnapshot.Prunes (e : ResolvedGroup) : Prop :=
  ∃ k, e ∈ prunedGroups (beforeRound snap k)

def keptMembers (g : ResolvedGroup) : List ResolvedGroupMember :=
  g.members.filter (fun m => !(prunedBefore snap (snap.groups.length+1)).any m.refersTo)

section

variable {snap : ResolvedPolicySnapshot} {k : ℕ} {m : ResolvedGroupMember}

theorem mem_prunedBefore {e : ResolvedGroup} :
    e ∈ prunedBefore snap k ↔ ∃ i < k, e ∈ prunedGroups (beforeRound snap i) := by
  simp [prunedBefore]

theorem mem_beforeRound {g' : ResolvedGroup} :
    g' ∈ (beforeRound snap k).groups ↔ ∃ g ∈ snap.groups, (prunedBefore snap k).any g.goesWith = false ∧
      { g with members := g.members.filter (fun m => !(prunedBefore snap k).any m.refersTo) } = g' := by
  rw [beforeRound_groups, mem_without]

theorem beforeRound_add (j : ℕ) :
    beforeRound snap (snap.groups.length+1+j) = beforeRound snap (snap.groups.length+1) := by
  rw [Nat.add_comm, beforeRound, Function.iterate_add_apply]
  exact iterate_of_none (prunePass_last_round snap) j

theorem prunes_cases {e : ResolvedGroup} (h : snap.Prunes e) :
    e ∈ prunedBefore snap (snap.groups.length+1) ∨ e.id = "" ∧ e.name = "" := by
  obtain ⟨k, hk⟩ := h
  by_cases hlt : k < snap.groups.length+1
  · exact .inl (mem_prunedBefore.mpr ⟨k, hlt, hk⟩)
  · right
    obtain ⟨j, rfl⟩ := Nat.exists_eq_add_of_le (Nat.not_lt.mp hlt)
    rw [beforeRound_add] at hk
    exact prunePass_eq_none_iff.mp (prunePass_last_round snap) e hk

/-- A test that passes over the group without ID and name, which no round removes, sees every pruned group. -/
theorem any_prunedBefore_eq_false_iff {test : ResolvedGroup → Bool}
    (ht : ∀ e, e.id = "" → e.name = "" → test e = false) :
    (prunedBefore snap (snap.groups.length+1)).any test = false ↔ ∀ e, snap.Prunes e → test e = false := by
  simp only [any_eq_false, Bool.not_eq_true]
  constructor
  · intro h e he
    rcases prunes_cases he with he | ⟨hid, hn⟩
    · exact h e he
    · exact ht e hid hn
  · intro h e he
    obtain ⟨i, -, hi⟩ := mem_prunedBefore.mp he
    exact h e ⟨i, hi⟩

theorem any_goesWith_eq_false_iff {g : ResolvedGroup} :
    (prunedBefore snap (snap.groups.length+1)).any g.goesWith = false ↔
      ∀ e, snap.Prunes e → g.goesWith e = false :=
  any_prunedBefore_eq_false_iff (fun e hid hn => by simp [ResolvedGroup.goesWith, hid, hn])

theorem any_refersTo_eq_false_iff : (prunedBefore snap (snap.groups.length+1)).any m.refersTo = false ↔
      ∀ e, snap.Prunes e → m.refersTo e = false :=
  any_prunedBefore_eq_false_iff (fun e hid hn => by
    simp [ResolvedGroupMember.refersTo, hid, hn, trimmedKey_eq_some])

theorem mem_pruned_groups {g' : ResolvedGroup} : g' ∈ (pruneUnavailableOptionalGroups snap).1.groups ↔
      ∃ g ∈ snap.groups, (∀ e, snap.Prunes e → g.goesWith e = false) ∧
      { g with members := keptMembers snap g } = g' := by
  rw [pruneUnavailableOptionalGroups_fst, beforeRound_groups, mem_without]
  simp only [any_goesWith_eq_false_iff, keptMembers]

theorem mem_keptMembers {g : ResolvedGroup} :
    m ∈ keptMembers snap g ↔ m ∈ g.members ∧ ∀ e, snap.Prunes e → m.refersTo e = false := by
  rw [keptMembers, mem_filter, Bool.not_eq_true', any_refersTo_eq_false_iff]

theorem any_prunedBefore_succ (h : (prunedBefore snap k).any m.refersTo = false)
    (hr : ∀ e ∈ prunedGroups (beforeRound snap k), m.refersTo e = false) :
    (prunedBefore snap (k+1)).any m.refersTo = false := by
  rw [any_eq_false] at h ⊢
  intro e he
  obtain ⟨i, hi, hm⟩ := mem_prunedBefore.mp he
  rcases Nat.lt_succ_iff_lt_or_eq.mp hi with hi | rfl
  · exact h e (mem_prunedBefore.mpr ⟨i, hi, hm⟩)
  · simp [hr e hm]

end

/-- No round prunes everything that the members of a lasting group refer to. -/
def RoundsSpareMembers : Prop :=
  ∀ k, ∀ g ∈ (beforeRound snap k).groups, (∀ e, snap.Prunes e → g.goesWith e = false) → g.members ≠ [] →
    ∃ m ∈ g.members, ∀ e ∈ (beforeRound snap k).groups, prunable (beforeRound snap k) e = true →
      m.refersTo e = false

/-- For every resolved snapshot: no kept group that had members is left without any exactly when in every
round each group that stays in the result and has members has one that refers to no group pruned in
that round. -/
theorem pruning_keeps_members_iff {rt : Runtime} {enc : Encoder} {clock : Clock} {ctxErr : Option GoError}
    {input : ResolveInput} {snap : ResolvedPolicySnapshot} (hres : resolve rt enc clock ctxErr input = .ok snap) :
    (∀ g ∈ snap.groups, ∀ g' ∈ (pruneUnavailableOptionalGroups snap).1.groups, g'.position = g.position →
      g.members ≠ [] → g'.members ≠ []) ↔ RoundsSpareMembers snap := by
  have hpi := (referential_of_resolve hres).positions
  constructor
  · intro h k g₁ hg₁ hs hne
    obtain ⟨g, hg, -, rfl⟩ := mem_beforeRound.mp hg₁
    have hgn : g.members ≠ [] := by
      intro hn
      simp [hn] at hne
    have hk := h g hg _ (mem_pruned_groups.mpr ⟨g, hg, hs, rfl⟩) rfl hgn
    obtain ⟨m, hm⟩ := exists_mem_of_ne_nil _ hk
    obtain ⟨hme, hf⟩ := mem_keptMembers.mp hm
    refine ⟨m, mem_filter.mpr ⟨hme, ?_⟩, ?_⟩
    · rw [Bool.not_eq_true', any_eq_false]
      intro e he
      obtain ⟨i, -, hi⟩ := mem_prunedBefore.mp he
      simp [hf e ⟨i, hi⟩]
    · intro e he hp
      exact hf e ⟨k, mem_prunedGroups.mpr ⟨he, hp⟩⟩
  · intro h g hg g' hg' hpo hne
    obtain ⟨g₀, hg₀, hs, rfl⟩ := mem_pruned_groups.mp hg'
    obtain rfl : g₀ = g := inj_on_of_nodup_map hpi hg₀ hg hpo
    -- the members left before round `k`, for every `k`
    have hl : ∀ k, g₀.members.filter (fun m => !(prunedBefore snap k).any m.refersTo) ≠ [] := by
      intro k
      induction k with
      | zero => simpa [prunedBefore] using hne
      | succ k ih =>
        have ht : (prunedBefore snap k).any g₀.goesWith = false := by
          rw [any_eq_false]
          intro e he
          obtain ⟨i, -, hi⟩ := mem_prunedBefore.mp he
          simp [hs e ⟨i, hi⟩]
        obtain ⟨m, hm, hf⟩ := h k _ (mem_beforeRound.mpr ⟨g₀, hg, ht, rfl⟩) hs ih
        obtain ⟨hme, hb⟩ := mem_filter.mp hm
        apply ne_nil_of_mem (a := m)
        refine mem_filter.mpr ⟨hme, ?_⟩
        rw [Bool.not_eq_true'] at hb ⊢
        refine any_prunedBefore_succ hb fun e he => ?_
        obtain ⟨hin, hp⟩ := mem_prunedGroups.mp he
        exact hf e hin hp
    exact hl _

/-- A selector that a rule leads to, with references to two empty groups before its other sources. -/
def selectorInput (others : List MemberSource) : ResolveInput where
  nodes := [nodeHK]
  groups :=
    [sampleGroup idA "Proxy" ([groupRefTo idB 0, groupRefTo idC 1] ++ others), sampleGroup idB "Empty 1" [],
     sampleGroup idC "Empty 2" []]
  policyRules := [⟨"", "", idA, "MATCH", 0⟩]
  asOf := 63000000000000000000

/-- With a node beside them, the two empty groups go and the selector keeps the node. -/
theorem selectorInput_spares_members :
    ∃ snap, resolve asciiRuntime jsonEncoder sampleClock none (selectorInput [manualSource nodeHK 2]) = .ok snap ∧
      RoundsSpareMembers snap := by
  have hr := resolve_sample (selectorInput [manualSource nodeHK 2]) (by decide)
  exact ⟨_, hr, (pruning_keeps_members_iff hr).mp (by decide)⟩

/-- Without it each empty group counts on the other: both go in one round, and the selector that the rule
leads to stays with no member. -/
theorem selectorInput_emptied :
    ∃ snap, resolve asciiRuntime jsonEncoder sampleClock none (selectorInput []) = .ok snap ∧
      ∃ g ∈ snap.groups, ∃ g' ∈ (pruneUnavailableOptionalGroups snap).1.groups,
        g'.position = g.position ∧ g.members ≠ [] ∧ g'.members = [] := by
  exact ⟨_, resolve_sample _ (by decide), by decide⟩

/-- A group pruning must not drop: a rule leads to it, it has members, or it stands for PASS. -/
def ResolvedPolicySnapshot.Protects (g : ResolvedGroup) : Prop :=
  (∃ r ∈ snap.rules, r.targetGroupID = g.id) ∨ g.members ≠ [] ∨ g.usesEmptyPass = true

instance (snap : ResolvedPolicySnapshot) (g : ResolvedGroup) : Decidable (snap.Protects g) :=
  inferInstanceAs (Decidable (_ ∨ _ ∨ _))

/-- Only empty optional groups and references to them are gone from `p`, and pruning is done. -/
structure PrunesOnlyOptional (s p : ResolvedPolicySnapshot) : Prop where
  groups : ∀ g ∈ s.groups, s.Protects g → g.id ∈ p.groups.map (·.id)
  references : ∀ g ∈ p.groups, ∀ m ∈ g.members, m.kind = .group → m.targetID ∈ p.groups.map (·.id)
  members : ∀ g ∈ s.groups, ∀ g' ∈ p.groups, g'.id = g.id → ∀ m ∈ g.members, m.kind ≠ .group → m ∈ g'.members
  rounds : ∃ k ≤ s.groups.length, beforeRound s k = p ∧ pruneOnePass p = none
  again : pruneUnavailableOptionalGroups p = (p, [])

/-- The name of a pruned group is its own: no group that must stay and no node or builtin policy has it,
and references to other groups of that name go as well. -/
structure ResolvedPolicySnapshot.NameApart (snap : ResolvedPolicySnapshot) (e : ResolvedGroup) : Prop where
  groups : ∀ g ∈ snap.groups, snap.Protects g → g.name ≠ e.name
  members : ∀ g ∈ snap.groups, ∀ m ∈ g.members, m.kind ≠ .group → m.refersTo e = false
  references : ∀ g ∈ snap.groups, ∀ m ∈ g.members, m.kind = .group →
    (∃ h ∈ snap.groups, h.id = m.targetID ∧ h.name = e.name) → ∃ e', snap.Prunes e' ∧ m.refersTo e' = true

section

variable {snap : ResolvedPolicySnapshot} {e : ResolvedGroup}

theorem exists_of_prunes (h : snap.Prunes e) : ∃ g ∈ snap.groups, g.id = e.id ∧ g.name = e.name := by
  obtain ⟨k, hk⟩ := h
  obtain ⟨g, hg, -, rfl⟩ := mem_beforeRound.mp (mem_prunedGroups.mp hk).1
  exact ⟨g, hg, rfl, rfl⟩

theorem goesWith_iff (hr : snap.Referential) {g : ResolvedGroup} (he : snap.Prunes e) :
    g.goesWith e = true ↔ g.id = e.id ∨ g.name = e.name := by
  obtain ⟨g₀, hg₀, hid, hn⟩ := exists_of_prunes he
  have hne : e.id ≠ "" := hid ▸ (hr.ids g₀ hg₀).2
  have hn' : e.name ≠ "" := by
    intro hni
    apply hr.names g₀ hg₀
    rw [hn, hni]
    rfl
  simp [ResolvedGroup.goesWith, hne, hn']

theorem mem_ids_pruned {id : String} : id ∈ (pruneUnavailableOptionalGroups snap).1.groups.map (·.id) ↔
      ∃ g ∈ snap.groups, (∀ e, snap.Prunes e → g.goesWith e = false) ∧ g.id = id := by
  rw [mem_map]
  constructor
  · rintro ⟨g', hg', rfl⟩
    obtain ⟨g, hg, hs, rfl⟩ := mem_pruned_groups.mp hg'
    exact ⟨g, hg, hs, rfl⟩
  · rintro ⟨g, hg, hs, rfl⟩
    exact ⟨_, mem_pruned_groups.mpr ⟨g, hg, hs, rfl⟩, rfl⟩

theorem pruning_settles (snap : ResolvedPolicySnapshot) :
    (∃ k ≤ snap.groups.length, beforeRound snap k = (pruneUnavailableOptionalGroups snap).1 ∧
      pruneOnePass (pruneUnavailableOptionalGroups snap).1 = none) ∧
    pruneUnavailableOptionalGroups (pruneUnavailableOptionalGroups snap).1 =
      ((pruneUnavailableOptionalGroups snap).1, []) := by
  have hl := prunePass_last_round snap
  have hs : prunePass (beforeRound snap snap.groups.length) = none :=
    pass_iterate_eq_none (μ := fun s : ResolvedPolicySnapshot => s.groups.length)
      (fun _ _ => length_lt_of_prunePass) _ _ (le_rfl)
  rw [pruneUnavailableOptionalGroups_fst]
  refine ⟨⟨snap.groups.length, le_rfl, ?_, Option.map_eq_none_iff.mp hl⟩,
    pruneUnavailableOptionalGroups_of_none hl⟩
  rw [beforeRound_succ, advance_of_none hs]

theorem stays_of_protects (hr : snap.Referential) (hi : (snap.groups.map (·.id)).Nodup)
    (ha : ∀ e, snap.Prunes e → snap.NameApart e) {g : ResolvedGroup} (hg : g ∈ snap.groups)
    (hp : snap.Protects g) : ∀ e, snap.Prunes e → g.goesWith e = false := by
  intro e he
  rw [← Bool.not_eq_true, goesWith_iff hr he]
  have hn := (ha e he).groups g hg hp
  rintro (hid | hs)
  · obtain ⟨g₀, hg₀, hi₀, hn₀⟩ := exists_of_prunes he
    obtain rfl : g₀ = g := inj_on_of_nodup_map hi hg₀ hg (hi₀.trans hid.symm)
    exact hn hn₀
  · exact hn hs

theorem refersTo_of_targetID (hr : snap.Referential) {m : ResolvedGroupMember}
    (he : snap.Prunes e) (hid : m.targetID = e.id) : m.refersTo e = true := by
  obtain ⟨g, hg, hgi, -⟩ := exists_of_prunes he
  obtain ⟨ht, hne⟩ := hr.ids g hg
  have hk : trimmedKey m.targetID = some e.id := by
    rw [trimmedKey_eq_some, hid, ← hgi]
    exact ⟨ht, hne⟩
  simp [ResolvedGroupMember.refersTo, hk]

end

/-- For every resolved snapshot with distinct group IDs: pruning keeps what it must, leaves no dangling
reference and touches no other member exactly when the name of every pruned group is its own. That it
settles within its bound holds in any case. -/
theorem pruning_only_optional_iff {rt : Runtime} {enc : Encoder} {clock : Clock} {ctxErr : Option GoError}
    {input : ResolveInput} {snap : ResolvedPolicySnapshot}
    (hres : resolve rt enc clock ctxErr input = .ok snap) (hids : (snap.groups.map (·.id)).Nodup) :
    PrunesOnlyOptional snap (pruneUnavailableOptionalGroups snap).1 ↔
      ∀ e, snap.Prunes e → snap.NameApart e := by
  have hr := referential_of_resolve hres
  obtain ⟨hro, hag⟩ := pruning_settles snap
  constructor
  · intro h e he
    -- a group whose ID is in the result is not omitted with any pruned group
    have hs (g : ResolvedGroup) (hg : g ∈ snap.groups)
        (hin : g.id ∈ (pruneUnavailableOptionalGroups snap).1.groups.map (·.id)) :
        ∀ e, snap.Prunes e → g.goesWith e = false := by
      obtain ⟨g₁, hg₁, hke, hid⟩ := mem_ids_pruned.mp hin
      obtain rfl : g₁ = g := inj_on_of_nodup_map hids hg₁ hg hid
      exact hke
    have ho (g : ResolvedGroup) (hg : g ∈ snap.groups)
        (hin : g.id ∈ (pruneUnavailableOptionalGroups snap).1.groups.map (·.id)) : g.name ≠ e.name := by
      intro hn
      have hke := hs g hg hin e he
      rw [(goesWith_iff hr he).mpr (.inr hn)] at hke
      contradiction
    have hrs (g : ResolvedGroup) (hg : g ∈ snap.groups) (hne : g.members ≠ []) :
        { g with members := keptMembers snap g } ∈ (pruneUnavailableOptionalGroups snap).1.groups :=
      mem_pruned_groups.mpr ⟨g, hg, hs g hg (h.groups g hg (.inr (.inl hne))), rfl⟩
    refine ⟨fun g hg hp => ho g hg (h.groups g hg hp), ?_, ?_⟩
    · intro g hg m hm hk
      have hkt := h.members g hg _ (hrs g hg (ne_nil_of_mem hm)) rfl m hm hk
      exact (mem_keptMembers.mp hkt).2 e he
    · rintro g hg m hm hk ⟨t, ht, hid, hn⟩
      by_contra hno
      push Not at hno
      have hkt : m ∈ keptMembers snap g :=
        mem_keptMembers.mpr ⟨hm, fun e' he' => by simpa using hno e' he'⟩
      have hin := h.references _ (hrs g hg (ne_nil_of_mem hm)) m hkt hk
      exact ho t ht (hid ▸ hin) hn
  · intro ha
    refine ⟨?_, ?_, ?_, hro, hag⟩
    · intro g hg hp
      exact mem_ids_pruned.mpr ⟨g, hg, stays_of_protects hr hids ha hg hp, rfl⟩
    · intro g' hg' m hm hk
      obtain ⟨g, hg, -, rfl⟩ := mem_pruned_groups.mp hg'
      obtain ⟨hme, hf⟩ := mem_keptMembers.mp hm
      obtain ⟨t, ht, hid, -⟩ := (hr.members g hg m hme).group hk
      refine mem_ids_pruned.mpr ⟨t, ht, fun e he => ?_, hid⟩
      rw [← Bool.not_eq_true, goesWith_iff hr he]
      rintro (hsa | hn)
      · have hre := refersTo_of_targetID hr he (hid.symm.trans hsa)
        rw [hf e he] at hre
        contradiction
      · obtain ⟨e', he', hre⟩ := (ha e he).references g hg m hme hk ⟨t, ht, hid, hn⟩
        rw [hf e' he'] at hre
        contradiction
    · intro g hg g' hg' hid m hm hk
      obtain ⟨g₁, hg₁, -, rfl⟩ := mem_pruned_groups.mp hg'
      obtain rfl : g₁ = g := inj_on_of_nodup_map hids hg₁ hg hid
      exact mem_keptMembers.mpr ⟨hm, fun e he => (ha e he).members g₁ hg m hm hk⟩

/-- A selector with two empty groups and a node: all that goes is the groups and the references to them. -/
theorem selectorInput_only_optional :
    ∃ snap, resolve asciiRuntime jsonEncoder sampleClock none (selectorInput [manualSource nodeHK 2]) = .ok snap ∧
      (snap.groups.map (·.id)).Nodup ∧ PrunesOnlyOptional snap (pruneUnavailableOptionalGroups snap).1 := by
  let input := selectorInput [manualSource nodeHK 2]
  have hr := resolve_sample input (by decide)
  let snap := snapshotOf asciiRuntime jsonEncoder sampleClock (normalizeInput input)
  have ha : ∀ e ∈ prunedBefore snap (snap.groups.length+1),
      (∀ g ∈ snap.groups, snap.Protects g → g.name ≠ e.name) ∧
      (∀ g ∈ snap.groups, ∀ m ∈ g.members, m.kind ≠ .group → m.refersTo e = false) ∧
      ∀ g ∈ snap.groups, ∀ m ∈ g.members, m.kind = .group →
        (∃ h ∈ snap.groups, h.id = m.targetID ∧ h.name = e.name) → m.refersTo e = true := by decide
  refine ⟨_, hr, by decide, (pruning_only_optional_iff hr (by decide +kernel)).mpr ?_⟩
  intro e he
  obtain ⟨g, hg, hid, -⟩ := exists_of_prunes he
  have hin := (prunes_cases he).resolve_right fun h => ((referential_of_resolve hr).ids g hg).2 (hid.trans h.1)
  obtain ⟨hgs, hms, hre⟩ := ha e hin
  exact ⟨hgs, hms, fun g hg m hm hk hs => ⟨e, he, hre g hg m hm hk hs⟩⟩

def namesakeInput : ResolveInput where
  nodes := [nodeHK]
  groups := [sampleGroup idA "Proxy" [manualSource nodeHK 0], sampleGroup idB "HK-1" []]
  policyRules := [⟨"", "", idA, "MATCH", 0⟩]
  asOf := 63000000000000000000

/-- The group is pruned, and with it the node from the only group that has it. -/
theorem namesakeInput_loses_node :
    ∃ snap, resolve asciiRuntime jsonEncoder sampleClock none namesakeInput = .ok snap ∧
      (snap.groups.map (·.id)).Nodup ∧ (snap.nodes.map (·.logicalID)).Nodup ∧
      ∃ g ∈ snap.groups, ∃ g' ∈ (pruneUnavailableOptionalGroups snap).1.groups, g'.id = g.id ∧
        ∃ m ∈ g.members, m.kind = .node ∧ m ∉ g'.members := by
  exact ⟨_, resolve_sample _ (by decide), by decide, by decide +kernel, by decide +kernel⟩

end ClashSubParser
