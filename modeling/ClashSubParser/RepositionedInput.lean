import ClashSubParser.PermutedInput

/-! Two resolutions of one input with its rules and sources written down in another order, at the same
positions. -/
namespace ClashSubParser

open List MemoRecursion StableSort

section

variable {α : Type}

structure Reordered (position : α → Int) (l m : List α) : Prop where
  perm : l.Perm m
  nodup : (l.map position).Nodup

variable {position : α → Int} {l m : List α}

variable (h : Reordered position l m)
include h

theorem Reordered.symm : Reordered position m l :=
  ⟨h.perm.symm, (h.perm.map position).nodup_iff.mp h.nodup⟩

theorem Reordered.eq_of_tied : ∀ a ∈ l, ∀ b ∈ l, tied (keyLess position) a b = true → a = b := by
  intro a ha b hb hab
  exact inj_on_of_nodup_map h.nodup ha hb ((keyLess_tied _ _ _).mp hab)

theorem Reordered.stableSort_eq : stableSort (keyLess position) l = stableSort (keyLess position) m :=
  stableSort_eq_of_perm (keyLess_weakLess _) h.perm h.eq_of_tied

theorem Reordered.exchangeSort_eq :
    exchangeSort (keyLess position) l.length l = exchangeSort (keyLess position) m.length m := by
  rw [exchangeSort_eq_stableSort (keyLess_weakLess _) l h.eq_of_tied,
    exchangeSort_eq_stableSort (keyLess_weakLess _) m h.symm.eq_of_tied, h.stableSort_eq]

theorem Reordered.eq_of_positions (heq : l.map position = m.map position) : l = m := by
  have hle : l.length = m.length := h.perm.length_eq
  apply ext_getElem hle
  intro k hl hm
  apply inj_on_of_nodup_map h.nodup (getElem_mem hl) (h.perm.mem_iff.mpr (getElem_mem hm))
  have hk : (l.map position)[k]? = (m.map position)[k]? := by rw [heq]
  simpa [hl, hm] using hk

end

structure Resourced (g h : NodeGroup) : Prop where
  sources : Reordered (·.position) g.sources h.sources
  rest : h = { g with sources := h.sources }

/-- The same input up to the order of policy rules, admission rules and the sources of each group,
whichever of the two ways they are given. -/
structure Repositioned (i j : ResolveInput) : Prop where
  policyRules : Reordered (·.position) i.policyRules j.policyRules
  admissionRules : Reordered (·.position) i.admissionRules j.admissionRules
  groups : List.Forall₂ Resourced i.groups j.groups
  given : j.groupSources.isSome = i.groupSources.isSome
  groupSources : ∀ gid, Reordered (·.position) (givenSources i gid) (givenSources j gid)
  rest : j = { i with
    policyRules := j.policyRules
    admissionRules := j.admissionRules
    groups := j.groups
    groupSources := j.groupSources }

def SameSourceOrder (i j : ResolveInput) : Prop :=
  (normalizeInput i).groups.map (·.sources) = (normalizeInput j).groups.map (·.sources)

section

variable {rt : Runtime} {clock clock' : Clock} {i j : ResolveInput}

variable (h : Repositioned i j)
include h

theorem Repositioned.exists_eq : ∃ prs ars gs srcs,
    j = { i with policyRules := prs, admissionRules := ars, groups := gs, groupSources := srcs } :=
  ⟨_, _, _, _, h.rest⟩

theorem Repositioned.symm : Repositioned j i := by
  refine ⟨h.policyRules.symm, h.admissionRules.symm, ?_, h.given.symm, fun gid => (h.groupSources gid).symm, ?_⟩
  · refine h.groups.flip.imp ?_
    rintro g g' ⟨hs, hr⟩
    refine ⟨hs.symm, ?_⟩
    rw [hr]
  · rw [h.rest]

theorem Repositioned.groups_normalized :
    List.Forall₂ Resourced (normalizeInput i).groups (normalizeInput j).groups := by
  simp only [normalizeInput]
  rw [List.forall₂_map_left_iff, List.forall₂_map_right_iff]
  refine h.groups.imp ?_
  rintro g g' ⟨hs, hr⟩
  have hid : g'.id = g.id := by rw [hr]
  rw [h.given, hid]
  split_ifs
  · refine ⟨h.groupSources g.id, ?_⟩
    rw [hr]
  · refine ⟨hs, ?_⟩
    rw [hr]

theorem Repositioned.groupIDs_eq : groupIDs j.groups = groupIDs i.groups := by
  have hsa : ∀ {gs hs : List NodeGroup}, List.Forall₂ Resourced gs hs → groupIDs hs = groupIDs gs := by
    intro gs hs ha
    induction ha with
    | nil => rfl
    | cons hg _ ih =>
      simp only [groupIDs, map_cons] at ih ⊢
      rw [ih, hg.rest]
  exact hsa h.groups

theorem Repositioned.groups_eq (horder : SameSourceOrder i j) :
    (normalizeInput j).groups = (normalizeInput i).groups := by
  have hsa : ∀ {gs hs : List NodeGroup}, List.Forall₂ Resourced gs hs →
      gs.map (·.sources) = hs.map (·.sources) → hs = gs := by
    intro gs hs ha
    induction ha with
    | nil => exact fun _ => rfl
    | cons hg _ ih =>
      intro heq
      obtain ⟨hh, ht⟩ := List.cons.inj heq
      dsimp only at hh
      rw [ih ht, hg.rest, ← hh]
  exact hsa h.groups_normalized horder

theorem Repositioned.sortRules_eq : sortRules j.policyRules = sortRules i.policyRules :=
  h.policyRules.symm.stableSort_eq

/-- An accepted input is accepted with its entries in another order. -/
theorem Repositioned.validateInput_ok (hva : validateInput rt (normalizeInput i) = .ok ()) :
    validateInput rt (normalizeInput j) = .ok () := by
  have hf : j.globalFilter = i.globalFilter := by rw [h.rest]
  have hi : groupIDs (normalizeInput j).groups = groupIDs (normalizeInput i).groups := by
    rw [groupIDs_normalizeInput, groupIDs_normalizeInput, h.groupIDs_eq]
  obtain ⟨ht, hgl⟩ := validateInput_ok_iff.mp hva
  obtain ⟨hok, -, hrl⟩ := validatePolicyTopology_ok_iff.mp ht
  rw [validateInput_ok_iff, hf]
  refine ⟨?_, hgl⟩
  have hm : ∀ g' ∈ (normalizeInput j).groups, ∃ g ∈ (normalizeInput i).groups, Resourced g g' := by
    intro g' hg'
    obtain ⟨k, hk, rfl⟩ := mem_iff_getElem.mp hg'
    have hl := h.groups_normalized.length_eq
    exact ⟨_, getElem_mem (hl ▸ hk), h.groups_normalized.get (hl ▸ hk) hk⟩
  apply validatePolicyTopology_ok_of_part ht
  · intro g' hg'
    obtain ⟨g, hg, hsr, hr⟩ := hm g' hg'
    refine ⟨g, hg, by rw [hr], by rw [hr], by rw [hr], fun s hs => ?_⟩
    exact hsr.perm.mem_iff.mpr hs
  · intro g' hg' s hs v hv
    obtain ⟨g, hg, hsr, -⟩ := hm g' hg'
    have hso := checkSources_ok_iff.mp (hok.source g hg) s (hsr.perm.mem_iff.mpr hs)
    rw [hi]
    exact ((checkSource_ok_iff.mp hso).2 v hv).2
  · rw [hi]
    simp only [validatePolicyRules, h.sortRules_eq, Bool.false_eq_true, false_and, if_false] at hrl ⊢
    exact hrl

theorem Repositioned.admission_eq : admission rt (normalizeInput j) = admission rt (normalizeInput i) := by
  have hso : sortAdmissionRules j.admissionRules = sortAdmissionRules i.admissionRules :=
    h.admissionRules.symm.exchangeSort_eq
  obtain ⟨prs, ars, gs, srcs, rfl⟩ := h.exists_eq
  change evaluateNodeAdmission rt i.nodes ars _ = evaluateNodeAdmission rt i.nodes i.admissionRules _
  simp only [evaluateNodeAdmission, hso]
  rfl

end

section

variable {rt : Runtime} {clock clock' : Clock} {i j : ResolveInput}

theorem Repositioned.resolveRules_eq (h : Repositioned i j) (horder : SameSourceOrder i j) :
    resolveRules rt j.policyRules (normalizeInput j).groups =
      resolveRules rt i.policyRules (normalizeInput i).groups := by
  rw [resolveRules, resolveRules, h.sortRules_eq, h.groups_eq horder]

variable (h : Repositioned i j) (hclock : i.asOf.IsZero → clock' = clock)
include h hclock

theorem Repositioned.asOf_eq (time : Clock → Time) :
    (if (normalizeInput j).asOf.IsZero then time clock' else (normalizeInput j).asOf) =
      if (normalizeInput i).asOf.IsZero then time clock else (normalizeInput i).asOf := by
  have ha : (normalizeInput j).asOf = (normalizeInput i).asOf := by
    rw [h.rest]
    rfl
  rw [ha]
  split_ifs with hz
  · rw [hclock hz]
  · rfl

theorem Repositioned.globalVerdict_eq :
    globalVerdict rt clock' (normalizeInput j) = globalVerdict rt clock (normalizeInput i) := by
  have ht : asOfTime clock' (normalizeInput j) = asOfTime clock (normalizeInput i) :=
    h.asOf_eq hclock (·.asOf)
  funext n
  rw [globalVerdict, globalVerdict, ht]
  obtain ⟨-, -, -, -, rfl⟩ := h.exists_eq
  rfl

theorem Repositioned.globalAdmittedNodes_eq :
    globalAdmittedNodes rt clock' (normalizeInput j) = globalAdmittedNodes rt clock (normalizeInput i) := by
  rw [globalAdmittedNodes, globalAdmittedNodes, h.admission_eq, h.globalVerdict_eq hclock]

variable (horder : SameSourceOrder i j)
include horder

theorem Repositioned.resolveContext_eq :
    resolveContext rt clock' (normalizeInput j) = resolveContext rt clock (normalizeInput i) := by
  have ht : asOfTime clock' (normalizeInput j) = asOfTime clock (normalizeInput i) :=
    h.asOf_eq hclock (·.asOf)
  rw [resolveContext, resolveContext, h.groups_eq horder, h.globalAdmittedNodes_eq hclock, h.admission_eq, ht]
  obtain ⟨-, -, -, -, rfl⟩ := h.exists_eq
  rfl

theorem Repositioned.groupResults_eq :
    groupResults rt clock' (normalizeInput j) = resolveGroups rt (resolveContext rt clock (normalizeInput i))
      (normalizeInput i).groups (anyFilterDefined (normalizeInput i)) j.policyRules := by
  rw [groupResults, h.resolveContext_eq hclock horder, h.groups_eq horder]
  obtain ⟨-, -, -, -, rfl⟩ := h.exists_eq
  rfl

theorem Repositioned.filterCountsOf_eq :
    filterCountsOf rt clock' (normalizeInput j) = filterCountsOf rt clock (normalizeInput i) := by
  rw [filterCountsOf, filterCountsOf, h.admission_eq, h.globalAdmittedNodes_eq hclock,
    h.groupResults_eq hclock horder]
  obtain ⟨-, -, -, -, rfl⟩ := h.exists_eq
  rfl

end

section

variable {rt : Runtime} {i j : ResolveInput}

theorem canonicalGroup_sources {input : ResolveInput} {g : NodeGroup} (hg : g ∈ (normalizeInput input).groups) :
    (canonicalGroup (normalizeInput input) g).sources = g.sources.map canonicalSource := by
  obtain ⟨g₀, -, rfl⟩ := mem_map.mp hg
  change List.map canonicalSource (if _ = [] then givenSources input g₀.id else _) = _
  by_cases hgv : input.groupSources.isSome = true
  · simp only [hgv, if_true, ite_self]
  · have hn : givenSources input g₀.id = [] := by
      rw [givenSources, Option.not_isSome_iff_eq_none.mp hgv]
      rfl
    simp only [hgv, Bool.false_eq_true, if_false, hn]
    split_ifs with he
    · rw [he]
    · rfl

theorem canonicalGroup_eq {input : ResolveInput} {g : NodeGroup} (hg : g ∈ (normalizeInput input).groups) :
    canonicalGroup (normalizeInput input) g =
      ⟨g.emptyFallbackPass, g.id, g.name, g.groupType, g.sources.map canonicalSource⟩ := by
  rw [← canonicalGroup_sources hg]
  rfl

theorem Repositioned.canonicalInput_eq (h : Repositioned i j) (horder : SameSourceOrder i j) {now now' : Time}
    (ht : (if (normalizeInput j).asOf.IsZero then now' else (normalizeInput j).asOf) =
      if (normalizeInput i).asOf.IsZero then now else (normalizeInput i).asOf) :
    canonicalInput rt (normalizeInput j) now' = canonicalInput rt (normalizeInput i) now := by
  have hgs : (normalizeInput j).groups.map (canonicalGroup (normalizeInput j)) =
      (normalizeInput i).groups.map (canonicalGroup (normalizeInput i)) := by
    have heq := h.groups_eq horder
    rw [heq]
    apply map_congr_left
    intro g hg
    rw [canonicalGroup_eq hg, canonicalGroup_eq (heq ▸ hg)]
  have hrl : stableSort (keyLess (·.position)) ((normalizeInput j).policyRules.map canonicalRule) =
      stableSort (keyLess (·.position)) ((normalizeInput i).policyRules.map canonicalRule) := by
    have hm (l : List PolicyRule) : (sortRules l).map canonicalRule =
        stableSort (keyLess (·.position)) (l.map canonicalRule) :=
      map_stableSort canonicalRule _ _ l fun _ _ _ _ => rfl
    rw [← hm, ← hm]
    exact congrArg (List.map canonicalRule) h.sortRules_eq
  have ha : stableSort (keyLess (·.position)) ((normalizeInput j).admissionRules.map canonicalAdmissionRule) =
      stableSort (keyLess (·.position)) ((normalizeInput i).admissionRules.map canonicalAdmissionRule) := by
    have hm (l : List AdmissionRule) : (stableSort (keyLess (·.position)) l).map canonicalAdmissionRule =
        stableSort (keyLess (·.position)) (l.map canonicalAdmissionRule) :=
      map_stableSort canonicalAdmissionRule _ _ l fun _ _ _ _ => rfl
    rw [← hm, ← hm]
    exact congrArg (List.map canonicalAdmissionRule) h.admissionRules.symm.stableSort_eq
  rw [canonicalInput, canonicalInput, hgs, hrl, ha, ht]
  obtain ⟨-, -, -, -, rfl⟩ := h.exists_eq
  rfl

theorem Repositioned.sameSourceOrder (h : Repositioned i j) {now now' : Time}
    (heq : canonicalInput rt (normalizeInput j) now' = canonicalInput rt (normalizeInput i) now) :
    SameSourceOrder i j := by
  have hgs : stableSort (keyLess (·.id)) ((normalizeInput j).groups.map (canonicalGroup (normalizeInput j))) =
      stableSort (keyLess (·.id)) ((normalizeInput i).groups.map (canonicalGroup (normalizeInput i))) :=
    congrArg (·.groups) heq
  -- both sides are projections of one sorted list of pairs
  let pairs := (normalizeInput i).groups.zip (normalizeInput j).groups
  let sorted := stableSort (keyLess fun p : NodeGroup × NodeGroup => p.1.id) pairs
  have hal := h.groups_normalized
  have hl := hal.length_eq
  have hpa (p : NodeGroup × NodeGroup) (hp : p ∈ pairs) : Resourced p.1 p.2 :=
    (List.forall₂_zip hal hp)
  have hf : pairs.map (·.1) = (normalizeInput i).groups := map_fst_zip hl.le
  have hs : pairs.map (·.2) = (normalizeInput j).groups := map_snd_zip hl.ge
  have hle : sorted.map (fun p => canonicalGroup (normalizeInput i) p.1) =
      stableSort (keyLess (·.id)) ((normalizeInput i).groups.map (canonicalGroup (normalizeInput i))) := by
    rw [← hf, map_map]
    exact map_stableSort _ _ _ _ fun _ _ _ _ => rfl
  have hr : sorted.map (fun p => canonicalGroup (normalizeInput j) p.2) =
      stableSort (keyLess (·.id)) ((normalizeInput j).groups.map (canonicalGroup (normalizeInput j))) := by
    rw [← hs, map_map]
    refine map_stableSort _ _ _ _ fun a ha b hb => ?_
    have hid (p : NodeGroup × NodeGroup) (hp : p ∈ pairs) : p.2.id = p.1.id := by rw [(hpa p hp).rest]
    change decide (a.1.id < b.1.id) = decide (a.2.id < b.2.id)
    rw [hid a ha, hid b hb]
  have hsa (p : NodeGroup × NodeGroup) (hp : p ∈ pairs) : p.1.sources = p.2.sources := by
    have hm := hle.trans (hgs.symm.trans hr.symm)
    have hp' := map_inj_left.mp hm p ((mem_stableSort _ _ _).mpr hp)
    have hm₁ : p.1 ∈ (normalizeInput i).groups := hf ▸ mem_map_of_mem hp
    have hm₂ : p.2 ∈ (normalizeInput j).groups := hs ▸ mem_map_of_mem hp
    have hsr := congrArg (·.sources) hp'
    rw [canonicalGroup_sources hm₁, canonicalGroup_sources hm₂] at hsr
    apply (hpa p hp).sources.eq_of_positions
    simpa [Function.comp_def, canonicalSource] using congrArg (List.map (·.position)) hsr
  rw [SameSourceOrder, ← hf, ← hs, map_map, map_map]
  exact map_congr_left hsa

end

end ClashSubParser
