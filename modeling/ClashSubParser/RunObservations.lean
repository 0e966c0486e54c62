import ClashSubParser.RunTargets
import ClashSubParser.RunnerTasks

/-! The observations of a run. Every pair of the plan is in one place at a time, so it gets one observation.
-/
namespace ClashSubParser

open List AssocTotals

def RunnerTask.pair (t : RunnerTask) : ProbePair := (t.node.logicalID, t.kind)

def RunObservation.pair (o : RunObservation) : ProbePair := (o.nodeLogicalID, o.kind)

/-- The share of a task that may still store an observation or have the meter know of it. -/
def liveShare (t : RunnerTask) : Multiset ProbePair := if t.phase = .returned then 0 else {t.pair}

def storedShare (t : RunnerTask) : Multiset ProbePair :=
  match t.phase with
  | .stored _ => {t.pair}
  | _ => 0

namespace RunnerState

variable (r : RunnerState)

def observedPairs : Multiset ProbePair := (r.observations.map RunObservation.pair : List ProbePair)

def plannedPairs : Multiset ProbePair := (r.plan.map pairOf : List ProbePair)

def livePairs : Multiset ProbePair := total liveShare r.tasks

def storedPairs : Multiset ProbePair := total storedShare r.tasks

/-- The pairs of the stages before the `n`-th: `done` are those the meter knows, `rest` those still to be
submitted. -/
structure Books (r : RunnerState) (n : ℕ) (rest : List (Node × ProbeKind)) (done : Multiset ProbePair) : Prop where
  seen : (r.seen : Multiset String) = done.map pairKey
  observed : r.observedPairs = done + r.storedPairs
  nodup : (done + r.livePairs + (rest.map pairOf : List ProbePair)).Nodup
  planned : ∀ p ∈ done + r.livePairs + (rest.map pairOf : List ProbePair),
    p ∈ r.plannedPairs ∧ p.2.stage.index < n

/-- Targets and kinds whose pairs differ. -/
structure Planned (nodes : List Node) (ks : List ProbeKind) : Prop where
  targets : (nodes.map Node.logicalID).Nodup
  kinds : ks.Nodup
  valid : ∀ k ∈ ks, k.isValid = true

variable {r r' : RunnerState} {n : ℕ} {rest : List (Node × ProbeKind)} {done : Multiset ProbePair}

theorem mem_plannedPairs {p : ProbePair} : p ∈ r.plannedPairs ↔ p.1 ∈ r.targets.map Node.logicalID ∧ p.2 ∈ r.kinds := by
  rw [plannedPairs, plan, map_pairOf_product, Multiset.mem_coe]
  exact mem_product

theorem Planned.nodup (h : Planned r.targets r.kinds) : r.plannedPairs.Nodup := by
  rw [plannedPairs, plan, map_pairOf_product, Multiset.coe_nodup]
  exact h.targets.product h.kinds

/-! ### The tasks in the books -/

section

variable {call : ℕ} {t : RunnerTask}

theorem liveShare_of_ne (h : t.phase ≠ .returned) : liveShare t = {t.pair} := if_neg h

theorem liveShare_returned : liveShare { t with phase := .returned } = 0 := if_pos rfl

theorem Books.congr (h : r.Books n rest done) (hs : r'.seen = r.seen)
    (ho : r'.observations = r.observations)
    (ht : r'.targets = r.targets) (hks : r'.kinds = r.kinds) (hl : r'.livePairs = r.livePairs)
    (hst : r'.storedPairs = r.storedPairs) : r'.Books n rest done := by
  have hob : r'.observedPairs = r.observedPairs := by rw [observedPairs, ho, observedPairs]
  have hp : r'.plannedPairs = r.plannedPairs := by rw [plannedPairs, plan, ht, hks, plannedPairs, plan]
  refine ⟨hs ▸ h.seen, ?_, ?_, ?_⟩
  · rw [hob, hst]
    exact h.observed
  · rw [hl]
    exact h.nodup
  · rw [hl, hp]
    exact h.planned

theorem Books.drop_rest (h : r.Books n rest done) : r.Books n [] done := by
  have hle : done + r.livePairs + ([] : List (Node × ProbeKind)).map pairOf ≤
      done + r.livePairs + (rest.map pairOf : List ProbePair) := by
    rw [map_nil, Multiset.coe_nil, add_zero]
    exact Multiset.le_add_right _ _
  exact ⟨h.seen, h.observed, Multiset.nodup_of_le hle h.nodup, fun p hp => h.planned p (Multiset.mem_of_le hle hp)⟩

theorem livePairs_setPhase (ht : r.tasks.lookup call = some t) (phase : TaskPhase) :
    (r.setPhase call t phase).livePairs + liveShare t = r.livePairs + liveShare { t with phase := phase } :=
  total_replace ht _

theorem storedPairs_setPhase (ht : r.tasks.lookup call = some t) (phase : TaskPhase) :
    (r.setPhase call t phase).storedPairs + storedShare t = r.storedPairs + storedShare { t with phase := phase } :=
  total_replace ht _

section

variable (h : r.Books n rest done)
include h

theorem Books.advances (ht : r.tasks.lookup call = some t) {phase : TaskPhase}
    (hb : t.phase ≠ .returned) (ha : phase ≠ .returned) (hs : storedShare t = 0)
    (hs' : storedShare { t with phase := phase } = 0) : (r.setPhase call t phase).Books n rest done := by
  refine h.congr rfl rfl rfl rfl ?_ ?_
  · have hl := livePairs_setPhase ht phase
    rw [liveShare_of_ne hb, liveShare_of_ne (t := { t with phase := phase }) ha] at hl
    exact add_right_cancel hl
  · have hsh := storedPairs_setPhase ht phase
    rw [hs, hs', add_zero, add_zero] at hsh
    exact hsh

theorem Books.returns (ht : r.tasks.lookup call = some t) (hb : t.phase ≠ .returned)
    (hs : storedShare t = 0) : (r.setPhase call t .returned).Books n rest done := by
  have hl := livePairs_setPhase ht .returned
  rw [liveShare_of_ne hb, liveShare_returned, add_zero] at hl
  have hsh := storedPairs_setPhase ht .returned
  have haf : storedShare { t with phase := .returned } = 0 := rfl
  rw [hs, haf, add_zero, add_zero] at hsh
  have hle : (r.setPhase call t .returned).livePairs ≤ r.livePairs := by
    rw [← hl]
    exact Multiset.le_add_right _ _
  have ha : done + (r.setPhase call t .returned).livePairs + (rest.map pairOf : List ProbePair) ≤
      done + r.livePairs + (rest.map pairOf : List ProbePair) :=
    add_le_add (add_le_add le_rfl hle) le_rfl
  refine ⟨h.seen, ?_, Multiset.nodup_of_le ha h.nodup, fun p hp => h.planned p (Multiset.mem_of_le ha hp)⟩
  rw [hsh]
  exact h.observed

theorem Books.stores (ht : r.tasks.lookup call = some t) {o : ProbeOutcome} (hph : t.phase = .probed o) :
    ({ r with observations := r.observations ++ [r.observe t o] }.setPhase call t (.stored o)).Books n rest done := by
  have hl := livePairs_setPhase ht (.stored o)
  rw [liveShare_of_ne (by simp [hph]), liveShare_of_ne (t := { t with phase := .stored o }) (by simp)] at hl
  have hsh := storedPairs_setPhase ht (.stored o)
  have hb : storedShare t = 0 := by rw [storedShare, hph]
  rw [hb, add_zero] at hsh
  have hk : (r.setPhase call t (.stored o)).livePairs = r.livePairs := add_right_cancel hl
  refine ⟨h.seen, ?_, ?_, ?_⟩
  · change (((r.observations ++ [r.observe t o]).map RunObservation.pair : List ProbePair) : Multiset ProbePair) =
      done + (r.setPhase call t (.stored o)).storedPairs
    rw [hsh, ← add_assoc, ← h.observed, map_append, ← Multiset.coe_add]
    rfl
  · change (done + (r.setPhase call t (.stored o)).livePairs + _).Nodup
    rw [hk]
    exact h.nodup
  · change ∀ p ∈ done + (r.setPhase call t (.stored o)).livePairs + _, p ∈ r.plannedPairs ∧ _
    rw [hk]
    exact h.planned

theorem Books.marks (ht : r.tasks.lookup call = some t) {o : ProbeOutcome} (hph : t.phase = .stored o) :
    ((r.mark t o).setPhase call t .returned).Books n rest (done + {t.pair}) := by
  have hl := livePairs_setPhase ht .returned
  rw [liveShare_of_ne (by simp [hph]), liveShare_returned, add_zero] at hl
  have hsh := storedPairs_setPhase ht .returned
  have hb : storedShare t = {t.pair} := by rw [storedShare, hph]
  have haf : storedShare { t with phase := .returned } = 0 := rfl
  rw [hb, haf, add_zero] at hsh
  have ha : done + {t.pair} + (r.setPhase call t .returned).livePairs + (rest.map pairOf : List ProbePair) =
      done + r.livePairs + (rest.map pairOf : List ProbePair) := by
    rw [← hl]
    abel
  refine ⟨?_, ?_, ?_, ?_⟩
  · change ((r.seen ++ [seenKey t.node.logicalID t.kind] : List String) : Multiset String) = _
    rw [← Multiset.coe_add, h.seen, Multiset.map_add, Multiset.map_singleton]
    rfl
  · change r.observedPairs = done + {t.pair} + (r.setPhase call t .returned).storedPairs
    rw [h.observed, ← hsh]
    abel
  · change (done + {t.pair} + (r.setPhase call t .returned).livePairs + _).Nodup
    rw [ha]
    exact h.nodup
  · change ∀ p ∈ done + {t.pair} + (r.setPhase call t .returned).livePairs + _, p ∈ r.plannedPairs ∧ _
    rw [ha]
    exact h.planned

end

theorem Books.submits {p : Node × ProbeKind} (h : r.Books n (p :: rest) done) (hn : r.tasks.lookup call = none)
    (hs : r'.seen = r.seen) (ho : r'.observations = r.observations) (ht : r'.targets = r.targets)
    (hks : r'.kinds = r.kinds) (hts : r'.tasks = r.tasks.insert call ⟨p.1, p.2, .submitted⟩) :
    r'.Books n rest done := by
  have hob : r'.observedPairs = r.observedPairs := by rw [observedPairs, ho, observedPairs]
  have hp : r'.plannedPairs = r.plannedPairs := by rw [plannedPairs, plan, ht, hks, plannedPairs, plan]
  have hl : r'.livePairs = {pairOf p} + r.livePairs := by
    rw [livePairs, hts, total_insert_new hn]
    rfl
  have hst : r'.storedPairs = r.storedPairs := by
    rw [storedPairs, hts, total_insert_new hn]
    exact zero_add _
  have ha : done + r'.livePairs + (rest.map pairOf : List ProbePair) =
      done + r.livePairs + ((p :: rest).map pairOf : List ProbePair) := by
    rw [hl, map_cons, ← Multiset.cons_coe, ← Multiset.singleton_add]
    abel
  refine ⟨hs ▸ h.seen, ?_, ?_, ?_⟩
  · rw [hob, hst]
    exact h.observed
  · rw [ha]
    exact h.nodup
  · rw [ha, hp]
    exact h.planned

end

/-! ### From stage to stage -/

section

theorem stagePairs_eq (stage : ProbeStage) (hks : r.stageKinds stage ≠ []) :
    ∃ (nodes : List Node) (kinds : List ProbeKind), r.stagePairs stage = nodes ×ˢ kinds ∧ nodes.Sublist r.targets ∧
      (r.kinds.Nodup → kinds.Nodup) ∧ ∀ k ∈ kinds, k ∈ r.kinds ∧ k.stage = stage := by
  have hl : (r.stageKinds stage).Sublist r.kinds := filter_sublist
  have he : r.eligibleNodes.Sublist r.targets := by
    rw [eligibleNodes]
    split_ifs
    · exact List.Sublist.refl _
    · exact filter_sublist
  have hm {k : ProbeKind} (hk : k ∈ r.stageKinds stage) : k ∈ r.kinds ∧ k.stage = stage := by
    have hk' := mem_filter.mp hk
    exact ⟨hk'.1, of_decide_eq_true hk'.2⟩
  cases stage with
  | alive =>
    -- the loop of the first stage is over the nodes only
    refine ⟨r.targets, [.baseline], ?_, List.Sublist.refl _, fun _ => nodup_singleton _, ?_⟩
    · rw [stagePairs]
      induction r.targets with
      | nil => rfl
      | cons node nodes ih =>
        rw [map_cons, product_cons, ih]
        rfl
    · intro k hk
      rw [mem_singleton.mp hk]
      obtain ⟨k', hk'⟩ := exists_mem_of_ne_nil _ hks
      obtain ⟨hm', hs⟩ := hm hk'
      have hb : k' = .baseline := by
        cases k' <;> first | rfl | contradiction
      exact ⟨hb ▸ hm', rfl⟩
  | media => exact ⟨r.eligibleNodes, r.stageKinds .media, rfl, he, fun h => h.sublist hl, fun k hk => hm hk⟩
  | speed => exact ⟨r.eligibleNodes, r.stageKinds .speed, rfl, he, fun h => h.sublist hl, fun k hk => hm hk⟩

theorem Books.starts (h : r.Books n [] done) (hpl : Planned r.targets r.kinds) {stage : ProbeStage}
    (hne : n ≤ stage.index) (hks : r.stageKinds stage ≠ []) :
    (r.startStage stage).Books (stage.index + 1) (r.stagePairs stage) done := by
  obtain ⟨nodes, kinds, hpa, hns, hnd, hm⟩ := stagePairs_eq stage hks
  have hi : (nodes.map Node.logicalID).Sublist (r.targets.map Node.logicalID) := hns.map _
  have hn {p : ProbePair} (hp : p ∈ (r.stagePairs stage).map pairOf) : p ∈ r.plannedPairs ∧ p.2.stage = stage := by
    rw [hpa, map_pairOf_product] at hp
    obtain ⟨hid, hk⟩ := mem_product.mp hp
    exact ⟨mem_plannedPairs.mpr ⟨hi.subset hid, (hm _ hk).1⟩, (hm _ hk).2⟩
  have ho {p : ProbePair} (hp : p ∈ done + r.livePairs) : p ∈ r.plannedPairs ∧ p.2.stage.index < n :=
    h.planned p (Multiset.mem_add.mpr (Or.inl hp))
  refine ⟨h.seen, h.observed, ?_, ?_⟩
  · have hb := h.nodup
    rw [map_nil, Multiset.coe_nil, add_zero] at hb
    rw [Multiset.nodup_add]
    refine ⟨hb, ?_, ?_⟩
    · rw [Multiset.coe_nodup, hpa, map_pairOf_product]
      exact (hpl.targets.sublist hi).product (hnd hpl.kinds)
    · rw [Multiset.disjoint_left]
      intro p hp hp'
      have hlt := (ho hp).2
      rw [(hn hp').2] at hlt
      omega
  · intro p hp
    rcases Multiset.mem_add.mp hp with hp | hp
    · have hlt := (ho hp).2
      exact ⟨(ho hp).1, by omega⟩
    · rw [(hn hp).2]
      exact ⟨(hn hp).1, Nat.lt_succ_self _⟩

/-- What is observed, and what the final pass still has to record, is the plan. -/
theorem Books.finishes (h : r.Books n rest done) (hpl : Planned r.targets r.kinds) (hst : r.storedPairs = 0) :
    r.observedPairs + (((r.plan.filter fun p => seenKey p.1.logicalID p.2 ∉ r.seen).map pairOf : List ProbePair) :
      Multiset ProbePair) = r.plannedPairs := by
  have hnd := h.nodup
  rw [add_assoc, Multiset.nodup_add] at hnd
  have hd {p : ProbePair} (hp : p ∈ done) : p ∈ r.plannedPairs := by
    refine (h.planned p ?_).1
    rw [add_assoc]
    exact Multiset.mem_add.mpr (Or.inl hp)
  have hv {p : ProbePair} (hp : p ∈ r.plannedPairs) : p.2.isValid = true :=
    hpl.valid p.2 (mem_plannedPairs.mp hp).2
  -- the key of a planned pair is in `seen` only for the pair itself
  have hs {p : ProbePair} (hp : p ∈ r.plannedPairs) : pairKey p ∈ r.seen ↔ p ∈ done := by
    rw [← Multiset.mem_coe, h.seen, Multiset.mem_map]
    constructor
    · intro ⟨q, hq, hke⟩
      have hsa := pairKey_injective (hv (hd hq)) (hv hp) hke
      exact hsa ▸ hq
    · exact fun hp' => ⟨p, hp', rfl⟩
  have hr : (((r.plan.filter fun p => seenKey p.1.logicalID p.2 ∉ r.seen).map pairOf : List ProbePair) :
      Multiset ProbePair) = r.plannedPairs.filter fun p => p ∉ done := by
    have hm : (r.plan.filter fun p => seenKey p.1.logicalID p.2 ∉ r.seen).map pairOf =
        (r.plan.map pairOf).filter fun p => pairKey p ∉ r.seen := by
      rw [filter_map]
      rfl
    rw [hm, ← Multiset.filter_coe]
    apply Multiset.filter_congr
    intro p hp
    rw [not_iff_not]
    exact hs hp
  have hk : r.plannedPairs.filter (fun p => p ∈ done) = done := by
    rw [Multiset.Nodup.ext (hpl.nodup.filter _) hnd.1]
    intro p
    rw [Multiset.mem_filter]
    exact ⟨fun hp => hp.2, fun hp => ⟨hd hp, hp⟩⟩
  rw [h.observed, hst, add_zero, hr]
  nth_rewrite 1 [← hk]
  exact Multiset.filter_add_not _ _

end

end RunnerState

end ClashSubParser
