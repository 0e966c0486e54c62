import ClashSubParser.ResolveMembers
import ClashSubParser.RunTargets
import ClashSubParser.SweepPlan

/-! The plan of a sweep: its selection keeps to the quota, and its runs cover the selection. -/
namespace ClashSubParser

open List StableSort SweepCandidate

def SweepCandidate.tasks (cand : SweepCandidate) : List (Node × ProbeKind) :=
  cand.expiredKinds.map (Prod.mk cand.node)

def RunChunk.tasks (chunk : RunChunk) : List (Node × ProbeKind) := chunk.nodes ×ˢ chunk.kinds

section

variable {α : Type}

theorem flatMap_range_take_drop (l : List α) (size n : ℕ) :
    (List.range n).flatMap (fun i => (l.drop (i * size)).take size) = l.take (n * size) := by
  induction n with
  | zero => rw [range_zero, flatMap_nil, Nat.zero_mul, take_zero]
  | succ n ih => rw [range_succ, flatMap_append, ih, flatMap_singleton, Nat.succ_mul, take_add]

/-- Taken group by group, the elements of a list come in another order. -/
theorem perm_flatMap_filter (key : α → String) : ∀ {keys : List String} {l : List α}, keys.Nodup →
    (∀ a ∈ l, key a ∈ keys) → (keys.flatMap fun k => l.filter (key · = k)).Perm l := by
  intro keys
  induction keys with
  | nil =>
    intro l _ hm
    rw [eq_nil_iff_forall_not_mem.mpr fun a ha => not_mem_nil (hm a ha), flatMap_nil]
  | cons k keys ih =>
    intro l hnd hm
    obtain ⟨hk, hnd⟩ := nodup_cons.mp hnd
    have hr : keys.flatMap (fun k' => l.filter (key · = k')) =
        keys.flatMap fun k' => (l.filter fun a => !decide (key a = k)).filter (key · = k') := by
      apply flatMap_congr
      intro k' hk'
      rw [filter_filter]
      apply filter_congr
      intro a _
      have hne : k' ≠ k := fun h => hk (h ▸ hk')
      by_cases ha : key a = k'
      · simp [ha, hne]
      · simp [ha]
    rw [flatMap_cons, hr]
    have hl := ih (l := l.filter fun a => !decide (key a = k)) hnd (by
      intro a ha
      obtain ⟨ha, hne⟩ := mem_filter.mp ha
      exact (mem_cons.mp (hm a ha)).resolve_left (by simpa using hne))
    exact (hl.append_left _).trans (filter_append_perm _ l)

end

/-! ### The selection -/

theorem visit_expiredKinds_sublist (now : Time) (interval cooldown : Int) (latest : Option LatestObservations)
    (n : Node) : ∀ (kinds : List ProbeKind) (scan : KindScan),
      (kinds.foldl (KindScan.visit now interval cooldown latest n) scan).expiredKinds.Sublist
        (scan.expiredKinds ++ kinds) := by
  intro kinds
  induction kinds with
  | nil =>
    intro scan
    rw [append_nil]
    exact Sublist.refl _
  | cons k rest ih =>
    intro scan
    have hs : (scan.visit now interval cooldown latest n k).expiredKinds.Sublist (scan.expiredKinds ++ [k]) := by
      unfold KindScan.visit
      split
      · exact Sublist.refl _
      · dsimp only
        split_ifs
        · exact sublist_append_left _ _
        · exact Sublist.refl _
        · exact sublist_append_left _ _
    rw [foldl_cons, append_cons]
    exact (ih _).trans (hs.append_right rest)

/-- The candidates in order, the last one perhaps with some of its kinds only. -/
def SelectsPrefix (order selected : List SweepCandidate) : Prop :=
  ∃ before later, order = before ++ later ∧ (selected = before ∨ ∃ cand rest kinds, later = cand :: rest ∧
    kinds ≠ [] ∧ kinds.Subperm cand.expiredKinds ∧ selected = before ++ [{ cand with expiredKinds := kinds }])

theorem selectCandidates_of_full {quota done : ℕ} (h : quota ≤ done) (order : List SweepCandidate) :
    selectCandidates quota done order = [] := by
  cases order with
  | nil => rfl
  | cons cand rest => rw [selectCandidates, if_pos h]

theorem selectCandidates_spec (quota : ℕ) : ∀ (order : List SweepCandidate) (done : ℕ), done ≤ quota →
    SelectsPrefix order (selectCandidates quota done order) ∧
      done + ((selectCandidates quota done order).flatMap tasks).length ≤ quota := by
  intro order
  induction order with
  | nil =>
    intro done hd
    exact ⟨⟨[], [], rfl, .inl rfl⟩, hd⟩
  | cons cand rest ih =>
    intro done hd
    by_cases hf : quota ≤ done
    · rw [selectCandidates_of_full hf]
      exact ⟨⟨[], cand :: rest, rfl, .inl rfl⟩, hd⟩
    · rw [selectCandidates, if_neg hf]
      by_cases hm : cand.expiredKinds.length > quota - done
      · -- the quota is used up by some of the kinds of this candidate
        have hso := stableSort_perm kindLess cand.expiredKinds
        have ht : ((stableSort kindLess cand.expiredKinds).take (quota - done)).length = quota - done := by
          rw [length_take, hso.length_eq]
          omega
        dsimp only
        rw [if_pos hm, ht, selectCandidates_of_full (by omega)]
        refine ⟨⟨[], cand :: rest, rfl, .inr ⟨cand, rest, _, rfl, ?_, ?_, rfl⟩⟩, ?_⟩
        · rw [← length_pos_iff, ht]
          omega
        · exact (take_sublist _ _).subperm.trans hso.subperm
        · rw [flatMap_singleton, tasks, length_map, ht]
          omega
      · dsimp only
        rw [if_neg hm]
        obtain ⟨⟨before, later, rfl, hs⟩, hq⟩ := ih (done + cand.expiredKinds.length) (by omega)
        refine ⟨⟨cand :: before, later, rfl, ?_⟩, ?_⟩
        · rcases hs with hs | ⟨last, rest', kinds, hl, hne, hks, hs⟩
          · exact .inl (congrArg (cand :: ·) hs)
          · exact .inr ⟨last, rest', kinds, hl, hne, hks, congrArg (cand :: ·) hs⟩
        · rw [flatMap_cons, length_append, tasks, length_map, ← Nat.add_assoc]
          exact hq

/-! ### The runs -/

theorem flatMap_cut (maxTasks : ℕ) (group : RunChunk) :
    (group.cut maxTasks).flatMap RunChunk.tasks = group.tasks := by
  obtain ⟨size, hs⟩ : ∃ size, size = max 1 (maxTasks / max 1 group.kinds.length) := ⟨_, rfl⟩
  have ha : group.nodes.length ≤ (group.nodes.length + size - 1) / size * size := by
    have := Nat.div_add_mod (group.nodes.length + size - 1) size
    have := Nat.mod_lt (group.nodes.length + size - 1) (show 0 < size by omega)
    rw [Nat.mul_comm]
    omega
  have hns := flatMap_range_take_drop group.nodes size ((group.nodes.length + size - 1) / size)
  rw [take_of_length_le ha] at hns
  rw [RunChunk.cut, ← hs, flatMap_map]
  change (List.range _).flatMap (fun i => ((group.nodes.drop (i * size)).take size).flatMap
    fun n => group.kinds.map (Prod.mk n)) = group.nodes.flatMap fun n => group.kinds.map (Prod.mk n)
  rw [← flatMap_assoc, hns]

theorem length_tasks_of_mem_cut {maxTasks : ℕ} {group chunk : RunChunk} (h : chunk ∈ group.cut maxTasks) :
    chunk.tasks.length ≤ max maxTasks chunk.kinds.length := by
  obtain ⟨i, -, rfl⟩ := mem_map.mp h
  rw [RunChunk.tasks, length_product]
  have hns := length_take_le (max 1 (maxTasks / max 1 group.kinds.length))
    (group.nodes.drop (i * max 1 (maxTasks / max 1 group.kinds.length)))
  refine (Nat.mul_le_mul_right _ hns).trans ?_
  rcases Nat.eq_zero_or_pos (maxTasks / max 1 group.kinds.length) with hz | hp
  · rw [hz, max_eq_left (Nat.zero_le 1), Nat.one_mul]
    exact le_max_right _ _
  · rw [max_eq_right hp]
    refine le_max_of_le_left ?_
    exact (Nat.mul_le_mul_left _ (le_max_right 1 _)).trans (Nat.div_mul_le_self _ _)

theorem comma_not_mem_text {k : ProbeKind} (hk : k.isValid = true) : ',' ∉ k.text.toList := by
  cases k with
  | other s h => contradiction
  | _ => decide

/-- What holds of the kinds of a candidate under a schedule that `Validate` accepts. -/
structure SweepCandidate.Sound (cand : SweepCandidate) : Prop where
  ne_nil : cand.expiredKinds ≠ []
  nodup : cand.expiredKinds.Nodup
  valid : ∀ k ∈ cand.expiredKinds, k.isValid = true

namespace SweepCandidate.Sound

variable {cand other : SweepCandidate}

theorem split_signature (h : cand.Sound) : cand.signature.toList.splitOn ',' =
    (sortStrings (cand.expiredKinds.map ProbeKind.text)).map String.toList := by
  rw [signature, Strings.join, String.toList_intercalate]
  apply splitOn_intercalate
  · intro l hl
    simp only [sortStrings, mem_map, mem_insertionSort] at hl
    obtain ⟨s, ⟨k, hk, rfl⟩, rfl⟩ := hl
    exact comma_not_mem_text (h.valid k hk)
  · rw [sortStrings, Ne, map_eq_nil_iff, ← length_eq_zero_iff, length_insertionSort, length_map, length_eq_zero_iff]
    exact h.ne_nil

theorem mem_of_signature_eq (h : cand.Sound) (ho : other.Sound) (hs : cand.signature = other.signature)
    {k : ProbeKind} (hk : k ∈ cand.expiredKinds) : k ∈ other.expiredKinds := by
  have ht : sortStrings (cand.expiredKinds.map ProbeKind.text) =
      sortStrings (other.expiredKinds.map ProbeKind.text) := by
    apply map_injective_iff.mpr fun _ _ => String.toList_inj.mp
    rw [← h.split_signature, ← ho.split_signature, hs]
  have hte : k.text ∈ sortStrings (other.expiredKinds.map ProbeKind.text) := by
    rw [← ht, sortStrings, mem_insertionSort]
    exact mem_map_of_mem hk
  rw [sortStrings, mem_insertionSort] at hte
  obtain ⟨k', hk', heq⟩ := mem_map.mp hte
  exact ProbeKind.text_injective heq ▸ hk'

theorem perm_of_signature_eq (h : cand.Sound) (ho : other.Sound) (hs : cand.signature = other.signature) :
    cand.expiredKinds.Perm other.expiredKinds :=
  (perm_ext_iff_of_nodup h.nodup ho.nodup).mpr fun _ =>
    ⟨h.mem_of_signature_eq ho hs, ho.mem_of_signature_eq h hs.symm⟩

end SweepCandidate.Sound

theorem perm_candidateGroups {selected : List SweepCandidate} (h : ∀ cand ∈ selected, cand.Sound) :
    ((candidateGroups selected).flatMap RunChunk.tasks).Perm (selected.flatMap tasks) := by
  have hke : ∀ cand ∈ selected, cand.signature ∈ sortedSet (selected.map signature) :=
    fun cand hc => (mem_sortedSet _ _).mpr (mem_map_of_mem hc)
  refine Perm.trans ?_ ((perm_flatMap_filter _ (sortedSet_nodup _) hke).flatMap_right _)
  rw [candidateGroups, filterMap_eq_flatMap_toList, flatMap_assoc, flatMap_assoc]
  refine Perm.flatMap_left _ fun key _ => ?_
  cases hfilter : selected.filter (fun cand => cand.signature = key) with
  | nil => exact Perm.refl _
  | cons first rest =>
    -- the candidates of a group have its kinds, each in its own order
    have hmb : ∀ cand ∈ first :: rest, cand.Sound ∧ cand.signature = key := by
      intro cand hc
      rw [← hfilter, mem_filter, decide_eq_true_eq] at hc
      exact ⟨h cand hc.1, hc.2⟩
    rw [Option.toList_some, flatMap_singleton]
    change ((first :: rest).map node).flatMap (fun n => first.expiredKinds.map (Prod.mk n)) ~ _
    rw [flatMap_map]
    refine Perm.flatMap_left _ fun cand hc => ?_
    obtain ⟨hsd, hk⟩ := hmb first mem_cons_self
    obtain ⟨hs', hk'⟩ := hmb cand hc
    exact (hsd.perm_of_signature_eq hs' (hk.trans hk'.symm)).map _

section

variable {order selected : List SweepCandidate}

theorem SelectsPrefix.map_node (h : SelectsPrefix order selected) :
    (selected.map node).Sublist (order.map node) := by
  obtain ⟨-, -, rfl, rfl | ⟨-, -, -, rfl, -, -, rfl⟩⟩ := h
  · rw [map_append]
    exact sublist_append_left _ _
  · rw [map_append, map_append]
    exact (singleton_sublist.mpr mem_cons_self).append_left _

theorem SelectsPrefix.sound (h : SelectsPrefix order selected) (ho : ∀ cand ∈ order, cand.Sound) :
    ∀ cand ∈ selected, cand.Sound := by
  obtain ⟨before, later, rfl, rfl | ⟨cand, rest, kinds, rfl, hne, hks, rfl⟩⟩ := h
  · exact fun cand hc => ho cand (mem_append_left later hc)
  · intro cand' hc'
    rcases mem_append.mp hc' with hb | hl
    · exact ho cand' (mem_append_left _ hb)
    · have hsd := ho cand (mem_append_right _ mem_cons_self)
      obtain ⟨kinds', hp, hs⟩ := hks
      rw [mem_singleton.mp hl]
      exact ⟨hne, hp.nodup_iff.mp (hsd.nodup.sublist hs),
        fun k hk => hsd.valid k (hs.subset (hp.mem_iff.mpr hk))⟩

theorem nodup_tasks (hns : (selected.map node).Nodup) (h : ∀ cand ∈ selected, cand.Sound) :
    (selected.flatMap tasks).Nodup := by
  refine nodup_flatMap.mpr ⟨fun cand hc => (h cand hc).nodup.map (Prod.mk_right_injective _), ?_⟩
  refine (pairwise_map.mp hns).imp fun hne p hp hp' => hne ?_
  obtain ⟨k, -, rfl⟩ := mem_map.mp hp
  obtain ⟨k', -, heq⟩ := mem_map.mp hp'
  exact (congrArg Prod.fst heq).symm

end

theorem sound_of_sweepCandidate {now : Time} {interval cooldown : Int} {latest : Option LatestObservations}
    {kinds : List ProbeKind} (hv : ∀ k ∈ kinds, k.isValid = true) (hks : kinds.Nodup) {n : Node}
    {cand : SweepCandidate} (h : sweepCandidate now interval cooldown latest kinds n = some cand) :
    cand.node = n ∧ cand.Sound := by
  have hs := visit_expiredKinds_sublist now interval cooldown latest n kinds {}
  rw [sweepCandidate] at h
  split_ifs at h with hn
  cases h
  exact ⟨rfl, hn, hks.sublist hs, fun k hk => hv k (hs.subset hk)⟩

/-- The candidates of a sweep by their priority. -/
def sweepOrder (c : Coordinator) (sched : ProbeSchedule) (now : Time) (latest : Option LatestObservations)
    (nodes : List Node) : List SweepCandidate :=
  stableSort SweepCandidate.less (nodes.filterMap
    (sweepCandidate now (Time.seconds sched.intervalSeconds) c.cooldown latest sched.configuredKinds))

/-- Under a schedule that `Validate` accepts, the plan of a sweep follows the order of the candidates up to its
quota, and its runs have every selected probe once. -/
theorem planSweep_covers (c : Coordinator) (sched : ProbeSchedule) (now : Time) (latest : Option LatestObservations)
    (nodes : List Node) (hvalid : ∀ k ∈ sched.kinds, k.isValid = true) (hkinds : sched.kinds.Nodup)
    (hnodes : (nodes.map Node.logicalID).Nodup) :
    let plan := planSweep c sched now latest nodes
    SelectsPrefix (sweepOrder c sched now latest nodes) plan.selected ∧
    (plan.selected.flatMap SweepCandidate.tasks).length ≤ c.quota ∧
    (plan.chunks.flatMap RunChunk.tasks).Perm (plan.selected.flatMap SweepCandidate.tasks) ∧
    (plan.chunks.flatMap RunChunk.tasks).Nodup ∧
    ∀ chunk ∈ plan.chunks, chunk.tasks.length ≤ max c.maxTasks chunk.kinds.length := by
  intro plan
  have hc : (∀ k ∈ sched.configuredKinds, k.isValid = true) ∧ sched.configuredKinds.Nodup := by
    rw [ProbeSchedule.configuredKinds]
    split_ifs
    · decide
    · exact ⟨hvalid, hkinds⟩
  have hso : (sweepOrder c sched now latest nodes).Perm _ := stableSort_perm less _
  obtain ⟨hs, hq⟩ := selectCandidates_spec c.quota (sweepOrder c sched now latest nodes) 0 (Nat.zero_le _)
  have hsd : ∀ cand ∈ plan.selected, cand.Sound := hs.sound fun cand hca => by
    obtain ⟨n, -, hn⟩ := mem_filterMap.mp (hso.mem_iff.mp hca)
    exact (sound_of_sweepCandidate hc.1 hc.2 hn).2
  have hnd : (plan.selected.map node).Nodup := by
    refine ((hso.map _).nodup_iff.mpr ?_).sublist hs.map_node
    rw [Nodup, pairwise_map, pairwise_filterMap]
    refine hnodes.of_map.imp fun hne cand h cand' h' heq => hne ?_
    rw [← (sound_of_sweepCandidate hc.1 hc.2 h).1, heq,
      (sound_of_sweepCandidate hc.1 hc.2 h').1]
  have hco : (plan.chunks.flatMap RunChunk.tasks).Perm (plan.selected.flatMap tasks) := by
    change ((candidateGroups plan.selected).flatMap _).flatMap _ ~ _
    rw [flatMap_assoc, flatMap_congr fun group _ => flatMap_cut c.maxTasks group]
    exact perm_candidateGroups hsd
  rw [Nat.zero_add] at hq
  refine ⟨hs, hq, hco, hco.nodup_iff.mpr (nodup_tasks hnd hsd), fun chunk hch => ?_⟩
  obtain ⟨group, -, hm⟩ := mem_flatMap.mp hch
  exact length_tasks_of_mem_cut hm

theorem planSweep_covers_two_nodes :
    let plan := planSweep { ownerID := "o", leaseDuration := 1, sweepQuota := 3 } ⟨60, [.geo, .baseline], 0⟩ 0 none
      [nodeHK, nodeUS]
    (plan.selected.flatMap SweepCandidate.tasks).length ≤ 3 ∧ (plan.chunks.flatMap RunChunk.tasks).Nodup := by
  obtain ⟨-, hq, -, hnd, -⟩ := planSweep_covers { ownerID := "o", leaseDuration := 1, sweepQuota := 3 }
    ⟨60, [.geo, .baseline], 0⟩ 0 none [nodeHK, nodeUS] (by decide) (by decide) (by decide)
  exact ⟨hq, hnd⟩

end ClashSubParser
