import ClashSubParser.ProbeScheduler
import Mathlib.Algebra.Order.Group.Multiset

/-! The queues of the scheduler: what a manual task does to a queue whose manual tasks stand at its front. -/
namespace ClashSubParser

open List AssocTotals

abbrev ProbeTask.IsManual (t : ProbeTask) : Prop := t.mode = .manualPreemptFront

def ManualFirst (q : List ProbeTask) : Prop := q.Pairwise fun t u => u.IsManual → t.IsManual

theorem manualFirst_append {p q : List ProbeTask} :
    ManualFirst (p ++ q) ↔ ManualFirst p ∧ ManualFirst q ∧ ∀ t ∈ p, ∀ u ∈ q, u.IsManual → t.IsManual :=
  pairwise_append

namespace ProbeScheduler

def promoted (t : ProbeTask) : ProbeTask := { t with mode := .manualPreemptFront }

variable (task : ProbeTask)

abbrev Replaced (t : ProbeTask) : Prop := t.logicalID = task.logicalID ∧ replaces task t = true

abbrev Promotes (t : ProbeTask) : Prop :=
  t.logicalID = task.logicalID ∧ replaces task t = false ∧ ¬t.IsManual

variable (q : List ProbeTask)

def promotedFront : List ProbeTask :=
  (q.filter fun t => t.IsManual ∧ ¬Replaced task t) ++ (q.filter fun t => Promotes task t).map promoted

def promotedBack : List ProbeTask :=
  q.filter fun t => ¬t.IsManual ∧ t.logicalID ≠ task.logicalID

def promotedQueue : List ProbeTask :=
  promotedFront task q ++ promotedBack task q

variable {task : ProbeTask} {q : List ProbeTask}

theorem isManual_promotedFront {t : ProbeTask} (h : t ∈ promotedFront task q) : t.IsManual := by
  rcases mem_append.mp h with h | h
  · exact (of_decide_eq_true (mem_filter.mp h).2).1
  · obtain ⟨u, -, rfl⟩ := mem_map.mp h
    rfl

theorem not_isManual_promotedBack {t : ProbeTask} (h : t ∈ promotedBack task q) : ¬t.IsManual :=
  (of_decide_eq_true (mem_filter.mp h).2).1

theorem manualLen_append {p : List ProbeTask} (hp : ∀ t ∈ p, t.IsManual) (hq : ∀ t ∈ q, ¬t.IsManual) :
    manualLen (p ++ q) = p.length := by
  have hta : q.takeWhile (fun t => decide t.IsManual) = [] := by
    cases q with
    | nil => rfl
    | cons t q => simp [hq t mem_cons_self]
  rw [manualLen, takeWhile_append_of_pos (fun t ht => decide_eq_true (hp t ht)), hta, append_nil]

theorem insertManual_append {p : List ProbeTask} (hp : ∀ t ∈ p, t.IsManual) (hq : ∀ t ∈ q, ¬t.IsManual) :
    insertManual task (p ++ q) = p ++ task :: q := by
  rw [insertManual, manualLen_append hp hq, take_left, drop_left]

theorem exists_split_of_manualFirst (h : ManualFirst q) :
    ∃ p r, q = p ++ r ∧ (∀ t ∈ p, t.IsManual) ∧ ∀ t ∈ r, ¬t.IsManual := by
  induction q with
  | nil => exact ⟨[], [], rfl, by simp, by simp⟩
  | cons t q ih =>
    obtain ⟨hh, hta⟩ := pairwise_cons.mp h
    by_cases ht : t.IsManual
    · obtain ⟨p, r, rfl, hp, hr⟩ := ih hta
      exact ⟨t :: p, r, rfl, forall_mem_cons.mpr ⟨ht, hp⟩, hr⟩
    · exact ⟨[], t :: q, rfl, by simp, forall_mem_cons.mpr ⟨ht, fun u hu hm => ht (hh u hu hm)⟩⟩

theorem manualFirst_insertManual (h : ManualFirst q) (hta : task.IsManual) : ManualFirst (insertManual task q) := by
  obtain ⟨p, r, rfl, hp, hr⟩ := exists_split_of_manualFirst h
  rw [insertManual_append hp hr, manualFirst_append]
  refine ⟨(manualFirst_append.mp h).1, ?_, fun t ht _ _ _ => hp t ht⟩
  exact pairwise_cons.mpr ⟨fun _ _ _ => hta, (manualFirst_append.mp h).2.1⟩

theorem manualFirst_concat (h : ManualFirst q) (ht : ¬task.IsManual) : ManualFirst (q ++ [task]) := by
  refine manualFirst_append.mpr ⟨h, pairwise_singleton _ task, fun t _ u hu hm => ?_⟩
  rw [mem_singleton.mp hu] at hm
  exact absurd hm ht

section

variable {task t : ProbeTask} {p r : List ProbeTask}

theorem promotedQueue_concat_replaced (h : Replaced task t) :
    promotedQueue task (p ++ [t]) = promotedQueue task p := by
  simp [promotedQueue, promotedFront, promotedBack, h]

theorem promotedQueue_concat_promotes (h : Promotes task t) :
    promotedQueue task (p ++ [t]) = promotedFront task p ++ promoted t :: promotedBack task p := by
  simp [promotedQueue, promotedFront, promotedBack, h]

theorem promotedQueue_concat_kept (hf : ManualFirst (p ++ [t])) (hre : ¬Replaced task t)
    (hpr : ¬Promotes task t) : promotedQueue task (p ++ [t]) = promotedQueue task p ++ [t] := by
  by_cases ht : t.IsManual
  · -- a manual task comes behind manual ones only
    have hp (u : ProbeTask) (hu : u ∈ p) : u.IsManual :=
      (manualFirst_append.mp hf).2.2 u hu t mem_cons_self ht
    have hb : promotedBack task p = [] := by
      rw [promotedBack, filter_eq_nil_iff]
      intro u hu
      simp [hp u hu]
    have hmv : p.filter (fun u => Promotes task u) = [] := by
      rw [filter_eq_nil_iff]
      intro u hu
      simp [hp u hu]
    have hk : decide (t.IsManual ∧ ¬Replaced task t) = true := decide_eq_true ⟨ht, hre⟩
    rw [promotedQueue, promotedQueue, promotedFront, promotedFront, hb, promotedBack, filter_append,
      filter_append, filter_append, hmv]
    rw [promotedBack] at hb
    rw [hb, filter_singleton, hk]
    simp [ht]
  · have hid : t.logicalID ≠ task.logicalID := by
      intro hid
      cases hr : replaces task t with
      | true => exact hre ⟨hid, hr⟩
      | false => exact hpr ⟨hid, hr, ht⟩
    simp [promotedQueue, promotedFront, promotedBack, ht, hid]

/-- The loop at the first task of `r`, after the tasks of `p` have been looked at. -/
theorem promoteLoop_eq (hf : ManualFirst (p ++ r)) {fuel : ℕ} (hfu : r.length ≤ fuel) :
    promoteLoop task fuel (promotedQueue task p ++ r) (promotedQueue task p).length =
      (promotedQueue task (p ++ r), r.filter fun t => Replaced task t) := by
  induction r generalizing p fuel with
  | nil =>
    cases fuel with
    | zero | succ fuel => simp [promoteLoop]
  | cons t r ih =>
    obtain ⟨fuel, rfl⟩ : ∃ n, fuel = n + 1 := Nat.exists_eq_succ_of_ne_zero (by simp at hfu; omega)
    have hl : r.length ≤ fuel := by simpa using hfu
    have ha : p ++ t :: r = p ++ [t] ++ r := by simp
    have hf' : ManualFirst (p ++ [t] ++ r) := ha ▸ hf
    have hc : ManualFirst (p ++ [t]) := (manualFirst_append.mp hf').1
    have hg : (promotedQueue task p ++ t :: r)[(promotedQueue task p).length]? = some t := by simp
    have he : (promotedQueue task p ++ t :: r).eraseIdx (promotedQueue task p).length =
        promotedQueue task p ++ r := by
      rw [eraseIdx_append_of_length_le le_rfl]
      simp
    have hn := ih hf' hl
    -- a task that stays is behind what was left of `p`
    have hk (hr : ¬Replaced task t) (hp : ¬Promotes task t) :
        promoteLoop task fuel (promotedQueue task p ++ t :: r) ((promotedQueue task p).length + 1) =
          (promotedQueue task (p ++ t :: r), (t :: r).filter fun t => Replaced task t) := by
      rw [promotedQueue_concat_kept hc hr hp] at hn
      rw [ha]
      simpa [hr] using hn
    rw [promoteLoop, hg]
    dsimp only
    by_cases hid : t.logicalID = task.logicalID
    · rw [if_neg (not_not.mpr hid)]
      cases hr : replaces task t with
      | true =>
        rw [promotedQueue_concat_replaced ⟨hid, hr⟩] at hn
        rw [if_pos rfl, he, hn, ha]
        simp [hid, hr]
      | false =>
        by_cases hm : t.IsManual
        · rw [if_neg (not_not.mpr hm)]
          exact hk (by simp [hr]) (by simp [hm])
        · have hp : Promotes task t := ⟨hid, hr, hm⟩
          have hre (u : ProbeTask) (hu : u ∈ promotedBack task p ++ r) : ¬u.IsManual := by
            rcases mem_append.mp hu with hu | hu
            · exact not_isManual_promotedBack hu
            · intro hu'
              exact hm ((manualFirst_append.mp hf').2.2 t (by simp) u hu hu')
          have hi : insertManual (promoted t) (promotedQueue task p ++ r) =
              promotedQueue task (p ++ [t]) ++ r := by
            rw [promotedQueue, append_assoc, insertManual_append (fun _ => isManual_promotedFront) hre,
              promotedQueue_concat_promotes hp]
            simp
          have hle : (promotedQueue task (p ++ [t])).length = (promotedQueue task p).length + 1 := by
            rw [promotedQueue_concat_promotes hp, promotedQueue]
            simp
            omega
          rw [hle] at hn
          rw [if_pos hm, he]
          change promoteLoop task fuel (insertManual (promoted t) (promotedQueue task p ++ r)) _ = _
          rw [hi, hn, ha]
          simp [hr]
    · rw [if_pos hid]
      exact hk (by simp [hid]) (by simp [hid])

theorem map_promotedQueue {β : Type} {f : ProbeTask → β} (hf : ∀ t, f (promoted t) = f t) (q : List ProbeTask) :
    (promotedQueue task q : Multiset ProbeTask).map f +
      ((q.filter fun t => Replaced task t : List ProbeTask) : Multiset ProbeTask).map f =
    (q : Multiset ProbeTask).map f := by
  have hc : f ∘ promoted = f := funext hf
  let m : Multiset ProbeTask := q
  let others := m.filter fun t => ¬Replaced task t
  let plain := others.filter fun t => ¬t.IsManual
  -- the tasks that stay are manual, or moved to the manual ones, or of another node
  have hma : others.filter (fun t => t.IsManual) = m.filter fun t => t.IsManual ∧ ¬Replaced task t :=
    Multiset.filter_filter _ _ m
  have hmv : plain.filter (fun t => t.logicalID = task.logicalID) = m.filter fun t => Promotes task t := by
    rw [Multiset.filter_filter, Multiset.filter_filter]
    apply Multiset.filter_congr
    intro t _
    constructor
    · rintro ⟨⟨hid, hm⟩, hr⟩
      exact ⟨hid, by simpa [hid] using hr, hm⟩
    · rintro ⟨hid, hr, hm⟩
      exact ⟨⟨hid, hm⟩, by simp [hr]⟩
  have hb : plain.filter (fun t => ¬t.logicalID = task.logicalID) =
      m.filter fun t => ¬t.IsManual ∧ t.logicalID ≠ task.logicalID := by
    rw [Multiset.filter_filter, Multiset.filter_filter]
    apply Multiset.filter_congr
    intro t _
    constructor
    · rintro ⟨⟨hid, hm⟩, -⟩
      exact ⟨hm, hid⟩
    · rintro ⟨hm, hid⟩
      exact ⟨⟨hid, hm⟩, fun hr => hid hr.1⟩
  have hs : m = (m.filter fun t => t.IsManual ∧ ¬Replaced task t) + ((m.filter fun t => Promotes task t) +
      (m.filter fun t => ¬t.IsManual ∧ t.logicalID ≠ task.logicalID)) + m.filter fun t => Replaced task t := by
    rw [← hma, ← hmv, ← hb, Multiset.filter_add_not, Multiset.filter_add_not, add_comm,
      Multiset.filter_add_not]
  have hl : (promotedQueue task q : Multiset ProbeTask).map f =
      (m.filter fun t => t.IsManual ∧ ¬Replaced task t).map f + (m.filter fun t => Promotes task t).map f +
        (m.filter fun t => ¬t.IsManual ∧ t.logicalID ≠ task.logicalID).map f := by
    rw [promotedQueue, promotedFront, promotedBack, ← Multiset.coe_add, ← Multiset.coe_add, ← Multiset.map_coe,
      Multiset.map_add, Multiset.map_add, Multiset.map_map, hc]
    rfl
  change _ + (m.filter fun t => Replaced task t).map f = m.map f
  conv_rhs => rw [hs]
  rw [hl, Multiset.map_add, Multiset.map_add, Multiset.map_add, add_assoc (Multiset.map f _)]

theorem exists_of_mem_promotedQueue {q : List ProbeTask} (h : t ∈ promotedQueue task q) :
    ∃ u ∈ q, (t = u ∨ t = promoted u) ∧ ¬Replaced task u := by
  rcases mem_append.mp h with h | h
  · rcases mem_append.mp h with h | h
    · obtain ⟨hm, hk⟩ := mem_filter.mp h
      exact ⟨t, hm, .inl rfl, (of_decide_eq_true hk).2⟩
    · obtain ⟨u, hu, rfl⟩ := mem_map.mp h
      obtain ⟨hm, hp⟩ := mem_filter.mp hu
      have hk : replaces task u = false := (of_decide_eq_true hp).2.1
      exact ⟨u, hm, .inr rfl, by simp [hk]⟩
  · obtain ⟨hm, ho⟩ := mem_filter.mp h
    exact ⟨t, hm, .inl rfl, fun hr => (of_decide_eq_true ho).2 hr.1⟩

theorem manualFirst_promotedQueue (task : ProbeTask) (q : List ProbeTask) : ManualFirst (promotedQueue task q) := by
  rw [promotedQueue, manualFirst_append]
  refine ⟨?_, ?_, ?_⟩
  · exact pairwise_of_forall_mem_list fun t ht u _ _ => isManual_promotedFront ht
  · exact pairwise_of_forall_mem_list fun t _ u hu hm => absurd hm (not_isManual_promotedBack hu)
  · exact fun t ht u _ _ => isManual_promotedFront ht

end

end ProbeScheduler

end ClashSubParser
