import Mathlib.Algebra.Order.BigOperators.Group.List
import Mathlib.Data.List.AList

/-! Finite maps with what their values add up to: a write exchanges the share of one key. -/
namespace AssocTotals

open List

/-- A finite map. Its entries stand in some order, which no result depends on. -/
abbrev FiniteMap (κ ν : Type) := AList fun _ : κ => ν

variable {κ ν M : Type}

def keep (p : ν → Bool) (m : FiniteMap κ ν) : FiniteMap κ ν :=
  ⟨m.entries.filter fun e => p e.2, m.nodupKeys.sublist filter_sublist⟩

section

variable [DecidableEq κ]

theorem mem_entries {m : FiniteMap κ ν} {k : κ} {v : ν} : ⟨k, v⟩ ∈ m.entries ↔ m.lookup k = some v :=
  AList.mem_lookup_iff.symm

theorem lookup_keep (p : ν → Bool) (m : FiniteMap κ ν) (k : κ) : (keep p m).lookup k = (m.lookup k).filter p := by
  apply Option.ext
  intro v
  rw [Option.filter_eq_some_iff]
  have hl := @mem_entries κ ν _ (keep p m) k v
  have hr := @mem_entries κ ν _ m k v
  rw [← hl, ← hr]
  exact mem_filter

section

variable {m : FiniteMap κ ν} {P : κ → ν → Prop} {k : κ} {v : ν}

variable (h : ∀ k' v', m.lookup k' = some v' → P k' v')
include h

theorem forall_insert (hn : P k v) : ∀ k' v', (m.insert k v).lookup k' = some v' → P k' v' := by
  intro k' v' hlk
  by_cases hk : k' = k
  · subst hk
    rw [AList.lookup_insert] at hlk
    exact Option.some.inj hlk ▸ hn
  · rw [AList.lookup_insert_ne hk] at hlk
    exact h k' v' hlk

theorem forall_erase (k : κ) : ∀ k' v', (m.erase k).lookup k' = some v' → P k' v' := by
  intro k' v' hlk
  have hk : k' ≠ k := by
    rintro rfl
    rw [AList.lookup_erase] at hlk
    contradiction
  rw [AList.lookup_erase_ne hk] at hlk
  exact h k' v' hlk

end

end

section

variable [AddCommMonoid M] (f : ν → M) (m : FiniteMap κ ν)

def total : M := (m.entries.map fun e => f e.2).sum

theorem total_perm {m m' : FiniteMap κ ν} (h : m.entries.Perm m'.entries) : total f m = total f m' :=
  (h.map _).sum_eq

theorem total_le_total [PartialOrder M] [IsOrderedAddMonoid M] {f g : ν → M} (h : ∀ v, f v ≤ g v)
    (m : FiniteMap κ ν) : total f m ≤ total g m :=
  sum_le_sum fun e _ => h e.2

variable [DecidableEq κ]

theorem total_eq_erase (k : κ) : total f m = (m.lookup k).elim 0 f + total f (m.erase k) := by
  obtain ⟨entries, hnd⟩ := m
  change (entries.map fun e => f e.2).sum = (entries.dlookup k).elim 0 f + ((entries.kerase k).map fun e => f e.2).sum
  clear hnd
  induction entries with
  | nil => simp
  | cons e entries ih =>
    by_cases hk : k = e.1
    · subst hk
      rw [kerase_cons_eq rfl, dlookup_cons_eq]
      simp
    · rw [kerase_cons_ne hk, dlookup_cons_ne _ _ hk, map_cons, map_cons, sum_cons, sum_cons, ih, add_left_comm]

theorem total_insert (k : κ) (v : ν) : total f (m.insert k v) = f v + total f (m.erase k) := by
  rfl

theorem total_eq_zero {m : FiniteMap κ ν} (h : ∀ k v, m.lookup k = some v → f v = 0) : total f m = 0 := by
  apply sum_eq_zero
  intro x hx
  obtain ⟨e, he, rfl⟩ := mem_map.mp hx
  exact h e.1 e.2 (mem_entries.mp he)

/-- A write puts the new share in the place of the old one. -/
theorem total_exchange (k : κ) (v : ν) :
    total f (m.insert k v) + (m.lookup k).elim 0 f = total f m + f v := by
  rw [total_insert, total_eq_erase f m k, add_right_comm, add_comm (f v), add_right_comm, add_right_comm]

variable {f} {m : FiniteMap κ ν} {k : κ} {v v' : ν}

theorem total_insert_new (h : m.lookup k = none) (v : ν) : total f (m.insert k v) = f v + total f m := by
  rw [total_insert, total_eq_erase f m k, h, Option.elim_none, zero_add]

theorem total_erase (h : m.lookup k = some v) : total f m = f v + total f (m.erase k) := by
  rw [total_eq_erase f m k, h, Option.elim_some]

theorem total_replace (h : m.lookup k = some v) (v' : ν) : total f (m.insert k v') + f v = total f m + f v' := by
  have he := total_exchange f m k v'
  rwa [h, Option.elim_some] at he

end

end AssocTotals
