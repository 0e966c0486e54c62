import Mathlib.Data.List.Nodup

/-! Tables with a primary key: the rows have distinct keys by construction. -/
namespace KeyedTable

open List

structure Table {α κ : Type} (key : α → κ) where
  rows : List α
  nodup : (rows.map key).Nodup

namespace Table

variable {α κ : Type} {key : α → κ}

def empty : Table key := ⟨[], nodup_nil⟩

variable (t : Table key)

def keys : List κ := t.rows.map key

def insert (r : α) (h : key r ∉ t.keys) : Table key where
  rows := t.rows ++ [r]
  nodup := by
    rw [map_append, map_singleton, nodup_append_comm]
    exact nodup_cons.mpr ⟨h, t.nodup⟩

def deleteWhere (p : α → Bool) : Table key where
  rows := t.rows.filter (fun r => !p r)
  nodup := t.nodup.sublist (filter_sublist.map key)

@[simp] theorem rows_empty : (empty : Table key).rows = [] := rfl

@[simp] theorem rows_insert (r : α) (h : key r ∉ t.keys) : (t.insert r h).rows = t.rows ++ [r] := rfl

@[simp] theorem rows_deleteWhere (p : α → Bool) :
    (t.deleteWhere p).rows = t.rows.filter (fun r => !p r) := rfl

theorem mem_keys {t : Table key} {k : κ} : k ∈ t.keys ↔ ∃ r ∈ t.rows, key r = k := mem_map

theorem mem_deleteWhere {t : Table key} {p : α → Bool} {x : α} :
    x ∈ (t.deleteWhere p).rows ↔ x ∈ t.rows ∧ p x = false := by
  rw [rows_deleteWhere, mem_filter, Bool.not_eq_true']

section

variable [DecidableEq κ]

def get? (t : Table key) (k : κ) : Option α := t.rows.find? (fun r => key r = k)

def update (t : Table key) (r : α) : Table key where
  rows := t.rows.map (fun r' => if key r' = key r then r else r')
  nodup := by
    have hkeys : (t.rows.map (fun r' => if key r' = key r then r else r')).map key = t.rows.map key := by
      rw [map_map]
      apply map_congr_left
      intro r' _
      rw [Function.comp_apply]
      split_ifs with h
      · exact h.symm
      · rfl
    rw [hkeys]
    exact t.nodup

def put (t : Table key) (r : α) : Table key :=
  if h : key r ∈ t.keys then t.update r else t.insert r h

variable {t : Table key} {β : Type} {r : α} {k : κ}

theorem find?_key : ∀ {rows : List α}, (rows.map key).Nodup →
    (rows.find? (fun r => key r = k) = some r ↔ r ∈ rows ∧ key r = k) := by
  intro rows
  induction rows with
  | nil => simp
  | cons a rows ih =>
    intro hnd
    rw [map_cons, nodup_cons] at hnd
    rw [find?_cons, mem_cons]
    by_cases ha : key a = k
    · -- no later row has this key
      have hre : r ∈ rows → key r ≠ k := by
        rintro hr rfl
        exact hnd.1 (ha ▸ mem_map_of_mem hr)
      rw [decide_eq_true ha]
      constructor
      · intro h
        cases h
        exact ⟨.inl rfl, ha⟩
      · rintro ⟨rfl | hr, hk⟩
        · rfl
        · exact absurd hk (hre hr)
    · rw [decide_eq_false ha]
      rw [ih hnd.2]
      constructor
      · exact fun h => ⟨.inr h.1, h.2⟩
      · rintro ⟨rfl | hr, hk⟩
        · exact absurd hk ha
        · exact ⟨hr, hk⟩

theorem get?_eq_some : t.get? k = some r ↔ r ∈ t.rows ∧ key r = k :=
  find?_key t.nodup

theorem get?_eq_none : t.get? k = none ↔ k ∉ t.keys := by
  rw [get?, find?_eq_none, mem_keys]
  simp

theorem mem_update {x : α} : x ∈ (t.update r).rows ↔ (x ∈ t.rows ∧ key x ≠ key r) ∨ (x = r ∧ key r ∈ t.keys) := by
  change x ∈ t.rows.map _ ↔ _
  rw [mem_map, mem_keys]
  constructor
  · rintro ⟨y, hy, rfl⟩
    split_ifs with h
    · exact .inr ⟨rfl, y, hy, h⟩
    · exact .inl ⟨hy, h⟩
  · rintro (⟨hx, hne⟩ | ⟨rfl, y, hy, hk⟩)
    · exact ⟨x, hx, if_neg hne⟩
    · exact ⟨y, hy, if_pos hk⟩

theorem mem_put {x : α} : x ∈ (t.put r).rows ↔ (x ∈ t.rows ∧ key x ≠ key r) ∨ x = r := by
  unfold put
  split_ifs with h
  · rw [mem_update]
    simp only [h, and_true]
  · rw [rows_insert, mem_append, mem_singleton]
    constructor
    · rintro (hx | rfl)
      · exact .inl ⟨hx, fun hk => h (mem_keys.mpr ⟨x, hx, hk⟩)⟩
      · exact .inr rfl
    · rintro (⟨hx, -⟩ | rfl)
      · exact .inl hx
      · exact .inr rfl

theorem mem_keys_put : k ∈ (t.put r).keys ↔ k ∈ t.keys ∨ k = key r := by
  simp only [mem_keys, mem_put]
  constructor
  · rintro ⟨x, ⟨hx, -⟩ | rfl, rfl⟩
    · exact .inl ⟨x, hx, rfl⟩
    · exact .inr rfl
  · rintro (⟨x, hx, rfl⟩ | rfl)
    · by_cases h : key x = key r
      · exact ⟨r, .inr rfl, h.symm⟩
      · exact ⟨x, .inl ⟨hx, h⟩, rfl⟩
    · exact ⟨r, .inr rfl, rfl⟩

theorem get?_insert_self (t : Table key) (r : α) (h : key r ∉ t.keys) : (t.insert r h).get? (key r) = some r := by
  refine get?_eq_some.mpr ⟨?_, rfl⟩
  exact mem_append_right _ (mem_singleton_self r)

theorem get?_insert_of_ne (t : Table key) (r : α) (h : key r ∉ t.keys) (hk : k ≠ key r) :
    (t.insert r h).get? k = t.get? k := by
  apply Option.ext
  intro x
  rw [get?_eq_some, get?_eq_some, rows_insert, mem_append, mem_singleton]
  refine and_congr_left fun hke => or_iff_left fun heq => hk ?_
  rw [← hke, heq]

theorem get?_put_self (t : Table key) (r : α) : (t.put r).get? (key r) = some r :=
  get?_eq_some.mpr ⟨mem_put.mpr (Or.inr rfl), rfl⟩

theorem get?_put_of_ne (t : Table key) (r : α) (h : k ≠ key r) : (t.put r).get? k = t.get? k := by
  apply Option.ext
  intro x
  rw [get?_eq_some, get?_eq_some, mem_put]
  constructor
  · rintro ⟨⟨hx, -⟩ | rfl, hk⟩
    · exact ⟨hx, hk⟩
    · exact absurd hk.symm h
  · rintro ⟨hx, rfl⟩
    exact ⟨.inl ⟨hx, h⟩, rfl⟩

variable (column : α → β)

/-- What a statement that overwrites the row of `k` does to a column. -/
theorem map_get?_put (t : Table key) (hk : key r = k) : (fun k' => ((t.put r).get? k').map column) =
      Function.update (fun k' => (t.get? k').map column) k (some (column r)) := by
  ext1 k'
  by_cases h : k' = k
  · rw [h, Function.update_self, ← hk, t.get?_put_self r]
    rfl
  · rw [Function.update_of_ne h, t.get?_put_of_ne r (hk.symm ▸ h)]

theorem map_get?_put_of_eq (t : Table key) {r' : α} (hr : t.get? k = some r)
    (hk : key r' = key r) (hc : column r' = column r) :
    (fun k' => ((t.put r').get? k').map column) = fun k' => (t.get? k').map column := by
  rw [t.map_get?_put column (hk.trans (get?_eq_some.mp hr).2), Function.update_eq_self_iff, hr, hc]
  rfl

theorem map_get?_insert (t : Table key) (h : key r ∉ t.keys) {v : β}
    (hk : (t.get? k).map column = some v) : ((t.insert r h).get? k).map column = some v := by
  have hne : k ≠ key r := by
    intro hke
    rw [hke, get?_eq_none.mpr h] at hk
    cases hk
  rw [t.get?_insert_of_ne r h hne]
  exact hk

theorem get?_delete (t : Table key) (k k' : κ) :
    (t.deleteWhere (fun r => key r = k')).get? k = if k = k' then none else t.get? k := by
  apply Option.ext
  intro x
  rw [get?_eq_some, mem_deleteWhere, decide_eq_false_iff_not]
  split_ifs with h
  · constructor
    · intro hx
      exact absurd (hx.2.trans h) hx.1.2
    · intro hx
      contradiction
  · rw [get?_eq_some]
    constructor
    · exact fun hx => ⟨hx.1.1, hx.2⟩
    · exact fun hx => ⟨⟨hx.1, fun hk => h (hx.2.symm.trans hk)⟩, hx.2⟩

end

end Table

end KeyedTable
