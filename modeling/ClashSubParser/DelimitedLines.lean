import Mathlib.Data.List.DropRight
import Mathlib.Data.List.Infix

/-! Records on lines: where keys and values are free of the separators, the line gives them back. -/
namespace DelimitedLines

open List

variable {α : Type*}

def trim (blank : α → Bool) (l : List α) : List α := (l.dropWhile blank).rdropWhile blank

structure Trimmed (blank : α → Bool) (l : List α) : Prop where
  first : ∀ a ∈ l.head?, blank a = false
  last : ∀ a ∈ l.getLast?, blank a = false

section

variable {blank : α → Bool} {l : List α}

theorem Trimmed.dropWhile_eq (h : Trimmed blank l) : l.dropWhile blank = l := by
  cases l with
  | nil => rfl
  | cons a l => rw [dropWhile_cons_of_neg (by simp [h.first a rfl])]

theorem Trimmed.rdropWhile_eq (h : Trimmed blank l) : l.rdropWhile blank = l := by
  rw [rdropWhile_eq_self_iff]
  intro hne
  simp [h.last _ (getLast?_eq_some_getLast hne)]

theorem Trimmed.trim_eq (h : Trimmed blank l) : trim blank l = l := by
  rw [trim, h.dropWhile_eq, h.rdropWhile_eq]

theorem trimmed_trim (blank : α → Bool) (l : List α) : Trimmed blank (trim blank l) := by
  refine ⟨?_, ?_⟩
  · intro a ha
    have hne : trim blank l ≠ [] := by
      intro hn
      simp [hn] at ha
    -- the first element is the first one that is left by the outer drop
    have hp : trim blank l <+: l.dropWhile blank := rdropWhile_prefix blank _
    have hd : l.dropWhile blank ≠ [] := by
      intro hn
      rw [hn] at hp
      exact hne (prefix_nil.mp hp)
    have hh := head_dropWhile_not blank hd
    have heq : (trim blank l).head hne = (l.dropWhile blank).head hd := hp.head hne
    rw [head?_eq_some_head hne, Option.mem_some_iff] at ha
    rw [← ha, heq]
    exact hh
  · intro a ha
    have hne : trim blank l ≠ [] := by
      intro hn
      simp [hn] at ha
    have hl := rdropWhile_last_not blank (l.dropWhile blank) hne
    rw [getLast?_eq_some_getLast hne, Option.mem_some_iff] at ha
    rw [Bool.not_eq_true] at hl
    rw [← ha]
    exact hl

theorem Trimmed.trim_append (h : Trimmed blank l) (pre post : List α) (hpr : ∀ a ∈ pre, blank a = true)
    (hp : ∀ a ∈ post, blank a = true) : trim blank (pre ++ l ++ post) = l := by
  by_cases hl : l = []
  · subst hl
    have hal : (pre ++ [] ++ post).dropWhile blank = [] := by
      rw [dropWhile_eq_nil_iff]
      intro a ha
      simp only [append_nil, mem_append] at ha
      exact ha.elim (hpr a) (hp a)
    rw [trim, hal]
    rfl
  · have hf : (pre ++ l ++ post).dropWhile blank = l ++ post := by
      rw [List.append_assoc, dropWhile_append_of_pos hpr]
      cases l with
      | nil => contradiction
      | cons a l =>
        simp [h.first a rfl]
    have hla : (l ++ post).rdropWhile blank = l := by
      rw [List.rdropWhile, reverse_append, dropWhile_append_of_pos (fun a ha => hp a (mem_reverse.mp ha))]
      exact h.rdropWhile_eq
    rw [trim, hf, hla]

theorem Trimmed.append {l m : List α} (hl : Trimmed blank l) (hm : Trimmed blank m) (hln : l ≠ []) (hmn : m ≠ [])
    (mid : List α) : Trimmed blank (l ++ mid ++ m) := by
  refine ⟨?_, ?_⟩
  · intro a ha
    rw [List.append_assoc, head?_append_of_ne_nil _ hln] at ha
    exact hl.first a ha
  · intro a ha
    rw [getLast?_append_of_ne_nil _ hmn] at ha
    exact hm.last a ha

end

theorem mem_of_mem_intercalate {a : α} {sep : List α} {fields : List (List α)} (h : a ∈ sep.intercalate fields) :
    a ∈ sep ∨ ∃ f ∈ fields, a ∈ f := by
  induction fields with
  | nil => simp at h
  | cons f fields ih =>
    cases fields with
    | nil => exact Or.inr ⟨f, mem_cons_self, by simpa using h⟩
    | cons g fields =>
      rw [intercalate_cons_cons, mem_append, mem_append] at h
      obtain (hf | hs) | hr := h
      · exact Or.inr ⟨f, mem_cons_self, hf⟩
      · exact Or.inl hs
      · exact (ih hr).imp id fun ⟨k, hk, ha⟩ => ⟨k, mem_cons_of_mem f hk, ha⟩

variable [DecidableEq α]

def cut (sign : α) (l : List α) : List α × Option (List α) :=
  (l.takeWhile (· ≠ sign), (l.dropWhile (· ≠ sign)).tail?)

theorem cut_of_not_mem {sign : α} {l : List α} (h : sign ∉ l) : cut sign l = (l, none) := by
  have hal : ∀ a ∈ l, (decide (a ≠ sign)) = true := by
    intro a ha
    simp only [ne_eq, decide_not, Bool.not_eq_true', decide_eq_false_iff_not]
    intro heq
    exact h (heq ▸ ha)
  have hd : l.dropWhile (· ≠ sign) = [] := dropWhile_eq_nil_iff.mpr hal
  rw [cut, hd, takeWhile_eq_self_iff.mpr hal]
  rfl

theorem cut_append {sign : α} {key : List α} (h : sign ∉ key) (value : List α) :
    cut sign (key ++ sign :: value) = (key, some value) := by
  have hal : ∀ a ∈ key, (decide (a ≠ sign)) = true := by
    intro a ha
    simp only [ne_eq, decide_not, Bool.not_eq_true', decide_eq_false_iff_not]
    intro heq
    exact h (heq ▸ ha)
  rw [cut, takeWhile_append_of_pos hal, dropWhile_append_of_pos hal]
  simp

def cutLast (sign : α) (l : List α) : List α × List α :=
  ((l.rdropWhile (· ≠ sign)).dropLast, l.rtakeWhile (· ≠ sign))

theorem cutLast_append {sign : α} (key : List α) {value : List α} (h : sign ∉ value) :
    cutLast sign (key ++ sign :: value) = (key, value) := by
  have hal : ∀ a ∈ value.reverse, (decide (a ≠ sign)) = true := by
    intro a ha
    simp only [ne_eq, decide_not, Bool.not_eq_true', decide_eq_false_iff_not]
    intro heq
    exact h (heq ▸ mem_reverse.mp ha)
  have hr : (key ++ sign :: value).reverse = value.reverse ++ sign :: key.reverse := by simp
  rw [cutLast, List.rdropWhile, List.rtakeWhile, hr, takeWhile_append_of_pos hal, dropWhile_append_of_pos hal]
  simp

/-- Trimmed fields free of the separator are read back from their joined line. -/
theorem splitOn_join {blank : α → Bool} {sep space : α} (hsp : blank space = true) {fields : List (List α)}
    (hne : fields ≠ []) (hs : ∀ f ∈ fields, sep ∉ f) (hn : sep ≠ space) (ht : ∀ f ∈ fields, Trimmed blank f) :
    (([sep, space].intercalate fields).splitOn sep).map (trim blank) = fields := by
  cases fields with
  | nil => contradiction
  | cons f fs =>
    -- the blank belongs to the field behind it
    have hj : ∀ (f : List α) (fs : List (List α)), [sep, space].intercalate (f :: fs) =
        [sep].intercalate (f :: fs.map (space :: ·)) := by
      intro f fs
      induction fs generalizing f with
      | nil => simp
      | cons g fs ih =>
        rw [intercalate_cons_cons, ih, map_cons, intercalate_cons_cons]
        cases fs with
        | nil | cons k fs => simp
    rw [hj, splitOn_intercalate sep _ (by simp)]
    · rw [map_cons, map_map, (ht f mem_cons_self).trim_eq]
      congr 1
      conv_rhs => rw [← map_id fs]
      apply map_congr_left
      intro g hg
      have hg' := (ht g (mem_cons_of_mem f hg)).trim_append [space] []
        (by simpa using hsp) (by simp)
      simpa using hg'
    · intro g hg
      rcases mem_cons.mp hg with rfl | hg
      · exact hs _ mem_cons_self
      · obtain ⟨k, hk, rfl⟩ := mem_map.mp hg
        simp only [mem_cons, not_or]
        exact ⟨hn, hs k (mem_cons_of_mem f hk)⟩

theorem splitOn_lines {feed : α} {lines : List (List α)} (h : ∀ l ∈ lines, feed ∉ l) :
    (lines.flatMap (· ++ [feed])).splitOn feed = lines ++ [[]] := by
  induction lines with
  | nil => simp
  | cons l lines ih =>
    rw [flatMap_cons, List.append_assoc, singleton_append, splitOn_append_cons_self_of_not_mem (h l mem_cons_self),
      ih fun k hk => h k (mem_cons_of_mem l hk), cons_append]

end DelimitedLines
