import ClashSubParser.DelimitedLines
import ClashSubParser.PolicyTypes
import Mathlib.Data.Bool.AllAny

/-! `strings.TrimSpace`: which texts it leaves alone, and that identifiers are such texts. -/
namespace ClashSubParser

open List DelimitedLines Strings

section

theorem toList_trimSpace (s : String) : (trimSpace s).toList = trim isSpace s.toList := by
  rw [trimSpace, String.toList_ofList]
  rfl

theorem trimSpace_ofList (l : List Char) : trimSpace (String.ofList l) = String.ofList (trim isSpace l) := by
  rw [← String.toList_inj, toList_trimSpace, String.toList_ofList, String.toList_ofList]

/-- The texts that trimming leaves alone. -/
theorem trimmed_iff {s : String} : trimSpace s = s ↔ Trimmed isSpace s.toList := by
  rw [← String.toList_inj, toList_trimSpace]
  exact ⟨fun h => h ▸ trimmed_trim isSpace s.toList, fun h => h.trim_eq⟩

theorem trimSpace_trimSpace (s : String) : trimSpace (trimSpace s) = trimSpace s := by
  rw [trimmed_iff, toList_trimSpace]
  exact trimmed_trim isSpace s.toList

theorem trimSpace_eq_self {s : String} (h : ∀ c ∈ s.toList, isSpace c = false) : trimSpace s = s :=
  trimmed_iff.mpr ⟨fun c hc => h c (mem_of_mem_head? hc), fun c hc => h c (mem_of_mem_getLast? hc)⟩

theorem mem_trimSpace {s : String} {c : Char} (hc : c ∈ s.toList) (hbl : isSpace c = false) :
    c ∈ (trimSpace s).toList := by
  have hd {l : List Char} (hl : c ∈ l) : c ∈ l.dropWhile isSpace := by
    rw [← takeWhile_append_dropWhile (p := isSpace) (l := l), mem_append] at hl
    refine hl.resolve_left fun h => ?_
    rw [mem_takeWhile_imp h] at hbl
    contradiction
  rw [trimSpace, String.toList_ofList, rdropWhile, mem_reverse]
  exact hd (mem_reverse.mpr (hd hc))

theorem trimSpace_eq_empty_iff {s : String} : trimSpace s = "" ↔ ∀ c ∈ s.toList, isSpace c = true := by
  constructor
  · intro h c hc
    by_contra hspace
    have hk := mem_trimSpace hc (Bool.eq_false_iff.mpr hspace)
    rw [h] at hk
    contradiction
  · intro h
    rw [trimSpace, dropWhile_eq_nil_iff.mpr h]
    rfl

end

section

def isUUIDChar (c : Char) : Bool := c == '-' || "0123456789abcdefABCDEF".toList.contains c

theorem isSpace_of_isUUIDChar {c : Char} (h : isUUIDChar c = true) : Strings.isSpace c = false := by
  have ha : ∀ c ∈ '-' :: "0123456789abcdefABCDEF".toList, Strings.isSpace c = false :=
    all_iff_forall_prop.mp (by decide)
  apply ha
  rw [isUUIDChar, Bool.or_eq_true, beq_iff_eq, contains_iff_mem] at h
  exact mem_cons.mpr h

theorem isUUIDChar_of_valid {s : String} (h : isValidUUIDv7 s = true) : ∀ c ∈ s.toList, isUUIDChar c = true := by
  have hj : s.toList = ['-'].intercalate (s.toList.splitOn '-') := (intercalate_splitOn '-').symm
  rw [isValidUUIDv7] at h
  split at h
  next a b c d e hs =>
    simp only [Bool.and_eq_true] at h
    rw [hs] at hj
    intro x hx
    have hp (part : List Char) (ha : part.all (fun c => "0123456789abcdefABCDEF".toList.contains c) = true)
        (hm : x ∈ part) : isUUIDChar x = true := by
      rw [isUUIDChar, all_eq_true.mp ha x hm, Bool.or_true]
    rw [hj] at hx
    simp only [List.intercalate, List.intersperse, flatten_cons, flatten_nil, mem_append,
      mem_singleton, not_mem_nil, or_false] at hx
    rcases hx with hx | rfl | hx | rfl | hx | rfl | hx | rfl | hx
    · exact hp a (by tauto) hx
    · rfl
    · exact hp b (by tauto) hx
    · rfl
    · exact hp c (by tauto) hx
    · rfl
    · exact hp d (by tauto) hx
    · rfl
    · exact hp e (by tauto) hx
  next => simp at h

end

end ClashSubParser
