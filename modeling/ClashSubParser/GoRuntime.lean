import ClashSubParser.Sha256
import Mathlib.Data.List.Dedup
import Mathlib.Data.List.DropRight
import Mathlib.Data.List.Infix
import Mathlib.Data.List.Sort
import Mathlib.Data.String.Basic
import Mathlib.Algebra.Ring.Int.Defs

/-! What the modelled packages take from outside: strings, maps and times of Go, and library tables and
engines. -/
namespace ClashSubParser

open List

/-- The library functions the model does not define. Every result holds for all of them. -/
structure Runtime where
  /-- `unicode.ToLower` -/
  toLowerRune : Char → Char
  /-- `unicode.ToUpper` -/
  toUpperRune : Char → Char
  /-- equality of two runes under `unicode.SimpleFold` -/
  foldRune : Char → Char → Bool
  /-- `strconv.IsPrint` -/
  isPrint : Char → Bool
  /-- `regexp.Compile`, with the matcher of the compiled expression -/
  regexpCompile : String → Except String (String → Bool)
  /-- `regexp2.Compile`, whose matcher may fail by its timeout -/
  regexp2Compile : String → Except String (String → Except String Bool)
  /-- `ReplaceAllString` of the expression given first -/
  replaceAllString : String → String → String → String
  /-- `ReplaceAllStringFunc` of the expression given first -/
  replaceAllStringFunc : String → (String → String) → String → String
  /-- whether `net.ParseIP` accepts the text -/
  parseIP : String → Bool
  /-- `sha256.Sum256` -/
  sha256 : String → Fin 32 → BitVec 8
  /-- `Format(time.RFC3339Nano)` of the time in UTC -/
  formatRFC3339Nano : Int → String

/-- Nanoseconds since the zero value of `time.Time`. -/
abbrev Time := Int

/-- Wrap-around of `int64`. -/
def int64 (n : Int) : Int := n.bmod (2^64)

theorem int64_succ_ne (n : Int) : int64 (n+1) ≠ n := by
  intro h
  have hm : int64 (n+1) % (2^64 : ℕ) = (n+1) % (2^64 : ℕ) := Int.bmod_emod
  omega

namespace Time

def IsZero (t : Time) : Prop := t = 0

instance (t : Time) : Decidable t.IsZero := inferInstanceAs (Decidable (t = 0))

def maxDuration : Int := 2^63 - 1

def minDuration : Int := -2^63

/-- `t.Sub(u)`, which saturates. -/
def sub (t u : Time) : Int := max minDuration (min maxDuration (t - u))

/-- `time.Duration(n) * time.Second`, which wraps around. -/
def seconds (n : Int) : Int := (n * 1000000000).bmod (2^64)

end Time

/-- A Go map with string keys that is ranged over: its entries by increasing key. -/
structure GoMap (V : Type) where
  entries : List (String × V)
  sorted : entries.Pairwise (fun a b => a.1 < b.1)

namespace GoMap

variable {V W : Type}

def empty : GoMap V := ⟨[], List.Pairwise.nil⟩

def get? (m : GoMap V) (k : String) : Option V := m.entries.lookup k

def filterMap (m : GoMap V) (f : V → Option W) : GoMap W where
  entries := m.entries.filterMap (fun e => (f e.2).map (fun w => (e.1, w)))
  sorted := by
    refine List.Pairwise.filterMap _ ?_ m.sorted
    intro a b hab x hx y hy
    rw [Option.map_eq_some_iff] at hx hy
    obtain ⟨_, _, rfl⟩ := hx
    obtain ⟨_, _, rfl⟩ := hy
    exact hab

end GoMap

namespace Strings

/-- `unicode.IsSpace`. -/
def isSpace (c : Char) : Bool :=
  c.toNat ∈ [0x09, 0x0a, 0x0b, 0x0c, 0x0d, 0x20, 0x85, 0xa0, 0x1680, 0x2028, 0x2029, 0x202f, 0x205f,
    0x3000] || (0x2000 ≤ c.toNat && c.toNat ≤ 0x200a)

def trimSpace (s : String) : String :=
  String.ofList ((s.toList.dropWhile isSpace).rdropWhile isSpace)

def toLower (rt : Runtime) (s : String) : String := String.ofList (s.toList.map rt.toLowerRune)

def toUpper (rt : Runtime) (s : String) : String := String.ofList (s.toList.map rt.toUpperRune)

def equalFold (rt : Runtime) (s t : String) : Bool :=
  s.toList.length == t.toList.length && (s.toList.zip t.toList).all (fun p => rt.foldRune p.1 p.2)

def hasPrefix (s p : String) : Bool := p.toList.isPrefixOf s.toList

def hasSuffix (s p : String) : Bool := p.toList.isSuffixOf s.toList

def contains (s sub : String) : Bool := decide (sub.toList <:+: s.toList)

def byteLen (s : String) : ℕ := (s.toList.map Char.utf8Size).sum

def splitList (sep : List Char) : List Char → Option (List Char × List Char)
  | [] => if sep = [] then some ([], []) else none
  | c :: cs =>
    if sep.isPrefixOf (c :: cs) then some ([], (c :: cs).drop sep.length)
    else (splitList sep cs).map (fun p => (c :: p.1, p.2))

/-- The two parts of `strings.SplitN(s, sep, 2)`, the second empty where `sep` does not occur. -/
def splitTwo (s sep : String) : String × String :=
  match splitList sep.toList s.toList with
  | some p => (String.ofList p.1, String.ofList p.2)
  | none => (s, "")

def join (parts : List String) (sep : String) : String := sep.intercalate parts

end Strings

namespace Strconv

def hexDigits (width n : ℕ) : List Char :=
  (List.range width).reverse.map (fun i => Nat.digitChar (n / 16^i % 16))

def hexByte (b : BitVec 8) : String := String.ofList (hexDigits 2 b.toNat)

def hexEncode (sum : Fin 32 → BitVec 8) : String :=
  String.join ((List.finRange 32).map (fun i => hexByte (sum i)))

def quoteRune (rt : Runtime) (c : Char) : List Char :=
  if c = '"' ∨ c = '\\' then ['\\', c]
  else if rt.isPrint c then [c]
  else
    match c.toNat with
    | 0x07 => ['\\', 'a']
    | 0x08 => ['\\', 'b']
    | 0x0c => ['\\', 'f']
    | 0x0a => ['\\', 'n']
    | 0x0d => ['\\', 'r']
    | 0x09 => ['\\', 't']
    | 0x0b => ['\\', 'v']
    | n =>
      if n < 0x20 ∨ n = 0x7f then '\\' :: 'x' :: hexDigits 2 n
      else if n < 0x10000 then '\\' :: 'u' :: hexDigits 4 n
      else '\\' :: 'U' :: hexDigits 8 n

/-- `strconv.Quote`, the verb `%q`. -/
def quote (rt : Runtime) (s : String) : String :=
  String.ofList ('"' :: s.toList.flatMap (quoteRune rt) ++ ['"'])

/-- `strconv.ParseInt(s, 10, 64)`; which error it returns is not looked at by its callers. -/
def parseInt (s : String) : Option Int :=
  let digits (cs : List Char) : Option ℕ :=
    if cs ≠ [] ∧ cs.all Char.isDigit then some (cs.foldl (fun n c => 10*n + (c.toNat - 48)) 0)
    else none
  match s.toList with
  | '-' :: cs => (digits cs).bind (fun n => if n ≤ 2^63 then some (-(n : Int)) else none)
  | '+' :: cs => (digits cs).bind (fun n => if n < 2^63 then some (n : Int) else none)
  | cs => (digits cs).bind (fun n => if n < 2^63 then some (n : Int) else none)

end Strconv

/-- Year, month and day of the day `n` days after 0001-01-01, counted in years from March on. -/
def civilDate (n : ℕ) : ℕ × ℕ × ℕ :=
  let z := n + 306
  let dayOfEra := z % 146097
  let yearOfEra := (dayOfEra - dayOfEra/1460 + dayOfEra/36524 - dayOfEra/146096) / 365
  let dayOfYear := dayOfEra - (365*yearOfEra + yearOfEra/4 - yearOfEra/100)
  let month := (5*dayOfYear + 2) / 153
  let day := dayOfYear - (153*month + 2)/5 + 1
  let year := yearOfEra + 400*(z/146097)
  if month < 10 then (year, month + 3, day) else (year + 1, month - 9, day)

/-- The time in UTC, with the fraction of the second cut after its last digit. -/
def formatUTC (t : Time) : String :=
  let digits (width n : ℕ) : List Char :=
    (List.range width).reverse.map (fun i => Nat.digitChar (n / 10^i % 10))
  let nanos := t.toNat % 1000000000
  let secs := t.toNat / 1000000000
  let date := civilDate (secs / 86400)
  let fraction := (digits 9 nanos).rdropWhile (· == '0')
  String.ofList (digits 4 date.1 ++ ['-'] ++ digits 2 date.2.1 ++ ['-'] ++ digits 2 date.2.2 ++ ['T'] ++
    digits 2 (secs / 3600 % 24) ++ [':'] ++ digits 2 (secs / 60 % 60) ++ [':'] ++ digits 2 (secs % 60) ++
    (if fraction = [] then [] else '.' :: fraction) ++ ['Z'])

/-- The library functions on plain inputs: ASCII text, expressions without metacharacters behind
`(?i)`, and messages in which there is nothing to redact. -/
def asciiRuntime : Runtime where
  toLowerRune := Char.toLower
  toUpperRune := Char.toUpper
  foldRune c d := c.toLower == d.toLower
  isPrint c := 0x20 ≤ c.toNat && c.toNat ≤ 0x7e
  regexpCompile p := .ok (fun s => decide
    ((p.toList.drop 4).map Char.toLower <:+: s.toList.map Char.toLower))
  regexp2Compile p := .error p
  replaceAllString _ _ s := s
  replaceAllStringFunc _ _ s := s
  parseIP _ := false
  sha256 := Sha256.sum256
  formatRFC3339Nano := formatUTC

variable (keys : List String)

/-- The keys of a Go set, collected and sorted with `sort.Strings`. -/
def sortedSet : List String := keys.dedup.insertionSort (· ≤ ·)

@[simp] theorem mem_sortedSet (k : String) : k ∈ sortedSet keys ↔ k ∈ keys := by
  simp [sortedSet]

theorem sortedSet_nodup : (sortedSet keys).Nodup :=
  (perm_insertionSort _ _).nodup_iff.mpr (nodup_dedup keys)

theorem sortedSet_pairwise : (sortedSet keys).Pairwise (· ≤ ·) :=
  pairwise_insertionSort _ _

/-- The sorted keys of a Go set depend only on what is in it. -/
theorem sortedSet_congr {l m : List String} (h : ∀ k, k ∈ l ↔ k ∈ m) : sortedSet l = sortedSet m := by
  have hp : (sortedSet l).Perm (sortedSet m) := by
    rw [perm_ext_iff_of_nodup (sortedSet_nodup l) (sortedSet_nodup m)]
    intro k
    rw [mem_sortedSet, mem_sortedSet, h k]
  exact hp.eq_of_pairwise (fun a b _ _ => le_antisymm) (sortedSet_pairwise l) (sortedSet_pairwise m)

def sortStrings (l : List String) : List String := l.insertionSort (· ≤ ·)

def uniqueStrings : List String → List String
  | [] => []
  | [a] => [a]
  | a :: b :: l => if a = b then uniqueStrings (b :: l) else a :: uniqueStrings (b :: l)

theorem mem_uniqueStrings (k : String) : ∀ l : List String, k ∈ uniqueStrings l ↔ k ∈ l
  | [] => by simp [uniqueStrings]
  | [a] => by simp [uniqueStrings]
  | a :: b :: l => by
    have ih := mem_uniqueStrings k (b :: l)
    rw [uniqueStrings]
    split_ifs with hab
    · simp [ih, hab]
    · simp [ih]

theorem uniqueStrings_pairwise : ∀ l : List String, l.Pairwise (· ≤ ·) → (uniqueStrings l).Pairwise (· < ·)
  | [], _ => List.Pairwise.nil
  | [a], _ => pairwise_singleton _ a
  | a :: b :: l, h => by
    have ih := uniqueStrings_pairwise (b :: l) h.of_cons
    rw [uniqueStrings]
    split_ifs with hab
    · exact ih
    · refine List.Pairwise.cons ?_ ih
      intro k hk
      have hbk : b ≤ k := by
        rcases mem_cons.mp ((mem_uniqueStrings k _).mp hk) with rfl | hk
        · exact le_refl k
        · exact rel_of_pairwise_cons h.of_cons hk
      exact lt_of_lt_of_le (lt_of_le_of_ne (rel_of_pairwise_cons h mem_cons_self) hab) hbk

theorem uniqueStrings_sortStrings (l : List String) : uniqueStrings (sortStrings l) = sortedSet l := by
  have hlt := uniqueStrings_pairwise _ (pairwise_insertionSort (· ≤ ·) l)
  have hnd : (uniqueStrings (sortStrings l)).Nodup := hlt.imp (fun h => h.ne)
  have hp : (uniqueStrings (sortStrings l)).Perm (sortedSet l) := by
    rw [perm_ext_iff_of_nodup hnd (sortedSet_nodup l)]
    intro k
    rw [mem_uniqueStrings, mem_sortedSet, sortStrings, mem_insertionSort]
  exact hp.eq_of_pairwise (fun a b _ _ => le_antisymm) (hlt.imp (fun h => h.le))
    (sortedSet_pairwise l)

section

variable {α : Type}

/-- The map filled by `m[key(x)] = x` over a list: the last element of a key stays. -/
def mapOf (key : α → String) (l : List α) (k : String) : Option α :=
  l.reverse.find? (fun a => key a == k)

variable {key : α → String} {l : List α}

theorem mapOf_some {k : String} {a : α} (h : mapOf key l k = some a) : a ∈ l ∧ key a = k := by
  refine ⟨mem_reverse.mp (mem_of_find?_eq_some h), ?_⟩
  simpa using find?_some h

theorem mapOf_isSome_iff {k : String} : (mapOf key l k).isSome ↔ ∃ a ∈ l, key a = k := by
  simp [mapOf, find?_isSome]

theorem mapOf_eq_some (hnd : (l.map key).Nodup) {a : α} (ha : a ∈ l) : mapOf key l (key a) = some a := by
  obtain ⟨b, hb⟩ := Option.isSome_iff_exists.mp (mapOf_isSome_iff.mpr ⟨a, ha, rfl⟩)
  obtain ⟨hbl, hk⟩ := mapOf_some hb
  rw [hb, inj_on_of_nodup_map hnd hbl ha hk]

theorem mapOf_perm {m : List α} (hnd : (l.map key).Nodup) (hlm : l.Perm m) : mapOf key l = mapOf key m := by
  funext k
  cases hm : mapOf key m k with
  | none =>
    have hn : ¬(mapOf key l k).isSome := by
      rw [mapOf_isSome_iff]
      rintro ⟨a, ha, hk⟩
      have hs : (mapOf key m k).isSome := mapOf_isSome_iff.mpr ⟨a, hlm.mem_iff.mp ha, hk⟩
      simp [hm] at hs
    simpa using hn
  | some a =>
    obtain ⟨ha, rfl⟩ := mapOf_some hm
    exact mapOf_eq_some hnd (hlm.mem_iff.mpr ha)

end

end ClashSubParser
