import ClashSubParser.DomainError
import Mathlib

/-! The search for addresses and secrets in risk records, with its fixed expressions written out as
matchers. -/
namespace ClashSubParser

open List

namespace Strings

/-- `strings.ToLower`, which leaves the tables aside where every byte is ASCII. -/
def lowerText (rt : Runtime) (s : String) : String :=
  if s.toList.all (fun c => c.toNat < 128) then String.ofList (s.toList.map Char.toLower)
  else toLower rt s

/-- `strings.Trim` with a cutset of one character. -/
def trim (cut : Char) (s : List Char) : List Char := (s.dropWhile (· == cut)).rdropWhile (· == cut)

end Strings

namespace Regexp

/-- The class `\s`. -/
def isSpace (c : Char) : Bool := [' ', '\t', '\n', '\x0c', '\r'].contains c

/-- The class `\w`. -/
def isWord (c : Char) : Bool := c.isAlphanum || c == '_'

def isHex (c : Char) : Bool := c.isDigit || ('a' ≤ c && c ≤ 'f') || ('A' ≤ c && c ≤ 'F')

/-- Whether a lower-case pattern character matches under `(?i)`: two letters have a third form. -/
def folds (p c : Char) : Bool :=
  c.toLower == p || (p == 's' && c.toNat == 0x17f) || (p == 'k' && c.toNat == 0x212a)

/-- What follows a literal matched under `(?i)` at the start of the text. -/
def dropFold : List Char → List Char → Option (List Char)
  | [], cs => some cs
  | _ :: _, [] => none
  | p :: ps, c :: cs => if folds p c then dropFold ps cs else none

variable (cs : List Char)

def octet : Option (List Char) :=
  let group := cs.takeWhile Char.isDigit
  if 1 ≤ group.length ∧ group.length ≤ 3 then some group else none

def octets : ℕ → List Char → Option (List Char)
  | 0, cs => octet cs
  | n + 1, cs =>
    match octet cs, cs.dropWhile Char.isDigit with
    | some group, '.' :: rest => (octets n rest).map (fun m => group ++ '.' :: m)
    | _, _ => none

/-- The group of the first match of `ipv4Regex`; the flag says that no digit stands before. -/
def ipv4Match : Bool → List Char → Option (List Char)
  | _, [] => none
  | boundary, c :: cs =>
    match (if boundary then octets 3 (c :: cs) else none) with
    | some m => some m
    | none => ipv4Match (!c.isDigit) cs

/-- The groups `[0-9a-f]{0,4}:` at the start of the text: their characters, their number and the rest. -/
def colonGroups : ℕ → List Char → List Char × ℕ × List Char
  | 0, cs => ([], 0, cs)
  | fuel + 1, cs =>
    let group := cs.takeWhile isHex
    match cs.dropWhile isHex with
    | ':' :: rest =>
      if group.length ≤ 4 then
        let more := colonGroups fuel rest
        (group ++ ':' :: more.1, more.2.1 + 1, more.2.2)
      else ([], 0, cs)
    | _ => ([], 0, cs)

/-- The match of `ipv6Regex` at the start of the text, and the rest. -/
def ipv6At : Option (List Char × List Char) :=
  let groups := colonGroups cs.length cs
  let last := (groups.2.2.takeWhile (fun c => isHex c || c == ':')).take 4
  if 2 ≤ groups.2.1 then some (groups.1 ++ last, groups.2.2.drop last.length) else none

/-- All matches of `ipv6Regex`; the fuel is the length of the text. -/
def ipv6Matches : ℕ → List Char → List (List Char)
  | 0, _ => []
  | fuel + 1, cs =>
    match ipv6At cs with
    | some (m, rest) => m :: ipv6Matches fuel rest
    | none => ipv6Matches fuel (cs.drop 1)

/-- `https?://[^\s?]+\?[^\s]+` at the start of the text. -/
def urlQueryAt : Bool :=
  match dropFold "http".toList cs with
  | none => false
  | some rest =>
    match dropFold "://".toList ((dropFold ['s'] rest).getD rest) with
    | none => false
    | some rest =>
      let inPath (c : Char) : Bool := !isSpace c && c != '?'
      match rest.takeWhile inPath, rest.dropWhile inPath with
      | _ :: _, '?' :: c :: _ => !isSpace c
      | _, _ => false

/-- `urlQueryRegex`; the flag says that no word character stands before. -/
def urlQuery : Bool → List Char → Bool
  | _, [] => false
  | boundary, c :: cs => (boundary && urlQueryAt (c :: cs)) || urlQuery (!isWord c) cs

def querySecretAt : List Char → Bool
  | [] => false
  | c :: cs =>
    (c == '?' || c == '&') &&
      ["token", "secret", "password", "key", "auth", "api_key", "access_token"].any (fun name =>
        match dropFold (name.toList ++ ['=']) cs with
        | some (d :: _) => !isSpace d && !"&\"'<>\x60)]\x7d".toList.contains d
        | _ => false)

def querySecret : Bool := cs.tails.any querySecretAt

end Regexp

open Regexp

section

variable (rt : Runtime)

def containsIPAddress (value : String) : Bool :=
  (match ipv4Match true value.toList with
    | some m => rt.parseIP (String.ofList m)
    | none => false) ||
  (ipv6Matches (value.toList.length + 1) value.toList).any (fun m =>
    2 ≤ m.count ':' && rt.parseIP (String.ofList (Strings.trim ':' m)))

def sensitiveWords : List String :=
  ["api_key", "apikey", "cookie", "raw_payload", "raw json", "access_token", "token=", "secret=",
   "password="]

def containsSensitiveIPRiskText (value : String) : Bool :=
  let lower := Strings.lowerText rt value
  containsIPAddress rt value || urlQuery true value.toList || querySecret value.toList ||
    sensitiveWords.any (fun word => Strings.contains lower word)

end

/-! A text of lower-case letters and underscores holds no address, no URL and no parameter. -/
section

def isPlain (c : Char) : Bool := c.isLower || c == '_'

variable {cs : List Char}

theorem isPlain_iff {c : Char} : isPlain c = true ↔ (97 ≤ c.toNat ∧ c.toNat ≤ 122) ∨ c = '_' := by
  simp only [isPlain, Char.isLower, Bool.or_eq_true, Bool.and_eq_true, decide_eq_true_eq, beq_iff_eq]
  rfl

theorem isPlain_excludes {c : Char} (h : isPlain c = true) :
    c.isDigit = false ∧ c ≠ ':' ∧ c ≠ '?' ∧ c ≠ '&' ∧ c.toLower = c ∧ c.toNat < 128 := by
  rcases isPlain_iff.mp h with ⟨hl, hh⟩ | rfl
  · have hne : ∀ d : Char, d.toNat < 97 → c ≠ d := by
      rintro d hd rfl
      omega
    refine ⟨?_, hne _ (by decide), hne _ (by decide), hne _ (by decide), ?_, by omega⟩
    · have hn : ¬(c.val ≤ '9'.val) := by
        exact not_le.mpr (lt_of_lt_of_le (by decide : '9'.val.toNat < 97) hl)
      simp only [Char.isDigit, Bool.and_eq_false_iff, decide_eq_false_iff_not]
      exact .inr hn
    · have hn : ¬(c.val ≤ 'Z'.val) := by
        exact not_le.mpr (lt_of_lt_of_le (by decide : 'Z'.val.toNat < 97) hl)
      exact dif_neg fun hu => hn hu.2
  · decide

theorem ipv4Match_eq_none (h : ∀ c ∈ cs, c.isDigit = false) (boundary : Bool) : ipv4Match boundary cs = none := by
  induction cs generalizing boundary with
  | nil => rfl
  | cons c cs ih =>
    have hc : c.isDigit = false := h c mem_cons_self
    have ho : octets 3 (c :: cs) = none := by
      have hgr : octet (c :: cs) = none := by simp [octet, hc]
      simp [octets, hgr]
    have hr := ih (fun d hd => h d (mem_cons_of_mem c hd)) (!c.isDigit)
    cases boundary with
    | false => simpa [ipv4Match] using hr
    | true => simpa [ipv4Match, ho] using hr

theorem colonGroups_eq (h : ':' ∉ cs) (fuel : ℕ) : colonGroups fuel cs = ([], 0, cs) := by
  cases fuel with
  | zero => rfl
  | succ fuel =>
    have hd : ':' ∉ cs.dropWhile isHex := fun hm => h ((dropWhile_suffix isHex).subset hm)
    simp only [colonGroups]
    cases hr : cs.dropWhile isHex with
    | nil => rfl
    | cons c rest =>
      have hc : c ≠ ':' := by
        intro he
        rw [hr, he] at hd
        exact hd mem_cons_self
      split
      · next heq => exact absurd (List.cons.inj heq).1 hc
      · rfl

theorem ipv6Matches_eq_nil (h : ':' ∉ cs) (fuel : ℕ) : ipv6Matches fuel cs = [] := by
  induction fuel generalizing cs with
  | zero => rfl
  | succ fuel ih =>
    have hat : ipv6At cs = none := by simp [ipv6At, colonGroups_eq h]
    simp only [ipv6Matches, hat]
    exact ih fun hm => h (mem_of_mem_drop hm)

theorem dropFold_suffix {ps cs rest : List Char} (h : dropFold ps cs = some rest) : rest <:+ cs := by
  induction ps generalizing cs with
  | nil =>
    rw [dropFold, Option.some.injEq] at h
    rw [h]
  | cons p ps ih =>
    cases cs with
    | nil => simp [dropFold] at h
    | cons c cs =>
      rw [dropFold] at h
      split_ifs at h
      exact (ih h).trans (suffix_cons c cs)

theorem urlQueryAt_eq_false (h : '?' ∉ cs) : urlQueryAt cs = false := by
  unfold urlQueryAt
  cases h1 : dropFold "http".toList cs with
  | none => rfl
  | some rest =>
    have hs1 : rest <:+ cs := dropFold_suffix h1
    have hs2 : (dropFold ['s'] rest).getD rest <:+ cs := by
      cases h2 : dropFold ['s'] rest with
      | none => exact hs1
      | some rest' => exact (dropFold_suffix h2).trans hs1
    dsimp only
    cases h3 : dropFold "://".toList ((dropFold ['s'] rest).getD rest) with
    | none => rfl
    | some path =>
      have hs3 : path <:+ cs := (dropFold_suffix h3).trans hs2
      dsimp only
      split
      · next heq =>
        -- the query would start with a question mark of the text
        have hm : '?' ∈ path.dropWhile (fun c => !isSpace c && c != '?') := by
          rw [heq]
          exact mem_cons_self
        exact absurd (hs3.subset ((dropWhile_suffix _).subset hm)) h
      · rfl

theorem urlQuery_eq_false (h : '?' ∉ cs) (boundary : Bool) : urlQuery boundary cs = false := by
  induction cs generalizing boundary with
  | nil => rfl
  | cons c cs ih =>
    rw [urlQuery, urlQueryAt_eq_false h, ih fun hm => h (mem_cons_of_mem c hm)]
    simp

theorem querySecret_eq_false (hq : '?' ∉ cs) (ha : '&' ∉ cs) : querySecret cs = false := by
  rw [querySecret, any_eq_false]
  intro tail ht
  have hs : tail <:+ cs := (mem_tails _ _).mp ht
  cases tail with
  | nil => simp [querySecretAt]
  | cons c tail =>
    have hc : c ∈ cs := hs.subset mem_cons_self
    have h1 : c ≠ '?' := fun he => hq (he ▸ hc)
    have h2 : c ≠ '&' := fun he => ha (he ▸ hc)
    simp [querySecretAt, h1, h2]

theorem lowerText_eq {rt : Runtime} {s : String} (h : s.toList.all isPlain = true) : Strings.lowerText rt s = s := by
  have hpl : ∀ c ∈ s.toList, isPlain c = true := all_eq_true.mp h
  have ha : s.toList.all (fun c => decide (c.toNat < 128)) = true := by
    rw [all_eq_true]
    intro c hc
    exact decide_eq_true (isPlain_excludes (hpl c hc)).2.2.2.2.2
  have hm : s.toList.map Char.toLower = s.toList := by
    conv_rhs => rw [← map_id s.toList]
    exact map_congr_left fun c hc => (isPlain_excludes (hpl c hc)).2.2.2.2.1
  rw [Strings.lowerText, if_pos ha, hm, String.ofList_toList]

def plainWords : List String := ["api_key", "apikey", "cookie", "raw_payload", "access_token"]

theorem contains_eq_false_of_isPlain {s word : String} (h : s.toList.all isPlain = true)
    (hw : word.toList.all isPlain = false) : Strings.contains s word = false := by
  rw [Strings.contains, decide_eq_false_iff_not]
  intro hs
  obtain ⟨c, hc, hpl⟩ := all_eq_false.mp hw
  exact hpl (all_eq_true.mp h c (hs.subset hc))

/-- Lower-case words without the fixed words of secrets pass the search. -/
theorem containsSensitiveIPRiskText_eq_false {rt : Runtime} {s : String} (h : s.toList.all isPlain = true)
    (hwo : ∀ word ∈ plainWords, Strings.contains s word = false) : containsSensitiveIPRiskText rt s = false := by
  have hpl : ∀ c ∈ s.toList, isPlain c = true := all_eq_true.mp h
  have hd : ∀ c ∈ s.toList, c.isDigit = false := fun c hc => (isPlain_excludes (hpl c hc)).1
  have hco : ':' ∉ s.toList := fun hc => (isPlain_excludes (hpl _ hc)).2.1 rfl
  have hq : '?' ∉ s.toList := fun hc => (isPlain_excludes (hpl _ hc)).2.2.1 rfl
  have ha : '&' ∉ s.toList := fun hc => (isPlain_excludes (hpl _ hc)).2.2.2.1 rfl
  have hip : containsIPAddress rt s = false := by
    rw [containsIPAddress, ipv4Match_eq_none hd, ipv6Matches_eq_nil hco]
    rfl
  have hs : sensitiveWords.any (fun word => Strings.contains s word) = false := by
    rw [any_eq_false]
    intro word hwd
    have hsp : ∀ w ∈ sensitiveWords, w ∈ plainWords ∨ w.toList.all isPlain = false := by decide
    rcases hsp word hwd with hw | hw
    · rw [hwo word hw]
      exact Bool.false_ne_true
    · rw [contains_eq_false_of_isPlain h hw]
      exact Bool.false_ne_true
  rw [containsSensitiveIPRiskText, hip, urlQuery_eq_false hq, querySecret_eq_false hq ha,
    lowerText_eq h, hs]
  rfl

end

end ClashSubParser
