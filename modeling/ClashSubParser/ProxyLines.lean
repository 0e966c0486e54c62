import ClashSubParser.CompilerCapability
import ClashSubParser.NodeCredentials
import ClashSubParser.TrimmedText

/-! The line-based documents: one line for each node, made of comma separated fields. -/
namespace ClashSubParser

open List DelimitedLines Strings

inductive LineField
  /-- the first field of a line -/
  | head (name kind : String)
  | bare (text : String)
  | param (key value : String)
deriving DecidableEq

namespace LineField

def text : LineField → String
  | head name kind => name ++ " = " ++ kind
  | bare text => text
  | param key value => key ++ "=" ++ value

def parts : LineField → String × Option String
  | head name kind => (name, some kind)
  | bare text => (text, none)
  | param key value => (key, some value)

def isHead : LineField → Bool
  | head _ _ => true
  | _ => false

end LineField

def nonEmptyParam (key value : String) : List LineField := if value = "" then [] else [.param key value]

def lineOf (fields : List LineField) : String := join (fields.map LineField.text) ", "

/-- The document of these lines: a line feed after each, and for no lines one line feed. -/
def lineDocument (lines : List String) : String :=
  if lines = [] then "\n" else String.join (lines.map (· ++ "\n"))

def readField (field : String) : String × Option String :=
  let p := cut '=' field.toList
  (trimSpace (String.ofList p.1), p.2.map (fun v => trimSpace (String.ofList v)))

def readLine (line : String) : List (String × Option String) :=
  (split line ',').map (fun f => readField (trimSpace f))

/-- A value that cannot end a field or a line, without blanks around it. -/
structure PlainText (s : String) : Prop where
  comma : ',' ∉ s.toList
  feed : '\n' ∉ s.toList
  ret : '\r' ∉ s.toList
  trimmed : trimSpace s = s

def LineField.Safe : LineField → Prop
  | head name kind => (PlainText name ∧ '=' ∉ name.toList ∧ name ≠ "") ∧ PlainText kind ∧ kind ≠ ""
  | bare text => PlainText text ∧ '=' ∉ text.toList
  | param key value => (PlainText key ∧ '=' ∉ key.toList) ∧ PlainText value

section

theorem toList_join (fs : List String) (sep : String) :
    (join fs sep).toList = sep.toList.intercalate (fs.map String.toList) := by
  rw [join, String.toList_intercalate]

variable {f : LineField} {fields : List LineField}

theorem LineField.not_mem_text {c : Char} (hs : c ≠ ' ' ∧ c ≠ '=')
    (h : c ∉ f.parts.1.toList ∧ ∀ v ∈ f.parts.2, c ∉ v.toList) : c ∉ f.text.toList := by
  cases f with
  | head name kind =>
    have hn : c ∉ name.toList := h.1
    have hk : c ∉ kind.toList := h.2 kind rfl
    simp [LineField.text, hn, hk, hs]
  | bare text => exact h.1
  | param key value =>
    have hke : c ∉ key.toList := h.1
    have hvl : c ∉ value.toList := h.2 value rfl
    simp [LineField.text, hke, hvl, hs]

theorem LineField.Safe.plain (h : f.Safe) : PlainText f.parts.1 ∧ ∀ v ∈ f.parts.2, PlainText v := by
  cases f with
  | head name kind =>
    refine ⟨h.1.1, ?_⟩
    intro v hv
    exact Option.mem_some_iff.mp hv ▸ h.2.1
  | bare text => exact ⟨h.1, by simp [LineField.parts]⟩
  | param key value =>
    refine ⟨h.1.1, ?_⟩
    intro v hv
    exact Option.mem_some_iff.mp hv ▸ h.2

theorem LineField.Safe.comma (h : f.Safe) : ',' ∉ f.text.toList :=
  not_mem_text (by decide) ⟨h.plain.1.comma, fun v hv => (h.plain.2 v hv).comma⟩

theorem LineField.Safe.feed (h : f.Safe) : '\n' ∉ f.text.toList :=
  not_mem_text (by decide) ⟨h.plain.1.feed, fun v hv => (h.plain.2 v hv).feed⟩

theorem LineField.Safe.ret (h : f.Safe) : '\r' ∉ f.text.toList :=
  not_mem_text (by decide) ⟨h.plain.1.ret, fun v hv => (h.plain.2 v hv).ret⟩

theorem trimmed_param {key value : List Char} (hk : Trimmed isSpace key) (hvl : Trimmed isSpace value) :
    Trimmed isSpace (key ++ '=' :: value) := by
  refine ⟨?_, ?_⟩
  · intro a ha
    cases key with
    | nil =>
      simp only [nil_append, head?_cons, Option.mem_some_iff] at ha
      rw [← ha]
      decide
    | cons k key => exact hk.first a ha
  · intro a ha
    by_cases hv : value = []
    · subst hv
      rw [getLast?_append_of_ne_nil _ (by simp), getLast?_singleton, Option.mem_some_iff] at ha
      rw [← ha]
      decide
    · rw [getLast?_append_of_ne_nil _ (by simp), getLast?_cons,
        getLast?_eq_some_getLast hv, Option.getD_some, Option.mem_some_iff] at ha
      rw [← ha]
      exact hvl.last _ (getLast?_eq_some_getLast hv)

theorem LineField.Safe.trimmed (h : f.Safe) : Trimmed isSpace f.text.toList := by
  have hne {s : String} (hs : s ≠ "") : s.toList ≠ [] := by
    intro hn
    exact hs (String.toList_inj.mp hn)
  cases f with
  | head name kind =>
    have ha := (trimmed_iff.mp h.1.1.trimmed).append (trimmed_iff.mp h.2.1.trimmed) (hne h.1.2.2) (hne h.2.2)
      " = ".toList
    rwa [LineField.text, String.toList_append, String.toList_append]
  | bare text => exact trimmed_iff.mp h.1.trimmed
  | param key value =>
    have hp := trimmed_param (trimmed_iff.mp h.1.1.trimmed) (trimmed_iff.mp h.2.trimmed)
    rw [LineField.text, String.toList_append, String.toList_append, append_assoc]
    exact hp

theorem readField_text (h : f.Safe) : readField f.text = f.parts := by
  cases f with
  | head name kind =>
    have hl : (name ++ " = " ++ kind).toList = (name.toList ++ [' ']) ++ '=' :: (' ' :: kind.toList) := by simp
    have hno : '=' ∉ name.toList ++ [' '] := by simp [h.1.2.1]
    have hn : trimSpace (String.ofList (name.toList ++ [' '])) = name := by
      rw [← String.toList_inj, toList_trimSpace, String.toList_ofList]
      have := (trimmed_iff.mp h.1.1.trimmed).trim_append [] [' '] (by simp) (all_iff_forall_prop.mp (by decide))
      simpa using this
    have hk : trimSpace (String.ofList (' ' :: kind.toList)) = kind := by
      rw [← String.toList_inj, toList_trimSpace, String.toList_ofList]
      have := (trimmed_iff.mp h.2.1.trimmed).trim_append [' '] [] (all_iff_forall_prop.mp (by decide)) (by simp)
      simpa using this
    rw [readField, LineField.text, hl, cut_append hno]
    simp only [Option.map_some, hn, hk, LineField.parts]
  | bare text =>
    rw [readField, LineField.text, cut_of_not_mem h.2]
    simp only [Option.map_none, String.ofList_toList, h.1.trimmed, LineField.parts]
  | param key value =>
    have hl : (key ++ "=" ++ value).toList = key.toList ++ '=' :: value.toList := by simp
    rw [readField, LineField.text, hl, cut_append h.1.2]
    simp only [Option.map_some, String.ofList_toList, h.1.1.trimmed, h.2.trimmed, LineField.parts]

/-- Safe fields are read back from the line they are joined into. -/
theorem readLine_lineOf (hne : fields ≠ []) (h : ∀ f ∈ fields, f.Safe) :
    readLine (lineOf fields) = fields.map LineField.parts := by
  have hs := @splitOn_join Char _ isSpace ',' ' ' (by decide) (fields.map (fun f => f.text.toList))
    (by simpa using hne) (by simpa using fun f hf => (h f hf).comma) (by decide)
    (by simpa using fun f hf => (h f hf).trimmed)
  have hr := congrArg (List.map (fun l => readField (String.ofList l))) hs
  rw [map_map, map_map] at hr
  have ht : (fun f => readField (trimSpace f)) ∘ String.ofList =
      (fun l => readField (String.ofList l)) ∘ trim isSpace := by
    funext l
    simp only [Function.comp_apply, trimSpace_ofList]
  have hse : ", ".toList = [',', ' '] := by decide
  rw [readLine, split, lineOf, toList_join, map_map, map_map, ht, hse, Function.comp_def String.toList, hr]
  apply map_congr_left
  intro f hf
  rw [Function.comp_apply, String.ofList_toList, readField_text (h f hf)]

theorem not_mem_lineOf {c : Char} (hs : c ∉ ", ".toList) (h : ∀ f ∈ fields, c ∉ f.text.toList) : c ∉
    (lineOf fields).toList := by
  rw [lineOf, toList_join, map_map]
  intro hm
  obtain hm | ⟨l, hl, hc⟩ := mem_of_mem_intercalate hm
  · exact hs hm
  · obtain ⟨f, hf, rfl⟩ := mem_map.mp hl
    exact h f hf hc

theorem split_lineDocument {lines : List String} (hne : lines ≠ []) (h : ∀ l ∈ lines, '\n' ∉ l.toList) :
    split (lineDocument lines) '\n' = lines ++ [""] := by
  have hl : (String.join (lines.map (· ++ "\n"))).toList = (lines.map String.toList).flatMap (· ++ ['\n']) := by
    rw [String.toList_join, flatMap_map, flatMap_map]
    simp
  rw [lineDocument, if_neg hne, split, hl, splitOn_lines (by simpa using h)]
  simp

structure WellFormedLine (fields : List LineField) : Prop where
  safe : ∀ f ∈ fields, f.Safe
  shape : ∃ name kind rest, fields = .head name kind :: rest ∧ ∀ f ∈ rest, f.isHead = false

theorem WellFormedLine.ne_nil (h : WellFormedLine fields) : fields ≠ [] := by
  obtain ⟨-, -, -, rfl, -⟩ := h.shape
  simp

theorem LineField.parts_injective {g : LineField} (hh : f.isHead = g.isHead) (h : f.parts = g.parts) : f = g := by
  cases f <;> cases g <;> simp_all [LineField.isHead, LineField.parts]

theorem map_parts_injective {fields' : List LineField} (h : ∀ f ∈ fields, f.isHead = false)
    (h' : ∀ f ∈ fields', f.isHead = false) (heq : fields.map LineField.parts = fields'.map LineField.parts) :
    fields = fields' := by
  induction fields generalizing fields' with
  | nil =>
    exact (map_eq_nil_iff.mp heq.symm).symm
  | cons f fields ih =>
    cases fields' with
    | nil => simp at heq
    | cons f' fields' =>
      rw [map_cons, map_cons, List.cons.injEq] at heq
      have hh : f.isHead = f'.isHead := by rw [h f mem_cons_self, h' f' mem_cons_self]
      rw [LineField.parts_injective hh heq.1]
      rw [ih (fun k hk => h k (mem_cons_of_mem f hk)) (fun k hk => h' k (mem_cons_of_mem f' hk)) heq.2]

theorem WellFormedLine.eq_of_lineOf_eq {fields' : List LineField} (h : WellFormedLine fields)
    (h' : WellFormedLine fields') (heq : lineOf fields = lineOf fields') : fields = fields' := by
  have hp : fields.map LineField.parts = fields'.map LineField.parts := by
    rw [← readLine_lineOf h.ne_nil h.safe, heq, readLine_lineOf h'.ne_nil h'.safe]
  obtain ⟨name, kind, rest, rfl, hr⟩ := h.shape
  obtain ⟨name', kind', rest', rfl, hr'⟩ := h'.shape
  rw [map_cons, map_cons, List.cons.injEq] at hp
  congr 1
  · exact LineField.parts_injective rfl hp.1
  · exact map_parts_injective hr hr' hp.2

end

section

instance (s : String) : Decidable (PlainText s) :=
  decidable_of_iff (',' ∉ s.toList ∧ '\n' ∉ s.toList ∧ '\r' ∉ s.toList ∧ trimSpace s = s)
    ⟨fun h => ⟨h.1, h.2.1, h.2.2.1, h.2.2.2⟩, fun h => ⟨h.comma, h.feed, h.ret, h.trimmed⟩⟩

variable {s : String} {c : Char}

theorem not_mem_of_containsAny {chars : String} (h : containsAny s chars = false) (hc : c ∈ chars.toList) :
    c ∉ s.toList := by
  intro hm
  rw [containsAny, any_eq_false] at h
  have := h c hm
  simp [hc] at this

theorem plainText_of_containsAny {chars : String} (hs : trimSpace s = s) (h : containsAny s chars = false)
    (hc : ∀ c ∈ [',', '\n', '\r'], c ∈ chars.toList) : PlainText s where
  comma := not_mem_of_containsAny h (hc ',' (by simp))
  feed := not_mem_of_containsAny h (hc '\n' (by simp))
  ret := not_mem_of_containsAny h (hc '\r' (by simp))
  trimmed := hs

theorem PlainText.append {a b : String} (ha : PlainText a) (hb : PlainText b) (han : a ≠ "") (hbn : b ≠ "")
    (mid : String) (hm : ',' ∉ mid.toList ∧ '\n' ∉ mid.toList ∧ '\r' ∉ mid.toList) : PlainText (a ++ mid ++ b) := by
  have hn {s : String} (hs : s ≠ "") : s.toList ≠ [] := fun hn => hs (String.toList_inj.mp hn)
  have hno {c : Char} (h : c ∉ a.toList ∧ c ∉ mid.toList ∧ c ∉ b.toList) : c ∉ (a ++ mid ++ b).toList := by
    simp only [String.toList_append, mem_append, not_or]
    exact ⟨⟨h.1, h.2.1⟩, h.2.2⟩
  have ht := (trimmed_iff.mp ha.trimmed).append (trimmed_iff.mp hb.trimmed) (hn han) (hn hbn) mid.toList
  rw [← String.toList_append, ← String.toList_append] at ht
  exact ⟨hno ⟨ha.comma, hm.1, hb.comma⟩, hno ⟨ha.feed, hm.2.1, hb.feed⟩, hno ⟨ha.ret, hm.2.2, hb.ret⟩,
    trimmed_iff.mpr ht⟩

theorem plainText_of_chars (h : ∀ c ∈ s.toList, isSpace c = false ∧ c ≠ ',') : PlainText s := by
  have hno {c : Char} (hc : isSpace c = true) : c ∉ s.toList := by
    intro hm
    rw [(h c hm).1] at hc
    contradiction
  refine ⟨?_, hno (by decide), hno (by decide), trimmed_iff.mpr ⟨?_, ?_⟩⟩
  · intro hm
    exact (h ',' hm).2 rfl
  · intro a ha
    exact (h a (mem_of_mem_head? ha)).1
  · intro a ha
    exact (h a (mem_of_getLast? ha)).1

def isIntegerChar (c : Char) : Bool := c.isDigit || c == '-'

theorem integerChar_range (h : isIntegerChar c = true) : 45 ≤ c.toNat ∧ c.toNat ≤ 57 := by
  rw [isIntegerChar, Bool.or_eq_true, beq_iff_eq] at h
  obtain hdigit | rfl := h
  · have hr : 48 ≤ c.toNat ∧ c.toNat ≤ 57 := by
      simp only [Char.isDigit, Bool.and_eq_true, decide_eq_true_eq, UInt32.le_iff_toNat_le] at hdigit
      exact hdigit
    omega
  · decide

theorem isSpace_of_range (h : 45 ≤ c.toNat ∧ c.toNat ≤ 126) : isSpace c = false := by
  simp only [isSpace, Bool.or_eq_false_iff, decide_eq_false_iff_not, Bool.and_eq_false_iff]
  refine ⟨?_, ?_⟩
  · simp only [mem_cons, not_mem_nil, or_false, not_or]
    omega
  · left
    omega

theorem integerChar_of_mem_repr {n : ℕ} (h : c ∈ n.repr.toList) : isIntegerChar c = true := by
  rw [Nat.toList_repr] at h
  rw [isIntegerChar, Nat.isDigit_of_mem_toDigits (by decide) (by decide) h, Bool.true_or]

theorem integerChar_of_mem_toString {n : Int} (h : c ∈ (toString n).toList) : isIntegerChar c = true := by
  cases n with
  | ofNat n => exact integerChar_of_mem_repr h
  | negSucc n =>
    have h' : c ∈ ("-" ++ n.succ.repr).toList := h
    rw [String.toList_append, mem_append] at h'
    obtain hminus | hd := h'
    · have hc : c = '-' := by simpa using hminus
      rw [hc]
      decide
    · exact integerChar_of_mem_repr hd

theorem not_mem_toString {n : Int} (hc : isIntegerChar c = false) : c ∉ (toString n).toList := by
  intro hm
  rw [integerChar_of_mem_toString hm] at hc
  contradiction

theorem toString_ne_empty (n : Int) : toString n ≠ "" := by
  cases n with
  | ofNat n => exact Nat.repr_ne_empty
  | negSucc n =>
    intro h
    have he : "-" ++ n.succ.repr = "" := h
    have hl := congrArg String.length he
    simp [String.length_append] at hl

theorem plainText_toString (n : Int) : PlainText (toString n) := by
  apply plainText_of_chars
  intro c hc
  have hr := integerChar_range (integerChar_of_mem_toString hc)
  refine ⟨isSpace_of_range (by omega), ?_⟩
  rintro rfl
  exact absurd hr (by decide)

theorem plainText_address (p : NetPrefix) : PlainText p.addr := by
  apply plainText_of_chars
  intro c hc
  have hal : ∀ c ∈ "0123456789abcdef.:".toList, isSpace c = false ∧ c ≠ ',' :=
    all_iff_forall_prop.mp (by decide)
  have ha := p.addr_chars c hc
  rw [isAddressChar, contains_iff_mem] at ha
  exact hal c ha

end

def LineField.SafeParam : LineField → Prop
  | param key value => (PlainText key ∧ '=' ∉ key.toList) ∧ PlainText value
  | _ => False

section

theorem LineField.SafeParam.safe {f : LineField} (h : f.SafeParam) : f.Safe := by
  cases f with
  | head name kind | bare text => contradiction
  | param key value => exact h

theorem LineField.SafeParam.isHead {f : LineField} (h : f.SafeParam) : f.isHead = false := by
  cases f with
  | head name kind => contradiction
  | bare text | param key value => rfl

theorem safeParams_nonEmptyParam {key value : String} (hk : PlainText key ∧ '=' ∉ key.toList)
    (hvl : PlainText value) : ∀ f ∈ nonEmptyParam key value, f.SafeParam := by
  rw [nonEmptyParam]
  split_ifs
  · simp
  · simpa using ⟨hk, hvl⟩

theorem safeParams_ite {p : Prop} [Decidable p] {fs : List LineField} (h : ∀ f ∈ fs, f.SafeParam) :
    ∀ f ∈ (if p then fs else []), f.SafeParam := by
  split_ifs
  · exact h
  · simp

theorem firstNonEmpty_cases (values : List String) : firstNonEmpty values = "" ∨ firstNonEmpty values ∈ values := by
  rw [firstNonEmpty]
  cases hf : values.find? (· ≠ "") with
  | none => exact .inl rfl
  | some v => exact .inr (mem_of_find?_eq_some hf)

theorem plainText_empty : PlainText "" := by decide

theorem plainText_firstNonEmpty {values : List String} (h : ∀ v ∈ values, PlainText v) :
    PlainText (firstNonEmpty values) := by
  obtain hempty | hm := firstNonEmpty_cases values
  · rw [hempty]
    exact plainText_empty
  · exact h _ hm

end

end ClashSubParser
