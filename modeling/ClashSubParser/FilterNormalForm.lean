import ClashSubParser.ResolveMembers
import ClashSubParser.TrimmedText

/-! What a filter condition is checked as, and what it is matched as. -/
namespace ClashSubParser

open List FirstError Strings FilterCondition

/-- The case tables of `unicode` as far as they matter: ASCII, and folding as an equivalence. -/
structure Runtime.CaseTables (rt : Runtime) : Prop where
  lower : ∀ c : Char, c.toNat < 128 → rt.toLowerRune c = c.toLower
  refl : ∀ c, rt.foldRune c c = true
  symm : ∀ c d, rt.foldRune c d = true → rt.foldRune d c = true
  trans : ∀ c d e, rt.foldRune c d = true → rt.foldRune d e = true → rt.foldRune c e = true

section

variable (rt : Runtime)

def canonicalProtocol (s : String) : String :=
  let norm := toLower rt (trimSpace s)
  if norm = "socks" then "socks5" else norm

namespace FilterCondition

variable (c : FilterCondition)

def normalised : FilterCondition :=
  { c with
    field := toLower rt (trimSpace c.field)
    op := toLower rt (trimSpace c.op)
    value :=
      match (parseFilterField rt c.field).toOption with
      | some .protocol => canonicalProtocol rt (trimSpace c.value)
      | some .probeVerdict => toLower rt (trimSpace (trimSpace c.value))
      | _ => trimSpace c.value }

/-- The value as it is written stands for the one that was checked: expressions and verdicts are
trimmed again before they are used, a protocol is compared up to case, and anything else has to be
written without blanks around it. -/
def WrittenAsChecked : Prop :=
  match (parseFilterField rt c.field).toOption, (parseFilterOp rt c.op).toOption with
  | some .displayName, some .regex | some .displayName, some .notRegex | some .probeVerdict, _ => True
  | some .protocol, _ => equalFold rt (canonicalProtocol rt (trimSpace c.value)) c.value = true
  | _, _ => trimSpace c.value = c.value

end FilterCondition

end

section

variable {rt : Runtime} (h : rt.CaseTables)

def isPlainWord (w : String) : Bool := w.toList.all (fun c => c.toNat < 128 && c.toLower = c && !isSpace c)

include h in
theorem lower_word {w : String} (hw : isPlainWord w = true) : toLower rt (trimSpace w) = w := by
  simp only [isPlainWord, all_eq_true, Bool.and_eq_true, decide_eq_true_eq, Bool.not_eq_true'] at hw
  have hm : w.toList.map rt.toLowerRune = w.toList.map id := by
    apply map_congr_left
    intro c hc
    rw [h.lower c (hw c hc).1.1, (hw c hc).1.2]
    rfl
  rw [trimSpace_eq_self fun c hc => (hw c hc).2, toLower, hm, map_id, String.ofList_toList]

include h in
theorem parseFilterField_normalised {s : String} {field : FilterField} (hs : parseFilterField rt s = .ok field) :
    parseFilterField rt (toLower rt (trimSpace s)) = .ok field := by
  unfold parseFilterField at hs ⊢
  split at hs
  case h_6 => simp [invalid] at hs
  all_goals
    next heq =>
      rw [heq, lower_word h (by decide)]
      exact hs

include h in
theorem parseFilterOp_normalised {s : String} {op : FilterOp} (hs : parseFilterOp rt s = .ok op) :
    parseFilterOp rt (toLower rt (trimSpace s)) = .ok op := by
  unfold parseFilterOp at hs ⊢
  split at hs
  case h_8 => simp [invalid] at hs
  all_goals
    next heq =>
      rw [heq, lower_word h (by decide)]
      exact hs

theorem equalFold_iff {s t : String} :
    equalFold rt s t = true ↔ List.Forall₂ (fun c d => rt.foldRune c d = true) s.toList t.toList := by
  simp only [equalFold, Bool.and_eq_true, beq_iff_eq, all_eq_true, List.forall₂_iff_zip, Prod.forall]

include h in
theorem equalFold_refl (s : String) : equalFold rt s s = true :=
  equalFold_iff.mpr (List.forall₂_same.mpr fun c _ => h.refl c)

include h in
theorem equalFold_congr {s t : String} (hst : equalFold rt s t = true) (p : String) :
    equalFold rt p s = equalFold rt p t := by
  have ht {l₁ l₂ l₃ : List Char} (h₁ : List.Forall₂ (fun c d => rt.foldRune c d = true) l₁ l₂)
      (h₂ : List.Forall₂ (fun c d => rt.foldRune c d = true) l₂ l₃) :
      List.Forall₂ (fun c d => rt.foldRune c d = true) l₁ l₃ := by
    induction h₁ generalizing l₃ with
    | nil => exact h₂
    | cons hcd _ ih =>
      cases h₂ with
      | cons hde hr => exact .cons (h.trans _ _ _ hcd hde) (ih hr)
  have hs' := equalFold_iff.mp hst
  have hts : List.Forall₂ (fun c d => rt.foldRune c d = true) t.toList s.toList :=
    hs'.flip.imp fun c d hcd => h.symm _ _ hcd
  rw [Bool.eq_iff_iff, equalFold_iff, equalFold_iff]
  exact ⟨fun hp => ht hp hs', fun hp => ht hp hts⟩

end

section

variable {rt : Runtime} {c c' : FilterCondition}

theorem trimSpace_eq_of_length {s : String} (h : s.toList.length ≤ (trimSpace s).toList.length) : trimSpace s = s := by
  have hs : (trimSpace s).toList.Sublist s.toList := by
    rw [trimSpace, String.toList_ofList]
    exact ( rdropWhile_prefix _ _).sublist.trans (dropWhile_sublist _)
  exact String.toList_inj.mp (hs.eq_of_length_le h)

theorem beq_eq_beq_iff (a b d : Bool) : (a == d) = (b == d) ↔ a = b := by
  revert a b d
  decide

theorem displayName_same_iff {op : FilterOp} (hop : op = .contains ∨ op = .notContains)
    (hv : c'.value = trimSpace c.value) :
    (∀ node, (matchesDisplayName rt c' (some op) node).1 = (matchesDisplayName rt c (some op) node).1) ↔
      trimSpace c.value = c.value := by
  have hve (c : FilterCondition) (node : Node) : (matchesDisplayName rt c (some op) node).1 =
      (contains (toLower rt node.displayName) (toLower rt c.value) == decide (op = .contains)) := by
    rcases hop with rfl | rfl <;> simp only [matchesDisplayName] <;>
      cases contains (toLower rt node.displayName) (toLower rt c.value) <;> rfl
  simp only [hve, beq_eq_beq_iff, hv]
  constructor
  · intro h
    have hs : contains (toLower rt (trimSpace c.value)) (toLower rt (trimSpace c.value)) = true :=
      decide_eq_true (infix_refl _)
    have hn := (h { nodeHK with displayName := trimSpace c.value }).symm.trans hs
    -- lowering keeps the length, so the value is no longer than its trimmed form
    have hl := (of_decide_eq_true hn).length_le
    simp only [toLower, String.toList_ofList, length_map] at hl
    exact trimSpace_eq_of_length hl
  · intro h node
    rw [h]

theorem regex_same {op : FilterOp} (hop : op = .regex ∨ op = .notRegex) (hv : c'.value = trimSpace c.value)
    (node : Node) : (matchesDisplayName rt c' (some op) node).1 = (matchesDisplayName rt c (some op) node).1 := by
  have hc : compileFilterRegex rt c'.value = compileFilterRegex rt c.value := by
    rw [hv, compileFilterRegex, compileFilterRegex, trimSpace_trimSpace]
  have hr : some op = some FilterOp.regex ∨ some op = some FilterOp.notRegex := hop.imp (congrArg some) (congrArg some)
  rw [matchesDisplayName, matchesDisplayName, if_pos hr, if_pos hr, hc]
  cases compileFilterRegex rt c.value with
  | error err => rfl
  | ok re =>
    dsimp only
    cases re node.displayName with
    | error err => rfl
    | ok matched => rcases hop with rfl | rfl <;> cases matched <;> simp

theorem protocol_same_iff (h : rt.CaseTables) {op : FilterOp} (hop : op = .equals ∨ op = .notEquals)
    {p : Protocol} (hv : c'.value = p.text) :
    (∀ node, (matchesProtocol rt c' (some op) node).1 = (matchesProtocol rt c (some op) node).1) ↔
      equalFold rt c'.value c.value = true := by
  have hve (c : FilterCondition) (node : Node) : (matchesProtocol rt c (some op) node).1 =
      (equalFold rt node.protocol.text c.value == decide (op = .equals)) := by
    rcases hop with rfl | rfl <;> simp only [matchesProtocol] <;>
      cases equalFold rt node.protocol.text c.value <;> rfl
  simp only [hve, beq_eq_beq_iff, hv]
  constructor
  · intro ha
    exact (ha { nodeHK with protocol := p }).symm.trans (equalFold_refl h p.text)
  · intro heq node
    exact equalFold_congr h heq _

theorem sources_same_iff {op : FilterOp} (hop : op = .contains ∨ op = .notContains)
    (hv : c'.value = trimSpace c.value) : (∀ sources, (matchesSourceSubscriptions c' (some op) sources).1 =
      (matchesSourceSubscriptions c (some op) sources).1) ↔ trimSpace c.value = c.value := by
  have hve (c : FilterCondition) (sources : List NodeSource) :
      (matchesSourceSubscriptions c (some op) sources).1 =
        (sources.any (fun s => s.subscriptionID == c.value) == decide (op = .contains)) := by
    rcases hop with rfl | rfl <;> simp only [matchesSourceSubscriptions] <;>
      cases sources.any (fun s => s.subscriptionID == c.value) <;> rfl
  simp only [hve, beq_eq_beq_iff, hv]
  constructor
  · intro h
    simpa using h [⟨"", trimSpace c.value, ""⟩]
  · intro h sources
    rw [h]

theorem verdict_same (hk : c'.probeKind = c.probeKind) (hfr : c'.freshnessSeconds = c.freshnessSeconds)
    (hv : toLower rt (trimSpace c'.value) = toLower rt (trimSpace c.value)) (op : Option FilterOp)
    (obs : GoMap ProbeObservation) (asOf : Time) :
    matchesProbe rt c' .probeVerdict op obs asOf = matchesProbe rt c .probeVerdict op obs asOf := by
  have hw : freshnessOf c' = freshnessOf c := by rw [freshnessOf, freshnessOf, hfr]
  simp only [matchesProbe, hk, hw, hv, if_true]

theorem trimSpace_of_parseInt {s : String} {n : Int} (h : Strconv.parseInt s = some n) : trimSpace s = s := by
  have hdi {cs : List Char} {m : ℕ} (hcs : (if cs ≠ [] ∧ cs.all Char.isDigit then
      some (cs.foldl (fun n c => 10*n + (c.toNat - 48)) 0) else none) = some m) : ∀ c ∈ cs, isSpace c = false := by
    split_ifs at hcs with ha
    intro c hc
    have hd := all_eq_true.mp ha.2 c hc
    have hr : 48 ≤ c.toNat ∧ c.toNat ≤ 57 := by
      rw [Char.isDigit, Bool.and_eq_true, decide_eq_true_eq, decide_eq_true_eq] at hd
      exact ⟨UInt32.le_iff_toNat_le.mp hd.1, UInt32.le_iff_toNat_le.mp hd.2⟩
    simp only [isSpace, mem_cons, not_mem_nil, or_false, Bool.or_eq_false_iff, decide_eq_false_iff_not,
      Bool.and_eq_false_iff]
    omega
  apply trimSpace_eq_self
  rw [Strconv.parseInt] at h
  -- a sign, or the first digit
  split at h <;> obtain ⟨m, hm, -⟩ := Option.bind_eq_some_iff.mp h
  · next heq =>
    rw [heq]
    exact forall_mem_cons.mpr ⟨by decide, hdi hm⟩
  · next heq =>
    rw [heq]
    exact forall_mem_cons.mpr ⟨by decide, hdi hm⟩
  · exact hdi hm

theorem latency_same_iff {kind : ProbeKind} {n : Int} (hk : c'.probeKind = some kind ∧ c.probeKind = some kind)
    (hfr : freshnessOf c' = freshnessOf c) (hw : ¬Time.seconds (freshnessOf c) < 0)
    (hv : c'.value = trimSpace c.value) (hn : Strconv.parseInt (trimSpace c.value) = some n) (op : Option FilterOp) :
    (∀ obs asOf, (matchesProbe rt c' .probeLatencyMS op obs asOf).1 =
      (matchesProbe rt c .probeLatencyMS op obs asOf).1) ↔ trimSpace c.value = c.value := by
  constructor
  · intro h
    cases hr : Strconv.parseInt c.value with
    | some m => exact trimSpace_of_parseInt hr
    | none =>
      -- a fresh observation that is as slow as the threshold
      have ho := h ⟨[(kind.text, ⟨kind, .available, 0, n⟩)], pairwise_singleton _ _⟩ 0
      have ha : Time.sub 0 0 = 0 := by decide
      simp [matchesProbe, hk.1, hk.2, hfr, hv, hn, hr, GoMap.get?, ha, hw] at ho
  · intro h obs asOf
    simp only [matchesProbe, hk.1, hk.2, hfr, hv, h]

end

theorem FilterCondition.seconds_nonneg {rt : Runtime} {c : FilterCondition} {field : String}
    (h : c.validateProbe rt field = .ok ()) :
    (∃ kind, c.probeKind = some kind) ∧ ¬Time.seconds (freshnessOf c) < 0 := by
  rw [validateProbe, ite_invalid_eq_ok, Bool.not_eq_false, Option.any_eq_true] at h
  obtain ⟨⟨kind, hk, -⟩, h⟩ := h
  refine ⟨⟨kind, hk⟩, ?_⟩
  rw [freshnessOf]
  cases hsec : c.freshnessSeconds with
  | none => decide
  | some n =>
    simp only [hsec, ite_invalid_eq_ok] at h
    have hn : 0 < n := by omega
    dsimp only
    rw [if_pos hn, Time.seconds, Int.bmod_eq_of_le] <;> omega

theorem exists_protocol {rt : Runtime} {s : String} (h : parsesProtocol rt s = true) :
    ∃ p : Protocol, canonicalProtocol rt s = p.text := by
  rw [parsesProtocol, contains_iff_mem] at h
  rw [canonicalProtocol]
  generalize toLower rt (trimSpace s) = norm at h ⊢
  simp only [mem_cons, not_mem_nil, or_false] at h
  rcases h with rfl | rfl | rfl | rfl | rfl | rfl | rfl | rfl | rfl | rfl | rfl
  exacts [⟨.socks5, rfl⟩, ⟨.ss, rfl⟩, ⟨.vmess, rfl⟩, ⟨.vless, rfl⟩, ⟨.trojan, rfl⟩, ⟨.hysteria2, rfl⟩,
    ⟨.wireguard, rfl⟩, ⟨.tuic, rfl⟩, ⟨.http, rfl⟩, ⟨.socks5, rfl⟩, ⟨.anytls, rfl⟩]

theorem lower_verdict {rt : Runtime} (ht : rt.CaseTables) {s : String} (h : parsesProbeVerdict rt s = true) :
    toLower rt (trimSpace (toLower rt (trimSpace s))) = toLower rt (trimSpace s) := by
  rw [parsesProbeVerdict, contains_iff_mem] at h
  apply lower_word ht
  revert h
  generalize toLower rt (trimSpace s) = norm
  revert norm
  decide

/-- A condition that passed its check matches as it was checked exactly when its value is written that
way. -/
theorem normalised_matches_iff {rt : Runtime} (htables : rt.CaseTables) {c : FilterCondition}
    (h : c.validate rt = .ok ()) :
    (∀ node sources obs asOf, (matchesCondition rt (c.normalised rt) node sources obs asOf).1 =
      (matchesCondition rt c node sources obs asOf).1) ↔ c.WrittenAsChecked rt := by
  obtain ⟨field, hf, h⟩ := bind_eq_ok_iff.mp h
  obtain ⟨op, hop, h⟩ := bind_eq_ok_iff.mp h
  have hf' : parseFilterField rt (c.normalised rt).field = .ok field := parseFilterField_normalised htables hf
  have ho' : parseFilterOp rt (c.normalised rt).op = .ok op := parseFilterOp_normalised htables hop
  have hks : (c.normalised rt).probeKind = c.probeKind := by dsimp only [normalised]
  have hs : (c.normalised rt).freshnessSeconds = c.freshnessSeconds := by
    dsimp only [normalised]
  have hvl : (c.normalised rt).value = match some field with
      | some .protocol => canonicalProtocol rt (trimSpace c.value)
      | some .probeVerdict => toLower rt (trimSpace (trimSpace c.value))
      | _ => trimSpace c.value := by
    rw [normalised, hf]
    rfl
  simp only [matchesCondition, hf, hop, hf', ho', FilterCondition.WrittenAsChecked, Except.toOption]
  cases field with
  | displayName =>
    change c.validateDisplayName rt op (trimSpace c.value) = .ok () at h
    rw [validateDisplayName, ite_invalid_eq_ok] at h
    have ho := h.1
    simp only [ne_eq, not_and_or, not_not] at ho
    rcases or_assoc.mpr ho with hop | hop
    · refine Iff.trans ⟨fun ha node => ha node [] GoMap.empty 0, fun ha node _ _ _ => ha node⟩
        ((displayName_same_iff hop hvl).trans ?_)
      rcases hop with rfl | rfl <;> rfl
    · have hsa (node : Node) := @regex_same rt c (c.normalised rt) op hop hvl node
      rcases hop with rfl | rfl <;> exact ⟨fun _ => trivial, fun _ node _ _ _ => hsa node⟩
  | protocol =>
    change c.validateProtocol rt op (trimSpace c.value) = .ok () at h
    rw [validateProtocol, ite_invalid_eq_ok, ite_invalid_eq_ok] at h
    have hop := h.1
    simp only [ne_eq, not_and_or, not_not] at hop
    obtain ⟨p, hp⟩ : ∃ p : Protocol, (c.normalised rt).value = p.text :=
      hvl ▸ exists_protocol (Bool.not_eq_false _ ▸ h.2.1)
    refine Iff.trans ⟨fun ha node => ha node [] GoMap.empty 0, fun ha node _ _ _ => ha node⟩
      ((protocol_same_iff htables hop hp).trans ?_)
    rw [hvl]
  | sourceSubscriptions =>
    change c.validateSourceSubscriptions rt op (trimSpace c.value) = .ok () at h
    rw [validateSourceSubscriptions, ite_invalid_eq_ok] at h
    have hop := h.1
    simp only [ne_eq, not_and_or, not_not] at hop
    exact Iff.trans ⟨fun ha sources => ha nodeHK sources GoMap.empty 0, fun ha _ sources _ _ => ha sources⟩
      (sources_same_iff hop hvl)
  | probeVerdict =>
    change c.validateProbeVerdict rt op (trimSpace c.value) = .ok () at h
    rw [validateProbeVerdict, ite_invalid_eq_ok, ite_invalid_eq_ok] at h
    have hv : toLower rt (trimSpace (c.normalised rt).value) = toLower rt (trimSpace c.value) := by
      rw [hvl, lower_verdict htables (by simpa using h.2.1), trimSpace_trimSpace]
    refine ⟨fun _ => trivial, fun _ node _ obs asOf => ?_⟩
    exact congrArg Prod.fst (@verdict_same rt c (c.normalised rt) hks hs hv (some op) obs asOf)
  | probeLatencyMS =>
    change c.validateProbeLatency rt op (trimSpace c.value) = .ok () at h
    rw [validateProbeLatency, ite_invalid_eq_ok, ite_invalid_eq_ok, Bool.not_eq_false,
      Option.any_eq_true] at h
    obtain ⟨-, ⟨n, hn, -⟩, hpr⟩ := h
    obtain ⟨⟨kind, hk⟩, hw⟩ := seconds_nonneg hpr
    exact Iff.trans ⟨fun ha obs asOf => ha nodeHK [] obs asOf, fun ha _ _ obs asOf => ha obs asOf⟩
      (latency_same_iff ⟨hks.trans hk, hk⟩ (by rw [freshnessOf, freshnessOf, hs]) hw hvl hn _)

theorem asciiRuntime_caseTables : asciiRuntime.CaseTables := by
  refine ⟨fun c _ => rfl, ?_, ?_, ?_⟩ <;> simp only [asciiRuntime, beq_iff_eq]
  · exact fun _ => trivial
  · exact fun c d h => h.symm
  · exact fun c d e h h' => h.trans h'

def protocolIs (value : String) : FilterCondition := { field := "protocol", op := "equals", value := value }

theorem normalised_matches_trojan :
    (matchesCondition asciiRuntime ((protocolIs "Trojan").normalised asciiRuntime) nodeHK [] GoMap.empty 0).1 =
      (matchesCondition asciiRuntime (protocolIs "Trojan") nodeHK [] GoMap.empty 0).1 :=
  (normalised_matches_iff asciiRuntime_caseTables (by decide)).mpr (by
    change equalFold asciiRuntime (canonicalProtocol asciiRuntime (trimSpace "Trojan")) "Trojan" = true
    decide) nodeHK [] GoMap.empty 0

/-- The alias `socks` passes the check as `socks5` and matches no node of that protocol. -/
theorem socks_accepted_and_unmatched : (protocolIs "socks").validate asciiRuntime = .ok () ∧
    (matchesCondition asciiRuntime ((protocolIs "socks").normalised asciiRuntime)
      { nodeHK with protocol := .socks5 } [] GoMap.empty 0).1 = true ∧
    (matchesCondition asciiRuntime (protocolIs "socks") { nodeHK with protocol := .socks5 } [] GoMap.empty 0).1 =
      false := by
  refine ⟨by decide, by decide, by decide⟩

end ClashSubParser
