import ClashSubParser.ResolveMembers

/-! Which of the rules with equal positions decides the admission of a node: the exchange loop that orders
them is not stable. -/
namespace ClashSubParser

open List StableSort

section

variable (rt : Runtime) (rules : List AdmissionRule) (node : Node)

/-- Whether the first rule of a list that matches the node keeps it out. -/
def firstExcludes : Bool :=
  (rules.find? (fun rule => matchesAdmissionExpression rt node rule.expression)).any
    (fun rule => rule.action = .reject || rule.action = .quarantine)

def LeastMatch (rule : AdmissionRule) : Prop :=
  rule ∈ rules ∧ matchesAdmissionExpression rt node rule.expression = true ∧
    ∀ r ∈ rules, matchesAdmissionExpression rt node r.expression = true → rule.position ≤ r.position

/-- At the least position that matches the node, the first matching rule says the same before and
after the ties have been rotated. -/
def TiesKeepVerdict : Prop :=
  ∀ rule, LeastMatch rt rules node rule →
    firstExcludes rt (rules.foldl (rotateTies (keyLess (·.position)) rule) []) node =
      firstExcludes rt (rules.filter (tied (keyLess (·.position)) rule)) node

end

section

variable {rt : Runtime} {rules : List AdmissionRule} {node : Node}

theorem admissionRuleVerdict_isSome : (admissionRuleVerdict rt rules node).isSome = firstExcludes rt rules node := by
  rw [admissionRuleVerdict, firstExcludes]
  cases rules.find? (fun rule => matchesAdmissionExpression rt node rule.expression) with
  | none => rfl
  | some rule => cases h : rule.action <;> simp [h]

theorem firstExcludes_sorted {sorted : List AdmissionRule} (hp : sorted.Perm rules)
    (hso : sorted.Pairwise (fun a b => keyLess (·.position) b a = false)) {rule : AdmissionRule}
    (h : LeastMatch rt rules node rule) :
    firstExcludes rt sorted node = firstExcludes rt (sorted.filter (tied (keyLess (·.position)) rule)) node := by
  obtain ⟨hm, hma, hl⟩ := h
  have hf := find?_sorted (keyLess_weakLess (fun r : AdmissionRule => r.position))
    (fun r => matchesAdmissionExpression rt node r.expression) hma hso (hp.mem_iff.mpr hm) (by
      intro r hr hr'
      simpa [keyLess] using hl r (hp.mem_iff.mp hr) hr')
  rw [firstExcludes, hf, firstExcludes]

theorem firstExcludes_eq_false (h : ∀ rule ∈ rules, matchesAdmissionExpression rt node rule.expression = false) :
    firstExcludes rt rules node = false := by
  have hn : rules.find? (fun rule => matchesAdmissionExpression rt node rule.expression) = none := by
    rw [find?_eq_none]
    intro rule hr
    simp [h rule hr]
  rw [firstExcludes, hn]
  rfl

theorem exists_leastMatch (h : ∃ rule ∈ rules, matchesAdmissionExpression rt node rule.expression = true) :
    ∃ rule, LeastMatch rt rules node rule := by
  obtain ⟨rule, hru, hma⟩ := h
  let matching := rules.filter (fun r => matchesAdmissionExpression rt node r.expression)
  -- the first of the matching rules once they are sorted
  have hso := stableSort_pairwise (keyLess_weakLess (fun r : AdmissionRule => r.position)) matching
  have hm (r : AdmissionRule) := mem_stableSort (keyLess (fun r : AdmissionRule => r.position)) matching r
  cases hlist : stableSort (keyLess (fun r : AdmissionRule => r.position)) matching with
  | nil =>
    have hin := (hm rule).mpr (mem_filter.mpr ⟨hru, hma⟩)
    rw [hlist] at hin
    contradiction
  | cons first rest =>
    rw [hlist] at hso hm
    obtain ⟨hf, hf'⟩ := mem_filter.mp ((hm first).mp mem_cons_self)
    refine ⟨first, hf, hf', ?_⟩
    intro r hr hr'
    rcases mem_cons.mp ((hm r).mpr (mem_filter.mpr ⟨hr, hr'⟩)) with rfl | hre
    · exact le_refl _
    · simpa [keyLess] using (pairwise_cons.mp hso).1 r hre

end

/-- An active node that no risk decision excludes is kept out as the rules in stable order say, exactly
when the rotation of ties leaves the verdict of its first matching rule. -/
theorem excluded_by_first_match_iff {rt : Runtime} {nodes : List Node} {rules : List AdmissionRule}
    {excluded : List String} {node : Node} (hnode : node ∈ nodes) (hactive : node.active = true)
    (hrisk : node.logicalID ∉ excluded) : (node ∉ (evaluateNodeAdmission rt nodes rules excluded).admittedNodes ↔
      firstExcludes rt (stableSort (keyLess (·.position)) rules) node = true) ↔ TiesKeepVerdict rt rules node := by
  have hl := keyLess_weakLess (fun r : AdmissionRule => r.position)
  have hv : node ∉ (evaluateNodeAdmission rt nodes rules excluded).admittedNodes ↔
      firstExcludes rt (sortAdmissionRules rules) node = true := by
    have hm : node ∈ (evaluateNodeAdmission rt nodes rules excluded).admittedNodes ↔
        (admissionRuleVerdict rt (sortAdmissionRules rules) node).isNone = true := by
      simp [evaluateNodeAdmission, admissionVerdict, hnode, hactive, hrisk]
    rw [hm, ← admissionRuleVerdict_isSome]
    cases admissionRuleVerdict rt (sortAdmissionRules rules) node <;> simp
  have hs {rule : AdmissionRule} (hru : LeastMatch rt rules node rule) :
      firstExcludes rt (stableSort (keyLess (·.position)) rules) node =
        firstExcludes rt (rules.filter (tied (keyLess (·.position)) rule)) node := by
    rw [firstExcludes_sorted (stableSort_perm _ _) (stableSort_pairwise hl _) hru,
      filter_stableSort _ _ (tied_class hl rule)]
  have he {rule : AdmissionRule} (hru : LeastMatch rt rules node rule) :
      firstExcludes rt (sortAdmissionRules rules) node =
        firstExcludes rt (rules.foldl (rotateTies (keyLess (·.position)) rule) []) node := by
    rw [sortAdmissionRules, firstExcludes_sorted (exchangeSort_perm _ _ _)
      (exchangeSort_pairwise hl _ _ (Nat.le_refl _)) hru, filter_exchangeSort hl _ _ (Nat.le_refl _)]
  rw [hv, ← Bool.eq_iff_iff]
  constructor
  · intro heq rule hru
    rw [← hs hru, ← he hru, heq]
  · intro ht
    by_cases ha : ∃ rule ∈ rules, matchesAdmissionExpression rt node rule.expression = true
    · obtain ⟨rule, hru⟩ := exists_leastMatch ha
      rw [hs hru, he hru, ht rule hru]
    · -- without a matching rule the node is admitted in any order
      have hn (rule : AdmissionRule) (hru : rule ∈ rules) :
          matchesAdmissionExpression rt node rule.expression = false := by
        by_contra hma
        exact ha ⟨rule, hru, by simpa using hma⟩
      rw [sortAdmissionRules, firstExcludes_eq_false fun r hr => hn r ((exchangeSort_perm _ _ _).mem_iff.mp hr),
        firstExcludes_eq_false fun r hr => hn r ((mem_stableSort _ _ _).mp hr)]

def admissionRule (expression : String) (action : RuleAction) (position : Int) : AdmissionRule :=
  ⟨"", "", "", expression, action, position⟩

theorem excluded_by_first_match_sample : nodeHK ∉ (evaluateNodeAdmission asciiRuntime [nodeHK]
      [admissionRule "*" .reject 2, admissionRule "*" .allow 2] []).admittedNodes ↔
    firstExcludes asciiRuntime (stableSort (keyLess (·.position))
      [admissionRule "*" .reject 2, admissionRule "*" .allow 2]) nodeHK = true := by
  refine (excluded_by_first_match_iff mem_cons_self rfl not_mem_nil).mpr ?_
  intro rule hr
  rcases mem_pair.mp hr.1 with rfl | rfl <;> decide

/-- A rule for other nodes that is written behind two ties and stands before them swaps the ties: the
node is rejected, although the first rule written for it allows it. -/
theorem exchanged_rules_reject :
    let rules := [admissionRule "*" .allow 2, admissionRule "*" .reject 2, admissionRule "id == x" .allow 1]
    nodeHK ∉ (evaluateNodeAdmission asciiRuntime [nodeHK] rules []).admittedNodes ∧
    firstExcludes asciiRuntime (stableSort (keyLess (·.position)) rules) nodeHK = false := by
  refine ⟨?_, by decide⟩
  have hn : (evaluateNodeAdmission asciiRuntime [nodeHK] [admissionRule "*" .allow 2, admissionRule "*" .reject 2,
      admissionRule "id == x" .allow 1] []).admittedNodes.length = 0 := by decide
  exact not_mem_nil

end ClashSubParser
