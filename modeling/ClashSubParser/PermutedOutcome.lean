import ClashSubParser.PermutedInput

/-! When the order of nodes, groups and risk decisions cannot be seen in the outcome of `Resolve`. -/
namespace ClashSubParser

open List StableSort

/-- Both calls fail, or both return one snapshot up to the time it was made at. -/
def SameOutcome (r s : Except GoError ResolvedPolicySnapshot) : Prop :=
  match r, s with
  | .error _, .error _ => True
  | .ok a, .ok b => b = { a with resolvedAt := b.resolvedAt }
  | _, _ => False

/-- The JSON text and its SHA-256 do not make two arrangements of an input collide. -/
def DigestSeparates (rt : Runtime) (enc : Encoder) (i : ResolveInput) (now : Time) : Prop :=
  ∀ j, Permuted i j →
    computeInputDigest rt enc (normalizeInput j) now = computeInputDigest rt enc (normalizeInput i) now →
    canonicalInput rt (normalizeInput j) now = canonicalInput rt (normalizeInput i) now

section

variable {rt : Runtime} {enc : Encoder} {clock clock' : Clock} {ctxErr : Option GoError}
  {i j : ResolveInput}

theorem Permuted.sameOutcome (h : Permuted i j) (hi : Determinate i)
    (hc : ctxErr = none → validateInput rt (normalizeInput i) = .ok () → ConsistentDecisions rt i) :
    SameOutcome (resolve rt enc clock ctxErr i) (resolve rt enc clock' ctxErr j) := by
  cases ctxErr with
  | some err => trivial
  | none =>
    cases hvi : validateInput rt (normalizeInput i) with
    | ok u =>
      have hvj := h.validateInput_ok hvi
      have hs := @Permuted.snapshotOf_eq rt enc clock clock' _ _ h.normalized hi.normalized (hc rfl hvi)
      simp only [resolve, hvi, hvj, SameOutcome]
      rw [hs]
    | error err =>
      cases hvj : validateInput rt (normalizeInput j) with
      | error err' => simp [resolve, hvi, hvj, SameOutcome]
      | ok u =>
        have hb := h.symm.validateInput_ok hvj
        rw [hvi] at hb
        contradiction

theorem sortDecisions_swap_ne {d e : RiskDecision} (hn : d.nodeLogicalID = e.nodeLogicalID)
    (hrs : d.reasonCode = e.reasonCode)
    (hne : canonicalRiskDecision rt d ≠ canonicalRiskDecision rt e) (rest : List RiskDecision) :
    (sortDecisions (d :: e :: rest)).map (canonicalRiskDecision rt) ≠
      (sortDecisions (e :: d :: rest)).map (canonicalRiskDecision rt) := by
  intro heq
  let same (x : RiskDecision) : Bool := x.nodeLogicalID = d.nodeLogicalID && x.reasonCode = d.reasonCode
  let sameC (x : CanonicalRiskDecision) : Bool :=
    x.nodeLogicalID = d.nodeLogicalID && x.reasonCode = d.reasonCode
  -- the class of the two decisions comes out of the sort as it went in
  have hc (l : List RiskDecision) : ((sortDecisions l).map (canonicalRiskDecision rt)).filter sameC =
      (l.filter same).map (canonicalRiskDecision rt) := by
    rw [filter_map]
    congr 1
    refine filter_stableSort _ same (fun a b ha hb => ?_) l
    simp only [same, Bool.and_eq_true, decide_eq_true_eq] at ha hb
    rw [thenLess_false_iff]
    exact .inr ⟨hb.1.trans ha.1.symm, by simp [keyLess, ha.2, hb.2]⟩
  have hf := congrArg (List.filter sameC) heq
  rw [hc, hc] at hf
  have hd : same d = true := by simp [same]
  have he : same e = true := by simp [same, hn, hrs]
  simp only [filter_cons, hd, he, if_true, map_cons, List.cons.injEq] at hf
  exact hne hf.1

theorem canonicalInput_of_sameOutcome (hdg : DigestSeparates rt enc i clock.digestAsOf)
    (hv : validateInput rt (normalizeInput i) = .ok ()) (h : Permuted i j)
    (hs : SameOutcome (resolve rt enc clock none i) (resolve rt enc clock none j)) :
    canonicalInput rt (normalizeInput j) clock.digestAsOf =
      canonicalInput rt (normalizeInput i) clock.digestAsOf := by
  have hvj := h.validateInput_ok hv
  simp only [resolve, hv, hvj, SameOutcome] at hs
  exact hdg j h (congrArg (·.inputDigest) hs)

end

/-- For every input with distinct node and group IDs and a given time: all arrangements of its nodes,
groups and risk decisions have the same outcome exactly when, if it is accepted at all, decisions on
one node for one reason have the same canonical form. -/
theorem permuted_sameOutcome_iff {rt : Runtime} {enc : Encoder} {clock : Clock}
    {ctxErr : Option GoError} {i : ResolveInput} (hi : Determinate i)
    (hdigest : DigestSeparates rt enc i clock.digestAsOf) : (∀ j clock', Permuted i j →
      SameOutcome (resolve rt enc clock ctxErr i) (resolve rt enc clock' ctxErr j)) ↔
    (ctxErr = none → validateInput rt (normalizeInput i) = .ok () → ConsistentDecisions rt i) := by
  constructor
  · rintro ha rfl hv d hd e he hn hrs
    by_contra hne
    -- both decisions in front, in either order
    have hde : e ≠ d := by
      rintro rfl
      exact hne rfl
    have her : e ∈ i.riskDecisions.erase d := (mem_erase_of_ne hde).mpr he
    have hp : i.riskDecisions.Perm (d :: e :: (i.riskDecisions.erase d).erase e) :=
      (perm_cons_erase hd).trans ((perm_cons_erase her).cons d)
    have hj (l : List RiskDecision) (hl : i.riskDecisions.Perm l) :
        Permuted i { i with riskDecisions := l } := ⟨List.Perm.refl _, List.Perm.refl _, hl, rfl⟩
    have h₁ := hj _ hp
    have h₂ := hj _ (hp.trans (List.Perm.swap e d _))
    have hc₁ := canonicalInput_of_sameOutcome hdigest hv h₁ (ha _ clock h₁)
    have hc₂ := canonicalInput_of_sameOutcome hdigest hv h₂ (ha _ clock h₂)
    exact sortDecisions_swap_ne hn hrs hne _ (congrArg (·.riskDecisions) (hc₁.trans hc₂.symm))
  · intro hc j clock' h
    exact h.sameOutcome hi hc

def riskOn (node : Node) (decision : RiskAction) : RiskDecision where
  nodeLogicalID := node.logicalID
  policyRevisionID := "r1"
  decision := decision
  reasonCode := "latency"
  evaluatedAt := 63000000000000000000

def riskInput (decisions : List RiskDecision) : ResolveInput :=
  { readdInput with
    riskPolicyRevision := "r1"
    riskDecisions := decisions }

/-- Decisions on different nodes: their order is erased. -/
theorem riskInput_sameOutcome :
    let i := riskInput [riskOn nodeHK .block, riskOn nodeUS .allow]
    let j := riskInput [riskOn nodeUS .allow, riskOn nodeHK .block]
    Permuted i j ∧ SameOutcome (resolve asciiRuntime jsonEncoder sampleClock none i)
      (resolve asciiRuntime jsonEncoder sampleClock none j) := by
  intro i j
  have hp : Permuted i j := ⟨List.Perm.refl _, List.Perm.refl _, List.Perm.swap _ _ _, rfl⟩
  have hi : Determinate i := ⟨by decide, by decide, by decide⟩
  have hc : ConsistentDecisions asciiRuntime i := by
    unfold ConsistentDecisions
    decide
  have hdg : DigestSeparates asciiRuntime jsonEncoder i sampleClock.digestAsOf :=
    fun j h _ => h.normalized.canonicalInput_eq hi.normalized hc _ _
  exact ⟨hp, (permuted_sameOutcome_iff hi hdg).mpr (fun _ _ => hc) j sampleClock hp⟩

def oneNodeInput (decisions : List RiskDecision) : ResolveInput where
  nodes := [nodeHK]
  riskPolicyRevision := "r1"
  riskDecisions := decisions
  asOf := 63000000000000000000

/-- Two decisions on one node for one reason, in either order: both inputs are accepted, and their
digests differ. -/
theorem oneNodeInput_order_visible :
    let i := oneNodeInput [riskOn nodeHK .block, riskOn nodeHK .allow]
    let j := oneNodeInput [riskOn nodeHK .allow, riskOn nodeHK .block]
    Permuted i j ∧ Determinate i ∧
    ∃ a b, resolve asciiRuntime jsonEncoder sampleClock none i = .ok a ∧
      resolve asciiRuntime jsonEncoder sampleClock none j = .ok b ∧ a.inputDigest ≠ b.inputDigest := by
  intro i j
  have hv : validateInput asciiRuntime (normalizeInput i) = .ok () := by decide
  have hv' : validateInput asciiRuntime (normalizeInput j) = .ok () := by decide
  refine ⟨⟨List.Perm.refl _, List.Perm.refl _, List.Perm.swap _ _ _, rfl⟩, ⟨by decide, by decide, by decide⟩,
    _, _, resolve_eq_ok_iff.mpr ⟨rfl, hv, rfl⟩, resolve_eq_ok_iff.mpr ⟨rfl, hv', rfl⟩, ?_⟩
  change computeInputDigest asciiRuntime jsonEncoder (normalizeInput i) sampleClock.digestAsOf ≠
    computeInputDigest asciiRuntime jsonEncoder (normalizeInput j) sampleClock.digestAsOf
  rw [computeInputDigest_json, computeInputDigest_json]
  decide +kernel

end ClashSubParser
