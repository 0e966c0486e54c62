import ClashSubParser.ResolveMembers
import ClashSubParser.RiskFusion

/-! The decision for one node: that there is one, when it may be `allow`, and how strict it is. -/
namespace ClashSubParser

open List FirstError RiskAction

section

variable {rt : Runtime} {policy : RiskPolicy} {nodeLogicalID expectedExitDigest : String}
  {observations : List IPRiskObservation} {evaluatedAt : Time}

theorem evaluateNodeCore_eq_ok_iff {eval : NodeEvaluation} :
    evaluateNodeCore rt policy nodeLogicalID expectedExitDigest observations evaluatedAt = .ok eval ↔
      let rs := providerResults rt policy nodeLogicalID expectedExitDigest observations evaluatedAt
      ∃ fused, fuse policy rs rt = .ok fused ∧
        (constructDecision rt policy nodeLogicalID evaluatedAt rs fused).validate rt = .ok () ∧
        (constructSummary rt policy fused).validate rt = .ok () ∧
        eval = ⟨constructDecision rt policy nodeLogicalID evaluatedAt rs fused,
          constructSummary rt policy fused, fused.band, fused.action⟩ := by
  rw [evaluateNodeCore, bind_eq_ok_iff]
  refine exists_congr fun f => and_congr_right fun _ => ?_
  rw [bind_unit_eq_ok_iff, wrapError_eq_ok_iff, bind_unit_eq_ok_iff, wrapError_eq_ok_iff, Except.ok.injEq,
    @eq_comm _ _ eval]

theorem valid_of_latestByProvider (hob : ∀ o ∈ observations, o.validate rt = .ok ()) {key : String} :
    ∀ o, latestByProvider nodeLogicalID observations key = some o → o.Valid := by
  intro o ho
  exact IPRiskObservation.valid_of_validate (hob o (isLatest_of_latestByProvider ho).mem)

variable (nodeLogicalID expectedExitDigest evaluatedAt) in
theorem providerResult_outcome (hv : policy.Valid rt) (ho : ∀ o ∈ observations, o.validate rt = .ok ())
    (ref : ProviderRef) : ProviderOutcome policy ref evaluatedAt (latestByProvider nodeLogicalID observations ref.key)
      (providerResult rt policy nodeLogicalID expectedExitDigest observations evaluatedAt ref) :=
  evaluateSingleProviderObservation_outcome hv ref expectedExitDigest evaluatedAt (valid_of_latestByProvider ho)

variable (nodeLogicalID expectedExitDigest evaluatedAt) in
theorem providerResults_sound (hv : policy.Valid rt) (ho : ∀ o ∈ observations, o.validate rt = .ok ()) :
    ∀ r ∈ providerResults rt policy nodeLogicalID expectedExitDigest observations evaluatedAt, r.Sound := by
  intro r hr
  obtain ⟨ref, -, rfl⟩ := mem_map.mp hr
  exact (providerResult_outcome nodeLogicalID expectedExitDigest evaluatedAt hv ho ref).sound
    (valid_of_latestByProvider ho)

variable (nodeLogicalID expectedExitDigest evaluatedAt) in
theorem exists_fuse (hv : policy.Valid rt) (ho : ∀ o ∈ observations, o.validate rt = .ok ()) :
    let results := providerResults rt policy nodeLogicalID expectedExitDigest observations evaluatedAt
    ∃ f, fuse policy results rt = .ok f ∧ f.Shown results ∧ FusedAction policy results f.action :=
  fuse_eq_ok hv (length_map _) (providerResults_sound nodeLogicalID expectedExitDigest evaluatedAt hv ho)

theorem FusedAction.isPolicyAction {rs : List ProviderEvalResult} {a : RiskAction}
    (h : FusedAction policy rs a) (hsd : ∀ r ∈ rs, r.Sound) : a.isPolicyAction = true := by
  cases h with
  | blocked | review | passed => rfl
  | unknown => exact isPolicyAction_effectiveAction policy.unknownAction
  | best res hr hkn => exact (hsd res hr).known (hkn res hr)

theorem FusedAction.allow {rs : List ProviderEvalResult} (h : FusedAction policy rs .allow) :
    policy.unknownAction = .allow ∨ ∀ r ∈ rs, r.isAvailable = true := by
  suffices hgen : ∀ a, FusedAction policy rs a → a = .allow →
      policy.unknownAction = .allow ∨ ∀ r ∈ rs, r.isAvailable = true from hgen _ h rfl
  intro a ha hal
  cases ha with
  | blocked | review => cases hal
  | unknown => exact .inl (effectiveAction_eq_allow_iff.mp hal)
  | passed hkn | best res hr hkn => exact .inr hkn

theorem validate_constructDecision (hv : policy.Valid rt) (hn : isValidLogicalID nodeLogicalID = true)
    (ht : ¬evaluatedAt.IsZero) {rs : List ProviderEvalResult} (hsd : ∀ r ∈ rs, r.Sound)
    {f : Fused} (hsh : f.Shown rs) (hac : f.action.isPolicyAction = true) :
    (constructDecision rt policy nodeLogicalID evaluatedAt rs f).validate rt = .ok () := by
  have hs := hsh.reason.isSafeText
  have hva : f.action.isValid = true := isValid_of_isPolicyAction hac
  simp only [NodeRiskDecision.validate, constructDecision, normalizeReasonCode_of_isSafeText hs, hn,
    hv.revision, hva, isReasonCode_of_isSafeText hs, containsSensitiveIPRiskText_of_isSafeText hs, ht,
    forEachDistinct_eq_ok_iff, ite_invalid_eq_ok]
  refine ⟨by simp, by simp, ?_, ?_, by simp⟩
  · intro digest hd
    rw [mem_sortedSet, mem_filter] at hd
    obtain ⟨r, hr, rfl⟩ := mem_map.mp hd.1
    have hdg := (hsd r hr).digest (by simpa using hd.2)
    simp [hdg]
  · simpa using sortedSet_nodup _

theorem validate_constructSummary (hv : policy.Valid rt) {f : Fused} (hb : f.band.isValid = true)
    (hrs : FusedReason f.reason) (hac : f.action.isPolicyAction = true)
    (hst : f.chosen.status.isValid = true) (hr : f.chosen.ref ∈ policy.providerSelection.providers)
    (ht : ¬f.chosen.observedAt.IsZero ∧ ¬f.chosen.expiresAt.IsZero ∧ f.chosen.observedAt < f.chosen.expiresAt) :
    (constructSummary rt policy f).validate rt = .ok () := by
  have hs := hrs.isSafeText
  have hva : f.action.isValid = true := isValid_of_isPolicyAction hac
  obtain ⟨hp, hsc⟩ := hv.refs _ hr
  simp only [IPRiskSummary.validate, constructSummary, normalizeReasonCode_of_isSafeText hs, hva, hb, hst,
    hp, hsc, isReasonCode_of_isSafeText hs, containsSensitiveIPRiskText_of_isSafeText hs, ht,
    bind_unit_eq_ok_iff, ite_invalid_eq_ok]
  simp [hv.revision]

/-- Valid input gives a decision, unless the time at which a missing observation would expire is the
zero time. The decision is an action of the policy; it is `allow` only if the latest observation of
every provider passes the checks or unknown data is allowed. -/
theorem evaluateNodeCore_decides (rt : Runtime) (policy : RiskPolicy) (nodeLogicalID expectedExitDigest : String)
    (observations : List IPRiskObservation) (evaluatedAt : Time) (hpolicy : policy.validate rt = .ok ())
    (hnode : isValidLogicalID nodeLogicalID = true) (htime : ¬evaluatedAt.IsZero)
    (hend : ¬Time.IsZero (evaluatedAt + policy.maxObservationAge))
    (hobs : ∀ o ∈ observations, o.validate rt = .ok ()) :
    ∃ eval, evaluateNodeCore rt policy nodeLogicalID expectedExitDigest observations evaluatedAt = .ok eval ∧
      (eval.decision.decision = .allow ∨ eval.decision.decision = .review ∨ eval.decision.decision = .block) ∧
      (eval.decision.decision = .allow → policy.unknownAction = .allow ∨
        ∀ ref ∈ policy.providerSelection.providers, ∃ o, IsLatest nodeLogicalID ref.key observations o ∧
          UsableObservation policy evaluatedAt o) := by
  have hv := RiskPolicy.valid_of_validate hpolicy
  have hsd := providerResults_sound nodeLogicalID expectedExitDigest evaluatedAt hv hobs
  obtain ⟨f, hfu, hs, hf⟩ := exists_fuse nodeLogicalID expectedExitDigest evaluatedAt hv hobs
  have hac := hf.isPolicyAction hsd
  -- the provider shown is a declared one, evaluated on its latest observation
  obtain ⟨ref, hr, hc⟩ := mem_map.mp hs.chosen
  have hou := providerResult_outcome nodeLogicalID expectedExitDigest evaluatedAt hv hobs ref
  rw [hc] at hou
  have ht := hou.times (valid_of_latestByProvider hobs) hv.age htime hend
  have hsu := validate_constructSummary hv hs.band hs.reason hac
    (hsd f.chosen hs.chosen).status (hou.ref_eq.symm ▸ hr) ht
  refine ⟨_, evaluateNodeCore_eq_ok_iff.mpr ⟨f, hfu, validate_constructDecision hv hnode htime hsd hs
    hac, hsu, rfl⟩, isPolicyAction_iff.mp hac, fun hal => ?_⟩
  change f.action = .allow at hal
  rw [hal] at hf
  refine hf.allow.imp_right fun ha ref hr => ?_
  have hav := ha _ (mem_map_of_mem hr)
  obtain ⟨o, ho, hu⟩ := (providerResult_outcome nodeLogicalID expectedExitDigest evaluatedAt hv hobs ref).usable hav
  exact ⟨o, isLatest_of_latestByProvider ho, hu⟩

end

section

def sampleDigest : String := "sha256:0123456789abcdef0123456789abcdef0123456789abcdef0123456789abcdef"

def scamalytics : ProviderRef := ⟨"scamalytics", "v1"⟩

def ipqs : ProviderRef := ⟨"ipqs", "v1"⟩

def sampleRiskPolicy (mode : RiskFusionMode) (providers : List ProviderRef) (unknownAction : RiskAction) :
    RiskPolicy where
  revisionID := idA
  providerSelection := ⟨mode, providers⟩
  maxObservationAge := 86400000000000
  minimumConfidence := 50
  scoreBands := [⟨0, 29, .low, .allow⟩, ⟨30, 69, .medium, .review⟩, ⟨70, 100, .high, .block⟩]
  unknownAction := unknownAction

def sampleTime : Time := 63000000000000000000

def sampleObservation (provider : String) (score : Int) : IPRiskObservation where
  id := idB
  nodeLogicalID := nodeHK.logicalID
  exitIdentityDigest := sampleDigest
  provider := provider
  providerSchemaVersion := "v1"
  observedAt := sampleTime - 3600000000000
  expiresAt := sampleTime + 3600000000000
  status := .available
  score := some score
  confidence := some 80
  networkClass := .residential
  evidenceDigest := sampleDigest

theorem validate_sampleObservation_review :
    ∀ o ∈ [sampleObservation "scamalytics" 40], o.validate asciiRuntime = .ok () := by
  decide

end

theorem evaluateNodeCore_decides_review :
    ∃ eval, evaluateNodeCore asciiRuntime (sampleRiskPolicy .allMustAllow [scamalytics, ipqs] .review)
        nodeHK.logicalID "" [sampleObservation "scamalytics" 40] sampleTime = .ok eval ∧
      (eval.decision.decision = .allow ∨ eval.decision.decision = .review ∨ eval.decision.decision = .block) := by
  obtain ⟨eval, he, hd, -⟩ := evaluateNodeCore_decides asciiRuntime
    (sampleRiskPolicy .allMustAllow [scamalytics, ipqs] .review) nodeHK.logicalID ""
    [sampleObservation "scamalytics" 40] sampleTime (by decide) (by decide) (by decide) (by decide)
    validate_sampleObservation_review
  exact ⟨eval, he, hd⟩

/-- A day before the zero time, a provider without observation leaves a summary that expires at the
zero time, which the validator takes for missing. -/
theorem exists_evaluateNodeCore_error :
    ∃ (policy : RiskPolicy) (evaluatedAt : Time), policy.validate asciiRuntime = .ok () ∧ ¬evaluatedAt.IsZero ∧
      isValidLogicalID nodeHK.logicalID = true ∧
      errorCode? (evaluateNodeCore asciiRuntime policy nodeHK.logicalID "" [] evaluatedAt) =
        some "invalid_ip_risk_summary_ttl" := by
  refine ⟨sampleRiskPolicy .singleProvider [scamalytics] .review, -86400000000000, ?_, ?_, ?_, ?_⟩ <;> decide

/-! How strict the decision is, compared with the providers by themselves. -/
section

variable {policy : RiskPolicy} {results : List ProviderEvalResult}

/-- A provider blocks, or a review is not lost: under `all_must_allow` to the action for unknown data,
and under `highest_risk`, where all data is there, to a milder action of a higher band. -/
def KeepsReview (policy : RiskPolicy) (results : List ProviderEvalResult) : Prop :=
  (∃ r ∈ results, r.action = .block) ∨
    match policy.providerSelection.mode with
    | .allMustAllow => (∃ r ∈ results, r.isAvailable = false) → (∃ r ∈ results, r.action = .review) →
        policy.unknownAction ≠ .allow
    | .highestRisk => (∀ r ∈ results, r.isAvailable = true) → ∀ r ∈ results, r.action = .review →
        ∃ s ∈ results, s.action = .review ∧ ∀ t ∈ results, bandRank t.riskBand ≤ bandRank s.riskBand
    | _ => True

theorem actionRank_le_three (a : RiskAction) : actionRank a ≤ 3 := by
  cases a <;> simp [actionRank]

theorem one_le_actionRank {a : RiskAction} (h : a.isPolicyAction = true) : 1 ≤ actionRank a := by
  rcases isPolicyAction_iff.mp h with rfl | rfl | rfl <;> decide

theorem ProviderEvalResult.Sound.allow_or_review {r : ProviderEvalResult} (h : r.Sound)
    (ha : r.isAvailable = true) (hbl : r.action ≠ .block) : r.action = .allow ∨ r.action = .review := by
  rcases isPolicyAction_iff.mp (h.known ha) with hal | hr | hb
  · exact .inl hal
  · exact .inr hr
  · exact absurd hb hbl

theorem not_exists_unavailable (h : ∀ r ∈ results, r.isAvailable = true) : ¬∃ r ∈ results, r.isAvailable = false := by
  rintro ⟨r, hr, hf⟩
  rw [h r hr] at hf
  cases hf

theorem bandRank_le_of_riskKey_le {a b : ProviderEvalResult} (h : riskKey a ≤ riskKey b) :
    bandRank a.riskBand ≤ bandRank b.riskBand := by
  rw [riskKey, riskKey, Prod.Lex.toLex_le_toLex] at h
  rcases h with hlt | ⟨heq, -⟩
  · exact hlt.le
  · exact heq.le

theorem actionRank_le_of_riskKey_le {a b : ProviderEvalResult} (h : riskKey a ≤ riskKey b)
    (hb : bandRank b.riskBand ≤ bandRank a.riskBand) : actionRank a.action ≤ actionRank b.action := by
  rw [riskKey, riskKey, Prod.Lex.toLex_le_toLex] at h
  rcases h with hlt | ⟨-, hle⟩
  · exact absurd hlt (not_lt.mpr hb)
  · exact hle

/-- Data that does not count: its action is as strict as a review unless it is `allow`. -/
theorem FusedAction.strict_iff_of_unknown (hmo : policy.providerSelection.mode = .allMustAllow ∨
      policy.providerSelection.mode = .highestRisk) (hsd : ∀ r ∈ results, r.Sound)
    (hu : ∃ r ∈ results, r.isAvailable = false) (hbl : ∀ r ∈ results, r.action ≠ .block)
    (hri : policy.providerSelection.mode = .highestRisk → ∀ r ∈ results, r.action ≠ .review) :
    (∀ r ∈ results, r.isAvailable = true → actionRank r.action ≤ actionRank policy.effectiveUnknownAction) ↔
      KeepsReview policy results := by
  have ho := one_le_actionRank (isPolicyAction_effectiveAction policy.unknownAction)
  have hn : ¬∃ r ∈ results, r.action = .block := fun ⟨r, hr, hb⟩ => hbl r hr hb
  rcases hmo with hm | hm
  · simp only [KeepsReview, hm, hn, false_or]
    constructor
    · rintro hs - ⟨r, hr, hre⟩ hal
      have hle := hs r hr ((hsd r hr).isAvailable_of_action hre (by simp))
      rw [hre, RiskPolicy.effectiveUnknownAction, hal] at hle
      exact absurd hle (by decide)
    · intro hk r hr ha
      rcases (hsd r hr).allow_or_review ha (hbl r hr) with hac | hac
      · rw [hac]
        exact ho
      · have hne : policy.effectiveUnknownAction ≠ .allow := fun h =>
          hk hu ⟨r, hr, hac⟩ (effectiveAction_eq_allow_iff.mp h)
        rw [hac]
        rcases isPolicyAction_iff.mp (isPolicyAction_effectiveAction policy.unknownAction) with
          h | h | h
        · exact absurd h hne
        · rw [RiskPolicy.effectiveUnknownAction, h]
        · rw [RiskPolicy.effectiveUnknownAction, h]
          decide
  · simp only [KeepsReview, hm, hn, false_or]
    constructor
    · intro _ hall
      exact absurd hu (not_exists_unavailable hall)
    · intro _ r hr ha
      rcases (hsd r hr).allow_or_review ha (hbl r hr) with hac | hac
      · rw [hac]
        exact ho
      · exact absurd hac (hri hm r hr)

theorem FusedAction.strict_iff_of_best (hm : policy.providerSelection.mode = .highestRisk)
    (hsd : ∀ r ∈ results, r.Sound) {res : ProviderEvalResult} (hre : res ∈ results)
    (hkn : ∀ r ∈ results, r.isAvailable = true) (hbl : ∀ r ∈ results, r.action ≠ .block)
    (hbe : ∀ r ∈ results, riskKey r ≤ riskKey res) :
    (∀ r ∈ results, r.isAvailable = true → actionRank r.action ≤ actionRank res.action) ↔
      KeepsReview policy results := by
  have hn : ¬∃ r ∈ results, r.action = .block := fun ⟨r, hr, hb⟩ => hbl r hr hb
  simp only [KeepsReview, hm, hn, false_or]
  constructor
  · intro hst _ r hr hrv
    have hle := hst r hr (hkn r hr)
    refine ⟨res, hre, ?_, fun t ht => bandRank_le_of_riskKey_le (hbe t ht)⟩
    rcases (hsd res hre).allow_or_review (hkn res hre) (hbl res hre) with hac | hac
    · rw [hrv, hac] at hle
      exact absurd hle (by decide)
    · exact hac
  · intro hk r hr ha
    rcases (hsd r hr).allow_or_review ha (hbl r hr) with hac | hac
    · rw [hac]
      exact one_le_actionRank ((hsd res hre).known (hkn res hre))
    · -- the review of the highest band is picked over every milder action there
      obtain ⟨s, hs, hsr, hto⟩ := hk hkn r hr hac
      have hle := actionRank_le_of_riskKey_le (hbe s hs) (hto res hre)
      rwa [hac, ← hsr]

theorem FusedAction.strict_iff {a : RiskAction} (h : FusedAction policy results a)
    (hmo : policy.providerSelection.mode = .allMustAllow ∨ policy.providerSelection.mode = .highestRisk)
    (hsd : ∀ r ∈ results, r.Sound) :
    (∀ r ∈ results, r.isAvailable = true → actionRank r.action ≤ actionRank a) ↔ KeepsReview policy results := by
  cases h with
  | blocked hb => exact iff_of_true (fun r _ _ => actionRank_le_three r.action) (.inl hb)
  | unknown hun hb hri => exact strict_iff_of_unknown hmo hsd hun hb hri
  | review hri hb hkn hun =>
    apply iff_of_true
    · intro r hr ha
      rcases (hsd r hr).allow_or_review ha (hb r hr) with hac | hac
      · rw [hac]
        decide
      · rw [hac]
    · rcases hmo with hm | hm
      · simp only [KeepsReview, hm]
        exact .inr fun hu => absurd hu (not_exists_unavailable (hkn hm))
      · simp only [KeepsReview, hm]
        exact .inr fun hal => absurd (hun hm) (not_exists_unavailable hal)
  | passed hkn hb hri =>
    apply iff_of_true
    · intro r hr ha
      rcases (hsd r hr).allow_or_review ha (hb r hr) with hac | hac
      · rw [hac]
      · exact absurd hac (hri r hr)
    · rcases hmo with hm | hm
      · simp only [KeepsReview, hm]
        exact .inr fun hu => absurd hu (not_exists_unavailable hkn)
      · simp only [KeepsReview, hm]
        exact .inr fun _ r hr hre => absurd hre (hri r hr)
  | best res hrs hkn hne hb hbe =>
    have hm := hmo.resolve_left hne
    exact strict_iff_of_best hm hsd hrs hkn (hb hm) hbe

/-- With several providers the decision is at least as strict as each available one exactly where no
review is lost. -/
theorem decision_strict_iff (rt : Runtime) (policy : RiskPolicy) (nodeLogicalID expectedExitDigest : String)
    (observations : List IPRiskObservation) (evaluatedAt : Time) (eval : NodeEvaluation)
    (hpolicy : policy.validate rt = .ok ())
    (hmode : policy.providerSelection.mode = .allMustAllow ∨ policy.providerSelection.mode = .highestRisk)
    (hobs : ∀ o ∈ observations, o.validate rt = .ok ())
    (heval : evaluateNodeCore rt policy nodeLogicalID expectedExitDigest observations evaluatedAt = .ok eval) :
    let result := providerResult rt policy nodeLogicalID expectedExitDigest observations evaluatedAt
    (∀ ref ∈ policy.providerSelection.providers, (result ref).isAvailable = true →
        actionRank (result ref).action ≤ actionRank eval.decision.decision) ↔
      KeepsReview policy (policy.providerSelection.providers.map result) := by
  intro result
  have hv := RiskPolicy.valid_of_validate hpolicy
  have hsd := providerResults_sound nodeLogicalID expectedExitDigest evaluatedAt hv hobs
  obtain ⟨f, hfu, -, hf⟩ := exists_fuse nodeLogicalID expectedExitDigest evaluatedAt hv hobs
  obtain ⟨f', hf', -, -, rfl⟩ := evaluateNodeCore_eq_ok_iff.mp heval
  obtain rfl : f = f' := Except.ok.inj (hfu.symm.trans hf')
  have hi := hf.strict_iff hmode hsd
  rw [providerResults, forall_mem_map] at hi
  exact hi

end

theorem decision_strict_review :
    let result := providerResult asciiRuntime (sampleRiskPolicy .allMustAllow [scamalytics, ipqs] .review)
      nodeHK.logicalID "" [sampleObservation "scamalytics" 40] sampleTime
    ∃ eval, evaluateNodeCore asciiRuntime (sampleRiskPolicy .allMustAllow [scamalytics, ipqs] .review)
        nodeHK.logicalID "" [sampleObservation "scamalytics" 40] sampleTime = .ok eval ∧
      ∀ ref ∈ [scamalytics, ipqs], (result ref).isAvailable = true →
        actionRank (result ref).action ≤ actionRank eval.decision.decision := by
  intro result
  have hr : ∃ eval, evaluateNodeCore asciiRuntime (sampleRiskPolicy .allMustAllow [scamalytics, ipqs] .review)
      nodeHK.logicalID "" [sampleObservation "scamalytics" 40] sampleTime = .ok eval :=
    exists_of_isOk (by decide)
  obtain ⟨eval, he⟩ := hr
  refine ⟨eval, he, ?_⟩
  apply (decision_strict_iff asciiRuntime _ nodeHK.logicalID "" _ sampleTime eval (by decide) (.inl rfl)
    validate_sampleObservation_review he).mpr
  exact .inr fun _ _ => by decide

/-- One provider asks for a review, the other has no observation and unknown data is allowed: the
node is allowed. -/
theorem exists_decision_milder :
    ∃ (policy : RiskPolicy) (observations : List IPRiskObservation) (eval : NodeEvaluation),
      policy.validate asciiRuntime = .ok () ∧ policy.providerSelection.mode = .allMustAllow ∧
      (∀ o ∈ observations, o.validate asciiRuntime = .ok ()) ∧
      evaluateNodeCore asciiRuntime policy nodeHK.logicalID "" observations sampleTime = .ok eval ∧
      ∃ ref ∈ policy.providerSelection.providers,
        let result := providerResult asciiRuntime policy nodeHK.logicalID "" observations sampleTime ref
        result.isAvailable = true ∧ result.action = .review ∧ eval.decision.decision = .allow := by
  obtain ⟨eval, he, hal⟩ := map_eq_ok_iff.mp (by decide :
    (evaluateNodeCore asciiRuntime (sampleRiskPolicy .allMustAllow [scamalytics, ipqs] .allow) nodeHK.logicalID ""
      [sampleObservation "scamalytics" 40] sampleTime).map (·.decision.decision) = .ok .allow)
  refine ⟨_, _, eval, by decide, rfl, validate_sampleObservation_review, he, scamalytics, ?_, ?_⟩
  · decide
  · exact ⟨by decide, by decide, hal⟩

end ClashSubParser
