import ClashSubParser.RiskProviders
import ClashSubParser.TrimmedText

/-! How the results of the providers become one decision. Each mode is described once by what its action can
be. -/
namespace ClashSubParser

open List FirstError

/-- What stands before the reason of a provider where it becomes the reason of the decision. -/
def reasonLabels : List String := ["", "all_must_allow_", "highest_risk_"]

def fixedReasons : List String :=
  ["all_must_allow_blocked", "all_must_allow_review", "all_must_allow_passed", "highest_risk_blocked",
   "highest_risk_review", "highest_risk_allow"]

inductive FusedReason : String → Prop
  | labelled (label reason : String) (hlabel : label ∈ reasonLabels) (hreason : reason ∈ providerReasons) :
      FusedReason (label ++ reason)
  | fixed (reason : String) (hreason : reason ∈ fixedReasons) : FusedReason reason

section

def isSafeText (cs : List Char) : Bool :=
  cs.all isPlain && cs.head?.any Char.isLower && !plainWords.any (fun word => decide (word.toList <:+: cs))

theorem isSafeText_labelled : ∀ label ∈ reasonLabels, ∀ reason ∈ providerReasons,
    isSafeText (label.toList ++ reason.toList) = true := by decide

theorem isSafeText_fixed : ∀ reason ∈ fixedReasons, isSafeText reason.toList = true := by decide

theorem FusedReason.isSafeText {reason : String} (h : FusedReason reason) : isSafeText reason.toList = true := by
  cases h with
  | labelled label reason hl hrs =>
    rw [String.toList_append]
    exact isSafeText_labelled label hl reason hrs
  | fixed _ hrs => exact isSafeText_fixed reason hrs

variable {rt : Runtime} {s : String}

variable (h : isSafeText s.toList = true)
include h

theorem isReasonCode_of_isSafeText : isReasonCode s = true := by
  simp only [isSafeText, Bool.and_eq_true, all_eq_true] at h
  obtain ⟨⟨hpl, hh⟩, -⟩ := h
  unfold isReasonCode
  cases hs : s.toList with
  | nil => simp [hs] at hh
  | cons c cs =>
    rw [hs] at hpl hh
    rw [Bool.and_eq_true, all_eq_true]
    refine ⟨by simpa using hh, fun d hd => ?_⟩
    have hd := hpl d (mem_cons_of_mem c hd)
    simp only [isPlain, Bool.or_eq_true, beq_iff_eq] at hd
    rcases hd with hl | rfl
    · simp [hl]
    · decide

theorem containsSensitiveIPRiskText_of_isSafeText : containsSensitiveIPRiskText rt s = false := by
  simp only [isSafeText, Bool.and_eq_true, Bool.not_eq_true', any_eq_false] at h
  apply containsSensitiveIPRiskText_eq_false h.1.1
  intro word hw
  exact Bool.eq_false_iff.mpr (h.2 word hw)

theorem normalizeReasonCode_of_isSafeText : normalizeReasonCode rt s = s := by
  simp only [isSafeText, Bool.and_eq_true] at h
  obtain ⟨⟨ha, hh⟩, -⟩ := h
  have hch : ∀ c ∈ s.toList, Strings.isSpace c = false ∧ ¬(c = ' ' ∨ c = '-') := by
    intro c hc
    rcases isPlain_iff.mp (all_eq_true.mp ha c hc) with ⟨hl, hhi⟩ | rfl
    · constructor
      · simp only [Strings.isSpace, mem_cons, not_mem_nil, Bool.or_eq_false_iff,
          Bool.and_eq_false_iff, decide_eq_false_iff_not, or_false]
        omega
      · rintro (rfl | rfl)
        · exact absurd hl (by decide)
        · exact absurd hl (by decide)
    · decide
  have hm : s.toList.map (fun c => if c = ' ' ∨ c = '-' then '_' else c) = s.toList := by
    conv_rhs => rw [← map_id s.toList]
    exact map_congr_left fun c hc => if_neg (hch c hc).2
  have hne : s ≠ "" := by
    rintro rfl
    cases hh
  rw [normalizeReasonCode, trimSpace_eq_self fun c hc => (hch c hc).1, lowerText_eq ha, hm,
    String.ofList_toList, if_neg hne]

end

section

variable {results : List ProviderEvalResult}

theorem maxBandAcross_isValid (hre : ∀ r ∈ results, r.riskBand.isValid = true) {fallback : RiskBand}
    (hf : fallback.isValid = true) : (maxBandAcross results fallback).isValid = true := by
  refine List.foldlRecOn (motive := fun b : RiskBand => b.isValid = true) results _ hf ?_
  intro b hb r hr
  split_ifs
  · exact hre r hr
  · exact hb

variable {found : Option ProviderEvalResult} {r : ProviderEvalResult}

theorem keepBlocking_eq_some {res : ProviderEvalResult} (h : keepBlocking found r = some res) : found = some res ∨
    (res = r ∧ r.action = .block) := by
  unfold keepBlocking at h
  split_ifs at h with hb
  · cases found with
    | none => exact .inr ⟨(Option.some.inj h).symm, hb⟩
    | some b =>
      dsimp only at h
      split_ifs at h
      · exact .inr ⟨(Option.some.inj h).symm, hb⟩
      · exact .inl h
  · exact .inl h

theorem keepBlocking_eq_none (h : keepBlocking found r = none) : found = none ∧ r.action ≠ .block := by
  unfold keepBlocking at h
  split_ifs at h with hb
  · cases found with
    | none => cases h
    | some b =>
      dsimp only at h
      split_ifs at h
  · exact ⟨h, hb⟩

theorem blockingResult_eq_some {res : ProviderEvalResult} (h : blockingResult results = some res) :
    res ∈ results ∧ res.action = .block := by
  revert h
  refine List.foldlRecOn
    (motive := fun found => found = some res → res ∈ results ∧ res.action = .block) results _ (by simp) ?_
  intro found ih r hr h
  rcases keepBlocking_eq_some h with hfd | ⟨rfl, hb⟩
  · exact ih hfd
  · exact ⟨hr, hb⟩

theorem foldl_keepBlocking_eq_none (h : results.foldl keepBlocking found = none) : found = none ∧ ∀ r ∈ results,
    r.action ≠ .block := by
  induction results generalizing found with
  | nil => exact ⟨h, by simp⟩
  | cons r results ih =>
    obtain ⟨hs, hre⟩ := ih h
    obtain ⟨hfd, hr⟩ := keepBlocking_eq_none hs
    refine ⟨hfd, fun q hq => ?_⟩
    rcases mem_cons.mp hq with rfl | hq
    · exact hr
    · exact hre q hq

def riskKey (r : ProviderEvalResult) : ℕ ×ₗ ℕ := toLex (bandRank r.riskBand, actionRank r.action)

theorem riskKey_lt_iff {a b : ProviderEvalResult} : riskKey a < riskKey b ↔
    bandRank a.riskBand < bandRank b.riskBand ∨
      (bandRank b.riskBand = bandRank a.riskBand ∧ actionRank a.action < actionRank b.action) := by
  rw [riskKey, riskKey, Prod.Lex.toLex_lt_toLex, eq_comm]

theorem argmax_eq_riskiestResult (first : ProviderEvalResult) (rest : List ProviderEvalResult) :
    (first :: rest).argmax riskKey = some (riskiestResult first rest) := by
  induction rest generalizing first with
  | nil => rfl
  | cons r rest ih =>
    have hs : (if bandRank first.riskBand < bandRank r.riskBand then r
        else if bandRank r.riskBand = bandRank first.riskBand ∧ actionRank first.action < actionRank r.action then r
        else first) = if riskKey first < riskKey r then r else first := by
      by_cases h : bandRank first.riskBand < bandRank r.riskBand
      · rw [if_pos h, if_pos (riskKey_lt_iff.mpr (.inl h))]
      · simp only [riskKey_lt_iff, h, if_false, false_or]
    rw [riskiestResult, foldl_cons, hs]
    change rest.foldl _ (if riskKey first < riskKey r then some r else some first) = _
    rw [← apply_ite some]
    exact ih _

end

structure Fused.Shown (results : List ProviderEvalResult) (f : Fused) : Prop where
  chosen : f.chosen ∈ results
  band : f.band.isValid = true
  reason : FusedReason f.reason

inductive FusedAction (policy : RiskPolicy) (results : List ProviderEvalResult) : RiskAction → Prop
  | blocked (hblock : ∃ r ∈ results, r.action = .block) : FusedAction policy results .block
  | unknown (hunknown : ∃ r ∈ results, r.isAvailable = false) (hblock : ∀ r ∈ results, r.action ≠ .block)
      (hreview : policy.providerSelection.mode = .highestRisk → ∀ r ∈ results, r.action ≠ .review) :
      FusedAction policy results policy.effectiveUnknownAction
  | review (hreview : ∃ r ∈ results, r.action = .review) (hblock : ∀ r ∈ results, r.action ≠ .block)
      (hknown : policy.providerSelection.mode = .allMustAllow → ∀ r ∈ results, r.isAvailable = true)
      (hunknown : policy.providerSelection.mode = .highestRisk → ∃ r ∈ results, r.isAvailable = false) :
      FusedAction policy results .review
  | passed (hknown : ∀ r ∈ results, r.isAvailable = true) (hblock : ∀ r ∈ results, r.action ≠ .block)
      (hreview : ∀ r ∈ results, r.action ≠ .review) : FusedAction policy results .allow
  | best (res : ProviderEvalResult) (hres : res ∈ results) (hknown : ∀ r ∈ results, r.isAvailable = true)
      (hmode : policy.providerSelection.mode ≠ .allMustAllow)
      (hblock : policy.providerSelection.mode = .highestRisk → ∀ r ∈ results, r.action ≠ .block)
      (hbest : ∀ r ∈ results, riskKey r ≤ riskKey res) : FusedAction policy results res.action

section

variable {rt : Runtime} {policy : RiskPolicy} {results : List ProviderEvalResult}

theorem FusedReason.own {reason : String} (h : reason ∈ providerReasons) : FusedReason reason := by
  have hl : FusedReason ("" ++ reason) := .labelled "" reason (by decide) h
  rwa [String.empty_append] at hl

theorem isAvailable_of_find?_eq_none (hsd : ∀ r ∈ results, r.Sound)
    (h : results.find? (·.isUnknown) = none) : ∀ r ∈ results, r.isAvailable = true := by
  intro r hr
  have hn := find?_eq_none.mp h r hr
  rw [(hsd r hr).isUnknown_eq] at hn
  simpa using hn

theorem exists_of_find?_isUnknown (hsd : ∀ r ∈ results, r.Sound) {res : ProviderEvalResult}
    (h : results.find? (·.isUnknown) = some res) : res ∈ results ∧ res.isAvailable = false := by
  have hm := mem_of_find?_eq_some h
  have hu : res.isUnknown = true := find?_some h
  rw [(hsd res hm).isUnknown_eq] at hu
  exact ⟨hm, by simpa using hu⟩

theorem exists_of_find?_action {a : RiskAction} {res : ProviderEvalResult}
    (h : results.find? (·.action = a) = some res) : res ∈ results ∧ res.action = a :=
  ⟨mem_of_find?_eq_some h, by simpa using find?_some h⟩

theorem action_ne_of_find?_eq_none {a : RiskAction} (h : results.find? (·.action = a) = none) :
    ∀ r ∈ results, r.action ≠ a := by
  intro r hr
  simpa using find?_eq_none.mp h r hr

theorem fuseSingleProvider_eq_ok (hm : policy.providerSelection.mode = .singleProvider)
    (hl : results.length = 1) (hsd : ∀ r ∈ results, r.Sound) :
    ∃ f, fuseSingleProvider policy results = .ok f ∧ f.Shown results ∧ FusedAction policy results f.action := by
  obtain ⟨res, rfl⟩ := length_eq_one_iff.mp hl
  have hr : res.Sound := hsd res mem_cons_self
  simp only [fuseSingleProvider, hr.isUnknown_eq]
  cases ha : res.isAvailable with
  | false =>
    refine ⟨_, rfl, ⟨mem_cons_self, rfl, FusedReason.own hr.reason⟩, ?_⟩
    refine .unknown ⟨res, mem_cons_self, ha⟩ ?_ (by simp [hm])
    simp [hr.unknown ha]
  | true =>
    refine ⟨_, rfl, ⟨mem_cons_self, hr.band, FusedReason.own hr.reason⟩, ?_⟩
    exact .best res mem_cons_self (by simpa using ha) (by simp [hm]) (by simp [hm]) (by simp)

theorem fuseAllMustAllow_eq_ok (hm : policy.providerSelection.mode = .allMustAllow) (hne : results ≠ [])
    (hsd : ∀ r ∈ results, r.Sound) :
    ∃ f, fuseAllMustAllow policy results = .ok f ∧ f.Shown results ∧ FusedAction policy results f.action := by
  have hba : ∀ r ∈ results, r.riskBand.isValid = true := fun r hr => (hsd r hr).band
  unfold fuseAllMustAllow
  cases hb : results.find? (·.action = .block) with
  | some res =>
    have hre := exists_of_find?_action hb
    exact ⟨_, rfl, ⟨hre.1, maxBandAcross_isValid hba rfl, .fixed "all_must_allow_blocked" (by decide)⟩,
      .blocked ⟨res, hre⟩⟩
  | none =>
    have hbl := action_ne_of_find?_eq_none hb
    cases hu : results.find? (·.isUnknown) with
    | some res =>
      have hre := exists_of_find?_isUnknown hsd hu
      exact ⟨_, rfl, ⟨hre.1, rfl, .labelled _ _ (by decide) (hsd res hre.1).reason⟩,
        .unknown ⟨res, hre⟩ hbl (by simp [hm])⟩
    | none =>
      have hkn := isAvailable_of_find?_eq_none hsd hu
      cases hr : results.find? (·.action = .review) with
      | some res =>
        have hre := exists_of_find?_action hr
        exact ⟨_, rfl, ⟨hre.1, maxBandAcross_isValid hba rfl, .fixed "all_must_allow_review" (by decide)⟩,
          .review ⟨res, hre⟩ hbl (fun _ => hkn) (by simp [hm])⟩
      | none =>
        cases results with
        | nil => exact absurd rfl hne
        | cons res rest =>
          exact ⟨_, rfl, ⟨mem_cons_self, maxBandAcross_isValid hba rfl,
            .fixed "all_must_allow_passed" (by decide)⟩,
            .passed hkn hbl (action_ne_of_find?_eq_none hr)⟩

theorem fuseHighestRisk_eq_ok (hmo : policy.providerSelection.mode = .highestRisk) (hne : results ≠ [])
    (hsd : ∀ r ∈ results, r.Sound) :
    ∃ f, fuseHighestRisk policy results = .ok f ∧ f.Shown results ∧ FusedAction policy results f.action := by
  have hba : ∀ r ∈ results, r.riskBand.isValid = true := fun r hr => (hsd r hr).band
  unfold fuseHighestRisk
  cases hb : blockingResult results with
  | some res =>
    have hre := blockingResult_eq_some hb
    exact ⟨_, rfl, ⟨hre.1, maxBandAcross_isValid hba rfl, .fixed "highest_risk_blocked" (by decide)⟩,
      .blocked ⟨res, hre⟩⟩
  | none =>
    have hbl := (foldl_keepBlocking_eq_none hb).2
    cases hu : results.find? (·.isUnknown) with
    | some res =>
      have hre := exists_of_find?_isUnknown hsd hu
      cases hr : results.find? (·.action = .review) with
      | some rev =>
        have hrv := exists_of_find?_action hr
        exact ⟨_, rfl, ⟨hrv.1, rfl, .fixed "highest_risk_review" (by decide)⟩,
          .review ⟨rev, hrv⟩ hbl (by simp [hmo]) (fun _ => ⟨res, hre⟩)⟩
      | none =>
        exact ⟨_, rfl, ⟨hre.1, rfl, .labelled _ _ (by decide) (hsd res hre.1).reason⟩,
          .unknown ⟨res, hre⟩ hbl (fun _ => action_ne_of_find?_eq_none hr)⟩
    | none =>
      have hkn := isAvailable_of_find?_eq_none hsd hu
      cases results with
      | nil => exact absurd rfl hne
      | cons first rest =>
        have hmax := argmax_eq_riskiestResult first rest
        have hm := argmax_mem hmax
        have hbe := hsd _ hm
        -- no provider blocks here, so the reason names one of two actions
        have hrs : FusedReason ("highest_risk_" ++ (riskiestResult first rest).action.text) := by
          rcases RiskAction.isPolicyAction_iff.mp (hbe.known (hkn _ hm)) with ha | ha | ha
          · rw [ha]
            exact .fixed "highest_risk_allow" (by decide)
          · rw [ha]
            exact .fixed "highest_risk_review" (by decide)
          · exact absurd ha (hbl _ hm)
        exact ⟨_, rfl, ⟨hm, hbe.band, hrs⟩,
          .best _ hm hkn (by simp [hmo]) (fun _ => hbl) (fun _ hr => le_of_mem_argmax hr hmax)⟩

/-- With one sound result for each provider, the fusion succeeds in every mode. -/
theorem fuse_eq_ok (hv : policy.Valid rt)
    (hl : results.length = policy.providerSelection.providers.length) (hsd : ∀ r ∈ results, r.Sound) :
    ∃ f, fuse policy results rt = .ok f ∧ f.Shown results ∧ FusedAction policy results f.action := by
  have hne : results ≠ [] := by
    intro h
    rw [h] at hl
    exact hv.providers (length_eq_zero_iff.mp hl.symm)
  unfold fuse
  cases hm : policy.providerSelection.mode with
  | singleProvider => exact fuseSingleProvider_eq_ok hm (hl.trans (hv.single hm)) hsd
  | allMustAllow => exact fuseAllMustAllow_eq_ok hm hne hsd
  | highestRisk => exact fuseHighestRisk_eq_ok hm hne hsd
  | other mode h =>
    have hva := hv.mode
    rw [hm] at hva
    cases hva

end

end ClashSubParser
