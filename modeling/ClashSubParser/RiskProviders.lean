import ClashSubParser.RiskEvaluation
import Mathlib

/-! What the validators leave of a policy and its observations, and what the result of a provider can be
then. -/
namespace ClashSubParser

open List FirstError ScoreBand

def ScoreBand.holds (score : Int) (b : ScoreBand) : Bool := b.min ≤ score && score ≤ b.max

/-- Every score from `lo` to `hi` lies in one of the bands, and no other score in any. -/
def ShareOut (lo hi : Int) (bands : List ScoreBand) : Prop :=
  ∀ score : Int, bands.countP (·.holds score) = if lo ≤ score ∧ score ≤ hi then 1 else 0

section

abbrev ScoreBand.follows (p b : ScoreBand) : Prop := b.min = p.max + 1

variable {rt : Runtime} {bands : List ScoreBand}

theorem validateOrderedBands_eq_ok_iff {previous : Option ScoreBand} :
    validateOrderedBands rt previous bands = .ok () ↔
      (∀ b ∈ bands, b.wellFormed = true) ∧ (previous.toList ++ bands).IsChain follows := by
  induction bands generalizing previous with
  | nil => cases previous <;> simp [validateOrderedBands]
  | cons band rest ih =>
    rw [validateOrderedBands, ite_invalid_eq_ok, ite_invalid_eq_ok, ih]
    cases previous with
    | none => simp [and_assoc]
    | some p =>
      simp only [Option.toList_some, cons_append, nil_append, isChain_cons_cons, Option.any_some,
        mem_cons, forall_eq_or_imp, decide_eq_true_eq, not_not, Bool.not_eq_false, ne_eq]
      tauto

theorem ScoreBand.wellFormed_iff {b : ScoreBand} : b.wellFormed = true ↔ (0 ≤ b.min ∧ b.max ≤ 100) ∧
    b.min ≤ b.max ∧ b.band.isValid = true ∧ b.band ≠ .unknown ∧ b.action.isPolicyAction = true := by
  simp [wellFormed, and_assoc]

variable {lo hi : Int}

theorem ShareOut.exists_band (h : ShareOut lo hi bands) {score : Int} (hlo : lo ≤ score) (hhi : score ≤ hi) :
    ∃ b ∈ bands, b.min ≤ score ∧ score ≤ b.max := by
  have hc := h score
  rw [if_pos ⟨hlo, hhi⟩] at hc
  obtain ⟨b, hb, hh⟩ := countP_pos_iff.mp (hc ▸ one_pos)
  simp only [holds, Bool.and_eq_true, decide_eq_true_eq] at hh
  exact ⟨b, hb, hh⟩

theorem ShareOut.within (h : ShareOut lo hi bands) {b : ScoreBand} (hb : b ∈ bands) (hle : b.min ≤ b.max) :
    lo ≤ b.min ∧ b.max ≤ hi := by
  have hin (score : Int) (hh : b.holds score = true) : lo ≤ score ∧ score ≤ hi := by
    by_contra hout
    exact countP_eq_zero.mp ((h score).trans (if_neg hout)) b hb hh
  exact ⟨(hin b.min (by simp [holds, hle])).1, (hin b.max (by simp [holds, hle])).2⟩

variable {first : ScoreBand} {rest : List ScoreBand} (hformed : ∀ b ∈ first :: rest, b.min ≤ b.max)
include hformed

theorem shareOut_of_isChain (hc : (first :: rest).IsChain follows) :
    ShareOut first.min ((first :: rest).getLast (cons_ne_nil first rest)).max (first :: rest) := by
  induction rest generalizing first with
  | nil =>
    intro score
    simp only [countP_singleton, holds, Bool.and_eq_true, decide_eq_true_eq]
    rfl
  | cons next rest ih =>
    rw [forall_mem_cons] at hformed
    rw [isChain_cons_cons, follows] at hc
    have hr := ih hformed.2 hc.2
    have hn := hr.within mem_cons_self (hformed.2 next mem_cons_self)
    have hle := hformed.2 next mem_cons_self
    intro score
    rw [getLast_cons (cons_ne_nil next rest), countP_cons, hr, holds]
    simp only [Bool.and_eq_true, decide_eq_true_eq]
    split_ifs <;> omega

variable (hsorted : (first :: rest).Pairwise (fun a b => a.min ≤ b.min)) (h : ShareOut lo hi (first :: rest))
include hsorted h

/-- The first of sorted bands begins what they share out, and the others share out what it leaves. -/
theorem ShareOut.tail : first.min = lo ∧ first.max ≤ hi ∧ ShareOut (first.max + 1) hi rest := by
  obtain ⟨hlo, hm⟩ := h.within mem_cons_self (hformed first mem_cons_self)
  have hle := hformed first mem_cons_self
  -- the lower end lies in a band, and no band begins below the first
  obtain ⟨b, hb, hbe, -⟩ := h.exists_band le_rfl (by omega : lo ≤ hi)
  have hmi : first.min ≤ b.min := by
    rcases mem_cons.mp hb with rfl | hb
    · exact le_rfl
    · exact rel_of_pairwise_cons hsorted hb
  refine ⟨by omega, hm, fun score => ?_⟩
  have hs := h score
  simp only [countP_cons, holds, Bool.and_eq_true, decide_eq_true_eq] at hs ⊢
  split_ifs at hs ⊢ <;> omega

theorem ShareOut.isChain : first.min = lo ∧ (first :: rest).IsChain follows ∧
    ((first :: rest).getLast (cons_ne_nil first rest)).max = hi := by
  induction rest generalizing first lo with
  | nil =>
    obtain ⟨hm, hma, hr⟩ := h.tail hformed hsorted
    refine ⟨hm, .singleton first, ?_⟩
    change first.max = hi
    by_contra hne
    obtain ⟨b, hb, -⟩ := hr.exists_band le_rfl (by omega)
    contradiction
  | cons next rest ih =>
    obtain ⟨hm, -, hr⟩ := h.tail hformed hsorted
    obtain ⟨hn, hc, hl⟩ := ih (forall_mem_cons.mp hformed).2 (pairwise_cons.mp hsorted).2 hr
    exact ⟨hm, isChain_cons_cons.mpr ⟨hn, hc⟩, hl⟩

end

section

variable {rt : Runtime} {bands : List ScoreBand}

theorem validateScoreBands_eq_ok_iff : validateScoreBands rt bands = .ok () ↔ (∀ b ∈ bands, b.wellFormed = true) ∧
    ∃ first rest, bands.insertionSort (fun a b => a.min ≤ b.min) = first :: rest ∧ first.min = 0 ∧
      (first :: rest).IsChain follows ∧ ((first :: rest).getLast (cons_ne_nil first rest)).max = 100 := by
  have hp := perm_insertionSort (fun a b : ScoreBand => a.min ≤ b.min) bands
  unfold validateScoreBands
  cases hsorted : bands.insertionSort (fun a b => a.min ≤ b.min) with
  | nil => simp
  | cons first rest =>
    rw [hsorted] at hp
    simp only [ite_invalid_eq_ok, bind_unit_eq_ok_iff, validateOrderedBands_eq_ok_iff, not_not,
      Option.toList_none, nil_append, hp.mem_iff, and_true, cons.injEq, ne_eq]
    constructor
    · rintro ⟨hz, ⟨hformed, hc⟩, hl⟩
      exact ⟨hformed, first, rest, ⟨rfl, rfl⟩, hz, hc, hl⟩
    · rintro ⟨hformed, _, _, ⟨rfl, rfl⟩, hz, hc, hl⟩
      exact ⟨hz, ⟨hformed, hc⟩, hl⟩

theorem validateScoreBands_ok (h : validateScoreBands rt bands = .ok ()) :
    (∀ b ∈ bands, b.wellFormed = true) ∧ ShareOut 0 100 bands := by
  obtain ⟨hformed, first, rest, hsorted, hz, hc, hl⟩ := validateScoreBands_eq_ok_iff.mp h
  have hp := perm_insertionSort (fun a b : ScoreBand => a.min ≤ b.min) bands
  rw [hsorted] at hp
  have hsh := shareOut_of_isChain (fun b hb => (wellFormed_iff.mp
    (hformed b (hp.mem_iff.mp hb))).2.1) hc
  rw [hz, hl] at hsh
  exact ⟨hformed, fun score => (hp.countP_eq _).symm.trans (hsh score)⟩

/-- The check accepts exactly the well-formed bands that hold every score from 0 to 100 once and no other
score. -/
theorem validateScoreBands_accepts_iff (rt : Runtime) (bands : List ScoreBand) :
    validateScoreBands rt bands = .ok () ↔
      (∀ b ∈ bands, b.min ≤ b.max ∧ b.band.isValid = true ∧ b.band ≠ .unknown ∧ b.action.isPolicyAction = true) ∧
      ShareOut 0 100 bands := by
  constructor
  · intro h
    obtain ⟨hformed, hsh⟩ := validateScoreBands_ok h
    exact ⟨fun b hb => (wellFormed_iff.mp (hformed b hb)).2, hsh⟩
  · rintro ⟨hformed, hsh⟩
    have hp := perm_insertionSort (fun a b : ScoreBand => a.min ≤ b.min) bands
    have hs := pairwise_insertionSort (fun a b : ScoreBand => a.min ≤ b.min) bands
    rw [validateScoreBands_eq_ok_iff]
    cases hsorted : bands.insertionSort (fun a b => a.min ≤ b.min) with
    | nil =>
      obtain ⟨b, hb, -⟩ := hsh.exists_band le_rfl (by decide)
      rw [hsorted, nil_perm] at hp
      rw [hp] at hb
      contradiction
    | cons first rest =>
      rw [hsorted] at hp hs
      have ha : ShareOut 0 100 (first :: rest) := fun score => (hp.countP_eq _).trans (hsh score)
      obtain ⟨hz, hc, hl⟩ := ha.isChain (fun b hb => (hformed b (hp.mem_iff.mp hb)).1) hs
      exact ⟨fun b hb => wellFormed_iff.mpr ⟨hsh.within hb (hformed b hb).1, hformed b hb⟩,
        first, rest, rfl, hz, hc, hl⟩

end

/-- What holds of a policy that passes `RiskPolicy.Validate`. -/
structure RiskPolicy.Valid (rt : Runtime) (p : RiskPolicy) : Prop where
  revision : isValidUUIDv7 p.revisionID = true
  mode : p.providerSelection.mode.isValid = true
  providers : p.providerSelection.providers ≠ []
  single : p.providerSelection.mode = .singleProvider → p.providerSelection.providers.length = 1
  refs : ∀ ref ∈ p.providerSelection.providers, validateIPRiskIdentifier rt "provider" ref.provider = .ok () ∧
    validateIPRiskIdentifier rt "schema_version" ref.schemaVersion = .ok ()
  age : 0 < p.maxObservationAge
  formed : ∀ b ∈ p.scoreBands, b.wellFormed = true
  covered : ∀ score, 0 ≤ score → score ≤ 100 → ∃ b ∈ p.scoreBands, b.min ≤ score ∧ score ≤ b.max
  rules : ∀ r ∈ p.traitRules, r.action.isPolicyAction = true

theorem validateProviderRef_ok {rt : Runtime} {ref : ProviderRef} (h : validateProviderRef rt ref = .ok ()) :
    validateIPRiskIdentifier rt "provider" ref.provider = .ok () ∧
      validateIPRiskIdentifier rt "schema_version" ref.schemaVersion = .ok () := by
  unfold validateProviderRef at h
  split at h
  · next h1 h2 => exact ⟨h1, h2⟩
  · simp at h

theorem RiskPolicy.valid_of_validate {rt : Runtime} {p : RiskPolicy} (h : p.validate rt = .ok ()) : p.Valid rt := by
  simp only [RiskPolicy.validate, ite_invalid_eq_ok, bind_unit_eq_ok_iff, forEachDistinct_eq_ok_iff,
    forEach_ok_iff, not_or, not_and, not_not, Bool.not_eq_false] at h
  obtain ⟨hrv, ⟨hm, hne⟩, hs, ⟨hre, -⟩, ⟨ha, -⟩, hb, hrl, -⟩ := h
  have hru : ∀ r ∈ p.traitRules, r.action.isPolicyAction = true := by
    intro r hr
    have h := hrl r hr
    simp only [validateTraitRule, ite_invalid_eq_ok, not_or, Bool.not_eq_false] at h
    exact h.1.2.2
  exact
    { revision := hrv
      mode := hm
      providers := hne
      single := hs
      refs := fun ref hr => validateProviderRef_ok (hre ref hr)
      age := not_le.mp ha
      formed := (validateScoreBands_ok hb).1
      covered := fun _ h0 h100 => (validateScoreBands_ok hb).2.exists_band h0 h100
      rules := hru }

/-- What holds of an observation that passes `IPRiskObservation.Validate`. -/
structure IPRiskObservation.Valid (o : IPRiskObservation) : Prop where
  evidence : validDigest o.evidenceDigest = true
  observed : ¬o.observedAt.IsZero
  expires : ¬o.expiresAt.IsZero
  ttl : o.observedAt < o.expiresAt
  status : o.status.isValid = true
  score : ∀ s, o.score = some s → 0 ≤ s ∧ s ≤ 100
  traits : ∀ t ∈ o.anonymizerTraits, t.isValid = true

theorem IPRiskObservation.valid_of_validate {rt : Runtime} {o : IPRiskObservation}
    (h : o.validate rt = .ok ()) : o.Valid := by
  simp only [IPRiskObservation.validate, ite_invalid_eq_ok, bind_unit_eq_ok_iff, forEachDistinct_eq_ok_iff,
    not_or, not_not, Bool.not_eq_false] at h
  obtain ⟨-, -, ⟨-, hdg⟩, -, -, ⟨ho, he, hlt⟩, ⟨hst, -⟩, hsc, -, ⟨hti, -⟩, -⟩ := h
  have hp : ∀ s, o.score = some s → 0 ≤ s ∧ s ≤ 100 := by
    intro s hs
    simp only [validatePercent, ite_invalid_eq_ok, hs, Option.any_some, Bool.or_eq_true, decide_eq_true_eq,
      not_or, not_lt] at hsc
    exact hsc.1
  have htr : ∀ t ∈ o.anonymizerTraits, t.isValid = true := by
    intro t ht
    have h := hti t ht
    simp only [validateTrait, ite_invalid_eq_ok, Bool.not_eq_false] at h
    exact h.1
  exact ⟨hdg, ho, he, hlt, hst, hp, htr⟩

structure UsableObservation (policy : RiskPolicy) (evaluatedAt : Time) (obs : IPRiskObservation) : Prop where
  available : obs.status = .available
  unexpired : evaluatedAt < obs.expiresAt
  recent : Time.sub evaluatedAt obs.observedAt ≤ policy.maxObservationAge
  confident : 0 < policy.minimumConfidence → ∃ c, obs.confidence = some c ∧ policy.minimumConfidence ≤ c

/-- The latest observation of a provider for a node: none is newer, and of equally new ones none has
a larger ID. -/
structure IsLatest (nodeLogicalID key : String) (observations : List IPRiskObservation)
    (obs : IPRiskObservation) : Prop where
  mem : obs ∈ observations
  node : obs.nodeLogicalID = nodeLogicalID
  provider : observationKey obs = key
  newest : ∀ o ∈ observations, o.nodeLogicalID = nodeLogicalID → observationKey o = key →
    o.observedAt < obs.observedAt ∨ (o.observedAt = obs.observedAt ∧ o.id ≤ obs.id)

def recency (o : IPRiskObservation) : Time ×ₗ String := toLex (o.observedAt, o.id)

theorem recency_lt_iff {a b : IPRiskObservation} :
    recency a < recency b ↔ a.observedAt < b.observedAt ∨ (b.observedAt = a.observedAt ∧ a.id < b.id) := by
  rw [recency, recency, Prod.Lex.toLex_lt_toLex, eq_comm]

theorem latestByProvider_eq_argmax (id : String) (observations : List IPRiskObservation) (key : String) :
    latestByProvider id observations key =
      (observations.filter (fun o => o.nodeLogicalID = id && observationKey o = key)).argmax
        recency := by
  have hs : newerObservation = List.argAux (fun b c => recency c < recency b) := by
    funext existing obs
    cases existing with
    | none => rfl
    | some e => simp only [newerObservation, List.argAux, recency_lt_iff]
  rw [latestByProvider, hs]
  rfl

theorem isLatest_of_latestByProvider {id key : String} {observations : List IPRiskObservation}
    {obs : IPRiskObservation} (h : latestByProvider id observations key = some obs) :
    IsLatest id key observations obs := by
  rw [latestByProvider_eq_argmax] at h
  have hm := argmax_mem h
  simp only [mem_filter, Bool.and_eq_true, decide_eq_true_eq] at hm
  refine ⟨hm.1, hm.2.1, hm.2.2, fun o ho hn hk => ?_⟩
  have hle : recency o ≤ recency obs := by
    apply le_of_mem_argmax ?_ h
    simp only [mem_filter, Bool.and_eq_true, decide_eq_true_eq]
    exact ⟨ho, hn, hk⟩
  rwa [recency, recency, Prod.Lex.toLex_le_toLex] at hle

def traitReasons : List String :=
  ["trait_rule_proxy", "trait_rule_vpn", "trait_rule_tor", "trait_rule_residential_proxy", "trait_rule_hosting",
   "trait_rule_unknown"]

def scoreReasons : List String :=
  ["score_band_low", "score_band_medium", "score_band_high", "score_band_critical"]

def unavailableReasons : List String :=
  ["missing_observation", "observation_status_unknown", "observation_status_error", "observation_status_stale",
   "exit_identity_mismatch", "observation_expired", "observation_exceeded_max_age", "missing_confidence",
   "insufficient_confidence", "missing_score"]

def providerReasons : List String := unavailableReasons ++ traitReasons ++ scoreReasons

section

variable {rt : Runtime} {policy : RiskPolicy}

variable (rt) in
theorem evaluateTraits_cases (hrl : ∀ r ∈ policy.traitRules, r.action.isPolicyAction = true)
    {traits : List AnonymizerTrait} (htr : ∀ t ∈ traits, t.isValid = true) :
    evaluateTraits rt policy traits = (.unset, "") ∨
      ((evaluateTraits rt policy traits).1.isPolicyAction = true ∧
        (evaluateTraits rt policy traits).2 ∈ traitReasons) := by
  -- every change of the accumulator takes the action of a rule and the reason of a trait
  have hrs : ∀ t : AnonymizerTrait, t.isValid = true →
      "trait_rule_" ++ Strings.lowerText rt t.text ∈ traitReasons := by
    intro t ht
    have hl : Strings.lowerText rt t.text = t.text := by
      apply lowerText_eq
      cases t with
      | other s h => cases ht
      | _ => decide
    rw [hl]
    cases t with
    | other s h => cases ht
    | _ => decide
  let P (found : RiskAction × String) : Prop :=
    found = (.unset, "") ∨ (found.1.isPolicyAction = true ∧ found.2 ∈ traitReasons)
  refine List.foldlRecOn (motive := P) traits _ (.inl rfl) ?_
  intro found hfd t ht
  refine List.foldlRecOn (motive := P) policy.traitRules _ hfd ?_
  intro found hfd rule hr
  split_ifs with hc
  · exact .inr ⟨hrl rule hr, hrs t (htr t ht)⟩
  · exact hfd

theorem evaluateScore_eq (hv : policy.Valid rt) {score : Int} (h0 : 0 ≤ score) (h100 : score ≤ 100) :
    ∃ b ∈ policy.scoreBands, b.wellFormed = true ∧ evaluateScore rt policy score =
      (b.band, b.action, "score_band_" ++ Strings.lowerText rt b.band.text) := by
  obtain ⟨b, hb, hm, hma⟩ := hv.covered score h0 h100
  cases hf : policy.scoreBands.find? (fun b => b.min ≤ score && score ≤ b.max) with
  | none =>
    have hn := find?_eq_none.mp hf b hb
    simp [hm, hma] at hn
  | some c =>
    have hc : c ∈ policy.scoreBands := mem_of_find?_eq_some hf
    refine ⟨c, hc, hv.formed c hc, ?_⟩
    rw [evaluateScore, hf]

variable (rt) in
theorem ScoreBand.wellFormed_cases {b : ScoreBand} (h : b.wellFormed = true) :
    b.band.isValid = true ∧ b.action.isPolicyAction = true ∧
      "score_band_" ++ Strings.lowerText rt b.band.text ∈ scoreReasons := by
  obtain ⟨-, -, hv, hu, hac⟩ := wellFormed_iff.mp h
  refine ⟨hv, hac, ?_⟩
  have hl : Strings.lowerText rt b.band.text = b.band.text := by
    apply lowerText_eq
    cases hb : b.band with
    | other s h => rw [hb] at hv; cases hv
    | _ => decide
  rw [hl]
  cases hb : b.band with
  | other s h => rw [hb] at hv; cases hv
  | unknown => exact absurd hb hu
  | _ => decide

theorem maxBand_isValid {a b : RiskBand} (ha : a.isValid = true) (hb : b.isValid = true) :
    (maxBand a b).isValid = true := by
  unfold maxBand
  split_ifs
  · exact ha
  · exact hb

theorem combineTraitAndScore_eq (hv : policy.Valid rt) (ref : ProviderRef) {obs : IPRiskObservation}
    (ho : obs.Valid) {score : Int} (hs : obs.score = some score) :
    ∃ a band reason, combineTraitAndScore rt policy ref obs score =
        .ofObservation ref obs a band reason obs.status obs.evidenceDigest true ∧
      a.isPolicyAction = true ∧ band.isValid = true ∧ reason ∈ traitReasons ++ scoreReasons := by
  obtain ⟨b, -, hformed, heq⟩ := evaluateScore_eq hv (ho.score score hs).1 (ho.score score hs).2
  obtain ⟨hb, hac, hrs⟩ := wellFormed_cases rt hformed
  by_cases hlt : actionRank b.action < actionRank (evaluateTraits rt policy obs.anonymizerTraits).1
  · have htr : (evaluateTraits rt policy obs.anonymizerTraits).1.isPolicyAction = true ∧
        (evaluateTraits rt policy obs.anonymizerTraits).2 ∈ traitReasons ++ scoreReasons := by
      rcases evaluateTraits_cases rt hv.rules ho.traits with hu | ⟨ht, hr⟩
      · -- an action that is not set outranks nothing
        rw [hu] at hlt
        exact absurd hlt (Nat.not_lt_zero _)
      · exact ⟨ht, mem_append_left _ hr⟩
    simp only [combineTraitAndScore, heq, if_pos hlt]
    split_ifs
    · exact ⟨_, _, _, rfl, htr.1, maxBand_isValid hb rfl, htr.2⟩
    · exact ⟨_, _, _, rfl, htr.1, maxBand_isValid hb rfl, htr.2⟩
    · exact ⟨_, _, _, rfl, htr.1, hb, htr.2⟩
  · simp only [combineTraitAndScore, heq, if_neg hlt]
    exact ⟨_, _, _, rfl, hac, hb, mem_append_right _ hrs⟩

inductive ProviderOutcome (policy : RiskPolicy) (ref : ProviderRef) (evaluatedAt : Time) :
    Option IPRiskObservation → ProviderEvalResult → Prop
  | missing : ProviderOutcome policy ref evaluatedAt none
      ⟨ref, .unknown, .unknown, "missing_observation", evaluatedAt, evaluatedAt + policy.maxObservationAge,
        .unknown, "", false⟩
  | unavailable (obs : IPRiskObservation) (reason : String) (status : IPRiskStatus) (digest : String)
      (hreason : reason ∈ unavailableReasons) (hstatus : status.isValid = true)
      (hdigest : digest = "" ∨ digest = obs.evidenceDigest) :
      ProviderOutcome policy ref evaluatedAt (some obs) (.unavailable ref obs reason status digest)
  | available (obs : IPRiskObservation) (action : RiskAction) (band : RiskBand) (reason : String)
      (husable : UsableObservation policy evaluatedAt obs) (haction : action.isPolicyAction = true)
      (hband : band.isValid = true) (hreason : reason ∈ traitReasons ++ scoreReasons) :
      ProviderOutcome policy ref evaluatedAt (some obs)
        (.ofObservation ref obs action band reason obs.status obs.evidenceDigest true)

theorem statusReason_mem {status : IPRiskStatus} (hv : status.isValid = true) (h : status ≠ .available) :
    "observation_status_" ++ Strings.lowerText rt status.text ∈ unavailableReasons := by
  have hl : Strings.lowerText rt status.text = status.text := by
    apply lowerText_eq
    cases status with
    | other s hs => cases hv
    | _ => decide
  rw [hl]
  cases status with
  | other s hs => cases hv
  | available => exact absurd rfl h
  | _ => decide

theorem evaluateEvidence_outcome (hv : policy.Valid rt) (ref : ProviderRef) {now : Time}
    {obs : IPRiskObservation} (ho : obs.Valid) (hu : UsableObservation policy now obs) :
    ProviderOutcome policy ref now (some obs) (evaluateEvidence rt policy ref obs) := by
  unfold evaluateEvidence
  cases hs : obs.score with
  | some score =>
    obtain ⟨a, band, reason, heq, hac, hba, hrs⟩ := combineTraitAndScore_eq hv ref ho hs
    dsimp only
    rw [heq]
    exact .available obs a band reason hu hac hba hrs
  | none =>
    dsimp only
    split_ifs with hb
    · refine .available obs .block .critical _ hu rfl rfl ?_
      rcases evaluateTraits_cases rt hv.rules ho.traits with hun | ⟨-, hr⟩
      · rw [hun] at hb
        cases hb
      · exact mem_append_left _ hr
    · exact .unavailable obs _ _ _ (by decide) ho.status (.inr rfl)

theorem evaluateSingleProviderObservation_outcome (hv : policy.Valid rt) (ref : ProviderRef)
    (exit : String) (now : Time) {obs : Option IPRiskObservation}
    (hob : ∀ o, obs = some o → o.Valid) : ProviderOutcome policy ref now obs
      (evaluateSingleProviderObservation rt policy ref exit now obs) := by
  have ha := hv.age
  cases obs with
  | none =>
    rw [evaluateSingleProviderObservation, if_neg (not_le.mpr ha)]
    exact .missing
  | some obs =>
    have ho : obs.Valid := hob obs rfl
    simp only [evaluateSingleProviderObservation]
    -- the checks in the order of the source; the first that fails gives the reason
    split_ifs with hs hex he hr hn hl
    · exact .unavailable obs _ _ _ (statusReason_mem ho.status hs) ho.status (.inl rfl)
    · exact .unavailable obs _ _ _ (by decide) rfl (.inl rfl)
    · exact .unavailable obs _ _ _ (by decide) rfl (.inl rfl)
    · exact .unavailable obs _ _ _ (by decide) rfl (.inl rfl)
    · exact .unavailable obs _ _ _ (by decide) ho.status (.inr rfl)
    · exact .unavailable obs _ _ _ (by decide) ho.status (.inr rfl)
    · have hco : 0 < policy.minimumConfidence →
          ∃ c, obs.confidence = some c ∧ policy.minimumConfidence ≤ c := by
        intro hm
        cases hc : obs.confidence with
        | none => exact absurd ⟨hm, hc⟩ hn
        | some c =>
          refine ⟨c, rfl, not_lt.mp fun hlt => hl ⟨hm, ?_⟩⟩
          rw [hc]
          exact decide_eq_true hlt
      apply evaluateEvidence_outcome hv ref ho
      exact ⟨not_not.mp hs, not_le.mp he, not_lt.mp fun h => hr ⟨ha, h⟩, hco⟩

end

structure ProviderEvalResult.Sound (r : ProviderEvalResult) : Prop where
  known : r.isAvailable = true → r.action.isPolicyAction = true
  unknown : r.isAvailable = false → r.action = .unknown
  band : r.riskBand.isValid = true
  reason : r.reasonCode ∈ providerReasons
  status : r.status.isValid = true
  digest : r.evidenceDigest ≠ "" → validDigest r.evidenceDigest = true

namespace ProviderOutcome

variable {policy : RiskPolicy} {ref : ProviderRef} {evaluatedAt : Time} {obs : Option IPRiskObservation}
  {r : ProviderEvalResult}

variable (h : ProviderOutcome policy ref evaluatedAt obs r)
include h

theorem ref_eq : r.ref = ref := by
  cases h <;> rfl

theorem sound (ho : ∀ o, obs = some o → o.Valid) : r.Sound := by
  cases h with
  | missing =>
    exact
      { known := fun h => by cases h
        unknown := fun _ => rfl
        band := rfl
        reason := (by decide : "missing_observation" ∈ providerReasons)
        status := rfl
        digest := fun h => absurd rfl h }
  | unavailable o reason status digest hrs hs hdg =>
    refine ⟨fun h => (by cases h), fun _ => rfl, rfl, ?_, hs, fun hne => ?_⟩
    · exact mem_append_left _ (mem_append_left _ hrs)
    · rcases hdg with hd | hd
      · exact absurd hd hne
      · rw [hd]
        exact (ho o rfl).evidence
  | available o action band reason hu hac hb hrs =>
    refine ⟨fun _ => hac, fun h => (by cases h), hb, ?_, (ho o rfl).status, fun _ => (ho o rfl).evidence⟩
    rw [providerReasons, append_assoc]
    exact mem_append_right _ hrs

theorem times (ho : ∀ o, obs = some o → o.Valid) (ha : 0 < policy.maxObservationAge) (hz : ¬evaluatedAt.IsZero)
    (he : ¬Time.IsZero (evaluatedAt + policy.maxObservationAge)) :
    ¬r.observedAt.IsZero ∧ ¬r.expiresAt.IsZero ∧ r.observedAt < r.expiresAt := by
  cases h with
  | missing =>
    have hlt : evaluatedAt < evaluatedAt + policy.maxObservationAge := Int.lt_add_of_pos_right evaluatedAt ha
    exact ⟨hz, he, hlt⟩
  | unavailable o reason status digest hrs hs hdg
  | available o action band reason hu hac hb hrs =>
    exact ⟨(ho o rfl).observed, (ho o rfl).expires, (ho o rfl).ttl⟩

theorem usable (ha : r.isAvailable = true) : ∃ o, obs = some o ∧ UsableObservation policy evaluatedAt o := by
  cases h with
  | missing | unavailable o reason status digest hrs hs hdg => cases ha
  | available o action band reason hu hac hb hrs => exact ⟨o, rfl, hu⟩

end ProviderOutcome

namespace ProviderEvalResult.Sound

variable {r : ProviderEvalResult}

theorem isUnknown_eq (h : r.Sound) : r.isUnknown = !r.isAvailable := by
  cases ha : r.isAvailable with
  | false => simp [isUnknown, ha]
  | true =>
    have hne : r.action ≠ .unknown := by
      intro hu
      have hp := h.known ha
      rw [hu] at hp
      cases hp
    simp [isUnknown, ha, hne]

theorem isAvailable_of_action (h : r.Sound) {a : RiskAction} (ha : r.action = a) (hne : a ≠ .unknown) :
    r.isAvailable = true := by
  by_contra hn
  have hu := h.unknown (by simpa using hn)
  exact hne (ha.symm.trans hu)

end ProviderEvalResult.Sound

end ClashSubParser
