import ClashSubParser.JsonEncoding
import ClashSubParser.SensitiveText

/-! The records of the risk service and their validators. -/
namespace ClashSubParser

open List FirstError Regexp

namespace RiskAction

def unset : RiskAction := .other "" (by decide)

def isValid (a : RiskAction) : Bool := a = .allow || a = .review || a = .block || a = .unknown

def isPolicyAction (a : RiskAction) : Bool := a = .allow || a = .review || a = .block

theorem isPolicyAction_iff {a : RiskAction} : a.isPolicyAction = true ↔ a = .allow ∨ a = .review ∨ a = .block := by
  simp [isPolicyAction, or_assoc]

theorem isValid_of_isPolicyAction {a : RiskAction} (h : a.isPolicyAction = true) : a.isValid = true := by
  rcases isPolicyAction_iff.mp h with rfl | rfl | rfl <;> rfl

end RiskAction

inductive RiskBand
  | low | medium | high | critical | unknown
  | other (s : String) (h : s ∉ ["low", "medium", "high", "critical", "unknown"])
deriving DecidableEq

namespace RiskBand

def text : RiskBand → String
  | low => "low"
  | medium => "medium"
  | high => "high"
  | critical => "critical"
  | unknown => "unknown"
  | other s _ => s

def isValid : RiskBand → Bool
  | other _ _ => false
  | _ => true

end RiskBand

inductive IPRiskStatus
  | available | unknown | error | stale
  | other (s : String) (h : s ∉ ["available", "unknown", "error", "stale"])
deriving DecidableEq

namespace IPRiskStatus

def text : IPRiskStatus → String
  | available => "available"
  | unknown => "unknown"
  | error => "error"
  | stale => "stale"
  | other s _ => s

def isValid : IPRiskStatus → Bool
  | other _ _ => false
  | _ => true

end IPRiskStatus

inductive NetworkClass
  | residential | datacenter | mobile | business | unknown
  | other (s : String) (h : s ∉ ["residential", "datacenter", "mobile", "business", "unknown"])
deriving DecidableEq

def NetworkClass.isValid : NetworkClass → Bool
  | other _ _ => false
  | _ => true

inductive AnonymizerTrait
  | proxy | vpn | tor | residentialProxy | hosting | unknown
  | other (s : String) (h : s ∉ ["proxy", "vpn", "tor", "residential_proxy", "hosting", "unknown"])
deriving DecidableEq

namespace AnonymizerTrait

def text : AnonymizerTrait → String
  | proxy => "proxy"
  | vpn => "vpn"
  | tor => "tor"
  | residentialProxy => "residential_proxy"
  | hosting => "hosting"
  | unknown => "unknown"
  | other s _ => s

def isValid : AnonymizerTrait → Bool
  | other _ _ => false
  | _ => true

end AnonymizerTrait

inductive RiskFusionMode
  | singleProvider | allMustAllow | highestRisk
  | other (s : String) (h : s ∉ ["single_provider", "all_must_allow", "highest_risk"])
deriving DecidableEq

namespace RiskFusionMode

def text : RiskFusionMode → String
  | singleProvider => "single_provider"
  | allMustAllow => "all_must_allow"
  | highestRisk => "highest_risk"
  | other s _ => s

def isValid : RiskFusionMode → Bool
  | other _ _ => false
  | _ => true

end RiskFusionMode

structure ProviderRef where
  provider : String
  schemaVersion : String
deriving DecidableEq

def providerKey (provider schemaVersion : String) : String := provider ++ "\x00" ++ schemaVersion

def ProviderRef.key (ref : ProviderRef) : String := providerKey ref.provider ref.schemaVersion

structure RiskProviderSelection where
  mode : RiskFusionMode
  providers : List ProviderRef
deriving DecidableEq

structure ScoreBand where
  min : Int
  max : Int
  band : RiskBand
  action : RiskAction
deriving DecidableEq

structure TraitRule where
  trait : AnonymizerTrait
  action : RiskAction
deriving DecidableEq

structure IPRiskObservation where
  id : String
  nodeLogicalID : String
  exitIdentityDigest : String
  provider : String
  providerSchemaVersion : String
  observedAt : Time
  expiresAt : Time
  status : IPRiskStatus
  score : Option Int := none
  confidence : Option Int := none
  networkClass : NetworkClass
  anonymizerTraits : List AnonymizerTrait := []
  evidenceDigest : String
  redactedSummary : String := ""
deriving DecidableEq

structure RiskPolicy where
  revisionID : String
  providerSelection : RiskProviderSelection
  /-- nanoseconds -/
  maxObservationAge : Int
  minimumConfidence : Int
  scoreBands : List ScoreBand
  traitRules : List TraitRule := []
  unknownAction : RiskAction := .unset
  conflictAction : RiskAction := .unset
  reviewAction : RiskAction := .unset
deriving DecidableEq

/-- A decision with the evidence it rests on, which the resolver does not read. -/
structure NodeRiskDecision extends RiskDecision where
  observationDigestSet : List String
deriving DecidableEq

structure IPRiskSummary where
  decision : RiskAction
  riskBand : RiskBand
  provider : String
  providerSchemaVersion : String
  observedAt : Time
  expiresAt : Time
  status : IPRiskStatus
  reasonCode : String
  policyRevisionID : Option String
deriving DecidableEq

def effectiveAction (a : RiskAction) : RiskAction := if a.isPolicyAction then a else .review

namespace RiskPolicy

def effectiveUnknownAction (p : RiskPolicy) : RiskAction := effectiveAction p.unknownAction

def effectiveReviewAction (p : RiskPolicy) : RiskAction := effectiveAction p.reviewAction

end RiskPolicy

/-- Whatever action is stored, the one enforced is allow, review or block. -/
theorem isPolicyAction_effectiveAction (a : RiskAction) : (effectiveAction a).isPolicyAction = true := by
  unfold effectiveAction
  split_ifs with h
  · exact h
  · rfl

theorem effectiveAction_eq_allow_iff {a : RiskAction} : effectiveAction a = .allow ↔ a = .allow := by
  unfold effectiveAction
  split_ifs with h
  · rfl
  · constructor
    · intro h'
      cases h'
    · rintro rfl
      exact absurd rfl h

def forEachDistinct {α κ : Type} [DecidableEq κ] (key : α → κ) (check : α → Except GoError Unit)
    (duplicate : GoError) : List κ → List α → Except GoError Unit
  | _, [] => .ok ()
  | seen, a :: l => do
    check a
    if key a ∈ seen then .error duplicate else forEachDistinct key check duplicate (key a :: seen) l

theorem forEachDistinct_eq_ok_iff {α κ : Type} [DecidableEq κ] {key : α → κ} {check : α → Except GoError Unit}
    {duplicate : GoError} {seen : List κ} {l : List α} : forEachDistinct key check duplicate seen l = .ok () ↔
      (∀ a ∈ l, check a = .ok ()) ∧ (l.map key).Nodup ∧ ∀ a ∈ l, key a ∉ seen := by
  induction l generalizing seen with
  | nil => simp [forEachDistinct]
  | cons a l ih =>
    rw [forEachDistinct, bind_unit_eq_ok_iff]
    by_cases hs : key a ∈ seen
    · simp [hs]
    · rw [if_neg hs, ih]
      simp only [mem_cons, map_cons, nodup_cons, mem_map, forall_eq_or_imp, not_or, not_exists, not_and]
      constructor
      · rintro ⟨ha, hl, hn, hd⟩
        exact ⟨⟨ha, hl⟩, ⟨fun b hb => (hd b hb).1, hn⟩, hs, fun b hb => (hd b hb).2⟩
      · rintro ⟨⟨ha, hl⟩, ⟨hk, hn⟩, -, hd⟩
        exact ⟨ha, hl, hn, fun b hb => ⟨hk b hb, hd b hb⟩⟩

section

variable (rt : Runtime)

def maxIPRiskIdentifierLength : ℕ := 64

def maxIPRiskRedactedSummaryLength : ℕ := 512

/-- `reasonCodeRegex` -/
def isReasonCode (s : String) : Bool :=
  match s.toList with
  | [] => false
  | c :: cs => c.isLower && cs.all (fun d => d.isLower || d.isDigit || "_.-".toList.contains d)

/-- `ipRiskIdentifierRegex` -/
def isIPRiskIdentifier (s : String) : Bool :=
  match s.toList with
  | [] => false
  | c :: cs => c.isAlphanum && cs.all (fun d => d.isAlphanum || "_.-".toList.contains d)

def validDigest (value : String) : Bool :=
  Strings.hasPrefix value "sha256:" && Strings.byteLen value == 7 + 64 && (value.toList.drop 7).all isHex

def validatePercent (name : String) (value : Option Int) : Except GoError Unit :=
  if value.any (fun v => v < 0 || 100 < v) then
    invalid rt ("invalid_ip_risk_" ++ name) (name ++ " must be between 0 and 100")
  else .ok ()

def validateIPRiskIdentifier (field value : String) : Except GoError Unit :=
  let trimmed := Strings.trimSpace value
  if trimmed = "" then invalid rt ("missing_ip_risk_" ++ field) ("IP risk " ++ field ++ " is required")
  else if maxIPRiskIdentifierLength < Strings.byteLen trimmed ∨ isIPRiskIdentifier trimmed = false then
    invalid rt ("invalid_ip_risk_" ++ field) ("IP risk " ++ field ++ " format is invalid")
  else if containsSensitiveIPRiskText rt trimmed then
    insecure rt ("sensitive_ip_risk_" ++ field) ("IP risk " ++ field ++ " contains sensitive data")
  else .ok ()

def validateRedactedSummary (summary : String) : Except GoError Unit :=
  if maxIPRiskRedactedSummaryLength < Strings.byteLen summary then
    invalid rt "invalid_ip_risk_summary_length"
      ("IP risk summary length exceeds maximum of " ++ toString maxIPRiskRedactedSummaryLength)
  else if ["\x7b", "\x7d", "[", "]"].any (Strings.contains summary) then
    insecure rt "raw_json_ip_risk_summary" "IP risk summary must not contain raw JSON"
  else if containsSensitiveIPRiskText rt summary then
    insecure rt "sensitive_ip_risk_summary" "IP risk summary contains sensitive data"
  else .ok ()

def validateTrait (trait : AnonymizerTrait) : Except GoError Unit :=
  if trait.isValid = false then
    invalid rt "invalid_ip_risk_trait" ("unsupported anonymizer trait: " ++ trait.text)
  else .ok ()

def IPRiskObservation.validate (o : IPRiskObservation) : Except GoError Unit :=
  if isValidUUIDv7 o.id = false then
    invalid rt "invalid_ip_risk_observation_id" "IP risk observation id must be UUIDv7"
  else if isValidLogicalID o.nodeLogicalID = false then
    invalid rt "invalid_ip_risk_node_logical_id" "IP risk observation has an invalid node logical ID"
  else if validDigest o.exitIdentityDigest = false ∨ validDigest o.evidenceDigest = false then
    invalid rt "invalid_ip_risk_digest" "IP risk observation digest is invalid"
  else do
    validateIPRiskIdentifier rt "provider" o.provider
    validateIPRiskIdentifier rt "schema_version" o.providerSchemaVersion
    if o.observedAt.IsZero ∨ o.expiresAt.IsZero ∨ ¬o.observedAt < o.expiresAt then
      invalid rt "invalid_ip_risk_ttl" "IP risk observation expires_at must be after observed_at"
    else if o.status.isValid = false ∨ o.networkClass.isValid = false then
      invalid rt "invalid_ip_risk_status" "IP risk observation status or network class is invalid"
    else do
      validatePercent rt "score" o.score
      validatePercent rt "confidence" o.confidence
      forEachDistinct (fun trait => trait) (validateTrait rt)
        (.domain (newValidationError rt "duplicate_ip_risk_trait" "anonymizer traits must be unique"))
        [] o.anonymizerTraits
      -- the traits are distinct here, so their number is the size of the set
      if .unknown ∈ o.anonymizerTraits ∧ o.anonymizerTraits.length ≠ 1 then
        invalid rt "ambiguous_ip_risk_traits" "unknown anonymizer trait cannot be combined with another trait"
      else validateRedactedSummary rt o.redactedSummary

def ScoreBand.wellFormed (b : ScoreBand) : Bool :=
  !(b.min < 0 || 100 < b.max || b.max < b.min || !b.band.isValid || b.band = .unknown || !b.action.isPolicyAction)

def validateOrderedBands : Option ScoreBand → List ScoreBand → Except GoError Unit
  | _, [] => .ok ()
  | previous, band :: rest =>
    if band.wellFormed = false then
      invalid rt "invalid_risk_score_band" "risk policy score band is invalid"
    else if previous.any (fun p => band.min ≠ p.max + 1) then
      invalid rt "overlapping_or_incomplete_risk_score_bands"
        "risk policy score bands must be contiguous and non-overlapping"
    else validateOrderedBands (some band) rest

-- `sort.Slice` may order equal lower ends either way; such bands are rejected in both orders
def validateScoreBands (bands : List ScoreBand) : Except GoError Unit :=
  match bands.insertionSort (fun a b => a.min ≤ b.min) with
  | [] => invalid rt "missing_risk_score_bands" "risk policy score bands are required"
  | first :: rest =>
    if first.min ≠ 0 then
      invalid rt "incomplete_risk_score_bands" "risk policy score bands must start at zero"
    else do
      validateOrderedBands rt none (first :: rest)
      if ((first :: rest).getLast (cons_ne_nil first rest)).max ≠ 100 then
        invalid rt "incomplete_risk_score_bands" "risk policy score bands must end at one hundred"
      else .ok ()

def validateProviderRef (ref : ProviderRef) : Except GoError Unit :=
  match validateIPRiskIdentifier rt "provider" ref.provider,
      validateIPRiskIdentifier rt "schema_version" ref.schemaVersion with
  | .ok (), .ok () => .ok ()
  | _, _ => invalid rt "invalid_risk_provider_reference" "risk policy provider reference is incomplete"

def validateTraitRule (rule : TraitRule) : Except GoError Unit :=
  if rule.trait.isValid = false ∨ rule.trait = .unknown ∨ rule.action.isPolicyAction = false then
    invalid rt "invalid_risk_trait_rule" "risk policy trait rule is invalid"
  else .ok ()

def validatePolicyAction (action : String × RiskAction) : Except GoError Unit :=
  if action.2 ≠ .unset ∧ action.2.isPolicyAction = false then
    invalid rt ("invalid_" ++ action.1) "risk policy action must be allow, review or block"
  else .ok ()

def RiskPolicy.validate (p : RiskPolicy) : Except GoError Unit :=
  if isValidUUIDv7 p.revisionID = false then
    invalid rt "invalid_risk_policy_revision_id" "risk policy revision_id must be UUIDv7"
  else if p.providerSelection.mode.isValid = false ∨ p.providerSelection.providers = [] then
    invalid rt "invalid_risk_provider_selection" "risk policy provider selection is incomplete"
  else if p.providerSelection.mode = .singleProvider ∧ p.providerSelection.providers.length ≠ 1 then
    invalid rt "invalid_risk_provider_selection" "single-provider fusion requires exactly one provider"
  else do
    forEachDistinct ProviderRef.key (validateProviderRef rt)
      (.domain (newValidationError rt "duplicate_risk_provider_reference"
        "risk policy provider references must be unique")) [] p.providerSelection.providers
    if p.maxObservationAge ≤ 0 ∨ p.minimumConfidence < 0 ∨ 100 < p.minimumConfidence then
      invalid rt "invalid_risk_policy_threshold" "risk policy age and confidence thresholds are invalid"
    else do
      validateScoreBands rt p.scoreBands
      forEach (validateTraitRule rt) p.traitRules
      if ¬(p.traitRules.map (·.trait)).Nodup then
        invalid rt "duplicate_risk_trait_rule" "risk policy trait rules must be unique"
      else
        forEach (validatePolicyAction rt) [("unknown_action", p.unknownAction),
          ("conflict_action", p.conflictAction), ("review_action", p.reviewAction)]

def NodeRiskDecision.validate (d : NodeRiskDecision) : Except GoError Unit :=
  if isValidLogicalID d.nodeLogicalID = false ∨ isValidUUIDv7 d.policyRevisionID = false then
    invalid rt "invalid_risk_decision_reference" "risk decision references are invalid"
  else if d.decision.isValid = false ∨ isReasonCode d.reasonCode = false ∨
      containsSensitiveIPRiskText rt d.reasonCode = true ∨ d.evaluatedAt.IsZero then
    invalid rt "invalid_risk_decision" "risk decision is incomplete or reason code is unsafe"
  else
    forEachDistinct (fun digest => digest) (fun digest =>
        if validDigest digest = false then
          invalid rt "invalid_risk_decision_digest" "risk decision contains an invalid observation digest"
        else .ok ())
      (.domain (newValidationError rt "duplicate_risk_decision_digest"
        "risk decision observation digests must be unique")) [] d.observationDigestSet

def IPRiskSummary.validate (s : IPRiskSummary) : Except GoError Unit :=
  if s.decision.isValid = false ∨ s.riskBand.isValid = false ∨ s.status.isValid = false then
    invalid rt "invalid_ip_risk_summary" "IP risk summary contains an invalid state"
  else do
    validateIPRiskIdentifier rt "provider" s.provider
    validateIPRiskIdentifier rt "schema_version" s.providerSchemaVersion
    if s.observedAt.IsZero ∨ s.expiresAt.IsZero ∨ ¬s.observedAt < s.expiresAt then
      invalid rt "invalid_ip_risk_summary_ttl" "IP risk summary timestamps are invalid"
    else if isReasonCode s.reasonCode = false ∨ containsSensitiveIPRiskText rt s.reasonCode = true then
      invalid rt "invalid_ip_risk_summary_reason" "IP risk summary reason code is unsafe"
    else if s.policyRevisionID.any (fun id => !isValidUUIDv7 id) then
      invalid rt "invalid_ip_risk_summary_policy" "IP risk summary policy revision is invalid"
    else .ok ()

end

end ClashSubParser
