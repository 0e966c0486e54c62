import ClashSubParser.IPRisk

/-! The risk service: what a policy makes of the observations of one node, and of a batch of nodes. -/
namespace ClashSubParser

open FirstError StableSort

structure ProviderEvalResult where
  ref : ProviderRef
  action : RiskAction
  riskBand : RiskBand
  reasonCode : String
  observedAt : Time
  expiresAt : Time
  status : IPRiskStatus
  evidenceDigest : String
  isAvailable : Bool
deriving DecidableEq

def ProviderEvalResult.isUnknown (r : ProviderEvalResult) : Bool := r.action = .unknown || !r.isAvailable

def bandRank : RiskBand → ℕ
  | .critical => 4
  | .high => 3
  | .medium => 2
  | .low => 1
  | _ => 0

def actionRank : RiskAction → ℕ
  | .block => 3
  | .review => 2
  | .allow => 1
  | _ => 0

def maxBand (a b : RiskBand) : RiskBand := if bandRank b ≤ bandRank a then a else b

def maxBandAcross (results : List ProviderEvalResult) (fallback : RiskBand) : RiskBand :=
  results.foldl (fun highest r =>
    if r.riskBand ≠ .unknown ∧ bandRank highest < bandRank r.riskBand then r.riskBand else highest) fallback

section

variable (rt : Runtime) (policy : RiskPolicy) (ref : ProviderRef) (expectedExitDigest : String) (evaluatedAt : Time)

variable (obs : IPRiskObservation)

def ProviderEvalResult.ofObservation (action : RiskAction) (band : RiskBand)
    (reason : String) (status : IPRiskStatus) (digest : String) (available : Bool) : ProviderEvalResult where
  ref := ref
  action := action
  riskBand := band
  reasonCode := reason
  observedAt := obs.observedAt
  expiresAt := obs.expiresAt
  status := status
  evidenceDigest := digest
  isAvailable := available

def ProviderEvalResult.unavailable (reason : String) (status : IPRiskStatus)
    (digest : String) : ProviderEvalResult :=
  .ofObservation ref obs .unknown .unknown reason status digest false

/-- The strictest action of the trait rules that apply, with its reason. -/
def evaluateTraits (traits : List AnonymizerTrait) : RiskAction × String :=
  traits.foldl (fun found trait =>
    policy.traitRules.foldl (fun found rule =>
      if rule.trait = trait ∧ actionRank found.1 < actionRank rule.action then
        (rule.action, "trait_rule_" ++ Strings.lowerText rt trait.text)
      else found) found) (.unset, "")

def evaluateScore (score : Int) : RiskBand × RiskAction × String :=
  match policy.scoreBands.find? (fun b => b.min ≤ score && score ≤ b.max) with
  | some b => (b.band, b.action, "score_band_" ++ Strings.lowerText rt b.band.text)
  | none => (.unknown, .unknown, "")

def combineTraitAndScore (score : Int) : ProviderEvalResult :=
  let trait := evaluateTraits rt policy obs.anonymizerTraits
  let found := evaluateScore rt policy score
  let result (action : RiskAction) (band : RiskBand) (reason : String) :=
    ProviderEvalResult.ofObservation ref obs action band reason obs.status obs.evidenceDigest true
  if actionRank found.2.1 < actionRank trait.1 then
    if trait.1 = .block then result trait.1 (maxBand found.1 .high) trait.2
    else if trait.1 = .review then result trait.1 (maxBand found.1 .medium) trait.2
    else result trait.1 found.1 trait.2
  else result found.2.1 found.1 found.2.2

def evaluateEvidence : ProviderEvalResult :=
  match obs.score with
  | some score => combineTraitAndScore rt policy ref obs score
  | none =>
    let trait := evaluateTraits rt policy obs.anonymizerTraits
    if trait.1 = .block then
      .ofObservation ref obs .block .critical trait.2 obs.status obs.evidenceDigest true
    else .unavailable ref obs "missing_score" obs.status obs.evidenceDigest

def evaluateSingleProviderObservation (obs : Option IPRiskObservation) : ProviderEvalResult :=
  let defaultTTL := if policy.maxObservationAge ≤ 0 then 24 * 3600 * 1000000000 else policy.maxObservationAge
  match obs with
  | none =>
    { ref := ref
      action := .unknown
      riskBand := .unknown
      reasonCode := "missing_observation"
      observedAt := evaluatedAt
      expiresAt := evaluatedAt + defaultTTL
      status := .unknown
      evidenceDigest := ""
      isAvailable := false }
  | some obs =>
    let unavailable := ProviderEvalResult.unavailable ref obs
    if obs.status ≠ .available then
      unavailable ("observation_status_" ++ Strings.lowerText rt obs.status.text) obs.status ""
    else if expectedExitDigest ≠ "" ∧ obs.exitIdentityDigest ≠ expectedExitDigest then
      unavailable "exit_identity_mismatch" .unknown ""
    else if obs.expiresAt ≤ evaluatedAt then unavailable "observation_expired" .stale ""
    else if 0 < policy.maxObservationAge ∧ policy.maxObservationAge < Time.sub evaluatedAt obs.observedAt then
      unavailable "observation_exceeded_max_age" .stale ""
    else if 0 < policy.minimumConfidence ∧ obs.confidence = none then
      unavailable "missing_confidence" obs.status obs.evidenceDigest
    else if 0 < policy.minimumConfidence ∧ obs.confidence.any (· < policy.minimumConfidence) then
      unavailable "insufficient_confidence" obs.status obs.evidenceDigest
    else evaluateEvidence rt policy ref obs

end

def newerObservation (existing : Option IPRiskObservation) (obs : IPRiskObservation) : Option IPRiskObservation :=
  match existing with
  | none => some obs
  | some e =>
    if e.observedAt < obs.observedAt ∨ (obs.observedAt = e.observedAt ∧ e.id < obs.id) then some obs else some e

def observationKey (obs : IPRiskObservation) : String := providerKey obs.provider obs.providerSchemaVersion

def latestByProvider (nodeLogicalID : String) (observations : List IPRiskObservation) (key : String) :
    Option IPRiskObservation :=
  (observations.filter (fun o => o.nodeLogicalID = nodeLogicalID && observationKey o = key)).foldl
    newerObservation none

/-- What the fusion settles: action, band and reason, and the provider shown for them. -/
structure Fused where
  action : RiskAction
  band : RiskBand
  reason : String
  chosen : ProviderEvalResult
deriving DecidableEq

section

variable (policy : RiskPolicy) (results : List ProviderEvalResult)

def indexPanic {α : Type} : Except GoError α := .error (.plain "runtime error: index out of range")

def fuseSingleProvider : Except GoError Fused :=
  match results with
  | [] => indexPanic
  | res :: _ =>
    if res.isUnknown then .ok ⟨policy.effectiveUnknownAction, .unknown, res.reasonCode, res⟩
    else .ok ⟨res.action, res.riskBand, res.reasonCode, res⟩

def fuseAllMustAllow : Except GoError Fused :=
  match results.find? (·.action = .block) with
  | some res => .ok ⟨.block, maxBandAcross results .critical, "all_must_allow_blocked", res⟩
  | none =>
    match results.find? (·.isUnknown) with
    | some res => .ok ⟨policy.effectiveUnknownAction, .unknown, "all_must_allow_" ++ res.reasonCode, res⟩
    | none =>
      match results.find? (·.action = .review) with
      | some res => .ok ⟨.review, maxBandAcross results .medium, "all_must_allow_review", res⟩
      | none =>
        match results with
        | [] => indexPanic
        | res :: _ => .ok ⟨.allow, maxBandAcross results .low, "all_must_allow_passed", res⟩

def keepBlocking (found : Option ProviderEvalResult) (r : ProviderEvalResult) : Option ProviderEvalResult :=
  if r.action = .block then
    match found with
    | none => some r
    | some b => if b.ref.provider = "" ∨ bandRank b.riskBand < bandRank r.riskBand then some r else some b
  else found

def blockingResult : Option ProviderEvalResult := results.foldl keepBlocking none

def riskiestResult (first : ProviderEvalResult) (rest : List ProviderEvalResult) : ProviderEvalResult :=
  rest.foldl (fun best r =>
    if bandRank best.riskBand < bandRank r.riskBand then r
    else if bandRank r.riskBand = bandRank best.riskBand ∧ actionRank best.action < actionRank r.action then r
    else best) first

def fuseHighestRisk : Except GoError Fused :=
  match blockingResult results with
  | some res => .ok ⟨.block, maxBandAcross results .critical, "highest_risk_blocked", res⟩
  | none =>
    match results.find? (·.isUnknown) with
    | some res =>
      match results.find? (·.action = .review) with
      | some review => .ok ⟨.review, .medium, "highest_risk_review", review⟩
      | none => .ok ⟨policy.effectiveUnknownAction, .unknown, "highest_risk_" ++ res.reasonCode, res⟩
    | none =>
      match results with
      | [] => indexPanic
      | first :: rest =>
        let best := riskiestResult first rest
        .ok ⟨best.action, best.riskBand, "highest_risk_" ++ best.action.text, best⟩

def fuse (rt : Runtime) : Except GoError Fused :=
  match policy.providerSelection.mode with
  | .singleProvider => fuseSingleProvider policy results
  | .allMustAllow => fuseAllMustAllow policy results
  | .highestRisk => fuseHighestRisk policy results
  | .other mode _ => invalid rt "invalid_risk_fusion_mode" ("unsupported risk fusion mode: " ++ mode)

end

def normalizeReasonCode (rt : Runtime) (reason : String) : String :=
  let lower := Strings.lowerText rt (Strings.trimSpace reason)
  let reason := String.ofList (lower.toList.map (fun c => if c = ' ' ∨ c = '-' then '_' else c))
  if reason = "" then "risk_decision_evaluated" else reason

structure NodeEvaluation where
  decision : NodeRiskDecision
  summary : IPRiskSummary
  riskBand : RiskBand
  action : RiskAction
deriving DecidableEq

/-- `fmt.Errorf` with the text before `%w`. -/
def wrapError {α : Type} (text : String) : Except GoError α → Except GoError α
  | .ok a => .ok a
  | .error e => .error (.wrapped text e)

@[simp] theorem wrapError_eq_ok_iff {α : Type} {text : String} {x : Except GoError α} {a : α} :
    wrapError text x = .ok a ↔ x = .ok a := by
  cases x with
  | error e | ok b => simp [wrapError]

section

variable (rt : Runtime) (policy : RiskPolicy) (nodeLogicalID expectedExitDigest : String)
  (observations : List IPRiskObservation) (evaluatedAt : Time)

def providerResult (ref : ProviderRef) : ProviderEvalResult :=
  evaluateSingleProviderObservation rt policy ref expectedExitDigest evaluatedAt
    (latestByProvider nodeLogicalID observations ref.key)

def providerResults : List ProviderEvalResult :=
  policy.providerSelection.providers.map
    (providerResult rt policy nodeLogicalID expectedExitDigest observations evaluatedAt)

def constructDecision (results : List ProviderEvalResult) (fused : Fused) : NodeRiskDecision where
  nodeLogicalID := nodeLogicalID
  policyRevisionID := policy.revisionID
  decision := fused.action
  reasonCode := normalizeReasonCode rt fused.reason
  observationDigestSet := sortedSet ((results.map (·.evidenceDigest)).filter (· ≠ ""))
  evaluatedAt := evaluatedAt

def constructSummary (fused : Fused) : IPRiskSummary where
  decision := fused.action
  riskBand := fused.band
  provider := fused.chosen.ref.provider
  providerSchemaVersion := fused.chosen.ref.schemaVersion
  observedAt := fused.chosen.observedAt
  expiresAt := fused.chosen.expiresAt
  status := fused.chosen.status
  reasonCode := normalizeReasonCode rt fused.reason
  policyRevisionID := some policy.revisionID

def evaluateNodeCore : Except GoError NodeEvaluation := do
  let results := providerResults rt policy nodeLogicalID expectedExitDigest observations evaluatedAt
  let fused ← fuse policy results rt
  let decision := constructDecision rt policy nodeLogicalID evaluatedAt results fused
  wrapError "constructed invalid RiskDecision: " (decision.validate rt)
  let summary := constructSummary rt policy fused
  wrapError "constructed invalid IPRiskSummary: " (summary.validate rt)
  .ok ⟨decision, summary, fused.band, fused.action⟩

end

section

structure EvaluateBatchInput where
  nodeLogicalIDs : List String
  exitIdentityDigests : GoMap String := GoMap.empty
  policy : Option RiskPolicy
  policyRevisionID : String := ""
  inventoryWatermark : String := ""
  evaluatedAt : Time
  observations : List IPRiskObservation

structure RiskDiagnostic where
  nodeLogicalID : String
  decision : RiskAction
  riskBand : RiskBand
  reasonCode : String
  message : String
deriving DecidableEq

structure BatchEvaluationResult where
  policyRevisionID : String
  inventoryWatermark : String
  evaluatedAt : Time
  decisionDigest : String
  decisions : List NodeRiskDecision
  summaries : List IPRiskSummary
  admittedNodeIDs : List String
  excludedNodeIDs : List String
  diagnostics : List RiskDiagnostic
deriving DecidableEq

structure RiskPolicyRepository where
  getByID : String → Except GoError RiskPolicy
  getActive : Except GoError RiskPolicy

structure RiskService where
  /-- the first page of a node's observations -/
  obsRepo : Option (String → Except GoError (List IPRiskObservation))
  policyRepo : Option RiskPolicyRepository

variable (rt : Runtime) (svc : RiskService)

def resolvePolicy (explicit : Option RiskPolicy) (revisionID : String) : Except GoError RiskPolicy :=
  match explicit, svc.policyRepo with
  | some policy, _ => .ok policy
  | none, none => invalid rt "missing_risk_policy" "risk policy is required"
  | none, some repo => if revisionID ≠ "" then repo.getByID revisionID else repo.getActive

def canonicalDecisionItem (d : NodeRiskDecision) : Json.Text := Json.object
  [Json.text "node_logical_id" d.nodeLogicalID, Json.text "decision" d.decision.text,
   Json.text "reason_code" d.reasonCode,
   Json.field "observation_digest_set"
     (Json.array ((uniqueStrings (sortStrings d.observationDigestSet)).map Json.string))]

def computeDecisionDigest (policyRevisionID watermark : String) (evaluatedAt : Time)
    (decisions : List NodeRiskDecision) : String :=
  let ordered := stableSort (keyLess (fun d : NodeRiskDecision => d.nodeLogicalID)) decisions
  let payload := Json.object
    [Json.text "policy_revision_id" policyRevisionID, Json.optionalText "inventory_watermark" watermark,
     Json.text "evaluated_at" (rt.formatRFC3339Nano evaluatedAt),
     Json.field "decisions" (Json.array (ordered.map canonicalDecisionItem))]
  "sha256:" ++ Strconv.hexEncode (rt.sha256 (String.ofList payload))

def admitsDecision (policy : RiskPolicy) : RiskAction → Bool
  | .allow => true
  | .review => policy.effectiveReviewAction = .allow
  | _ => false

def evaluationDiagnostic (nodeID : String) (eval : NodeEvaluation) : Option RiskDiagnostic :=
  let diagnostic (middle : String) : Option RiskDiagnostic := some
    { nodeLogicalID := nodeID
      decision := eval.decision.decision
      riskBand := eval.summary.riskBand
      reasonCode := eval.decision.reasonCode
      message := "node " ++ nodeID ++ middle ++ eval.decision.reasonCode }
  match eval.decision.decision with
  | .allow => none
  | .block => diagnostic " blocked by risk policy: "
  | .review => diagnostic " requires review under risk policy: "
  | _ => diagnostic " unknown risk state: "

variable (input : EvaluateBatchInput)

def nodeObservations (nodeID : String) : Except GoError (List IPRiskObservation) :=
  let given := input.observations.filter (·.nodeLogicalID = nodeID)
  match given, svc.obsRepo with
  | [], some list => wrapError ("failed to fetch observations for node " ++ nodeID ++ ": ") (list nodeID)
  | _, _ => .ok given

def evaluateBatchNode (policy : RiskPolicy) (evaluatedAt : Time) (nodeID : String) :
    Except GoError (String × NodeEvaluation) := do
  let observations ← nodeObservations svc input nodeID
  let expectedExitDigest := (input.exitIdentityDigests.get? nodeID).getD ""
  let eval ← wrapError ("failed to evaluate node " ++ nodeID ++ ": ")
    (evaluateNodeCore rt policy nodeID expectedExitDigest observations evaluatedAt)
  .ok (nodeID, eval)

def batchResult (policy : RiskPolicy) (evaluatedAt : Time)
    (evals : List (String × NodeEvaluation)) : BatchEvaluationResult where
  policyRevisionID := policy.revisionID
  inventoryWatermark := input.inventoryWatermark
  evaluatedAt := evaluatedAt
  decisionDigest := computeDecisionDigest rt policy.revisionID input.inventoryWatermark evaluatedAt
    (evals.map (·.2.decision))
  decisions := evals.map (·.2.decision)
  summaries := evals.map (·.2.summary)
  admittedNodeIDs := sortStrings
    ((evals.filter (fun e => admitsDecision policy e.2.decision.decision)).map (·.1))
  excludedNodeIDs := sortStrings
    ((evals.filter (fun e => !admitsDecision policy e.2.decision.decision)).map (·.1))
  diagnostics := evals.filterMap (fun e => evaluationDiagnostic e.1 e.2)

def evaluateBatch (now : Time) (input : EvaluateBatchInput) : Except GoError BatchEvaluationResult := do
  let policy ← resolvePolicy rt svc input.policy input.policyRevisionID
  policy.validate rt
  let evaluatedAt := if input.evaluatedAt.IsZero then now else input.evaluatedAt
  forEach (fun nodeID =>
    if isValidLogicalID nodeID = false then
      invalid rt "invalid_node_logical_id" ("invalid node logical ID: " ++ nodeID)
    else .ok ()) input.nodeLogicalIDs
  let evals ← allOk ((sortedSet input.nodeLogicalIDs).map (evaluateBatchNode rt svc input policy evaluatedAt))
  .ok (batchResult rt input policy evaluatedAt evals)

end

end ClashSubParser
