import ClashSubParser.RiskDecisions

/-! The admission a batch evaluation shows is the one the resolver enforces on its decisions. -/
namespace ClashSubParser

open List FirstError

section

variable {rt : Runtime} {svc : RiskService} {now : Time} {input : EvaluateBatchInput} {policy : RiskPolicy}
  {evaluatedAt : Time}

/-- A successful batch is built from one evaluation per distinct node, in the order of their IDs. -/
theorem evaluateBatch_eq_ok {result : BatchEvaluationResult}
    (hr : resolvePolicy rt svc input.policy input.policyRevisionID = .ok policy)
    (h : evaluateBatch rt svc now input = .ok result) : policy.validate rt = .ok () ∧ ∃ evaluatedAt evals,
      (sortedSet input.nodeLogicalIDs).map (evaluateBatchNode rt svc input policy evaluatedAt) = evals.map .ok ∧
        result = batchResult rt input policy evaluatedAt evals := by
  rw [evaluateBatch, hr, bind_eq_ok_iff] at h
  obtain ⟨p, hp, h⟩ := h
  obtain rfl := Except.ok.inj hp
  rw [bind_unit_eq_ok_iff, bind_unit_eq_ok_iff, bind_eq_ok_iff] at h
  obtain ⟨hv, -, evals, he, hrs⟩ := h
  exact ⟨hv, _, evals, allOk_eq_ok_iff.mp he, (Except.ok.inj hrs).symm⟩

theorem evaluateBatchNode_eq_ok {nodeID : String} {e : String × NodeEvaluation}
    (h : evaluateBatchNode rt svc input policy evaluatedAt nodeID = .ok e) :
    e.1 = nodeID ∧ e.2.decision.nodeLogicalID = nodeID ∧ e.2.decision.policyRevisionID = policy.revisionID ∧
      e.2.decision.decision.isValid = true := by
  rw [evaluateBatchNode, bind_eq_ok_iff] at h
  obtain ⟨observations, -, h⟩ := h
  rw [bind_eq_ok_iff] at h
  obtain ⟨eval, he, h⟩ := h
  obtain rfl := Except.ok.inj h
  rw [wrapError_eq_ok_iff] at he
  obtain ⟨f, -, hd, -, rfl⟩ := evaluateNodeCore_eq_ok_iff.mp he
  refine ⟨rfl, rfl, rfl, ?_⟩
  simp only [NodeRiskDecision.validate, ite_invalid_eq_ok, not_or, Bool.not_eq_false] at hd
  exact hd.2.1.1

variable {evals : List (String × NodeEvaluation)}

theorem map_fst_eq {ids : List String}
    (h : ids.map (evaluateBatchNode rt svc input policy evaluatedAt) = evals.map .ok) : evals.map (·.1) = ids := by
  induction ids generalizing evals with
  | nil => simpa using h.symm
  | cons id ids ih =>
    cases evals with
    | nil => simp at h
    | cons e evals =>
      rw [map_cons, map_cons, List.cons.injEq] at h
      rw [map_cons, ih h.2, (evaluateBatchNode_eq_ok h.1).1]

theorem evaluated_of_mem {ids : List String}
    (h : ids.map (evaluateBatchNode rt svc input policy evaluatedAt) = evals.map .ok)
    {e : String × NodeEvaluation} (he : e ∈ evals) :
    e.2.decision.nodeLogicalID = e.1 ∧ e.2.decision.policyRevisionID = policy.revisionID ∧
      e.2.decision.decision.isValid = true := by
  have hm : .ok e ∈ ids.map (evaluateBatchNode rt svc input policy evaluatedAt) := by
    rw [h]
    exact mem_map_of_mem he
  obtain ⟨nodeID, -, hn⟩ := mem_map.mp hm
  obtain ⟨hf, hid, hr⟩ := evaluateBatchNode_eq_ok hn
  exact ⟨hid.trans hf.symm, hr⟩

/-- The two sides decide alike: the service on the action of the policy, the resolver on `allow` or
`block` in its place. -/
theorem riskExcludes_eq_not_admitsDecision {d : RiskAction} (h : d.isValid = true) :
    riskExcludes (if policy.effectiveReviewAction = .allow then .allow else .block) d =
      !admitsDecision policy d := by
  cases d with
  | allow | block | unknown => rfl
  | review =>
    by_cases hr : policy.effectiveReviewAction = .allow <;> simp [riskExcludes, admitsDecision, hr]
  | other s hs => cases h

theorem admitted_append_excluded_perm : ((batchResult rt input policy evaluatedAt evals).admittedNodeIDs ++
      (batchResult rt input policy evaluatedAt evals).excludedNodeIDs).Perm (evals.map (·.1)) := by
  have hso : ∀ l : List String, (sortStrings l).Perm l := fun l => perm_insertionSort _ l
  refine ((hso _).append (hso _)).trans ?_
  rw [← map_append]
  exact (filter_append_perm _ evals).map _

theorem evaluateRiskAdmission_eq_excluded (hv : policy.validate rt = .ok ()) (hnd : (evals.map (·.1)).Nodup)
    (hev : ∀ e ∈ evals, e.2.decision.nodeLogicalID = e.1 ∧ e.2.decision.policyRevisionID = policy.revisionID ∧
      e.2.decision.decision.isValid = true) {nodes : List Node} (hns : ∀ e ∈ evals, ∃ n ∈ nodes, n.logicalID = e.1) :
    (evaluateRiskAdmission nodes policy.revisionID
        (((batchResult rt input policy evaluatedAt evals).decisions).map (·.toRiskDecision))
        policy.effectiveReviewAction).1 =
      (batchResult rt input policy evaluatedAt evals).excludedNodeIDs := by
  have hre : policy.revisionID ≠ "" := by
    intro hem
    have hid := (RiskPolicy.valid_of_validate hv).revision
    rw [hem] at hid
    exact absurd hid (by decide)
  by_cases hni : evals = []
  · subst hni
    simp [evaluateRiskAdmission, batchResult, sortStrings]
  have hde : ((evals.map (·.2.decision)).map (·.toRiskDecision)) =
      evals.map (fun e => e.2.decision.toRiskDecision) := by rw [map_map]; rfl
  -- every decision of the batch applies: it is of this policy and of one of the nodes
  have ha : applicableDecisions nodes policy.revisionID
      (evals.map (fun e => e.2.decision.toRiskDecision)) = evals.map (fun e => e.2.decision.toRiskDecision) := by
    rw [applicableDecisions, filter_eq_self]
    intro d hd
    obtain ⟨e, he, rfl⟩ := mem_map.mp hd
    obtain ⟨hid, hr, -⟩ := hev e he
    obtain ⟨n, hn, hne⟩ := hns e he
    rw [Bool.and_eq_true, beq_iff_eq, any_eq_true]
    exact ⟨hr, n, hn, beq_iff_eq.mpr (hne.trans hid.symm)⟩
  have hf : ((evals.map (fun e => e.2.decision.toRiskDecision)).filter (fun d =>
        riskExcludes (if policy.effectiveReviewAction = .allow then .allow else .block) d.decision)).map
          (·.nodeLogicalID) =
      (evals.filter (fun e => !admitsDecision policy e.2.decision.decision)).map (·.1) := by
    rw [filter_map, map_map]
    have hs : evals.filter ((fun d : RiskDecision =>
          riskExcludes (if policy.effectiveReviewAction = .allow then .allow else .block) d.decision) ∘
            fun e => e.2.decision.toRiskDecision) =
        evals.filter (fun e => !admitsDecision policy e.2.decision.decision) :=
      filter_congr fun e he => riskExcludes_eq_not_admitsDecision (hev e he).2.2
    rw [hs]
    exact map_congr_left fun e he => (hev e (mem_of_mem_filter he)).1
  have hsu : ((evals.filter (fun e => !admitsDecision policy e.2.decision.decision)).map (·.1)).Nodup :=
    hnd.sublist (filter_sublist.map _)
  have hne : evals.map (fun e => e.2.decision.toRiskDecision) ≠ [] := by simpa using hni
  rw [evaluateRiskAdmission, batchResult, hde, if_neg (not_or.mpr ⟨hre, hne⟩), ha]
  dsimp only
  rw [hf, sortStrings, sortedSet, hsu.dedup]

end

/-- The admitted and the excluded nodes of a batch are the distinct nodes of its input, each once,
and the resolver excludes the same nodes on the decisions of the batch. -/
theorem batch_admission_enforced (rt : Runtime) (svc : RiskService) (now : Time) (input : EvaluateBatchInput)
    (policy : RiskPolicy) (result : BatchEvaluationResult) (nodes : List Node)
    (hresolve : resolvePolicy rt svc input.policy input.policyRevisionID = .ok policy)
    (hbatch : evaluateBatch rt svc now input = .ok result)
    (hnodes : ∀ id, (∃ n ∈ nodes, n.logicalID = id) ↔ id ∈ input.nodeLogicalIDs) :
    (result.admittedNodeIDs ++ result.excludedNodeIDs).Perm input.nodeLogicalIDs.dedup ∧
      (evaluateRiskAdmission nodes policy.revisionID (result.decisions.map (·.toRiskDecision))
        policy.effectiveReviewAction).1 = result.excludedNodeIDs := by
  obtain ⟨hv, evaluatedAt, evals, hev, rfl⟩ := evaluateBatch_eq_ok hresolve hbatch
  have hi : evals.map (·.1) = sortedSet input.nodeLogicalIDs := map_fst_eq hev
  constructor
  · refine admitted_append_excluded_perm.trans ?_
    rw [hi]
    exact perm_insertionSort _ _
  · apply evaluateRiskAdmission_eq_excluded hv
    · rw [hi]
      exact sortedSet_nodup _
    · exact fun e he => evaluated_of_mem hev he
    · intro e he
      have hm : e.1 ∈ evals.map (·.1) := mem_map_of_mem he
      rw [hi, mem_sortedSet] at hm
      exact (hnodes e.1).mpr hm

/-- A node under review and one that both providers pass, whose observations are in the input. -/
def sampleBatch : EvaluateBatchInput where
  nodeLogicalIDs := [nodeUS.logicalID, nodeHK.logicalID]
  policy := some (sampleRiskPolicy .allMustAllow [scamalytics, ipqs] .review)
  evaluatedAt := sampleTime
  observations := [sampleObservation "scamalytics" 40,
    { sampleObservation "scamalytics" 10 with nodeLogicalID := nodeUS.logicalID },
    { sampleObservation "ipqs" 20 with nodeLogicalID := nodeUS.logicalID }]

theorem batch_admission_enforced_review :
    ∃ result, evaluateBatch asciiRuntime ⟨none, none⟩ sampleTime sampleBatch = .ok result ∧
      result.admittedNodeIDs = [nodeUS.logicalID] ∧ result.excludedNodeIDs = [nodeHK.logicalID] ∧
      (evaluateRiskAdmission [nodeHK, nodeUS] idA (result.decisions.map (·.toRiskDecision)) .review).1 =
        result.excludedNodeIDs := by
  have hr : ∃ result, evaluateBatch asciiRuntime ⟨none, none⟩ sampleTime sampleBatch = .ok result ∧
      result.admittedNodeIDs = [nodeUS.logicalID] ∧ result.excludedNodeIDs = [nodeHK.logicalID] :=
    ⟨_, rfl, by decide +kernel, by decide +kernel⟩
  obtain ⟨result, hrs, had, hex⟩ := hr
  refine ⟨result, hrs, had, hex, (batch_admission_enforced asciiRuntime ⟨none, none⟩ sampleTime sampleBatch _ result
    [nodeHK, nodeUS] rfl hrs fun id => ?_).2⟩
  simp [sampleBatch, eq_comm, or_comm]

end ClashSubParser
