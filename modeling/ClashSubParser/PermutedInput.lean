import ClashSubParser.NodeSets

/-! Two resolutions of one input with its nodes, groups and risk decisions in another order, which later
sorts erase. -/
namespace ClashSubParser

open List MemoRecursion StableSort

/-- The same input up to the order of nodes, groups and risk decisions. -/
structure Permuted (i j : ResolveInput) : Prop where
  nodes : i.nodes.Perm j.nodes
  groups : i.groups.Perm j.groups
  riskDecisions : i.riskDecisions.Perm j.riskDecisions
  rest : j = { i with nodes := j.nodes, groups := j.groups, riskDecisions := j.riskDecisions }

structure Determinate (i : ResolveInput) : Prop where
  nodes : (i.nodes.map (·.logicalID)).Nodup
  groups : (groupIDs i.groups).Nodup
  asOf : ¬i.asOf.IsZero

variable {i j : ResolveInput}

theorem Permuted.normalized (h : Permuted i j) : Permuted (normalizeInput i) (normalizeInput j) := by
  obtain ⟨hns, hgs, hd, hr⟩ := h
  have hs : j.groupSources = i.groupSources := by rw [hr]
  refine ⟨hns, ?_, hd, ?_⟩
  · simp only [normalizeInput, hs, givenSources]
    exact hgs.map _
  · rw [hr]
    rfl

theorem Determinate.normalized (h : Determinate i) : Determinate (normalizeInput i) :=
  ⟨h.nodes, by rw [groupIDs_normalizeInput]; exact h.groups, h.asOf⟩

theorem Permuted.symm (h : Permuted i j) : Permuted j i := by
  refine ⟨h.nodes.symm, h.groups.symm, h.riskDecisions.symm, ?_⟩
  rw [h.rest]

theorem Permuted.exists_eq (h : Permuted i j) : ∃ ns gs ds,
    i.nodes.Perm ns ∧ i.groups.Perm gs ∧ i.riskDecisions.Perm ds ∧
    j = { i with nodes := ns, groups := gs, riskDecisions := ds } :=
  ⟨_, _, _, h.nodes, h.groups, h.riskDecisions, h.rest⟩

section

variable {rt : Runtime} {clock clock' : Clock} {i j : ResolveInput}

theorem evaluateRiskAdmission_perm {nodes nodes' : List Node} {ds ds' : List RiskDecision}
    (hn : nodes.Perm nodes') (hd : ds.Perm ds') (rev : String) (action : RiskAction) :
    (evaluateRiskAdmission nodes' rev ds' action).1 = (evaluateRiskAdmission nodes rev ds action).1 ∧
    (evaluateRiskAdmission nodes rev ds action).2.Perm (evaluateRiskAdmission nodes' rev ds' action).2 := by
  have han (d : RiskDecision) : nodes'.any (·.logicalID == d.nodeLogicalID) =
      nodes.any (·.logicalID == d.nodeLogicalID) := hn.symm.any_eq
  have ha : (applicableDecisions nodes rev ds).Perm (applicableDecisions nodes' rev ds') := by
    simp only [applicableDecisions, han]
    exact hd.filter _
  have hni : ds' = [] ↔ ds = [] := by
    rw [← length_eq_zero_iff, ← length_eq_zero_iff, hd.length_eq]
  simp only [evaluateRiskAdmission, hni]
  by_cases hs : rev = "" ∨ ds = []
  · rw [if_pos hs, if_pos hs]
    exact ⟨rfl, List.Perm.refl _⟩
  · rw [if_neg hs, if_neg hs]
    refine ⟨sortedSet_congr fun x => ?_, ha.filterMap _⟩
    exact ((ha.filter _).map _).symm.mem_iff

section

variable (h : Permuted i j)
include h

theorem Permuted.nodeVerdict_eq : nodeVerdict rt j = nodeVerdict rt i := by
  obtain ⟨ns, -, ds, hn, -, hd, rfl⟩ := h.exists_eq
  have hr := (evaluateRiskAdmission_perm hn hd i.riskPolicyRevision i.riskReviewAction).1
  funext n
  change admissionVerdict rt _ (i.excludedNodeIDs ++ (evaluateRiskAdmission ns _ ds _).1) n = _
  rw [hr]
  rfl

theorem Permuted.globalVerdict_eq (hi : Determinate i) : globalVerdict rt clock' j = globalVerdict rt clock i := by
  obtain ⟨-, -, -, -, -, -, rfl⟩ := h.exists_eq
  funext n
  simp only [globalVerdict, asOfTime, hi.asOf, if_false]
  rfl

theorem Permuted.admittedNodes_perm : (admission rt i).admittedNodes.Perm (admission rt j).admittedNodes := by
  change (i.nodes.filter (fun n => (nodeVerdict rt i n).isNone)).Perm
    (j.nodes.filter (fun n => (nodeVerdict rt j n).isNone))
  rw [h.nodeVerdict_eq]
  exact h.nodes.filter _

theorem Permuted.globalAdmittedNodes_perm (hi : Determinate i) :
    (globalAdmittedNodes rt clock i).Perm (globalAdmittedNodes rt clock' j) := by
  simp only [globalAdmittedNodes, @Permuted.globalVerdict_eq rt clock clock' i j h hi]
  exact h.admittedNodes_perm.filter _

theorem Permuted.globalExcludedNodes_perm (hi : Determinate i) :
    (globalExcludedNodes rt clock i).Perm (globalExcludedNodes rt clock' j) := by
  simp only [globalExcludedNodes, @Permuted.globalVerdict_eq rt clock clock' i j h hi]
  exact h.admittedNodes_perm.filter _

end

theorem nodup_admittedNodes (hi : Determinate i) : ((admission rt i).admittedNodes.map (·.logicalID)).Nodup :=
  hi.nodes.sublist (filter_sublist.map _)

theorem nodup_globalAdmittedNodes (hi : Determinate i) : ((globalAdmittedNodes rt clock i).map (·.logicalID)).Nodup :=
  (nodup_admittedNodes hi).sublist (filter_sublist.map _)

theorem nodup_globalExcludedNodes (hi : Determinate i) : ((globalExcludedNodes rt clock i).map (·.logicalID)).Nodup :=
  (nodup_admittedNodes hi).sublist (filter_sublist.map _)

theorem sortNodes_perm {nodes nodes' : List Node} (h : nodes.Perm nodes')
    (hnd : (nodes.map (·.logicalID)).Nodup) : sortNodes nodes = sortNodes nodes' := by
  apply stableSort_eq_of_perm (thenLess_weakLess _ (keyLess_weakLess _)) h
  intro a ha b hb hab
  rw [thenLess_tied, keyLess_tied] at hab
  exact inj_on_of_nodup_map hnd ha hb hab.2

theorem sortGroups_perm {groups groups' : List NodeGroup} (h : groups.Perm groups')
    (hnd : (groupIDs groups).Nodup) : sortGroups groups = sortGroups groups' := by
  apply stableSort_eq_of_perm (thenLess_weakLess _ (keyLess_weakLess _)) h
  intro a ha b hb hab
  rw [thenLess_tied, keyLess_tied] at hab
  exact inj_on_of_nodup_map hnd ha hb hab.2

end

section

variable {rt : Runtime} {clock clock' : Clock} {i j : ResolveInput}

theorem Permuted.resolveContext_eq (h : Permuted i j) (hi : Determinate i) :
    resolveContext rt clock' j = resolveContext rt clock i := by
  have hgs : mapOf (fun g : NodeGroup => g.id) j.groups = mapOf (·.id) i.groups :=
    (mapOf_perm hi.groups h.groups).symm
  have hgl := @Permuted.globalAdmittedNodes_perm rt clock clock' i j h hi
  have hg : mapOf (fun n : Node => n.logicalID) (globalAdmittedNodes rt clock' j) =
      mapOf (·.logicalID) (globalAdmittedNodes rt clock i) :=
    (mapOf_perm (nodup_globalAdmittedNodes hi) hgl).symm
  have had : (admission rt j).admittedNodeMap = (admission rt i).admittedNodeMap :=
    (mapOf_perm (nodup_admittedNodes hi) h.admittedNodes_perm).symm
  have hso : sortNodes (globalAdmittedNodes rt clock' j) =
      sortNodes (globalAdmittedNodes rt clock i) :=
    (sortNodes_perm hgl (nodup_globalAdmittedNodes hi)).symm
  have hs : nodeSourcesOf j = nodeSourcesOf i := by rw [h.rest]; rfl
  have ho : observationsOf j = observationsOf i := by rw [h.rest]; rfl
  have ha : asOfTime clock' j = asOfTime clock i := by
    have hj : j.asOf = i.asOf := by rw [h.rest]
    rw [asOfTime, asOfTime, hj, if_neg hi.asOf, if_neg hi.asOf]
  rw [resolveContext, resolveContext, groupContext, groupContext, hgs,
    hg, had, hso, hs, ho, ha]

theorem Permuted.groupResults_eq (h : Permuted i j) (hi : Determinate i) :
    groupResults rt clock' j = groupResults rt clock i := by
  have hrl : j.policyRules = i.policyRules := by rw [h.rest]
  have ha : anyFilterDefined j = anyFilterDefined i := by rw [h.rest]; rfl
  rw [groupResults, groupResults, @Permuted.resolveContext_eq rt clock clock' i j h hi, hrl, ha]
  rw [resolveGroups, resolveGroups, sortGroups_perm h.groups hi.groups, h.groups.length_eq]

theorem Permuted.resolveRules_eq (h : Permuted i j) (hi : Determinate i) :
    resolveRules rt j.policyRules j.groups = resolveRules rt i.policyRules i.groups := by
  have hrl : j.policyRules = i.policyRules := by rw [h.rest]
  rw [resolveRules, resolveRules, hrl, mapOf_perm hi.groups h.groups]

end

section

variable {rt : Runtime} {clock clock' : Clock} {i j : ResolveInput}

theorem diagnosticLess_weakLess : WeakLess diagnosticLess :=
  thenLess_weakLess _ (thenLess_weakLess _ (keyLess_weakLess _))

theorem diagnosticLess_tied (d e : Diagnostic) : tied diagnosticLess d e = true ↔
    d.code = e.code ∧ d.target = e.target ∧ d.message = e.message := by
  rw [diagnosticLess, thenLess_tied, thenLess_tied, keyLess_tied]

/-- The fields the sort does not compare, where the code determines them. -/
structure Diagnostic.PlainOf (d : Diagnostic) (infoCode : String) : Prop where
  reason : d.reason = ""
  severity : d.severity = if d.code = infoCode then .info else .warning

variable {d : Diagnostic}

theorem Diagnostic.PlainOf.eq_of_tied {e : Diagnostic} {infoCode : String} (hd : d.PlainOf infoCode)
    (he : e.PlainOf infoCode) (h : tied diagnosticLess d e = true) : d = e := by
  obtain ⟨hc, htg, hm⟩ := (diagnosticLess_tied d e).mp h
  have hs : d.severity = e.severity := by rw [hd.severity, he.severity, hc]
  have hrs : d.reason = e.reason := hd.reason.trans he.reason.symm
  cases d
  cases e
  simp_all

theorem admissionVerdict_plain {rules : List AdmissionRule} {excluded : List String} {n : Node}
    (h : admissionVerdict rt rules excluded n = some d) : d.PlainOf "node_inactive" := by
  unfold admissionVerdict at h
  split_ifs at h
  · cases h
    exact ⟨rfl, rfl⟩
  · cases h
    exact ⟨rfl, rfl⟩
  · unfold admissionRuleVerdict at h
    cases hr : rules.find? (fun rule => matchesAdmissionExpression rt n rule.expression) with
    | none => simp [hr] at h
    | some rule =>
      simp only [hr] at h
      cases hac : rule.action with
      | reject | quarantine =>
        simp only [hac, Option.some.injEq] at h
        subst h
        exact ⟨rfl, rfl⟩
      | allow | other t ht => simp [hac] at h

theorem riskDiagnostic_plain {action : RiskAction} {decision : RiskDecision}
    (h : riskDiagnostic action decision = some d) : d.PlainOf "risk_review_allowed" := by
  unfold riskDiagnostic at h
  cases hd : decision.decision with
  | block | unknown =>
    simp only [hd, Option.some.injEq] at h
    subst h
    exact ⟨rfl, by simp [riskDiagnosticSeverity, riskExcludes]⟩
  | review =>
    simp only [hd] at h
    split_ifs at h with hal
    · cases h
      exact ⟨rfl, by simp [riskDiagnosticSeverity, riskExcludes, hal]⟩
    · cases h
      exact ⟨rfl, by simp [riskDiagnosticSeverity, riskExcludes, hal]⟩
  | allow | other t ht => simp [hd] at h

theorem riskAdmission_plain (hd : d ∈ (riskAdmission i).2) : d.PlainOf "risk_review_allowed" := by
  unfold riskAdmission evaluateRiskAdmission at hd
  split at hd
  · simp at hd
  · obtain ⟨decision, -, hde⟩ := mem_filterMap.mp hd
    exact riskDiagnostic_plain hde

theorem Permuted.allDiagnostics_eq (h : Permuted i j) (hi : Determinate i) :
    allDiagnostics rt clock' j = allDiagnostics rt clock i := by
  have ha : (admission rt i).diagnostics.Perm (admission rt j).diagnostics := by
    change (i.nodes.filterMap (nodeVerdict rt i)).Perm
      (j.nodes.filterMap (nodeVerdict rt j))
    rw [h.nodeVerdict_eq]
    exact h.nodes.filterMap _
  have hr : (riskAdmission i).2.Perm (riskAdmission j).2 := by
    obtain ⟨ns, -, ds, hn, -, hd, rfl⟩ := h.exists_eq
    exact (evaluateRiskAdmission_perm hn hd _ _).2
  have hdi : globalFilterDiagnostic rt clock' j = globalFilterDiagnostic rt clock i := by
    funext n
    simp only [globalFilterDiagnostic, @Permuted.globalVerdict_eq rt clock clock' i j h hi]
  have hgl : ((globalExcludedNodes rt clock i).map (globalFilterDiagnostic rt clock i)).Perm
      ((globalExcludedNodes rt clock' j).map (globalFilterDiagnostic rt clock' j)) := by
    rw [hdi]
    exact (h.globalExcludedNodes_perm hi).map _
  rw [allDiagnostics, allDiagnostics, @Permuted.groupResults_eq rt clock clock' i j h hi]
  -- segment by segment, tied diagnostics are equal
  apply stableSort_eq_of_classes diagnosticLess_weakLess
  intro x
  have ht (d e : Diagnostic) (hd : tied diagnosticLess x d = true) (he : tied diagnosticLess x e = true) :
      tied diagnosticLess d e = true := by
    rw [diagnosticLess_tied] at hd he ⊢
    exact ⟨hd.1.symm.trans he.1, hd.2.1.symm.trans he.2.1, hd.2.2.symm.trans he.2.2⟩
  simp only [filter_append]
  congr 1
  congr 1
  · congr 1
    · refine (filter_eq_of_perm_of_const ha _ fun d hd e he hxd hxe => ?_).symm
      obtain ⟨n, -, hn⟩ := mem_filterMap.mp hd
      obtain ⟨n', -, hn'⟩ := mem_filterMap.mp he
      exact (admissionVerdict_plain hn).eq_of_tied (admissionVerdict_plain hn') (ht d e hxd hxe)
    · refine (filter_eq_of_perm_of_const hr _ fun d hd e he hxd hxe => ?_).symm
      exact (riskAdmission_plain hd).eq_of_tied (riskAdmission_plain he) (ht d e hxd hxe)
  · refine (filter_eq_of_perm_of_const hgl _ fun d hd e he hxd hxe => ?_).symm
    obtain ⟨n, hn, rfl⟩ := mem_map.mp hd
    obtain ⟨n', hn', rfl⟩ := mem_map.mp he
    -- the target is the node
    have hid : n.logicalID = n'.logicalID := ((diagnosticLess_tied _ _).mp (ht _ _ hxd hxe)).2.1
    rw [inj_on_of_nodup_map (nodup_globalExcludedNodes hi) hn hn' hid]

end

section

variable {rt : Runtime} {enc : Encoder} {clock clock' : Clock} {i j : ResolveInput}

theorem sortStrings_perm {l m : List String} (h : l.Perm m) : sortStrings l = sortStrings m :=
  ((perm_insertionSort _ l).trans (h.trans (perm_insertionSort _ m).symm)).eq_of_pairwise
    (fun _ _ _ _ => le_antisymm) (pairwise_insertionSort _ l) (pairwise_insertionSort _ m)

theorem Permuted.finalAdmittedIDs_eq (h : Permuted i j) (hi : Determinate i) :
    finalAdmittedIDs rt clock' j = finalAdmittedIDs rt clock i :=
  (sortStrings_perm ((h.globalAdmittedNodes_perm hi).map _)).symm

theorem Permuted.finalExcludedIDs_eq (h : Permuted i j) (hi : Determinate i) :
    finalExcludedIDs rt clock' j = finalExcludedIDs rt clock i := by
  have hm (id : String) : id ∈ finalExcludedIDs rt clock' j ↔
      id ∈ finalExcludedIDs rt clock i := by
    simp only [mem_finalExcludedIDs, admissible_iff, h.nodeVerdict_eq,
      @Permuted.globalVerdict_eq rt clock clock' i j h hi, h.nodes.mem_iff]
  simp only [finalExcludedIDs, uniqueStrings_sortStrings, mem_sortedSet] at hm ⊢
  exact sortedSet_congr hm

theorem Permuted.filterCountsOf_eq (h : Permuted i j) (hi : Determinate i) :
    filterCountsOf rt clock' j = filterCountsOf rt clock i := by
  rw [filterCountsOf, filterCountsOf, h.nodes.length_eq, (@Permuted.admittedNodes_perm rt i j h).length_eq,
    (@Permuted.globalAdmittedNodes_perm rt clock clock' i j h hi).length_eq,
    @Permuted.groupResults_eq rt clock clock' i j h hi]

theorem Permuted.nodes_sorted (h : Permuted i j) (hi : Determinate i) :
    sortedAdmittedNodes (globalAdmittedNodes rt clock' j) =
      sortedAdmittedNodes (globalAdmittedNodes rt clock i) := by
  rw [sortedAdmittedNodes, sortedAdmittedNodes,
    sortNodes_perm (@Permuted.globalAdmittedNodes_perm rt clock clock' i j h hi) (nodup_globalAdmittedNodes hi)]

/-- Decisions on one node for one reason look the same in the digest. -/
def ConsistentDecisions (rt : Runtime) (i : ResolveInput) : Prop :=
  ∀ d ∈ i.riskDecisions, ∀ e ∈ i.riskDecisions, d.nodeLogicalID = e.nodeLogicalID →
    d.reasonCode = e.reasonCode → canonicalRiskDecision rt d = canonicalRiskDecision rt e

theorem map_sortDecisions (decisions : List RiskDecision) : (sortDecisions decisions).map (canonicalRiskDecision rt) =
      stableSort (thenLess (·.nodeLogicalID) (keyLess (·.reasonCode)))
        (decisions.map (canonicalRiskDecision rt)) :=
  map_stableSort _ _ _ _ fun _ _ _ _ => rfl

theorem Permuted.canonicalInput_eq (h : Permuted i j) (hi : Determinate i) (hc : ConsistentDecisions rt i)
    (now now' : Time) : canonicalInput rt j now' = canonicalInput rt i now := by
  obtain ⟨ns, gs, ds, hn, hg, hd, rfl⟩ := h.exists_eq
  have hns : stableSort (keyLess (·.logicalID)) (i.nodes.map canonicalNode) =
      stableSort (keyLess (·.logicalID)) (ns.map canonicalNode) := by
    apply stableSort_eq_of_perm (keyLess_weakLess _) (hn.map _)
    intro a ha b hb hab
    obtain ⟨n, hna, rfl⟩ := mem_map.mp ha
    obtain ⟨n', hnb, rfl⟩ := mem_map.mp hb
    rw [inj_on_of_nodup_map hi.nodes hna hnb ((keyLess_tied _ _ _).mp hab)]
  have hgs : stableSort (keyLess (·.id)) (i.groups.map (canonicalGroup i)) =
      stableSort (keyLess (·.id)) (gs.map (canonicalGroup i)) := by
    apply stableSort_eq_of_perm (keyLess_weakLess _) (hg.map _)
    intro a ha b hb hab
    obtain ⟨g, hga, rfl⟩ := mem_map.mp ha
    obtain ⟨g', hgb, rfl⟩ := mem_map.mp hb
    rw [inj_on_of_nodup_map hi.groups hga hgb ((keyLess_tied _ _ _).mp hab)]
  have hde : (sortDecisions i.riskDecisions).map (canonicalRiskDecision rt) =
      (sortDecisions ds).map (canonicalRiskDecision rt) := by
    rw [map_sortDecisions, map_sortDecisions]
    apply stableSort_eq_of_perm (thenLess_weakLess _ (keyLess_weakLess _)) (hd.map _)
    intro a ha b hb hab
    obtain ⟨d, hda, rfl⟩ := mem_map.mp ha
    obtain ⟨e, heb, rfl⟩ := mem_map.mp hb
    rw [thenLess_tied, keyLess_tied] at hab
    exact hc d hda e heb hab.1 hab.2
  simp only [canonicalInput, hi.asOf, if_false]
  rw [hns, hgs, hde]
  rfl

/-- The snapshots differ in their time alone. -/
theorem Permuted.snapshotOf_eq (h : Permuted i j) (hi : Determinate i) (hc : ConsistentDecisions rt i) :
    snapshotOf rt enc clock' j = { snapshotOf rt enc clock i with resolvedAt := clock'.resolvedAt } := by
  have hdg : computeInputDigest rt enc j clock'.digestAsOf =
      computeInputDigest rt enc i clock.digestAsOf := by
    rw [computeInputDigest, computeInputDigest, h.canonicalInput_eq hi hc clock.digestAsOf]
  have hd : draftSnapshot rt enc clock' j =
      { draftSnapshot rt enc clock i with resolvedAt := clock'.resolvedAt } := by
    have hr : j.revisionID = i.revisionID ∧ j.inventoryWatermark = i.inventoryWatermark ∧
        j.compilerVersion = i.compilerVersion ∧ j.dns = i.dns ∧
        j.riskPolicyRevision = i.riskPolicyRevision ∧ j.riskDecisionDigest = i.riskDecisionDigest ∧
        j.riskEvaluatedAt = i.riskEvaluatedAt := by
      rw [h.rest]
      exact ⟨rfl, rfl, rfl, rfl, rfl, rfl, rfl⟩
    obtain ⟨h₁, h₂, h₃, h₄, h₅, h₆, h₇⟩ := hr
    rw [draftSnapshot, draftSnapshot, hdg, h₁, h₂, h₃, h₄, h₅, h₆, h₇,
      @Permuted.nodes_sorted rt clock clock' i j h hi, @Permuted.groupResults_eq rt clock clock' i j h hi,
      @Permuted.resolveRules_eq rt i j h hi, @Permuted.allDiagnostics_eq rt clock clock' i j h hi,
      @Permuted.finalAdmittedIDs_eq rt clock clock' i j h hi,
      @Permuted.finalExcludedIDs_eq rt clock clock' i j h hi, @Permuted.filterCountsOf_eq rt clock clock' i j h hi]
  rw [snapshotOf, snapshotOf, hd]
  rfl

theorem Permuted.validateInput_ok (h : Permuted i j) (hva : validateInput rt (normalizeInput i) = .ok ()) :
    validateInput rt (normalizeInput j) = .ok () := by
  have hn := h.normalized
  have hrl : j.policyRules = i.policyRules := by rw [h.rest]
  have hf : j.globalFilter = i.globalFilter := by rw [h.rest]
  obtain ⟨ht, hgl⟩ := validateInput_ok_iff.mp hva
  rw [validateInput_ok_iff, hrl, hf]
  refine ⟨?_, hgl⟩
  have hi (u : String) : u ∈ groupIDs (normalizeInput i).groups ↔
      u ∈ groupIDs (normalizeInput j).groups := (hn.groups.map _).mem_iff
  obtain ⟨hok, -, hr⟩ := validatePolicyTopology_ok_iff.mp ht
  apply validatePolicyTopology_ok_of_part ht
  · intro g hg
    exact ⟨g, hn.groups.mem_iff.mpr hg, rfl, rfl, rfl, fun s hs => hs⟩
  · intro g hg s hs v hv
    have hsr := checkSources_ok_iff.mp (hok.source g (hn.groups.mem_iff.mpr hg)) s hs
    exact (hi v).mp ((checkSource_ok_iff.mp hsr).2 v hv).2
  · rwa [← validatePolicyRules_congr hi]

end

end ClashSubParser
