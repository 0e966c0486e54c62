import ClashSubParser.Compiler
import ClashSubParser.PrunedSnapshots
import ClashSubParser.RiskEvaluation

/-! `Preflight`, which looks at the snapshot after pruning, and the checks of `Publish`, before and after. -/
namespace ClashSubParser

open List FirstError Strings

/-! ### All capability diagnostics of a snapshot -/

structure CapabilityDiagnostic where
  nodeID : String := ""
  code : String
  message : String
  target : String
deriving DecidableEq

section

variable (lib : Libraries) (snap : ResolvedPolicySnapshot) (target : CompilerTarget)

def nodeCapabilityDiagnostic (capability : Capability) (index : ℕ) (node : ResolvedNode) :
    Option CapabilityDiagnostic :=
  let diagnostic (message : String) : CapabilityDiagnostic :=
    ⟨node.logicalID, "unsupported_target_capability", message, target.text⟩
  if node.protocol ∉ capability.protocols then
    some (diagnostic ("target " ++ target.text ++ " does not support protocol " ++ node.protocol.text ++
      " (protocol is not supported)"))
  else
    match validateCredentialEnvelope lib target index node with
    | .error err => some (diagnostic err.error)
    | .ok _ => none

variable (g : ResolvedGroup)

def ResolvedGroup.lacksProxies : Bool :=
  let hasProxies := !g.allNodeLogicalIDs.isEmpty || g.members.any (fun m => m.kind = .builtin)
  !g.usesEmptyPass && (g.members.isEmpty || (g.emptyFallbackPass && !hasProxies))

def memberCapabilityDiagnostic (m : ResolvedGroupMember) : Option CapabilityDiagnostic :=
  let tID := trimSpace m.targetID
  let tName := trimSpace m.displayName
  if m.kind = .group ∧ (tID ≠ "" ∧ tID ∉ groupNameSet snap) ∧ tName ≠ "" ∧ tName ∉ groupNameSet snap then
    some
      { code := "dangling_group_reference"
        message := "group " ++ Strconv.quote lib.toRuntime g.name ++ " references non-existent child group " ++
          Strconv.quote lib.toRuntime tName
        target := target.text }
  else none

def groupCapabilityDiagnostics : List CapabilityDiagnostic :=
  (if g.lacksProxies then
    [{ code := "required_nonempty"
       message := "proxy group " ++ Strconv.quote lib.toRuntime g.name ++ " has no proxies (required_nonempty)"
       target := target.text }]
  else []) ++ g.members.filterMap (memberCapabilityDiagnostic lib snap target g)

def ruleCapabilityDiagnostic (r : ResolvedRule) : Option CapabilityDiagnostic :=
  let tName := trimSpace r.targetGroupName
  let tID := trimSpace r.targetGroupID
  if tName ∉ ["", "DIRECT", "REJECT", "REJECT-DROP", "PASS"] ∧ tName ∉ groupNameSet snap ∧ tID ∉ groupNameSet snap then
    some
      { code := "dangling_rule_target"
        message := "rule " ++ Strconv.quote lib.toRuntime r.expression ++ " targets non-existent group " ++
          Strconv.quote lib.toRuntime tName
        target := target.text }
  else none

/-- The groups and rules of a snapshot are looked at for Mihomo only. -/
def validateTargetCapabilities : List CapabilityDiagnostic :=
  match capabilityForTarget target with
  | none =>
    [{ code := "unsupported_target"
       message := "unknown compiler target: " ++ target.text
       target := target.text }]
  | some capability =>
    snap.nodes.zipIdx.filterMap (fun n => nodeCapabilityDiagnostic lib target capability n.2 n.1) ++
      if target = .mihomo then
        snap.groups.flatMap (groupCapabilityDiagnostics lib snap target) ++
          snap.rules.filterMap (ruleCapabilityDiagnostic lib snap target)
      else []

end

/-! ### Preflight -/

structure PreflightDiagnostic where
  severity : DiagnosticSeverity
  code : String
  message : String
  target : String
deriving DecidableEq

structure PreflightResult where
  allowed : Bool
  diagnostics : List PreflightDiagnostic
  policyRevision : String
  snapshotDigest : String
deriving DecidableEq

structure RiskPolicyRevision where
  policy : RiskPolicy
  active : Bool

/-- The risk service as publications use it, with its evaluation fixed. What fails returns nothing, and the
caller goes on without it. -/
structure RiskGate where
  getPolicy : String → Option RiskPolicyRevision
  getActivePolicy : Option RiskPolicyRevision
  evaluateBatch : RiskPolicyRevision → List String → Option (List NodeRiskDecision)

section

variable (lib : Libraries) (risk : Option RiskGate) (snap : ResolvedPolicySnapshot) (target : CompilerTarget)

def riskCodes : List String := ["risk_blocked", "risk_review", "risk_unknown"]

def snapshotFindings : List PreflightDiagnostic :=
  (snap.diagnostics.filter (fun d =>
    !(target ≠ .mihomo && d.code ≠ "filtered_nodes_empty" && !riskCodes.contains d.code) &&
      (riskCodes.contains d.code || d.severity = .error || d.code = "empty_routed_group" ||
        d.code = "required_nonempty"))).map (fun d => ⟨d.severity, d.code, d.message, d.target⟩)

def capabilityFindings : List PreflightDiagnostic :=
  if target = .mihomo then
    (validateTargetCapabilities lib snap target).map (fun d => ⟨.error, d.code, d.message, d.target⟩)
  else []

/-- The revision of the snapshot while it is active, else the active one. -/
def RiskGate.policyRevision (gate : RiskGate) : Option RiskPolicyRevision :=
  let own := if snap.riskPolicyRevision ≠ "" then gate.getPolicy snap.riskPolicyRevision else none
  (((own.filter (fun r => r.active)).or gate.getActivePolicy).filter (fun r => r.active))

/-- The nodes of the snapshot, for Mihomo with those its groups name. -/
def preflightNodeIDs : List String :=
  sortedSet ((snap.nodes.map (·.logicalID) ++
    if target = .mihomo then snap.groups.flatMap (fun g => g.nodeLogicalIDs ++ g.allNodeLogicalIDs) else []).filter
      isValidLogicalID)

def decisionFinding (policy : RiskPolicy) (d : NodeRiskDecision) : Option PreflightDiagnostic :=
  let text (middle : String) := "node " ++ d.nodeLogicalID ++ middle ++ d.reasonCode
  match d.decision with
  | .block => some ⟨.error, "risk_blocked", text " was blocked by risk policy: ", d.nodeLogicalID⟩
  | .review =>
    if policy.effectiveReviewAction ≠ .allow then
      some ⟨.warning, "risk_review", text " requires risk review and cannot be published: ", d.nodeLogicalID⟩
    else none
  | .unknown =>
    if policy.effectiveUnknownAction ≠ .allow then
      some ⟨.warning, "risk_unknown", text " has unknown risk and cannot be published: ", d.nodeLogicalID⟩
    else none
  | _ => none

def riskFindings : List PreflightDiagnostic :=
  match risk.bind (fun gate => (gate.policyRevision snap).map (fun rev => (gate, rev))) with
  | none => []
  | some (gate, rev) =>
    let nodeIDs := preflightNodeIDs snap target
    if nodeIDs.isEmpty then []
    else ((gate.evaluateBatch rev nodeIDs).getD []).filterMap (decisionFinding rev.policy)

def addDiagnostic (ds : List PreflightDiagnostic) (d : PreflightDiagnostic) : List PreflightDiagnostic :=
  if ds.any (fun d' => d'.code ++ ":" ++ d'.target = d.code ++ ":" ++ d.target) then ds else ds ++ [d]

def preflightFindings : List PreflightDiagnostic :=
  snapshotFindings snap target ++ capabilityFindings lib snap target ++ riskFindings risk snap target

def evaluatePreflight : PreflightResult where
  allowed := (preflightFindings lib risk snap target).isEmpty
  diagnostics := (preflightFindings lib risk snap target).foldl addDiagnostic []
  policyRevision :=
    if snap.riskPolicyRevision = "" then
      ((risk.bind (fun gate => gate.policyRevision snap)).map (fun rev => rev.policy.revisionID)).getD ""
    else snap.riskPolicyRevision
  snapshotDigest := snap.snapshotDigest

end

/-! ### Preview and publication -/

structure StrictCapabilityError where
  code : String
  message : String
  diagnostics : List CapabilityDiagnostic
  snapshotID : String

inductive PublicationError
  | returned (e : GoError)
  | capability (e : CapabilityError)
  | preflight (r : PreflightResult)
  | strictCapability (e : StrictCapabilityError)

structure DraftContent where
  revisionID : String
  target : CompilerTarget
  snapshotDigest : String
  contentDigest : String
  contentType : String
  filename : String
  content : String
  compilerVersion : String

structure PruneFlags where
  pruneUnavailableOptionalGroups : Bool
  omitUnavailableOptionalGroups : Bool

def PruneFlags.optInPrune (flags : PruneFlags) : Bool :=
  flags.pruneUnavailableOptionalGroups || flags.omitUnavailableOptionalGroups

def PruneFlags.apply (flags : PruneFlags) (snap : ResolvedPolicySnapshot) : ResolvedPolicySnapshot :=
  if flags.optInPrune then (ClashSubParser.pruneUnavailableOptionalGroups snap).1 else snap

/-- `isValidTarget`: a target of the compiler. -/
def CompilerTarget.isKnown : CompilerTarget → Bool
  | .other _ _ => false
  | _ => true

section

variable (lib : Libraries) (enc : Encoders) (risk : Option RiskGate) (ctxErr : Option GoError)

def unsupportedTarget {α : Type} (target : CompilerTarget) : Except PublicationError α :=
  .error (.returned (.domain (newValidationError lib.toRuntime "unsupported_target"
    ("unsupported compiler target: " ++ target.text))))

def compileSnapshot (snap : ResolvedPolicySnapshot) (target : CompilerTarget) : Except PublicationError Result :=
  match compile lib enc ctxErr snap target with
  | .error (.capability e) =>
    .error (.returned (.domain (newValidationError lib.toRuntime "unsupported_target_capability" e.error)))
  | .error (.other e) => .error (.returned e)
  | .ok r => .ok r

def preflight (target : CompilerTarget) (snap : ResolvedPolicySnapshot) (flags : PruneFlags) :
    Except PublicationError PreflightResult :=
  if target.isKnown = false then unsupportedTarget lib target
  else
    let snap := flags.apply snap
    let result := evaluatePreflight lib risk snap target
    if result.allowed then (compileSnapshot lib enc ctxErr snap target).map (fun _ => result)
    else .ok result

def draftOf (revisionID : String) (target : CompilerTarget) (snap : ResolvedPolicySnapshot) (r : Result) :
    DraftContent where
  revisionID := if trimSpace revisionID = "" then trimSpace snap.revisionID else trimSpace revisionID
  target := target
  snapshotDigest := snap.snapshotDigest
  contentDigest := r.contentDigest
  contentType := r.contentType
  filename := r.filename
  content := r.content
  compilerVersion := if snap.compilerVersion = "" then "1.0.0" else snap.compilerVersion

/-- `Preview` in strict mode, on a snapshot that is given. `draftID` names the draft that a capability error
leaves behind. -/
def previewStrict (draftID revisionID : String) (target : CompilerTarget) (snap : ResolvedPolicySnapshot)
    (flags : PruneFlags) : Except PublicationError DraftContent :=
  if target.isKnown = false then unsupportedTarget lib target
  else
    let snap := flags.apply snap
    if snap.diagnostics.any (fun d => d.code = "filtered_nodes_empty") then
      .error (.preflight (evaluatePreflight lib risk snap target))
    else
      match validateTargetCapabilities lib snap target with
      | d :: ds =>
        .error (.strictCapability
          { code := "unsupported_target_capability"
            message := "target capability validation failed in strict mode: " ++ d.message
            diagnostics := d :: ds
            snapshotID := draftID })
      | [] =>
        let result := evaluatePreflight lib risk snap target
        if result.allowed = false then .error (.preflight result)
        else (compileSnapshot lib enc ctxErr snap target).map (draftOf revisionID target snap)

/-- `Publish` without the ID of a draft, up to the draft it then activates. -/
def publishSnapshot (draftID revisionID : String) (target : CompilerTarget) (snap : ResolvedPolicySnapshot)
    (flags : PruneFlags) : Except PublicationError DraftContent :=
  if target.isKnown = false then unsupportedTarget lib target
  else
    let result := evaluatePreflight lib risk snap target
    if result.allowed = false then .error (.preflight result)
    else previewStrict lib enc risk ctxErr draftID revisionID target snap flags

end

/-! ### What preflight announces -/

section

variable {lib : Libraries} {enc : Encoders} {risk : Option RiskGate} {ctxErr : Option GoError}
  {snap : ResolvedPolicySnapshot} {target : CompilerTarget}

theorem nodeCapabilityDiagnostic_eq_none {cap : Capability} {index : ℕ} {node : ResolvedNode}
    (hp : node.protocol ∈ cap.protocols)
    (he : validateCredentialEnvelope lib target index node = .ok ()) :
    nodeCapabilityDiagnostic lib target cap index node = none := by
  rw [nodeCapabilityDiagnostic, he]
  exact if_neg (not_not.mpr hp)

theorem nodeCapabilityDiagnostics_of_compile {r : Result} (h : compile lib enc ctxErr snap target = .ok r) :
    ∃ cap, capabilityForTarget target = some cap ∧
      snap.nodes.zipIdx.filterMap (fun n => nodeCapabilityDiagnostic lib target cap n.2 n.1) = [] := by
  cases ctxErr with
  | some err => simp [compile] at h
  | none =>
    cases hc : capabilityForTarget target with
    | none => simp [compile, hc] at h
    | some cap =>
      simp only [compile, hc, bind_unit_eq_ok_iff, located_eq_ok_iff] at h
      obtain ⟨hv, he, -⟩ := h
      rw [validate, bind_unit_eq_ok_iff] at hv
      refine ⟨cap, rfl, filterMap_eq_nil_iff.mpr fun n hn => ?_⟩
      -- both checks look at the node at its own position
      obtain ⟨hi, hno⟩ := mem_zipIdx' hn
      have hp := checks_eq_ok_iff.mp hv.1 _ (mem_mapIdx.mpr ⟨n.2, hi, rfl⟩)
      have hfs := checks_eq_ok_iff.mp he _ (mem_mapIdx.mpr ⟨n.2, hi, rfl⟩)
      rw [← hno] at hp hfs
      simp only [validateNode, ite_reject_eq_ok, not_not] at hp
      exact nodeCapabilityDiagnostic_eq_none hp.1 hfs

theorem validateTargetCapabilities_of_compile {r : Result} (h : compile lib enc ctxErr snap target = .ok r)
    (htg : target ≠ .mihomo) : validateTargetCapabilities lib snap target = [] := by
  obtain ⟨capability, hc, hns⟩ := nodeCapabilityDiagnostics_of_compile h
  rw [validateTargetCapabilities, hc]
  dsimp only
  rw [hns, if_neg htg, append_nil]

theorem evaluatePreflight_allowed_iff : (evaluatePreflight lib risk snap target).allowed = true ↔
    snapshotFindings snap target = [] ∧ capabilityFindings lib snap target = [] ∧
      riskFindings risk snap target = [] := by
  change (preflightFindings lib risk snap target).isEmpty = true ↔ _
  rw [List.isEmpty_iff, preflightFindings, append_eq_nil_iff, append_eq_nil_iff, and_assoc]

theorem capabilityFindings_mihomo :
    capabilityFindings lib snap .mihomo = [] ↔ validateTargetCapabilities lib snap .mihomo = [] := by
  rw [capabilityFindings, if_pos rfl, map_eq_nil_iff]

theorem lacksProxies_of_prunable {g : ResolvedGroup} (h : prunable snap g = true) : g.lacksProxies = true := by
  simp only [prunable, Bool.and_eq_true, Bool.not_eq_true', Bool.or_eq_false_iff, Bool.not_eq_false'] at h
  obtain ⟨⟨⟨hp, hms⟩, -⟩, -⟩ := h
  rw [ResolvedGroup.lacksProxies, hp, hms]
  rfl

theorem prunedGroups_of_validateTargetCapabilities (h : validateTargetCapabilities lib snap .mihomo = []) :
    prunedGroups snap = [] := by
  rw [validateTargetCapabilities] at h
  dsimp only [capabilityForTarget] at h
  rw [if_pos rfl, append_eq_nil_iff, append_eq_nil_iff, flatMap_eq_nil_iff] at h
  rw [prunedGroups, filter_eq_nil_iff]
  intro g hg hp
  have hn := h.2.1 g hg
  rw [groupCapabilityDiagnostics, if_pos (lacksProxies_of_prunable hp)] at hn
  exact absurd hn (cons_ne_nil _ _)

structure KeepsFindings (snap snap' : ResolvedPolicySnapshot) : Prop where
  nodes : snap'.nodes = snap.nodes
  revision : snap'.riskPolicyRevision = snap.riskPolicyRevision
  diagnostics : ∃ reported, snap'.diagnostics = snap.diagnostics ++ reported ∧
    ∀ d ∈ reported, d.code = "optional_group_pruned" ∧ d.severity = .warning

theorem KeepsFindings.refl (snap : ResolvedPolicySnapshot) : KeepsFindings snap snap where
  nodes := rfl
  revision := rfl
  diagnostics := ⟨[], (append_nil _).symm, fun _ h => absurd h not_mem_nil⟩

theorem KeepsFindings.prunePass {snap s s' : ResolvedPolicySnapshot} (h : KeepsFindings snap s)
    (hp : prunePass s = some s') : KeepsFindings snap s' := by
  rw [ClashSubParser.prunePass, Option.map_eq_some_iff] at hp
  obtain ⟨r, hr, rfl⟩ := hp
  rw [pruneOnePass] at hr
  split_ifs at hr
  rw [← Option.some.inj hr]
  obtain ⟨reported, hre, hc⟩ := h.diagnostics
  refine ⟨h.nodes, h.revision, reported ++ (prunedGroups s).map (prunedDiagnostic s), ?_, fun d hd => ?_⟩
  · rw [← List.append_assoc, ← hre]
  · rcases mem_append.mp hd with hd | hd
    · exact hc d hd
    · obtain ⟨g, -, rfl⟩ := mem_map.mp hd
      exact ⟨rfl, rfl⟩

theorem keepsFindings_apply (flags : PruneFlags) (snap : ResolvedPolicySnapshot) :
    KeepsFindings snap (flags.apply snap) := by
  rw [PruneFlags.apply]
  split_ifs
  · rw [pruneUnavailableOptionalGroups_fst]
    exact FixpointLoop.iterate_induction (fun _ _ h hp => h.prunePass hp) (.refl snap) _
  · exact .refl snap

section

variable {snap' : ResolvedPolicySnapshot} (h : KeepsFindings snap snap')

include h

theorem KeepsFindings.snapshotFindings : snapshotFindings snap' target = snapshotFindings snap target := by
  obtain ⟨reported, hr, hc⟩ := h.diagnostics
  rw [ClashSubParser.snapshotFindings, ClashSubParser.snapshotFindings, hr, filter_append]
  have hn : reported.filter (fun d =>
      !(target ≠ .mihomo && d.code ≠ "filtered_nodes_empty" && !riskCodes.contains d.code) &&
        (riskCodes.contains d.code || d.severity = .error || d.code = "empty_routed_group" ||
          d.code = "required_nonempty")) = [] := by
    rw [filter_eq_nil_iff]
    intro d hd
    obtain ⟨hco, hs⟩ := hc d hd
    rw [hco, hs]
    simp [riskCodes]
  rw [hn, append_nil]

theorem KeepsFindings.any_filteredNodesEmpty : snap'.diagnostics.any (fun d => d.code = "filtered_nodes_empty") =
      snap.diagnostics.any (fun d => d.code = "filtered_nodes_empty") := by
  obtain ⟨reported, hr, hc⟩ := h.diagnostics
  have hn : reported.any (fun d => d.code = "filtered_nodes_empty") = false := by
    rw [any_eq_false]
    intro d hd
    rw [(hc d hd).1]
    decide
  rw [hr, any_append, hn, Bool.or_false]

theorem KeepsFindings.riskFindings (htg : target ≠ .mihomo) :
    riskFindings risk snap' target = riskFindings risk snap target := by
  have hi : preflightNodeIDs snap' target = preflightNodeIDs snap target := by
    rw [preflightNodeIDs, preflightNodeIDs, if_neg htg, if_neg htg, h.nodes]
  have hr : ∀ gate : RiskGate, gate.policyRevision snap' = gate.policyRevision snap := by
    intro gate
    rw [RiskGate.policyRevision, RiskGate.policyRevision, h.revision]
  rw [ClashSubParser.riskFindings, ClashSubParser.riskFindings, hi]
  simp only [hr]

end

theorem PruneFlags.apply_of_not_optIn {flags : PruneFlags} (h : flags.optInPrune = false) :
    flags.apply snap = snap := by
  rw [PruneFlags.apply, h]
  rfl

theorem PruneFlags.apply_of_nothing_pruned {flags : PruneFlags} (h : prunedGroups snap = []) :
    flags.apply snap = snap := by
  have hp : prunePass snap = none := by
    rw [prunePass_eq_none_iff, h]
    exact fun e he => absurd he not_mem_nil
  rw [PruneFlags.apply, pruneUnavailableOptionalGroups_of_none hp]
  exact ite_self _

/-- What `Publish` asks beyond `Preflight`: that no diagnostic says the filters left nothing, whatever its
severity, and that pruning a Mihomo snapshot would omit nothing. -/
def Announced (snap : ResolvedPolicySnapshot) (target : CompilerTarget) (flags : PruneFlags) : Prop :=
  (∀ d ∈ snap.diagnostics, d.code ≠ "filtered_nodes_empty") ∧
    (target = .mihomo → flags.optInPrune = true → prunedGroups snap = [])

instance (snap : ResolvedPolicySnapshot) (target : CompilerTarget) (flags : PruneFlags) :
    Decidable (Announced snap target flags) := inferInstanceAs (Decidable (_ ∧ _))

def PublicationError.fromChecks : PublicationError → Bool
  | .preflight _ => true
  | .capability _ => true
  | .strictCapability _ => true
  | .returned (.domain e) => ["unsupported_target", "unsupported_target_capability"].contains e.code
  | .returned _ => false

def rejectedByChecks {α : Type} : Except PublicationError α → Bool
  | .error e => e.fromChecks
  | .ok _ => false

variable {flags : PruneFlags} {result : PreflightResult} {draftID revisionID : String}

theorem compileSnapshot_eq_ok {r : Result} (h : compileSnapshot lib enc ctxErr snap target = .ok r) :
    compile lib enc ctxErr snap target = .ok r := by
  rw [compileSnapshot] at h
  split at h
  · cases h
  · cases h
  · next hc => exact hc.trans (congrArg Except.ok (Except.ok.inj h))

theorem exists_of_preflight (h : preflight lib enc risk ctxErr target snap flags = .ok result)
    (hal : result.allowed = true) :
    target.isKnown = true ∧ (evaluatePreflight lib risk (flags.apply snap) target).allowed = true ∧
      ∃ r, compile lib enc ctxErr (flags.apply snap) target = .ok r := by
  rw [preflight] at h
  dsimp only at h
  split_ifs at h with hkn hp
  · cases h
  · refine ⟨Bool.not_eq_false _ ▸ hkn, hp, ?_⟩
    obtain ⟨r, hr, -⟩ := map_eq_ok_iff.mp h
    exact ⟨r, compileSnapshot_eq_ok hr⟩
  · rw [← Except.ok.inj h] at hal
    exact absurd hal hp

theorem evaluatePreflight_of_announced (h : Announced snap target flags)
    (hal : (evaluatePreflight lib risk (flags.apply snap) target).allowed = true) :
    (evaluatePreflight lib risk snap target).allowed = true := by
  by_cases htg : target = .mihomo
  · -- nothing is pruned, so the two snapshots are one
    have hs : flags.apply snap = snap := by
      cases ho : flags.optInPrune with
      | false => exact PruneFlags.apply_of_not_optIn ho
      | true => exact PruneFlags.apply_of_nothing_pruned (h.2 htg ho)
    rw [hs] at hal
    exact hal
  · have hk := keepsFindings_apply flags snap
    rw [evaluatePreflight_allowed_iff] at hal ⊢
    rw [hk.snapshotFindings, hk.riskFindings htg] at hal
    exact ⟨hal.1, if_neg htg, hal.2.2⟩

theorem publishSnapshot_of_announced (h : Announced snap target flags) (hkn : target.isKnown = true)
    (hal : (evaluatePreflight lib risk (flags.apply snap) target).allowed = true) {r : Result}
    (hc : compile lib enc ctxErr (flags.apply snap) target = .ok r) :
    publishSnapshot lib enc risk ctxErr draftID revisionID target snap flags =
      .ok (draftOf revisionID target (flags.apply snap) r) := by
  have hf := evaluatePreflight_of_announced h hal
  have he : (flags.apply snap).diagnostics.any (fun d => d.code = "filtered_nodes_empty") = false := by
    rw [(keepsFindings_apply flags snap).any_filteredNodesEmpty, any_eq_false]
    intro d hd
    simpa using h.1 d hd
  have hca : validateTargetCapabilities lib (flags.apply snap) target = [] := by
    by_cases htg : target = .mihomo
    · rw [evaluatePreflight_allowed_iff, htg] at hal
      rw [htg]
      exact capabilityFindings_mihomo.mp hal.2.1
    · exact validateTargetCapabilities_of_compile hc htg
  rw [publishSnapshot, hkn]
  dsimp only
  rw [hf, previewStrict, hkn]
  dsimp only
  rw [he, hca]
  rw [hal, compileSnapshot, hc]
  rfl

theorem rejected_of_filteredNodesEmpty (hkn : target.isKnown = true) {d : Diagnostic} (hd : d ∈ snap.diagnostics)
    (hc : d.code = "filtered_nodes_empty") :
    rejectedByChecks (publishSnapshot lib enc risk ctxErr draftID revisionID target snap flags) = true := by
  have he : (flags.apply snap).diagnostics.any (fun d => d.code = "filtered_nodes_empty") = true := by
    rw [(keepsFindings_apply flags snap).any_filteredNodesEmpty]
    exact any_eq_true.mpr ⟨d, hd, decide_eq_true hc⟩
  rw [publishSnapshot, hkn]
  dsimp only
  cases (evaluatePreflight lib risk snap target).allowed with
  | false => rfl
  | true =>
    rw [previewStrict, hkn]
    dsimp only
    rw [he]
    rfl

theorem rejected_of_pruned (hpr : prunedGroups snap ≠ []) :
    rejectedByChecks (publishSnapshot lib enc risk ctxErr draftID revisionID .mihomo snap flags) = true := by
  have hf : (evaluatePreflight lib risk snap .mihomo).allowed = false := by
    rw [← Bool.not_eq_true, evaluatePreflight_allowed_iff, capabilityFindings_mihomo]
    exact fun h => hpr (prunedGroups_of_validateTargetCapabilities h.2.1)
  rw [publishSnapshot]
  dsimp only
  rw [hf]
  rfl

/-- When `Preflight` allows a snapshot without an error, the checks of `Publish` accept it with the same flags
exactly when no diagnostic says the filters left nothing and, for Mihomo, pruning would omit nothing. -/
theorem publish_accepts_preflight_iff (h : preflight lib enc risk ctxErr target snap flags = .ok result)
    (hallowed : result.allowed = true) :
    rejectedByChecks (publishSnapshot lib enc risk ctxErr draftID revisionID target snap flags) = false ↔
      Announced snap target flags := by
  obtain ⟨hkn, hp, r, hc⟩ := exists_of_preflight h hallowed
  constructor
  · intro ha
    constructor
    · intro d hd hco
      have hr : rejectedByChecks
          (publishSnapshot lib enc risk ctxErr draftID revisionID target snap flags) = true :=
        rejected_of_filteredNodesEmpty hkn hd hco
      rw [ha] at hr
      cases hr
    · intro htg _
      by_contra hpruned
      rw [htg, rejected_of_pruned hpruned] at ha
      cases ha
  · intro han
    rw [publishSnapshot_of_announced han hkn hp hc]
    rfl

end

section

def allows : Except PublicationError PreflightResult → Bool
  | .ok r => r.allowed
  | .error _ => false

theorem exists_of_allows {x : Except PublicationError PreflightResult} (h : allows x = true) :
    ∃ r, x = .ok r ∧ r.allowed = true := by
  cases x with
  | error e => cases h
  | ok r => exact ⟨r, rfl, h⟩

def pruning : PruneFlags := ⟨true, false⟩

def sampleSnapshot (groups : List NodeGroup) : ResolvedPolicySnapshot :=
  snapshotOf asciiRuntime jsonEncoder sampleClock (normalizeInput { selectorInput [] with groups := groups })

def plainSelector : ResolvedPolicySnapshot := sampleSnapshot [sampleGroup idA "Proxy" [manualSource nodeHK 0]]

theorem publish_accepts_plainSelector :
    allows (preflight asciiLibraries blankEncoders none none .mihomo plainSelector pruning) = true ∧
      rejectedByChecks (publishSnapshot asciiLibraries blankEncoders none none "d" "" .mihomo plainSelector pruning) =
        false := by
  have ha : allows (preflight asciiLibraries blankEncoders none none .mihomo plainSelector pruning) = true := by
    decide
  obtain ⟨result, hrs, hal⟩ := exists_of_allows ha
  exact ⟨ha, (publish_accepts_preflight_iff hrs hal).mpr (by decide)⟩

def optionalSelector : ResolvedPolicySnapshot :=
  sampleSnapshot [sampleGroup idA "Proxy" [groupRefTo idB 0, manualSource nodeHK 1], sampleGroup idB "Empty" []]

/-- Preflight prunes the empty group and allows the publication, whose own check is made before pruning and
finds the group. -/
theorem exists_announced_rejected :
    allows (preflight asciiLibraries blankEncoders none none .mihomo optionalSelector pruning) = true ∧
      rejectedByChecks
        (publishSnapshot asciiLibraries blankEncoders none none "d" "" .mihomo optionalSelector pruning) = true := by
  decide

end

end ClashSubParser
