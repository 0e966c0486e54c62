import ClashSubParser.MihomoAcceptance
import ClashSubParser.ReferenceErrors
import ClashSubParser.SingBoxAcceptance

/-! Compatible mode: when the compilation of a filtered snapshot fails for a node all the same. -/
namespace ClashSubParser

open List FirstError Strings

/-- An error located at a node, or about a group member without its node. -/
def NodeFailure (e : CapabilityError) : Prop :=
  Within "nodes[" e ∨ e.reason = "group member references unknown node"

section

variable (lib : Libraries) (snap : ResolvedPolicySnapshot)

def ForAdmitted (target : CompilerTarget) (capability : Capability) (Q : ResolvedNode → Prop) : Prop :=
  ∀ n ∈ snap.nodes, Admits lib target capability n → Q n

def compatibleNodes (target : CompilerTarget) (capability : Capability) : List ResolvedNode :=
  snap.nodes.filter (fun n => Admits lib target capability n)

def compatibleMembers (nodes : List ResolvedNode) : List ResolvedGroupMember :=
  snap.allMembers.filter (keepsMember nodes)

/-- What a Mihomo compilation in compatible mode needs of the nodes. A missing node is not told where another
member is refused before, and the options of a node are looked at only when all members and rules have passed. -/
structure MihomoCompatible : Prop where
  names : ForAdmitted lib snap .mihomo mihomoCapability (fun n => trimSpace n.displayName ≠ "")
  members :
    let nodes := compatibleNodes lib snap .mihomo mihomoCapability
    Covered (MissingNode { snap with nodes := nodes }) (fun m => MissingGroup snap m ∨ RefusedMember lib m)
      (compatibleMembers snap nodes)
  options :
    let nodes := compatibleNodes lib snap .mihomo mihomoCapability
    (∀ m ∈ compatibleMembers snap nodes,
      ¬MissingNode { snap with nodes := nodes } m ∧ ¬MissingGroup snap m ∧ ¬RefusedMember lib m) →
    (∀ r ∈ snap.rules, ReadableRule lib r ∧ ¬UnknownTarget lib snap r) →
    ForAdmitted lib snap .mihomo mihomoCapability (fun n => MihomoAccepts lib n.credentials n.protocol)

/-- What the renderer of a target needs of the nodes that pass the common check. -/
def Compatible : CompilerTarget → Prop
  | .mihomo => MihomoCompatible lib snap
  | .singBox =>
    ForAdmitted lib snap .singBox singBoxCapability (fun n => trimSpace n.displayName ≠ "" ∧ SingBoxAccepts lib n) ∧
      ((compatibleNodes lib snap .singBox singBoxCapability).map (fun n => trimSpace n.displayName)).Nodup
  | .surge => ForAdmitted lib snap .surge surgeCapability (SurgeAccepts lib)
  | .quantumultX => ForAdmitted lib snap .quantumultX quantumultXCapability (QuantumultXAccepts lib)
  | .other _ _ => True

end

section

variable {lib : Libraries} {snap : ResolvedPolicySnapshot}

theorem not_hasPrefix {s p q : String} (hp : hasPrefix s p = true) (hpq : hasPrefix p q = false)
    (hqp : hasPrefix q p = false) : hasPrefix s q = false := by
  by_contra h
  rw [Bool.not_eq_false, hasPrefix, isPrefixOf_iff_prefix] at h
  rw [hasPrefix, isPrefixOf_iff_prefix] at hp
  rcases prefix_or_prefix_of_prefix hp h with h' | h'
  · rw [hasPrefix, ← Bool.not_eq_true, isPrefixOf_iff_prefix] at hqp
    exact hqp h'
  · rw [hasPrefix, ← Bool.not_eq_true, isPrefixOf_iff_prefix] at hpq
    exact hpq h'

theorem not_nodeFailure {place : String} {e : CapabilityError} (h : Within place e)
    (hp : place ∈ ["groups[", "rules["]) (hrs : e.reason ≠ "group member references unknown node") :
    ¬NodeFailure e := by
  have ha : ∀ p ∈ ["groups[", "rules["], hasPrefix p "nodes[" = false ∧ hasPrefix "nodes[" p = false := by decide
  rintro (hn | hmb)
  · obtain ⟨hpq, hqp⟩ := ha place hp
    rw [Within, not_hasPrefix h hpq hqp] at hn
    contradiction
  · exact hrs hmb

theorem not_nodeFailure_of_ordinary {place : String} {e : CapabilityError} (h : OrdinaryAt place e)
    (hp : place ∈ ["groups[", "rules["]) : ¬NodeFailure e := by
  refine not_nodeFailure h.1 hp fun hrs => h.2 ?_
  rw [hrs]
  decide

theorem onlyErrors_iff_exists {α : Type} {x : Except CapabilityError α} (h : OnlyErrors (Within "nodes[") x) :
    OnlyErrors (fun e => ¬NodeFailure e) x ↔ ∃ a, x = .ok a := by
  cases x with
  | error e =>
    have hn : NodeFailure e := .inl ((onlyErrors_error e).mp h)
    simp [hn]
  | ok a => simp

theorem within_mapIdx {κ α : Type} {f : ℕ → κ → Except CapabilityError α} {l : List κ}
    (h : ∀ i a, OnlyErrors (Within (nodeLocation i)) (f i a)) : ∀ r ∈ l.mapIdx f, OnlyErrors (Within "nodes[") r := by
  intro r hr
  obtain ⟨i, hi, rfl⟩ := mem_mapIdx.mp hr
  exact (h i _).mono fun e he => hasPrefix_trans he (hasPrefix_nodes i)

end

section

variable {lib : Libraries} {snap : ResolvedPolicySnapshot} {target : CompilerTarget} {capability : Capability}

theorem admittedNodes_eq : admittedNodes lib target capability snap.nodes =
    compatibleNodes lib snap target capability := by
  have hf : snap.nodes = snap.nodes.zipIdx.map Prod.fst := by simp
  simp only [admittedNodes, compatibleNodes, exclusionReason_eq_empty_iff]
  conv_rhs => rw [hf, filter_map]
  rfl

theorem forall_mem_compatibleNodes {Q : ResolvedNode → Prop} :
    (∀ n ∈ compatibleNodes lib snap target capability, Q n) ↔ ForAdmitted lib snap target capability Q := by
  simp [compatibleNodes, ForAdmitted]

def compatibleSnapshot (lib : Libraries) (snap : ResolvedPolicySnapshot) (target : CompilerTarget)
    (capability : Capability) : ResolvedPolicySnapshot :=
  { snap with
    nodes := compatibleNodes lib snap target capability
    groups := snap.groups.map (filterGroup (compatibleNodes lib snap target capability)) }

theorem filterCompatibleSnapshot_eq (h : capabilityForTarget target = some capability) :
    (filterCompatibleSnapshot lib snap target).1 = compatibleSnapshot lib snap target capability := by
  simp only [filterCompatibleSnapshot, h, admittedNodes_eq, compatibleSnapshot]

theorem allMembers_compatibleSnapshot : (compatibleSnapshot lib snap target capability).allMembers =
    compatibleMembers snap (compatibleNodes lib snap target capability) := by
  rw [compatibleMembers, ResolvedPolicySnapshot.allMembers, ResolvedPolicySnapshot.allMembers, compatibleSnapshot,
    flatMap_map, filter_flatMap]
  rfl

theorem groupNames_compatibleSnapshot :
    (compatibleSnapshot lib snap target capability).groupNames = snap.groupNames := by
  simp [ResolvedPolicySnapshot.groupNames, compatibleSnapshot, filterGroup]

theorem groupIDs_compatibleSnapshot : (compatibleSnapshot lib snap target capability).groupIDs = snap.groupIDs := by
  simp [ResolvedPolicySnapshot.groupIDs, compatibleSnapshot, filterGroup, Function.comp_def]

theorem groupNameSet_compatibleSnapshot :
    groupNameSet (compatibleSnapshot lib snap target capability) = groupNameSet snap := by
  simp [groupNameSet, compatibleSnapshot, filterGroup, Function.comp_def]

theorem missingGroup_compatibleSnapshot {m : ResolvedGroupMember} :
    MissingGroup (compatibleSnapshot lib snap target capability) m ↔ MissingGroup snap m := by
  rw [MissingGroup, MissingGroup, groupIDs_compatibleSnapshot, groupNames_compatibleSnapshot]

theorem unknownTarget_compatibleSnapshot {r : ResolvedRule} :
    UnknownTarget lib (compatibleSnapshot lib snap target capability) r ↔ UnknownTarget lib snap r := by
  rw [UnknownTarget, UnknownTarget, groupNames_compatibleSnapshot]

theorem rendered_compatibleSnapshot (h : snap.Rendered lib) :
    (compatibleSnapshot lib snap target capability).Rendered lib := by
  refine ⟨?_, ?_⟩
  · intro g hg m hm loc
    obtain ⟨g', hg', rfl⟩ := mem_map.mp hg
    rw [checkMihomoMember, groupNameSet_compatibleSnapshot]
    exact h.members g' hg' m (mem_filter.mp hm).1 loc
  · intro r hr i
    rw [checkMihomoRuleTarget, groupNameSet_compatibleSnapshot]
    exact h.rules r hr i

theorem fields_of_admits {n : ResolvedNode} (h : Admits lib target capability n) :
    n.protocol ∈ capability.protocols ∧ trimSpace n.logicalID ≠ "" := by
  have he := h.2
  rw [validateCredentialEnvelope, ite_reject_eq_ok] at he
  exact ⟨h.1, he.1⟩

theorem checks_envelope_compatible : checks ((compatibleNodes lib snap target capability).mapIdx
    (validateCredentialEnvelope lib target)) = .ok () := by
  have hi : checks ((compatibleNodes lib snap target capability).mapIdx (validateCredentialEnvelope lib target)) =
      .ok () ↔ ∀ n ∈ compatibleNodes lib snap target capability, validateCredentialEnvelope lib target 0 n = .ok () :=
    checks_mapIdx_eq_ok_iff fun i n _ => validateCredentialEnvelope_ok_iff lib target i 0 n
  exact hi.mpr (forall_mem_compatibleNodes.mpr fun n _ h => h.2)

theorem checks_validateNode_compatible : checks ((compatibleNodes lib snap target capability).mapIdx
      (validateNode target capability)) = .ok () ↔
    ForAdmitted lib snap target capability (fun n => trimSpace n.displayName ≠ "") := by
  rw [← forall_mem_compatibleNodes]
  apply checks_mapIdx_eq_ok_iff
  intro i n hn
  obtain ⟨hp, hid⟩ := fields_of_admits (of_decide_eq_true (mem_filter.mp hn).2)
  simp only [validateNode, ite_reject_eq_ok, hp, hid, not_true_eq_false, not_false_eq_true, true_and, and_true,
    ne_eq]

end

section

variable {lib : Libraries} {encs : Encoders} {snap : ResolvedPolicySnapshot}
  {target : CompilerTarget} {capability : Capability}

theorem onlyErrors_validateNode :
    OnlyErrors (fun e => ¬NodeFailure e) (checks ((compatibleNodes lib snap target capability).mapIdx
      (validateNode target capability))) ↔
    ForAdmitted lib snap target capability (fun n => trimSpace n.displayName ≠ "") := by
  rw [← checks_validateNode_compatible, ← exists_unit_iff]
  apply onlyErrors_iff_exists
  apply onlyErrors_checks
  exact within_mapIdx fun i n => (ordinary_validateNode target capability i n).mono fun _ he => he.1

theorem onlyErrors_compile_nodes (hc : capabilityForTarget target = some capability) (hne : target ≠ .mihomo) :
    OnlyErrors (CompileError.Located fun e => ¬NodeFailure e)
        (compile lib encs none (compatibleSnapshot lib snap target capability) target) ↔
      ForAdmitted lib snap target capability (fun n => trimSpace n.displayName ≠ "") ∧
        OnlyErrors (CompileError.Located fun e => ¬NodeFailure e)
          (render lib encs (compatibleSnapshot lib snap target capability) target) := by
  have hv : validate lib (compatibleSnapshot lib snap target capability) target capability =
      checks ((compatibleNodes lib snap target capability).mapIdx (validateNode target capability)) := by
    rw [validate, if_pos hne]
    cases hns : checks ((compatibleSnapshot lib snap target capability).nodes.mapIdx
      (validateNode target capability)) with
    | error e => exact hns.symm
    | ok u => exact hns.symm
  have he : checks ((compatibleSnapshot lib snap target capability).nodes.mapIdx
      (validateCredentialEnvelope lib target)) = .ok () := checks_envelope_compatible
  rw [onlyErrors_compile hc, hv, onlyErrors_validateNode, checks_validateNode_compatible, he]
  refine and_congr_right fun hn => ?_
  simp only [hn, onlyErrors_ok, true_implies, true_and]

theorem onlyErrors_compile_lines
    {f : ℕ → ResolvedNode → Except CapabilityError (List LineField)} {Q : ResolvedNode → Prop}
    (hc : capabilityForTarget target = some capability) (hne : target ≠ .mihomo)
    (hr : ∀ s, OnlyErrors (CompileError.Located fun e => ¬NodeFailure e) (render lib encs s target) ↔
      OnlyErrors (fun e => ¬NodeFailure e) (allOk (s.nodes.mapIdx f)))
    (hw : ∀ i n, OnlyErrors (Within (nodeLocation i)) (f i n))
    (hli : ∀ i n, (∃ fs, f i n = .ok fs) ↔ validateCredentialEnvelope lib target i n = .ok () ∧ Q n)
    (hna : ∀ n, Q n → trimSpace n.displayName ≠ "") : OnlyErrors (CompileError.Located fun e => ¬NodeFailure e)
      (compile lib encs none (compatibleSnapshot lib snap target capability) target) ↔
    ForAdmitted lib snap target capability Q := by
  have hl : (∃ lines, allOk ((compatibleSnapshot lib snap target capability).nodes.mapIdx f) = .ok lines) ↔
      ∀ n ∈ compatibleNodes lib snap target capability, Q n := by
    apply exists_allOk_mapIdx_iff
    intro i n hn
    have ha : Admits lib target capability n := of_decide_eq_true (mem_filter.mp hn).2
    rw [hli, validateCredentialEnvelope_ok_iff lib target i 0, and_iff_right ha.2]
  rw [onlyErrors_compile_nodes hc hne, hr,
    onlyErrors_iff_exists (onlyErrors_allOk (within_mapIdx hw)), hl,
    forall_mem_compatibleNodes]
  refine and_iff_right_of_imp fun h n hn ha => hna n (h n hn ha)

theorem onlyErrors_surge : OnlyErrors (CompileError.Located fun e => ¬NodeFailure e)
      (compile lib encs none (compatibleSnapshot lib snap .surge surgeCapability) .surge) ↔
    ForAdmitted lib snap .surge surgeCapability (SurgeAccepts lib) := by
  refine onlyErrors_compile_lines rfl (by decide) ?_ (within_renderSurgeProxyLine lib)
    (fun i n => exists_renderSurgeProxyLine_iff) ?_
  · intro s
    simp only [render, renderSurge, onlyErrors_bind, onlyErrors_located, onlyErrors_ok, implies_true, and_true]
  · intro n hn hna
    have hs := hn.1
    rw [hna] at hs
    exact absurd hs (by decide)

theorem onlyErrors_quantumultX : OnlyErrors (CompileError.Located fun e => ¬NodeFailure e)
      (compile lib encs none (compatibleSnapshot lib snap .quantumultX quantumultXCapability) .quantumultX) ↔
    ForAdmitted lib snap .quantumultX quantumultXCapability (QuantumultXAccepts lib) := by
  refine onlyErrors_compile_lines rfl (by decide) ?_ (fun i n => within_renderQuantumultXNode i n)
    (fun i n => exists_renderQuantumultXNode_iff) (fun n hn => hn.1)
  intro s
  simp only [render, renderQuantumultX, onlyErrors_bind, onlyErrors_located, onlyErrors_ok, implies_true, and_true]

theorem onlyErrors_singBox : OnlyErrors (CompileError.Located fun e => ¬NodeFailure e)
      (compile lib encs none (compatibleSnapshot lib snap .singBox singBoxCapability) .singBox) ↔
    ForAdmitted lib snap .singBox singBoxCapability (fun n => trimSpace n.displayName ≠ "" ∧ SingBoxAccepts lib n) ∧
      ((compatibleNodes lib snap .singBox singBoxCapability).map (fun n => trimSpace n.displayName)).Nodup := by
  have hr : OnlyErrors (CompileError.Located fun e => ¬NodeFailure e)
      (render lib encs (compatibleSnapshot lib snap .singBox singBoxCapability) .singBox) ↔
      ∃ outs, renderSingBoxNodes lib 0 [] (compatibleNodes lib snap .singBox singBoxCapability) = .ok outs := by
    rw [← onlyErrors_iff_exists (within_renderSingBoxNodes _ 0 [])]
    simp only [render, onlyErrors_bind, onlyErrors_located, onlyErrors_encoded, onlyErrors_ok, implies_true, and_true]
    rfl
  rw [onlyErrors_compile_nodes rfl (by decide), hr, exists_renderSingBoxNodes_iff, forall_mem_compatibleNodes,
    ← and_assoc]
  refine and_congr_left fun _ => ?_
  constructor
  · rintro ⟨hnm, hns⟩ n hn ha
    exact ⟨hnm n hn ha, (hns n hn ha).2.2⟩
  · intro h
    refine ⟨fun n hn ha => (h n hn ha).1, fun n hn ha => ?_⟩
    exact ⟨ha.2, not_mem_nil, (h n hn ha).2⟩

end

section

variable {lib : Libraries} {encs : Encoders} {snap : ResolvedPolicySnapshot}

theorem onlyErrors_compatibleMembers :
    OnlyErrors (fun e => ¬NodeFailure e) (checks (validateMembers lib snap .mihomo)) ↔
      Covered (MissingNode snap) (fun m => MissingGroup snap m ∨ RefusedMember lib m) snap.allMembers := by
  apply onlyErrors_validateMembers
  intro m _ i g
  apply onlyErrors_cases
  · intro hok
    obtain ⟨hn, hgr, hr⟩ := (validateMember_eq_ok_iff lib snap).mp hok
    exact ⟨hn, not_or.mpr ⟨hgr, hr⟩⟩
  · intro e he
    obtain ⟨hl, hc⟩ := validateMember_error lib snap he
    have hw : Within "groups[" e := by
      rw [Within, hl]
      exact hasPrefix_groups i
    rcases hc with ⟨hn, hrs⟩ | ⟨hgr, hrs⟩ | ⟨hr, hrs⟩
    · exact .inl ⟨hn, not_not.mpr (.inr hrs)⟩
    · refine .inr ⟨.inl hgr, not_nodeFailure hw (by simp) ?_⟩
      rw [hrs]
      decide
    · exact .inr ⟨.inr hr, not_nodeFailure_of_ordinary ⟨hw, hrs⟩ (by simp)⟩
  · rintro hn (hgr | hr)
    · have hk := hgr.1
      rw [hn.1] at hk
      contradiction
    · exact not_refused_of_missing lib snap (.inl hn) hr

theorem onlyErrors_compatibleRules (hid : ∀ r ∈ snap.rules, snap.groups ≠ [] → r.targetGroupID ∈ snap.groupIDs) :
    OnlyErrors (fun e => ¬NodeFailure e)
        (checks (snap.rules.mapIdx (validateRule lib snap .mihomo mihomoCapability))) ∧
      (checks (snap.rules.mapIdx (validateRule lib snap .mihomo mihomoCapability)) = .ok () ↔
        ∀ r ∈ snap.rules, ReadableRule lib r ∧ ¬UnknownTarget lib snap r) := by
  have hc (i : ℕ) (r : ResolvedRule) (hr : r ∈ snap.rules) :
      (validateRule lib snap .mihomo mihomoCapability i r = .ok () ∧ ReadableRule lib r ∧ ¬UnknownTarget lib snap r) ∨
      (∃ e, validateRule lib snap .mihomo mihomoCapability i r = .error e ∧
        e.reason ≠ "group member references unknown node" ∧ ¬(ReadableRule lib r ∧ ¬UnknownTarget lib snap r)) := by
    by_cases hre : ReadableRule lib r
    · rw [validateRule_readable hre (hid r hr)]
      by_cases hu : UnknownTarget lib snap r
      · refine .inr ⟨_, if_pos hu, ?_, fun h => h.2 hu⟩
        simp
      · exact .inl ⟨if_neg hu, hre, hu⟩
    · obtain ⟨e, he, hrs⟩ := @validateRule_unreadable lib snap i r hre
      refine .inr ⟨e, he, fun hmb => hrs ?_, fun h => hre h.1⟩
      rw [hmb]
      decide
  constructor
  · apply onlyErrors_checks
    intro x hx e he
    obtain ⟨i, hi, rfl⟩ := mem_mapIdx.mp hx
    have hw : OnlyErrors (Within (ruleLocation i))
        (validateRule lib snap .mihomo mihomoCapability i snap.rules[i]) := by
      simp [validateRule, within_reject]
    rcases hc i _ (getElem_mem hi) with ⟨hok, -⟩ | ⟨e', he', hrs, -⟩
    · rw [hok] at he
      contradiction
    · obtain rfl := Except.error.inj (he.symm.trans he')
      exact not_nodeFailure (hasPrefix_trans (hw e he) (hasPrefix_rules i)) (by simp) hrs
  · apply checks_mapIdx_eq_ok_iff
    intro i r hr
    rcases hc i r hr with ⟨hok, hp⟩ | ⟨e, he, -, hf⟩
    · simp [hok, hp]
    · simp only [he, hf, reduceCtorEq]

theorem onlyErrors_renderMihomo (h : snap.Rendered lib)
    (hen : ∀ n ∈ snap.nodes, validateCredentialEnvelope lib .mihomo 0 n = .ok ()) :
    OnlyErrors (fun e => ¬NodeFailure e) (renderMihomo lib snap) ↔
      ∀ n ∈ snap.nodes, MihomoAccepts lib n.credentials n.protocol := by
  have hc : checks (snap.nodes.mapIdx (validateMihomoNode lib)) = .ok () ↔
      ∀ n ∈ snap.nodes, MihomoAccepts lib n.credentials n.protocol := by
    apply checks_mapIdx_eq_ok_iff
    intro i n hn
    rw [validateMihomoNode_eq_ok_iff, validateCredentialEnvelope_ok_iff lib .mihomo i 0, and_iff_right (hen n hn)]
  have hw : OnlyErrors (Within "nodes[") (checks (snap.nodes.mapIdx (validateMihomoNode lib))) :=
    onlyErrors_checks (within_mapIdx fun i n => (ordinary_validateMihomoNode lib i n).mono fun _ he => he.1)
  have hp : checks (snap.nodes.mapIdx (validateMihomoNode lib)) = .ok () →
      OnlyErrors (fun e => ¬NodeFailure e) (allOk (snap.nodes.mapIdx (renderMihomoProxy lib))) := by
    intro hok
    have ha : ∃ proxies, allOk (snap.nodes.mapIdx (renderMihomoProxy lib)) = .ok proxies := by
      apply exists_allOk_iff.mpr
      intro r hr
      obtain ⟨i, hi, rfl⟩ := mem_mapIdx.mp hr
      exact exists_renderMihomoProxy (hc.mp hok _ (getElem_mem hi))
    obtain ⟨proxies, hp⟩ := ha
    rw [hp]
    exact onlyErrors_ok proxies
  rw [onlyErrors_renderMihomo_iff h (fun _ he => not_nodeFailure_of_ordinary he (by simp))
    (fun _ he => not_nodeFailure_of_ordinary he (by simp)), and_iff_left hp, onlyErrors_iff_exists hw,
    exists_unit_iff, hc]

theorem onlyErrors_mihomo {enc : Encoder} {clock : Clock} {err : Option GoError} {input : ResolveInput}
    (hre : resolve lib.toRuntime enc clock err input = .ok snap) :
    OnlyErrors (CompileError.Located fun e => ¬NodeFailure e)
      (compile lib encs none (compatibleSnapshot lib snap .mihomo mihomoCapability) .mihomo) ↔
    MihomoCompatible lib snap := by
  have hrf := referential_of_resolve hre
  have hrn : (compatibleSnapshot lib snap .mihomo mihomoCapability).Rendered lib :=
    rendered_compatibleSnapshot (rendered_of_resolve hre)
  have ht : checks ((compatibleSnapshot lib snap .mihomo mihomoCapability).groups.mapIdx
      (validateGroupType .mihomo mihomoCapability)) = .ok () := by
    apply checks_validateGroupType
    · intro g hg
      obtain ⟨g', hg', rfl⟩ := mem_map.mp hg
      exact hrf.names g' hg'
    · intro g hg
      obtain ⟨g', hg', rfl⟩ := mem_map.mp hg
      exact isValid_of_resolve hre g' hg'
  have hid (r : ResolvedRule) (hr : r ∈ (compatibleSnapshot lib snap .mihomo mihomoCapability).rules)
      (hne : (compatibleSnapshot lib snap .mihomo mihomoCapability).groups ≠ []) :
      r.targetGroupID ∈ (compatibleSnapshot lib snap .mihomo mihomoCapability).groupIDs := by
    rw [groupIDs_compatibleSnapshot]
    obtain ⟨g, hg, htg, -⟩ := hrf.rules r hr fun hni => hne (by simp [compatibleSnapshot, hni])
    exact htg ▸ mem_groupIDs_of_referential hrf hg
  obtain ⟨hrl, hru⟩ := @onlyErrors_compatibleRules lib _ hid
  have hms := @onlyErrors_compatibleMembers lib (compatibleSnapshot lib snap .mihomo mihomoCapability)
  have hme := @checks_validateMembers_eq_ok_iff lib (compatibleSnapshot lib snap .mihomo mihomoCapability) .mihomo
  have he : checks ((compatibleSnapshot lib snap .mihomo mihomoCapability).nodes.mapIdx
      (validateCredentialEnvelope lib .mihomo)) = .ok () := checks_envelope_compatible
  have hns : OnlyErrors (fun e => ¬NodeFailure e)
      (checks ((compatibleSnapshot lib snap .mihomo mihomoCapability).nodes.mapIdx
        (validateNode .mihomo mihomoCapability))) ↔ _ := onlyErrors_validateNode
  have hno : checks ((compatibleSnapshot lib snap .mihomo mihomoCapability).nodes.mapIdx
      (validateNode .mihomo mihomoCapability)) = .ok () ↔ _ := checks_validateNode_compatible
  have ho := onlyErrors_renderMihomo hrn (forall_mem_compatibleNodes.mpr fun n _ h => h.2)
  simp only [allMembers_compatibleSnapshot, missingGroup_compatibleSnapshot,
    unknownTarget_compatibleSnapshot] at hms hme hru
  rw [onlyErrors_compile rfl]
  simp only [validate, onlyErrors_bind_unit, bind_unit_eq_ok_iff, ne_eq, not_true_eq_false, if_false, hns, hno,
    ht, onlyErrors_ok, true_and, true_implies, hms, hme, hrl, hru, he, render]
  simp only [onlyErrors_bind, onlyErrors_located, ho, onlyErrors_encoded, onlyErrors_ok, implies_true, and_true]
  constructor
  · rintro ⟨⟨hn, hc⟩, ha⟩
    exact ⟨hn, hc hn, fun hm hr => forall_mem_compatibleNodes.mp (ha ⟨hn, hm, hr⟩)⟩
  · intro h
    refine ⟨⟨h.names, fun _ => h.members⟩, ?_⟩
    rintro ⟨-, hm, hr⟩
    exact forall_mem_compatibleNodes.mpr (h.options hm hr)

end

/-- A compilation in compatible mode does not fail for a node exactly when the renderer accepts what the check common
to all targets lets pass. -/
theorem compatible_compile_spares_nodes_iff {lib : Libraries} {enc : Encoder} {encs : Encoders} {clock : Clock}
    {ctxErr ctxErr' : Option GoError} {input : ResolveInput} {snap : ResolvedPolicySnapshot}
    (hres : resolve lib.toRuntime enc clock ctxErr input = .ok snap) (target : CompilerTarget) :
    (∀ e, compile lib encs ctxErr' (filterCompatibleSnapshot lib snap target).1 target = .error (.capability e) →
      ¬NodeFailure e) ↔ (ctxErr' = none → Compatible lib snap target) := by
  cases ctxErr' with
  | some err => simp [compile]
  | none =>
    rw [← onlyErrors_iff_located, forall_prop_of_true rfl]
    cases target with
    | mihomo =>
      rw [filterCompatibleSnapshot_eq rfl]
      exact onlyErrors_mihomo hres
    | singBox =>
      rw [filterCompatibleSnapshot_eq rfl]
      exact onlyErrors_singBox
    | surge =>
      rw [filterCompatibleSnapshot_eq rfl]
      exact onlyErrors_surge
    | quantumultX =>
      rw [filterCompatibleSnapshot_eq rfl]
      exact onlyErrors_quantumultX
    | other s h =>
      have hf : ¬NodeFailure ⟨.other s h, "target", s, "unknown compiler target"⟩ := by
        rintro (hn | hrs)
        · have : hasPrefix "target" "nodes[" = true := hn
          exact absurd this (by decide)
        · have : "unknown compiler target" = "group member references unknown node" := hrs
          exact absurd this (by decide)
      exact iff_of_true (fun e he => by cases he; exact hf) trivial

theorem linkedInput_compatible : ∃ snap, resolve asciiRuntime jsonEncoder sampleClock none linkedInput = .ok snap ∧
      Compatible asciiLibraries snap .surge ∧ Compatible asciiLibraries snap .mihomo := by
  have hr := resolve_sample linkedInput (by decide)
  have hc (target : CompilerTarget) (h : (compile asciiLibraries blankEncoders none
      (filterCompatibleSnapshot asciiLibraries
        (snapshotOf asciiRuntime jsonEncoder sampleClock (normalizeInput linkedInput)) target).1 target).isOk = true) :
      Compatible asciiLibraries
        (snapshotOf asciiRuntime jsonEncoder sampleClock (normalizeInput linkedInput)) target := by
    obtain ⟨result, hrs⟩ := exists_of_isOk h
    refine (@compatible_compile_spares_nodes_iff asciiLibraries _ blankEncoders _ _ none _ _ hr target).mp ?_ rfl
    intro e he
    rw [hrs] at he
    contradiction
  exact ⟨_, hr, hc .surge (by decide), hc .mihomo (by decide +kernel)⟩

def commaInput : ResolveInput where
  nodes := [{ nodeHK with displayName := "HK, 1" }]
  groups := []
  asOf := 63000000000000000000

/-- The filter keeps the node, and the Surge renderer refuses it. -/
theorem comma_name_not_rendered : ∃ snap e, resolve asciiRuntime jsonEncoder sampleClock none commaInput = .ok snap ∧
      compile asciiLibraries blankEncoders none (filterCompatibleSnapshot asciiLibraries snap .surge).1 .surge =
        .error (.capability e) ∧
      e = ⟨.surge, "nodes[0]", "trojan", "node display name contains characters invalid in Surge [Proxy] line"⟩ ∧
      NodeFailure e := by
  have hr := resolve_sample commaInput (by decide)
  have hn : hasPrefix "nodes[0]" "nodes[" = true := by decide
  refine ⟨_, _, hr, failure?_eq_some_iff.mp ?_, rfl, .inl hn⟩
  decide

end ClashSubParser
