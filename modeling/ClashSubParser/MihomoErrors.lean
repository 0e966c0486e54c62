import ClashSubParser.Compiler

/-! Where the errors of the Mihomo compiler are located, and which are about a reference that is not there. -/
namespace ClashSubParser

open List FirstError Strings

def unknownReferenceReasons : List String :=
  ["group member references unknown node", "group member references unknown policy group",
   "routing rule references unknown target group", "routing rule target group ID mismatch"]

/-- A reason that says that a reference is not there. Those of the renderer begin with a quoted name. -/
def UnknownReference (reason : String) : Prop :=
  reason ∈ unknownReferenceReasons ∨ hasPrefix reason "group \"" = true ∨ hasPrefix reason "rule \"" = true

instance (reason : String) : Decidable (UnknownReference reason) := inferInstanceAs (Decidable (_ ∨ _))

/-- An error at a place, or within it, that is not about a reference. -/
def OrdinaryAt (place : String) (e : CapabilityError) : Prop :=
  hasPrefix e.location place = true ∧ ¬UnknownReference e.reason

theorem hasPrefix_append (p s : String) : hasPrefix (p ++ s) p = true := by simp [hasPrefix]

@[simp] theorem hasPrefix_self (s : String) : hasPrefix s s = true := by simp [hasPrefix]

theorem hasPrefix_trans {s p q : String} (hsp : hasPrefix s p = true) (hpq : hasPrefix p q = true) :
    hasPrefix s q = true := by
  rw [hasPrefix, isPrefixOf_iff_prefix] at *
  exact hpq.trans hsp

theorem hasPrefix_nodes (i : ℕ) : hasPrefix (nodeLocation i) "nodes[" = true := by
  rw [nodeLocation, String.append_assoc]
  exact hasPrefix_append _ _

theorem hasPrefix_groups (i : ℕ) : hasPrefix (groupLocation i) "groups[" = true := by
  rw [groupLocation, String.append_assoc]
  exact hasPrefix_append _ _

theorem hasPrefix_rules (i : ℕ) : hasPrefix (ruleLocation i) "rules[" = true := by
  rw [ruleLocation, String.append_assoc]
  exact hasPrefix_append _ _

theorem OrdinaryAt.widen {place place' : String} {e : CapabilityError} (h : OrdinaryAt place e)
    (hp : hasPrefix place place' = true) : OrdinaryAt place' e :=
  ⟨hasPrefix_trans h.1 hp, h.2⟩

theorem head_of_unknownReference {reason : String} (h : UnknownReference reason) :
    reason.toList.head? = some 'g' ∨ reason.toList.head? = some 'r' := by
  rcases h with h | h | h
  · have ha : ∀ r ∈ unknownReferenceReasons, r.toList.head? = some 'g' ∨ r.toList.head? = some 'r' := by decide
    exact ha reason h
  · rw [hasPrefix, isPrefixOf_iff_prefix] at h
    obtain ⟨rest, hr⟩ := h
    left
    rw [← hr]
    rfl
  · rw [hasPrefix, isPrefixOf_iff_prefix] at h
    obtain ⟨rest, hr⟩ := h
    right
    rw [← hr]
    rfl

def OtherStart (words : String) : Prop := ∃ c cs, words = String.ofList (c :: cs) ∧ c ≠ 'g' ∧ c ≠ 'r'

theorem otherStart {words : String} {c : Char} {cs : List Char} (h : words = String.ofList (c :: cs))
    (hc : (c == 'g' || c == 'r') = false) : OtherStart words := by
  rw [Bool.or_eq_false_iff, beq_eq_false_iff_ne, beq_eq_false_iff_ne] at hc
  exact ⟨c, cs, h, hc⟩

theorem not_unknownReference_append {words : String} (rest : String) (h : OtherStart words) :
    ¬UnknownReference (words ++ rest) := by
  obtain ⟨c, cs, rfl, hg, hr⟩ := h
  intro hu
  have hh := head_of_unknownReference hu
  rw [String.toList_append, String.toList_ofList, cons_append, head?_cons, Option.some.injEq,
    Option.some.injEq] at hh
  exact hh.elim hg hr

theorem not_unknownReference {words : String} (h : OtherStart words) : ¬UnknownReference words := by
  have ha := not_unknownReference_append "" h
  rwa [String.append_empty] at ha

theorem onlyErrors_reject {α : Type} {P : CapabilityError → Prop} {t : CompilerTarget}
    {location feature reason : String} :
    OnlyErrors P (reject t location feature reason : Except CapabilityError α) ↔
      P ⟨t, location, feature, reason⟩ := onlyErrors_error _

section

variable {α : Type} (target : CompilerTarget) (loc feature : String) {words : String}

theorem ordinary_reject (h : OtherStart words) :
    OnlyErrors (OrdinaryAt loc) (reject target loc feature words : Except CapabilityError α) :=
  onlyErrors_reject.mpr ⟨hasPrefix_self loc, not_unknownReference h⟩

theorem ordinary_reject_append (rest : String) (h : OtherStart words) :
    OnlyErrors (OrdinaryAt loc) (reject target loc feature (words ++ rest) : Except CapabilityError α) :=
  onlyErrors_reject.mpr ⟨hasPrefix_self loc, not_unknownReference_append rest h⟩

theorem ordinary_reject_rule {reason : String}
    (h : reason ∈ ["routing rule value is required", "routing rule kind is not supported"]) :
    OnlyErrors (OrdinaryAt loc) (reject target loc feature reason : Except CapabilityError α) := by
  have ha : ∀ r ∈ ["routing rule value is required", "routing rule kind is not supported"],
      ¬UnknownReference r := by decide
  exact onlyErrors_reject.mpr ⟨hasPrefix_self loc, ha reason h⟩

end

section

variable (lib : Libraries) (target : CompilerTarget) (loc : String)

theorem ordinary_validateProtocolFields (feature : String) (p : Protocol) (c : InboundProtocolCredential) :
    OnlyErrors (OrdinaryAt loc) (validateProtocolFields lib (reject target loc feature) p c) := by
  cases p <;>
    simp (disch := exact otherStart rfl rfl) [validateProtocolFields, ordinary_reject]

theorem ordinary_envelope (i : ℕ) (node : ResolvedNode) :
    OnlyErrors (OrdinaryAt (nodeLocation i)) (validateCredentialEnvelope lib target i node) := by
  simp (disch := exact otherStart rfl rfl) [validateCredentialEnvelope, onlyErrors_reject, OrdinaryAt,
    hasPrefix_append, not_unknownReference, ordinary_validateProtocolFields]

theorem ordinary_validateNode (cap : Capability) (i : ℕ) (node : ResolvedNode) :
    OnlyErrors (OrdinaryAt (nodeLocation i)) (validateNode target cap i node) := by
  simp (disch := exact otherStart rfl rfl) [validateNode, ordinary_reject]

variable (protocol : Protocol)

theorem ordinary_transportKeys (transport : GoMap String) :
    OnlyErrors (OrdinaryAt loc) (validateMihomoTransportKeys lib loc protocol transport) := by
  rw [validateMihomoTransportKeys]
  cases transport.entries.find? (unsupportedEntry protocol) with
  | none => simp
  | some entry =>
    simp (disch := exact otherStart rfl rfl) [mihomoError, String.append_assoc, ordinary_reject_append]

theorem ordinary_unsupportedValue (what value suffix : String) :
    OnlyErrors (OrdinaryAt loc) (unsupportedValue lib loc protocol what value suffix) := by
  simp (disch := exact otherStart rfl rfl) [unsupportedValue, mihomoError, String.append_assoc,
    ordinary_reject_append]

theorem ordinary_checkNetwork (allowed : List String)
    (c : InboundProtocolCredential) : OnlyErrors (OrdinaryAt loc) (checkNetwork lib loc protocol allowed c) := by
  rw [checkNetwork, onlyErrors_ite]
  exact ⟨fun _ => ordinary_unsupportedValue lib loc protocol _ _ _, fun _ => onlyErrors_ok ()⟩

theorem ordinary_splitAddresses (addresses : List String) : ∀ ipv4 ipv6,
    OnlyErrors (OrdinaryAt loc) (splitMihomoWireGuardAddresses lib loc ipv4 ipv6 addresses) := by
  induction addresses with
  | nil =>
    intro ipv4 ipv6
    simp (disch := exact otherStart rfl rfl) [splitMihomoWireGuardAddresses, mihomoError, ordinary_reject]
  | cons raw rest ih =>
    intro ipv4 ipv6
    rw [splitMihomoWireGuardAddresses]
    cases lib.parsePrefix (trimSpace raw) with
    | none =>
      simp (disch := exact otherStart rfl rfl) [mihomoError, ordinary_reject]
    | some p =>
      simp (disch := exact otherStart rfl rfl) [mihomoError, ordinary_reject, ih]

theorem ordinary_validateMihomoProtocol (c : InboundProtocolCredential) :
    OnlyErrors (OrdinaryAt loc) (validateMihomoProtocol lib loc protocol c) := by
  cases protocol <;>
    simp (disch := exact otherStart rfl rfl) [validateMihomoProtocol, mihomoError, ordinary_reject,
      ordinary_checkNetwork, ordinary_unsupportedValue, ordinary_splitAddresses]

theorem ordinary_validateMihomoNode (i : ℕ) (node : ResolvedNode) :
    OnlyErrors (OrdinaryAt (nodeLocation i)) (validateMihomoNode lib i node) := by
  simp [validateMihomoNode, ordinary_envelope, ordinary_transportKeys, ordinary_validateMihomoProtocol]

theorem ordinary_renderMihomoProxy (i : ℕ) (node : ResolvedNode) :
    OnlyErrors (OrdinaryAt (nodeLocation i)) (renderMihomoProxy lib i node) := by
  rw [renderMihomoProxy.eq_def]
  cases node.protocol <;> simp [ordinary_splitAddresses]

end

section

variable (lib : Libraries)

theorem ordinary_parseOptionalNoResolve (loc kind : String) (extra : List String) :
    OnlyErrors (OrdinaryAt loc) (parseOptionalNoResolve lib loc kind extra) := by
  rw [parseOptionalNoResolve.eq_def]
  split
  · exact onlyErrors_ok _
  · simp (disch := exact otherStart rfl rfl) [mihomoError, String.append_assoc, ordinary_reject_append]
  · simp (disch := exact otherStart rfl rfl) [mihomoError, String.append_assoc, ordinary_reject_append]

theorem ordinary_validatePortSegment (loc kind seg : String) :
    OnlyErrors (OrdinaryAt loc) (validatePortSegment loc kind seg) := by
  simp (disch := exact otherStart rfl rfl) only [validatePortSegment, mihomoError, onlyErrors_ite,
    ordinary_reject, and_self, implies_true, onlyErrors_ok, and_true, true_and]
  intro _ _
  split
  all_goals simp (disch := exact otherStart rfl rfl) [ordinary_reject]

theorem ordinary_validateMihomoPortExpr (loc kind val : String) :
    OnlyErrors (OrdinaryAt loc) (validateMihomoPortExpr loc kind val) := by
  apply onlyErrors_checks
  intro r hr
  obtain ⟨seg, -, rfl⟩ := mem_map.mp hr
  exact ordinary_validatePortSegment loc kind _

theorem ordinary_validateRuleSetURL (loc raw : String) :
    OnlyErrors (OrdinaryAt loc) (validateRuleSetURL lib loc raw) := by
  rw [validateRuleSetURL]
  cases lib.parseURL (trimSpace raw) with
  | none | some u =>
    simp (disch := exact otherStart rfl rfl) [mihomoError, String.append_assoc, ordinary_reject_append]

theorem ordinary_noURL (loc name : String) :
    OnlyErrors (OrdinaryAt loc) (parseMihomoRuleSetExpr.noURL lib loc name) := by
  simp (disch := exact otherStart rfl rfl) [parseMihomoRuleSetExpr.noURL, mihomoError, ordinary_reject_append]

theorem ordinary_parseMihomoRuleSetExpr (loc : String) (args : List String) (existing : RuleProviders) :
    OnlyErrors (OrdinaryAt loc) (parseMihomoRuleSetExpr lib loc args existing) := by
  have he := ordinary_reject_rule (α := String × String × Bool) .mihomo loc "RULE-SET" mem_cons_self
  simp (disch := exact otherStart rfl rfl) only [parseMihomoRuleSetExpr, mihomoError, onlyErrors_ite, onlyErrors_bind,
    he, ordinary_reject_append, ordinary_validateRuleSetURL, ordinary_parseOptionalNoResolve, onlyErrors_ok,
    implies_true, and_self, true_and]
  intro _ _ _ _ noResolve _
  cases existing.lookup (trimSpace (args.getD 0 "")) with
  | none => exact ordinary_noURL lib loc _
  | some provider => simp [ordinary_noURL]

theorem ordinary_unsupported (loc kind : String) (parts : List String) :
    OnlyErrors (OrdinaryAt loc) (renderValueRule.unsupported lib loc kind parts) := by
  simp (disch := exact otherStart rfl rfl) [renderValueRule.unsupported, mihomoError, String.append_assoc,
    ordinary_reject_append]

theorem ordinary_renderValueRule (loc kind val t : String) (parts : List String) (ps : RuleProviders) :
    OnlyErrors (OrdinaryAt loc) (renderValueRule lib loc kind val t parts ps) := by
  have hk := ordinary_reject_rule (α := MihomoRule × RuleProviders) .mihomo loc kind
    (mem_cons_of_mem _ mem_cons_self)
  rw [renderValueRule]
  cases lib.parsePrefix val with
  | none =>
    simp (disch := exact otherStart rfl rfl) [mihomoError, hk, String.append_assoc,
      ordinary_reject_append, ordinary_unsupported, ordinary_validateMihomoPortExpr,
      ordinary_parseOptionalNoResolve, ordinary_parseMihomoRuleSetExpr]
  | some p =>
    simp (disch := exact otherStart rfl rfl) [mihomoError, hk, ordinary_reject,
      ordinary_reject_append, ordinary_unsupported, ordinary_validateMihomoPortExpr,
      ordinary_parseOptionalNoResolve, ordinary_parseMihomoRuleSetExpr]

theorem ordinary_renderMihomoRule (i : ℕ) (rule : ResolvedRule) (ps : RuleProviders) :
    OnlyErrors (OrdinaryAt (ruleLocation i)) (renderMihomoRule lib i rule ps) := by
  have he := ordinary_reject_rule (α := MihomoRule × RuleProviders) .mihomo (ruleLocation i)
    (ruleKind lib.toRuntime (trimSpace rule.expression)) mem_cons_self
  simp (disch := exact otherStart rfl rfl) [renderMihomoRule, mihomoError, he, String.append_assoc,
    ordinary_reject, ordinary_reject_append, ordinary_renderValueRule]

theorem ordinary_renderMihomoRules (rules : List ResolvedRule) : ∀ i ps,
    OnlyErrors (OrdinaryAt "rules[") (renderMihomoRules lib i ps rules) := by
  induction rules with
  | nil =>
    intro i ps
    exact onlyErrors_ok _
  | cons rule rest ih =>
    intro i ps
    have hr := (ordinary_renderMihomoRule lib i rule ps).mono
      (fun e he => he.widen (hasPrefix_rules i))
    simp [renderMihomoRules, hr, ih]

end

section

variable {lib : Libraries} {snap : ResolvedPolicySnapshot}

/-- Whatever refers to a group is found by the renderer, under the ID or under the name. -/
structure ResolvedPolicySnapshot.Rendered (lib : Libraries) (snap : ResolvedPolicySnapshot) : Prop where
  members : ∀ g ∈ snap.groups, ∀ m ∈ g.members, ∀ loc, checkMihomoMember lib snap loc g m = .ok ()
  rules : ∀ r ∈ snap.rules, ∀ i, checkMihomoRuleTarget lib snap i r = .ok ()

theorem ordinary_renderMihomoGroup (h : snap.Rendered lib) (i : ℕ) {g : ResolvedGroup} (hg : g ∈ snap.groups) :
    OnlyErrors (OrdinaryAt (groupLocation i)) (renderMihomoGroup lib snap i g) := by
  have hms : checks (g.members.map (checkMihomoMember lib snap (groupLocation i) g)) = .ok () := by
    apply checks_eq_ok_iff.mpr
    intro r hr
    obtain ⟨m, hm, rfl⟩ := mem_map.mp hr
    exact h.members g hg m hm _
  have hb : OnlyErrors (OrdinaryAt (groupLocation i)) (buildMihomoGroup (groupLocation i) g (proxyNames g)) := by
    rw [buildMihomoGroup]
    cases g.groupType <;>
      simp (disch := exact otherStart rfl rfl) [mihomoError, ordinary_reject]
  simp (disch := exact otherStart rfl rfl) [renderMihomoGroup, mihomoError, String.append_assoc,
    ordinary_reject_append, hms, hb]

theorem ordinary_mapIdx {κ α : Type} {place : String} {f : ℕ → κ → Except CapabilityError α} {l : List κ}
    {loc : ℕ → String} (hp : ∀ i, hasPrefix (loc i) place = true)
    (h : ∀ i, ∀ a ∈ l, OnlyErrors (OrdinaryAt (loc i)) (f i a)) :
    ∀ r ∈ l.mapIdx f, OnlyErrors (OrdinaryAt place) r := by
  intro r hr
  obtain ⟨i, hi, rfl⟩ := mem_mapIdx.mp hr
  exact (h i _ (getElem_mem hi)).mono (fun e he => he.widen (hp i))

theorem ordinary_nodes {f : ℕ → ResolvedNode → Except CapabilityError Unit}
    (h : ∀ i n, OnlyErrors (OrdinaryAt (nodeLocation i)) (f i n)) (nodes : List ResolvedNode) :
    OnlyErrors (OrdinaryAt "nodes[") (checks (nodes.mapIdx f)) :=
  onlyErrors_checks (ordinary_mapIdx hasPrefix_nodes fun i n _ => h i n)

/-- Which errors rendering has is decided by the nodes. -/
theorem onlyErrors_renderMihomo_iff {P : CapabilityError → Prop} (h : snap.Rendered lib)
    (hgr : ∀ e, OrdinaryAt "groups[" e → P e) (hru : ∀ e, OrdinaryAt "rules[" e → P e) :
    OnlyErrors P (renderMihomo lib snap) ↔
      OnlyErrors P (checks (snap.nodes.mapIdx (validateMihomoNode lib))) ∧
      (checks (snap.nodes.mapIdx (validateMihomoNode lib)) = .ok () →
        OnlyErrors P (allOk (snap.nodes.mapIdx (renderMihomoProxy lib)))) := by
  have hgs : OnlyErrors P (allOk (snap.groups.mapIdx (renderMihomoGroup lib snap))) :=
    (onlyErrors_allOk (ordinary_mapIdx hasPrefix_groups fun i g hg => ordinary_renderMihomoGroup h i hg)).mono hgr
  have ht : checks (snap.rules.mapIdx (checkMihomoRuleTarget lib snap)) = .ok () := by
    apply checks_eq_ok_iff.mpr
    intro r hr
    obtain ⟨i, hi, rfl⟩ := mem_mapIdx.mp hr
    exact h.rules _ (getElem_mem hi) i
  have hrl : OnlyErrors P (renderMihomoRules lib 0 [] snap.rules) :=
    (ordinary_renderMihomoRules lib snap.rules 0 []).mono hru
  rw [renderMihomo, validateMihomoCredentials, onlyErrors_bind_unit]
  simp only [onlyErrors_bind, ht, hgs, hrl, onlyErrors_ok, implies_true, and_true]

end

end ClashSubParser
