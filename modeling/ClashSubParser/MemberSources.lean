import ClashSubParser.NodeFilter
import ClashSubParser.StableSort

/-! The checks `ValidatePolicyTopology` makes on single entries: member sources, legacy edges, groups
and rules. -/
namespace ClashSubParser

open StableSort

section

variable (rt : Runtime)

def isBlank (s : Option String) : Bool := s.all (fun t => Strings.trimSpace t == "")

variable (s : MemberSource)

def sourcePath (suffix : String) : String :=
  "sources[" ++ toString s.position ++ "]" ++ suffix

def validateManualNode : Except GoError Unit :=
  if isBlank s.nodeLogicalID then
    invalid rt "invalid_source_entry" "manual_node requires non-empty node_logical_id"
      (sourcePath s ".node_logical_id")
  else if s.nodeLogicalID.all isValidLogicalID = false then
    invalid rt "invalid_node_logical_id" ("invalid node logical ID: " ++ s.nodeLogicalID.getD "")
  else if s.targetGroupID.isSome ∨ s.builtinName.isSome then
    invalid rt "invalid_source_entry" "manual_node cannot specify target_group_id or builtin_name"
      (sourcePath s "")
  else .ok ()

def validateGroupRef : Except GoError Unit :=
  if isBlank s.targetGroupID then
    invalid rt "invalid_source_entry"
      "Source kind 'group_ref' requires non-empty target_group_id and pattern must be empty"
      (sourcePath s ".target_group_id")
  else if s.targetGroupID.all isValidUUIDv7 = false then
    invalid rt "invalid_target_group_id" ("invalid target group UUIDv7: " ++ s.targetGroupID.getD "")
  else if s.nodeLogicalID.isSome ∨ s.builtinName.isSome ∨ isBlank s.pattern = false then
    invalid rt "invalid_source_entry"
      "Source kind 'group_ref' requires non-empty target_group_id and pattern must be empty"
      (sourcePath s ".target_group_id")
  else .ok ()

def validateGroupNodes : Except GoError Unit :=
  if isBlank s.targetGroupID then
    invalid rt "invalid_source_entry" "group_nodes requires non-empty target_group_id"
      (sourcePath s ".target_group_id")
  else if s.targetGroupID.all isValidUUIDv7 = false then
    invalid rt "invalid_target_group_id" ("invalid target group UUIDv7: " ++ s.targetGroupID.getD "")
  else if s.nodeLogicalID.isSome ∨ s.builtinName.isSome then
    invalid rt "invalid_source_entry" "group_nodes cannot specify node_logical_id or builtin_name"
      (sourcePath s "")
  else
    match if isBlank s.pattern then .ok (fun _ => .ok true)
      else compileFilterRegex rt (s.pattern.getD "") with
    | .error err => invalid rt "invalid_regex" ("invalid group_nodes pattern: " ++ err.error)
    | .ok _ =>
      match s.filterSpec.elim (.ok ()) (NodeFilterSpec.validate rt) with
      | .error err =>
        invalid rt "invalid_filter_spec" ("invalid group_nodes filter_spec: " ++ err.error)
      | .ok _ => .ok ()

def validateRegex : Except GoError Unit :=
  if isBlank s.pattern then
    invalid rt "invalid_source_entry" "regex requires non-empty pattern" (sourcePath s ".pattern")
  else
    match compileFilterRegex rt (s.pattern.getD "") with
    | .error err => invalid rt "invalid_regex" ("invalid regex pattern: " ++ err.error)
    | .ok _ =>
      if s.nodeLogicalID.isSome ∨ s.targetGroupID.isSome ∨ s.builtinName.isSome then
        invalid rt "invalid_source_entry"
          "regex cannot specify node_logical_id, target_group_id, or builtin_name" (sourcePath s "")
      else .ok ()

def validateFilter : Except GoError Unit :=
  match s.filterSpec with
  | none =>
    invalid rt "invalid_source_entry" "filter requires non-empty filter_spec"
      (sourcePath s ".filter_spec")
  | some spec =>
    match spec.validate rt with
    | .error err => invalid rt "invalid_filter_spec" ("invalid filter_spec: " ++ err.error)
    | .ok _ =>
      if s.nodeLogicalID.isSome ∨ s.targetGroupID.isSome ∨ s.builtinName.isSome then
        invalid rt "invalid_source_entry"
          "filter cannot specify node_logical_id, target_group_id, or builtin_name" (sourcePath s "")
      else .ok ()

def validateTypedBuiltin : Except GoError Unit :=
  if isBlank s.builtinName then
    invalid rt "invalid_source_entry" "typed_builtin requires non-empty builtin_name"
      (sourcePath s ".builtin_name")
  else
    let given := s.builtinName.getD ""
    let name := Strings.toUpper rt (Strings.trimSpace given)
    if name ≠ "PASS" ∧ name ≠ "DIRECT" ∧ name ≠ "REJECT" ∧ name ≠ "REJECT-DROP" then
      invalid rt "invalid_source_entry" ("unsupported builtin_name: " ++ given)
        (sourcePath s ".builtin_name")
    else if s.nodeLogicalID.isSome ∨ s.targetGroupID.isSome ∨ s.pattern.isSome ∨
        s.filterSpec.isSome then
      invalid rt "invalid_source_entry"
        "typed_builtin cannot specify node_logical_id, target_group_id, pattern, or filter_spec"
        (sourcePath s "")
    else .ok ()

def validateMemberSource : Except GoError Unit :=
  if s.operation.isValid = false then
    invalid rt "invalid_source_operation" ("invalid source operation: " ++ s.operation.text)
  else if s.kind.isValid = false then
    invalid rt "invalid_source_kind" ("invalid source kind: " ++ s.kind.text)
  else if s.position < 0 then
    invalid rt "invalid_position" "source position must be non-negative"
  else
    match s.kind with
    | .manualNode => validateManualNode rt s
    | .groupRef => validateGroupRef rt s
    | .groupNodes => validateGroupNodes rt s
    | .regex => validateRegex rt s
    | .filter => validateFilter rt s
    | .typedBuiltin => validateTypedBuiltin rt s
    | .other _ _ => .ok ()

def nonEmpty (s : Option String) : Option String := s.filter (fun t => t ≠ "")

def validateGroupEdge (edge : GroupEdge) : Except GoError Unit :=
  if isValidUUIDv7 edge.parentGroupID = false then
    invalid rt "invalid_parent_group_id" ("invalid parent group UUIDv7: " ++ edge.parentGroupID)
  else
    match nonEmpty edge.childGroupID, nonEmpty edge.nodeLogicalID with
    | none, none =>
      invalid rt "empty_edge_target" "group edge must specify either child_group_id or node_logical_id"
    | some _, some _ =>
      invalid rt "ambiguous_edge_target"
        "group edge cannot specify both child_group_id and node_logical_id"
    | some child, none =>
      if isValidUUIDv7 child = false then
        invalid rt "invalid_child_group_id" ("invalid child group UUIDv7: " ++ child)
      else if edge.parentGroupID = child then
        invalid rt "self_loop_forbidden"
          ("self-loop detected: parent group " ++ edge.parentGroupID ++ " cannot reference itself")
      else if edge.position < 0 then
        invalid rt "invalid_position" "edge position must be non-negative"
      else .ok ()
    | none, some node =>
      if isValidLogicalID node = false then
        invalid rt "invalid_node_logical_id" ("invalid node logical ID: " ++ node)
      else if edge.position < 0 then
        invalid rt "invalid_position" "edge position must be non-negative"
      else .ok ()

def validateGroup (g : NodeGroup) : Except GoError Unit :=
  if isValidUUIDv7 g.id = false then
    invalid rt "invalid_group_id" ("group ID " ++ g.id ++ " is not valid UUIDv7")
  else if Strings.trimSpace g.name = "" then
    invalid rt "invalid_group_name" "group name cannot be empty"
  else if g.groupType.isValid = false then
    invalid rt "invalid_group_type" ("unsupported group type: " ++ g.groupType.text)
  else .ok ()

def validatePolicyRule (groupIDs : List String) (rule : PolicyRule) : Except GoError Unit :=
  if Strings.trimSpace rule.expression = "" then
    invalid rt "invalid_expression" "policy rule expression cannot be empty"
  else if rule.position < 0 then
    invalid rt "invalid_position" "policy rule position must be non-negative"
  else if groupIDs ≠ [] ∧ rule.targetGroupID ∉ groupIDs then
    invalid rt "target_group_not_found"
      ("target group " ++ rule.targetGroupID ++ " does not exist for policy rule")
  else .ok ()

def sortRules (rules : List PolicyRule) : List PolicyRule := stableSort (keyLess (·.position)) rules

def matchRules (sorted : List PolicyRule) : List (PolicyRule × ℕ) :=
  sorted.zipIdx.filter (fun r => isMatchRule rt r.1.expression)

def validatePolicyRules (rules : List PolicyRule) (groupIDs : List String)
    (requireTerminalMatch : Bool) : Except GoError Unit :=
  match forEach (validatePolicyRule rt groupIDs) (sortRules rules) with
  | .error e => .error e
  | .ok _ =>
    match matchRules rt (sortRules rules) with
    | [] => .ok ()
    | [r] =>
      if requireTerminalMatch ∧ r.2 ≠ rules.length - 1 then
        invalid rt "invalid_match_rule_ordering"
          ("MATCH rule at position " ++ toString r.1.position ++
            " must be the terminal rule; found " ++ toString (rules.length - 1 - r.2) ++
            " subsequent rules following it")
      else .ok ()
    | r :: r' :: _ =>
      invalid rt "invalid_match_rule_ordering"
        ("multiple MATCH termination rules found at positions " ++ toString r.1.position ++ " and " ++
          toString r'.1.position)

end

def sourceTarget (s : MemberSource) : Option String :=
  if s.kind = .groupRef ∨ s.kind = .groupNodes then nonEmpty s.targetGroupID else none

theorem isBlank_eq_false_iff (s : Option String) :
    isBlank s = false ↔ ∃ t, s = some t ∧ Strings.trimSpace t ≠ "" := by
  cases s with
  | none | some t => simp [isBlank]

/-- Validated rules have their targets among the groups, once there are any. -/
theorem targetGroupID_mem {rt : Runtime} {rules : List PolicyRule} {ids : List String} {b : Bool}
    (h : validatePolicyRules rt rules ids b = .ok ()) {rule : PolicyRule} (hr : rule ∈ rules) (hi : ids ≠ []) :
    rule.targetGroupID ∈ ids := by
  have hl : forEach (validatePolicyRule rt ids) (sortRules rules) = .ok () := by
    unfold validatePolicyRules at h
    cases hf : forEach (validatePolicyRule rt ids) (sortRules rules) with
    | ok u => rfl
    | error err => simp [hf] at h
  have hok := (forEach_ok_iff _).mp hl rule ((mem_stableSort _ _ _).mpr hr)
  by_contra hn
  rw [validatePolicyRule] at hok
  split_ifs at hok with h₁ h₂ h₃
  · simp [invalid] at hok
  · simp [invalid] at hok
  · simp [invalid] at hok
  · exact h₃ ⟨hi, hn⟩

theorem sourceTarget_of_valid {rt : Runtime} {s : MemberSource}
    (h : validateMemberSource rt s = .ok ()) (hk : s.kind = .groupRef ∨ s.kind = .groupNodes) :
    ∃ t, s.targetGroupID = some t ∧ sourceTarget s = some t := by
  have hbl : isBlank s.targetGroupID = false := by
    rw [← Bool.not_eq_true]
    intro hb
    rcases hk with hk | hk <;>
      simp [validateMemberSource, hk, validateGroupRef, validateGroupNodes, hb] at h
  obtain ⟨t, ht, htr⟩ := (isBlank_eq_false_iff _).mp hbl
  have hne : t ≠ "" := by
    rintro rfl
    exact htr (by decide)
  refine ⟨t, ht, ?_⟩
  simp only [sourceTarget, hk, if_true, ht, nonEmpty, Option.filter_some, hne, ne_eq, not_false_eq_true, decide_true]

end ClashSubParser
