import ClashSubParser.PolicyInvariant

/-! Routing rules over creations and deletions: the list that is read back ends with its only MATCH rule. -/
namespace ClashSubParser

open List KeyedTable StableSort FirstError

namespace PolicyStore

variable (rt : Runtime) (st : PolicyStore)

/-- Rows of one position stand in the order of their insertion. -/
def listPolicyRules (revisionID : String) : List PolicyRule :=
  sortRules (st.rules.rows.filter (·.revisionID = revisionID))

def createPolicyRule (rule : PolicyRule) : Except GoError PolicyStore :=
  let failed which := Except.error (.wrapped "failed to insert policy rule: " (constraintError which))
  if hkey : rule.id ∈ st.rules.keys then failed "UNIQUE constraint failed: policy_rules.id"
  else if rule.position < 0 then failed "CHECK constraint failed"
  else if hforeign : rule.targetGroupID ∈ st.groups.keys then
    .ok
      { st with
        rules := st.rules.insert rule hkey
        ruleTarget := by
          intro r hr
          rcases mem_append.mp hr with hr | hr
          · exact st.ruleTarget r hr
          · exact mem_singleton.mp hr ▸ hforeign }
  else failed "FOREIGN KEY constraint failed"

def deletePolicyRule (id : String) : Except GoError PolicyStore :=
  if id ∈ st.rules.keys then
    .ok
      { st with
        rules := st.rules.deleteWhere (·.id = id)
        ruleTarget := fun r hr => st.ruleTarget r (Table.mem_deleteWhere.mp hr).1 }
  else .error (.domain (newNotFoundError rt "rule_not_found" ("policy rule " ++ id ++ " not found")))

end PolicyStore

structure CreatePolicyRuleCommand where
  id : String
  revisionID : String
  targetGroupID : String
  expression : String
  position : Int

structure DeleteRuleCommand where
  id : String
  kind : String

/-- What the other tables and `NewUUIDv7` answer to one call. -/
structure RuleEnv where
  ruleID : Except GoError String
  activeRevision : Except GoError (Option String)
  deleteAdmissionRule : String → Except GoError Unit

inductive RuleCall
  | createPolicyRule (env : RuleEnv) (cmd : CreatePolicyRuleCommand)
  | deleteRule (env : RuleEnv) (cmd : DeleteRuleCommand)
  | deleteGroup (id : String)

namespace PolicyService

section

variable (rt : Runtime) (env : RuleEnv) (st : PolicyStore)

def newRuleID (cmd : CreatePolicyRuleCommand) : Except GoError String :=
  if cmd.id = "" then env.ruleID else .ok cmd.id

def ruleRevision (cmd : CreatePolicyRuleCommand) : Except GoError String :=
  let revID := Strings.trimSpace cmd.revisionID
  if revID ≠ "" then .ok revID
  else
    match env.activeRevision with
    | .error err => .error err
    | .ok (some id) => .ok id
    | .ok none =>
      invalid rt "missing_revision_id" "no active revision exists; specify a revision_id or activate a revision"

def createPolicyRule (cmd : CreatePolicyRuleCommand) : Except GoError PolicyStore :=
  let expr := Strings.trimSpace cmd.expression
  if expr = "" then invalid rt "invalid_expression" "policy rule expression cannot be empty"
  else if cmd.position < 0 then invalid rt "invalid_position" "position must be non-negative"
  else if (st.getGroupByID rt cmd.targetGroupID).isOk = false then
    invalid rt "target_group_not_found" ("target group " ++ cmd.targetGroupID ++ " does not exist")
  else do
    let ruleID ← newRuleID env cmd
    let revID ← ruleRevision rt env cmd
    let rule := ⟨ruleID, revID, cmd.targetGroupID, expr, cmd.position⟩
    validatePolicyRules rt (st.listPolicyRules revID ++ [rule]) [] true
    st.createPolicyRule rule

def deleteRule (cmd : DeleteRuleCommand) : Except GoError PolicyStore :=
  let id := Strings.trimSpace cmd.id
  let admission := (env.deleteAdmissionRule id).map fun _ => st
  if id = "" then invalid rt "missing_rule_id" "rule id is required"
  else
    match Strings.toLower rt (Strings.trimSpace cmd.kind) with
    | "admission" => admission
    | "policy" => st.deletePolicyRule rt id
    | "" =>
      match st.deletePolicyRule rt id with
      | .ok st' => .ok st'
      | .error err => if err.asDomainError.map (·.category) = some .notFound then admission else .error err
    | _ => invalid rt "invalid_rule_kind" ("unsupported rule kind: " ++ cmd.kind)

def ruleCall : RuleCall → Except GoError PolicyStore
  | .createPolicyRule env cmd => createPolicyRule rt env st cmd
  | .deleteRule env cmd => deleteRule rt env st cmd
  | .deleteGroup id => deleteGroup rt st id

/-- A call that fails leaves the tables as they are. -/
def ruleStep (call : RuleCall) : PolicyStore :=
  match ruleCall rt st call with
  | .ok st' => st'
  | .error _ => st

/-- A rule that another one follows is no MATCH rule. -/
def MatchLast (rules : List PolicyRule) : Prop := rules.Pairwise fun r _ => isMatchRule rt r.expression = false

end

section

variable {rt : Runtime} {rules : List PolicyRule}

theorem matchLast_of_validate {ids : List String} (h : validatePolicyRules rt rules ids true = .ok ()) :
    MatchLast rt (sortRules rules) := by
  refine pairwise_iff_getElem.mpr fun i j hi hj hij => ?_
  by_contra hm
  have hme : ((sortRules rules)[i], i) ∈ matchRules rt (sortRules rules) :=
    mem_filter.mpr ⟨mem_zipIdx_iff_getElem?.mpr (getElem?_eq_getElem hi), by simpa using hm⟩
  have hle : (sortRules rules).length = rules.length := (stableSort_perm _ _).length_eq
  rw [validatePolicyRules] at h
  split at h
  · cases h
  · split at h
    · next hn =>
      rw [hn] at hme
      cases hme
    · next r ho =>
      rw [ho, mem_singleton] at hme
      subst hme
      split_ifs at h with hl
      · cases h
      · have hi' : i = rules.length - 1 := by simpa using hl
        omega
    · cases h

theorem MatchLast.last (h : MatchLast rt rules) : rules.countP (fun r => isMatchRule rt r.expression) ≤ 1 ∧
    ∀ r ∈ rules, isMatchRule rt r.expression = true → rules.getLast? = some r := by
  rcases eq_nil_or_concat' rules with rfl | ⟨init, x, rfl⟩
  · simp
  · have hi (r : PolicyRule) (hr : r ∈ init) : isMatchRule rt r.expression = false :=
      (pairwise_append.mp h).2.2 r hr x (mem_singleton_self x)
    constructor
    · rw [countP_append, countP_eq_zero.mpr (fun r hr => by simp [hi r hr]), zero_add]
      exact countP_le_length
    · intro r hr hm
      rcases mem_append.mp hr with hr | hr
      · rw [hi r hr] at hm
        cases hm
      · rw [getLast?_concat, mem_singleton.mp hr]

/-- What is listed after a new row is the checked list. -/
theorem sortRules_append (rules new : List PolicyRule) :
    sortRules (sortRules rules ++ new) = sortRules (rules ++ new) := by
  have hl := keyLess_weakLess (k := PolicyRule.position)
  apply stableSort_eq_of_classes hl
  intro x
  rw [filter_append, filter_append, sortRules, filter_stableSort _ _ (tied_class hl x)]

theorem sortRules_filter (p : PolicyRule → Bool) : (sortRules (rules.filter p)).Sublist (sortRules rules) := by
  unfold sortRules
  have hl := keyLess_weakLess (k := PolicyRule.position)
  have heq : stableSort (keyLess PolicyRule.position) (rules.filter p) =
      (stableSort (keyLess (·.position)) rules).filter p := by
    apply sorted_eq_of_classes hl _ _ (stableSort_pairwise hl _) ((stableSort_pairwise hl rules).filter p)
    intro x
    have hc := tied_class hl x
    rw [filter_stableSort _ _ hc, filter_comm, ← filter_stableSort _ _ hc, filter_comm]
  rw [heq]
  exact filter_sublist

end

section

variable {rt : Runtime} {st st' : PolicyStore} {rev : String}

theorem matchLast_deleted {p : PolicyRule → Bool} (h : MatchLast rt (st.listPolicyRules rev))
    (hr : st'.rules.rows = st.rules.rows.filter p) : MatchLast rt (st'.listPolicyRules rev) := by
  rw [PolicyStore.listPolicyRules, hr, filter_comm]
  exact Pairwise.sublist (sortRules_filter p) h

theorem matchLast_created {env : RuleEnv} {cmd : CreatePolicyRuleCommand}
    (h : MatchLast rt (st.listPolicyRules rev)) (hc : createPolicyRule rt env st cmd = .ok st') :
    MatchLast rt (st'.listPolicyRules rev) := by
  rw [createPolicyRule] at hc
  simp only [ite_invalid_eq_ok, bind_eq_ok_iff] at hc
  obtain ⟨-, -, -, ruleID, -, revID, -, _, hv, hc⟩ := hc
  unfold PolicyStore.createPolicyRule at hc
  split_ifs at hc
  cases hc
  rw [PolicyStore.listPolicyRules]
  change MatchLast rt (sortRules ((st.rules.rows ++ [_]).filter _))
  rw [filter_append, ← sortRules_append]
  by_cases hr : revID = rev
  · subst hr
    rw [filter_cons_of_pos (by simp)]
    exact matchLast_of_validate hv
  · rw [filter_cons_of_neg (by simpa using hr), filter_nil, sortRules_append, append_nil]
    exact h

theorem matchLast_ruleCall {call : RuleCall} (h : MatchLast rt (st.listPolicyRules rev))
    (hc : ruleCall rt st call = .ok st') : MatchLast rt (st'.listPolicyRules rev) := by
  have hde {id : String} {st' : PolicyStore} (hd : st.deletePolicyRule rt id = .ok st') :
      MatchLast rt (st'.listPolicyRules rev) := by
    unfold PolicyStore.deletePolicyRule at hd
    split_ifs at hd
    cases hd
    exact matchLast_deleted h rfl
  cases call with
  | createPolicyRule env cmd => exact matchLast_created h hc
  | deleteRule env cmd =>
    have hs {x : Except GoError Unit} (hx : x.map (fun _ => st) = .ok st') :
        MatchLast rt (st'.listPolicyRules rev) := by
      obtain ⟨_, -, rfl⟩ := map_eq_ok_iff.mp hx
      exact h
    simp only [ruleCall, deleteRule, ite_invalid_eq_ok] at hc
    obtain ⟨-, hc⟩ := hc
    split at hc
    · exact hs hc
    · exact hde hc
    · split at hc
      · next hd => exact hde (hd.trans hc)
      · split_ifs at hc
        exact hs hc
    · cases hc
  | deleteGroup id =>
    obtain ⟨-, -, hc⟩ := bind_eq_ok_iff.mp hc
    have hr := PolicyStore.deleteGroup_ok hc
    unfold PolicyStore.removeGroup at hr
    split_ifs at hr
    cases hr
    exact matchLast_deleted h rfl

end

/-- After any calls, a list of rules has at most one MATCH rule, which is its last, and all targets exist. -/
theorem rules_end_with_match (rt : Runtime) {st : PolicyStore} (hst : st.rules.rows = []) (calls : List RuleCall)
    (rev : String) :
    let after := calls.foldl (ruleStep rt) st
    let rules := after.listPolicyRules rev
    rules.countP (fun r => isMatchRule rt r.expression) ≤ 1 ∧
    (∀ r ∈ rules, isMatchRule rt r.expression = true → rules.getLast? = some r) ∧
    ∀ r ∈ rules, r.targetGroupID ∈ after.groups.keys := by
  intro after rules
  have hru : ∀ (calls : List RuleCall) (st : PolicyStore), MatchLast rt (st.listPolicyRules rev) →
      MatchLast rt ((calls.foldl (ruleStep rt) st).listPolicyRules rev) := by
    intro calls
    induction calls with
    | nil => exact fun st h => h
    | cons call rest ih =>
      intro st h
      refine ih _ ?_
      rw [ruleStep]
      split
      · next hca => exact matchLast_ruleCall h hca
      · exact h
  have hn : MatchLast rt (st.listPolicyRules rev) := by
    rw [PolicyStore.listPolicyRules, hst]
    exact Pairwise.nil
  obtain ⟨hc, hl⟩ := (hru calls st hn).last
  refine ⟨hc, hl, fun r hr => after.ruleTarget r ?_⟩
  exact (mem_filter.mp ((mem_stableSort _ _ _).mp hr)).1

def sampleRules : List RuleCall :=
  let env : RuleEnv := ⟨.ok "", .ok (some "r"), fun _ => .ok ()⟩
  [.createPolicyRule env ⟨"m", "", idA, "MATCH", 5⟩, .createPolicyRule env ⟨"d", "r", idB, "DOMAIN,a.example", 1⟩]

theorem sampleRules_end_with_match :
    let rules := (sampleRules.foldl (ruleStep asciiRuntime) sampleStore).listPolicyRules "r"
    rules.map PolicyRule.id = ["d", "m"] ∧ rules.countP (fun r => isMatchRule asciiRuntime r.expression) ≤ 1 :=
  ⟨by decide, (rules_end_with_match asciiRuntime (by decide) sampleRules "r").1⟩

end PolicyService

end ClashSubParser
