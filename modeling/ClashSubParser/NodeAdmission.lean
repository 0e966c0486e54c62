import ClashSubParser.NodeFilter
import ClashSubParser.StableSort

/-! Admission of nodes: inventory state, risk decisions and admission rules. -/
namespace ClashSubParser

open StableSort

inductive DiagnosticSeverity
  | info | warning | error
deriving DecidableEq

structure Diagnostic where
  severity : DiagnosticSeverity
  code : String
  message : String
  target : String := ""
  reason : String := ""
deriving DecidableEq

section

variable (rt : Runtime)

def cleanQuotes (s : String) : String :=
  let s := Strings.trimSpace s
  if ((Strings.hasPrefix s "'" && Strings.hasSuffix s "'") ||
      (Strings.hasPrefix s "\"" && Strings.hasSuffix s "\"")) && 2 ≤ s.toList.length then
    String.ofList (s.toList.drop 1).dropLast
  else s

variable (node : Node)

def matchFieldEqual (field val : String) : Bool :=
  match field with
  | "protocol" => Strings.equalFold rt node.protocol.text val
  | "country" => Strings.contains (Strings.toUpper rt node.displayName) (Strings.toUpper rt val)
  | "logical_id" | "id" => node.logicalID == val
  | _ => Strings.equalFold rt node.displayName val

def matchFieldContains (field val : String) : Bool :=
  match field with
  | "protocol" => Strings.contains (Strings.toLower rt node.protocol.text) (Strings.toLower rt val)
  | "country" => Strings.contains (Strings.toUpper rt node.displayName) (Strings.toUpper rt val)
  | _ => Strings.contains (Strings.toLower rt node.displayName) (Strings.toLower rt val)

def matchFieldRegex (field pattern : String) : Bool :=
  match rt.regexpCompile pattern with
  | .error _ => false
  | .ok re =>
    match field with
    | "protocol" => re node.protocol.text
    | _ => re node.displayName

def matchesAdmissionExpression (expr : String) : Bool :=
  let trimmed := Strings.trimSpace expr
  let lower := Strings.toLower rt trimmed
  if trimmed = "" ∨ trimmed = "*" ∨ Strings.equalFold rt trimmed "ALL" ∨
      Strings.equalFold rt trimmed "ANY" then true
  else if Strings.contains lower "==" then
    let parts := Strings.splitTwo trimmed "=="
    matchFieldEqual rt node (Strings.toLower rt (Strings.trimSpace parts.1))
      (cleanQuotes (Strings.trimSpace parts.2))
  else if Strings.contains lower "!=" then
    let parts := Strings.splitTwo trimmed "!="
    !matchFieldEqual rt node (Strings.toLower rt (Strings.trimSpace parts.1))
      (cleanQuotes (Strings.trimSpace parts.2))
  else if Strings.contains lower "contains" then
    -- this operator splits the lower-cased text, so its value is lower-cased too
    let parts := Strings.splitTwo lower "contains"
    matchFieldContains rt node (Strings.trimSpace parts.1) (cleanQuotes (Strings.trimSpace parts.2))
  else if Strings.contains lower "=~" || Strings.contains lower "~=" then
    let parts := Strings.splitTwo trimmed (if Strings.contains lower "~=" then "~=" else "=~")
    matchFieldRegex rt node (Strings.toLower rt (Strings.trimSpace parts.1))
      (cleanQuotes (Strings.trimSpace parts.2))
  else
    (match rt.regexpCompile ("(?i)" ++ trimmed) with
      | .ok re => re node.displayName
      | .error _ => false) ||
    Strings.contains (Strings.toLower rt node.displayName) (Strings.toLower rt trimmed)

end

section

variable (rt : Runtime)

def sortAdmissionRules (rules : List AdmissionRule) : List AdmissionRule :=
  exchangeSort (keyLess (·.position)) rules.length rules

def nodeLabel (node : Node) : String := "node " ++ node.logicalID ++ " (" ++ node.displayName ++ ")"

def admissionRuleVerdict (sortedRules : List AdmissionRule) (node : Node) : Option Diagnostic :=
  match sortedRules.find? (fun rule => matchesAdmissionExpression rt node rule.expression) with
  | none => none
  | some rule =>
    match rule.action with
    | .reject => some
      { severity := .warning
        code := "node_rejected_by_admission_rule"
        message := nodeLabel node ++ " was rejected by admission rule " ++ Strconv.quote rt rule.name
        target := node.logicalID }
    | .quarantine => some
      { severity := .warning
        code := "node_quarantined_by_admission_rule"
        message := nodeLabel node ++ " was quarantined by admission rule " ++ Strconv.quote rt rule.name
        target := node.logicalID }
    | .allow => none
    | .other _ _ => none

def admissionVerdict (sortedRules : List AdmissionRule) (excluded : List String) (node : Node) :
    Option Diagnostic :=
  if node.active = false then some
    { severity := .info
      code := "node_inactive"
      message := nodeLabel node ++ " is inactive in inventory and excluded"
      target := node.logicalID }
  else if node.logicalID ∈ excluded then some
    { severity := .warning
      code := "node_excluded_by_risk_policy"
      message := nodeLabel node ++ " was excluded by risk policy"
      target := node.logicalID }
  else admissionRuleVerdict rt sortedRules node

structure NodeAdmissionResult where
  admittedNodes : List Node
  admittedNodeMap : String → Option Node
  admittedNodeIDs : List String
  excludedNodeIDs : List String
  diagnostics : List Diagnostic

def evaluateNodeAdmission (nodes : List Node) (rules : List AdmissionRule) (excluded : List String) :
    NodeAdmissionResult :=
  let verdict := admissionVerdict rt (sortAdmissionRules rules) excluded
  let admitted := nodes.filter (fun n => (verdict n).isNone)
  { admittedNodes := admitted
    admittedNodeMap := mapOf (·.logicalID) admitted
    admittedNodeIDs := sortStrings (admitted.map (·.logicalID))
    excludedNodeIDs := uniqueStrings
      (sortStrings ((nodes.filter (fun n => (verdict n).isSome)).map (·.logicalID)))
    diagnostics := nodes.filterMap verdict }

end

section

def riskExcludes (reviewAction decision : RiskAction) : Bool :=
  decision = .block || (decision = .review && reviewAction ≠ .allow) || decision = .unknown

def riskDiagnosticSeverity (decision reviewAction : RiskAction) : DiagnosticSeverity :=
  if riskExcludes reviewAction decision then .warning else .info

def riskDiagnostic (reviewAction : RiskAction) (d : RiskDecision) : Option Diagnostic :=
  let diagnostic (code middle : String) : Option Diagnostic := some
    { severity := riskDiagnosticSeverity d.decision reviewAction
      code := code
      message := "node " ++ d.nodeLogicalID ++ middle ++ d.reasonCode
      target := d.nodeLogicalID }
  match d.decision with
  | .block => diagnostic "risk_blocked" " was excluded by risk policy: "
  | .review =>
    if reviewAction = .allow then
      diagnostic "risk_review_allowed" " requires risk review but remains admitted: "
    else diagnostic "risk_review" " was excluded pending risk review: "
  | .unknown => diagnostic "risk_unknown" " was excluded because risk decision is unknown: "
  | .allow => none
  | .other _ _ => none

def applicableDecisions (nodes : List Node) (policyRevision : String) (decisions : List RiskDecision) :
    List RiskDecision :=
  decisions.filter (fun d =>
    d.policyRevisionID == policyRevision && nodes.any (·.logicalID == d.nodeLogicalID))

def evaluateRiskAdmission (nodes : List Node) (policyRevision : String)
    (decisions : List RiskDecision) (reviewAction : RiskAction) : List String × List Diagnostic :=
  if policyRevision = "" ∨ decisions = [] then ([], [])
  else
    let reviewAction := if reviewAction = .allow then .allow else .block
    let applicable := applicableDecisions nodes policyRevision decisions
    (sortedSet ((applicable.filter (fun d => riskExcludes reviewAction d.decision)).map
        (·.nodeLogicalID)),
      applicable.filterMap (riskDiagnostic reviewAction))

end

end ClashSubParser
