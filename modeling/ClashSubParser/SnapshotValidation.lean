import ClashSubParser.CompilerCapability

/-! `validate`: what a target checks of a snapshot before any node is looked at closely. -/
namespace ClashSubParser

open FirstError

def isBuiltInPolicyTarget (rt : Runtime) (name : String) : Bool :=
  ["DIRECT", "REJECT", "REJECT-DROP", "PASS", "COMPATIBLE"].contains
    (Strings.toUpper rt (Strings.trimSpace name))

def ruleKind (rt : Runtime) (expression : String) : String :=
  let kind := (Strings.toUpper rt (Strings.trimSpace expression)).toList.takeWhile (· ≠ ',')
  String.ofList (kind.takeWhile (· ≠ ' '))

def groupLocation (index : ℕ) : String := "groups[" ++ toString index ++ "]"

def ruleLocation (index : ℕ) : String := "rules[" ++ toString index ++ "]"

namespace ResolvedPolicySnapshot

variable (snap : ResolvedPolicySnapshot)

def nodeIDs : List String := snap.nodes.map (·.logicalID)

def nodeNames : List String := snap.nodes.map (·.displayName)

def groupIDs : List String := (snap.groups.map (·.id)).filter (fun id => Strings.trimSpace id ≠ "")

def groupNames : List String := snap.groups.map (·.name)

end ResolvedPolicySnapshot

section

variable (lib : Libraries) (snap : ResolvedPolicySnapshot) (target : CompilerTarget) (capability : Capability)

variable (index : ℕ)

def validateNode (node : ResolvedNode) : Except CapabilityError Unit :=
  let fail := reject target (nodeLocation index) node.protocol.text
  if node.protocol ∉ capability.protocols then fail "protocol is not supported"
  else if Strings.trimSpace node.logicalID = "" then fail "node logical ID is required"
  else if Strings.trimSpace node.displayName = "" then fail "node display name is required"
  else .ok ()

def validateGroupType (group : ResolvedGroup) : Except CapabilityError Unit :=
  let fail := reject target (groupLocation index) group.groupType.text
  if group.groupType ∉ capability.groupTypes then fail "policy group type is not supported"
  else if Strings.trimSpace group.name = "" then fail "policy group name is required"
  else .ok ()

def validateMember (group : ResolvedGroup) (member : ResolvedGroupMember) :
    Except CapabilityError Unit :=
  let fail := reject target (groupLocation index)
  let memberName := Strings.trimSpace member.displayName
  if memberName = "" then fail group.name "group member display name is required"
  else
    match member.kind with
    | .node =>
      if (Strings.trimSpace member.targetID ≠ "" ∧ member.targetID ∉ snap.nodeIDs) ∨ memberName ∉ snap.nodeNames then
        fail memberName "group member references unknown node"
      else .ok ()
    | .group =>
      if (Strings.trimSpace member.targetID ≠ "" ∧ member.targetID ∉ snap.groupIDs) ∨
          memberName ∉ snap.groupNames then
        fail memberName "group member references unknown policy group"
      else .ok ()
    | .builtin =>
      if isBuiltInPolicyTarget lib.toRuntime memberName = false then
        fail memberName ("unsupported builtin policy target " ++ Strconv.quote lib.toRuntime memberName)
      else .ok ()

def validateMembers : List (Except CapabilityError Unit) :=
  (snap.groups.mapIdx (fun i g => g.members.map (validateMember lib snap target i g))).flatten

def validateRule (rule : ResolvedRule) : Except CapabilityError Unit :=
  let fail := reject target (ruleLocation index)
  let expr := Strings.trimSpace rule.expression
  let kind := ruleKind lib.toRuntime expr
  let targetName := Strings.trimSpace rule.targetGroupName
  if kind = "" then fail "rule" "routing rule expression is required"
  else if kind ∉ capability.ruleKinds then fail kind "routing rule kind is not supported"
  else if isMatchRule lib.toRuntime expr = false ∧ Strings.trimSpace ((Strings.split expr ',').getD 1 "") = "" then
    fail kind "routing rule value is required"
  else if targetName = "" then fail kind "routing rule target group is required"
  else if isBuiltInPolicyTarget lib.toRuntime targetName then .ok ()
  else if snap.groups = [] ∨ targetName ∉ snap.groupNames then
    fail targetName "routing rule references unknown target group"
  else if Strings.trimSpace rule.targetGroupID ≠ "" ∧ snap.groupIDs ≠ [] ∧ rule.targetGroupID ∉ snap.groupIDs then
    fail targetName "routing rule target group ID mismatch"
  else .ok ()

def validate : Except CapabilityError Unit := do
  checks (snap.nodes.mapIdx (validateNode target capability))
  if target ≠ .mihomo then .ok ()
  else
    checks (snap.groups.mapIdx (validateGroupType target capability))
    checks (validateMembers lib snap target)
    checks (snap.rules.mapIdx (validateRule lib snap target capability))

end

end ClashSubParser
