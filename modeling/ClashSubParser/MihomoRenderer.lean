import ClashSubParser.MihomoRules

/-! `renderMihomo`: the document with its proxies, proxy groups and rules. -/
namespace ClashSubParser

open FirstError Strings

structure MihomoGroup where
  emptyFallback : String := ""
  name : String
  type : String
  proxies : List String
  url : String := ""
  interval : ℕ := 0
  tolerance : ℕ := 0
  strategy : String := ""
deriving DecidableEq

structure MihomoConfig where
  proxies : List MihomoProxy
  proxyGroups : List MihomoGroup
  ruleProviders : RuleProviders
  rules : List MihomoRule

def defaultMihomoProbeURL : String := "https://www.gstatic.com/generate_204"

def defaultMihomoProbeInterval : ℕ := 300

def defaultMihomoURLTestTolerance : ℕ := 50

def defaultMihomoLoadBalancePolicy : String := "consistent-hashing"

def buildMihomoGroup (loc : String) (group : ResolvedGroup) (members : List String) :
    Except CapabilityError MihomoGroup :=
  match group.groupType with
  | .select => .ok { name := group.name, type := "select", proxies := members }
  | .urltest =>
    .ok
      { name := group.name
        type := "url-test"
        proxies := members
        url := defaultMihomoProbeURL
        interval := defaultMihomoProbeInterval
        tolerance := defaultMihomoURLTestTolerance }
  | .fallback =>
    .ok
      { name := group.name
        type := "fallback"
        proxies := members
        url := defaultMihomoProbeURL
        interval := defaultMihomoProbeInterval }
  | .loadbalance =>
    .ok
      { name := group.name
        type := "load-balance"
        proxies := members
        url := defaultMihomoProbeURL
        interval := defaultMihomoProbeInterval
        strategy := defaultMihomoLoadBalancePolicy }
  | .other s _ => mihomoError loc s "policy group type is not supported"

section

variable (lib : Libraries) (snap : ResolvedPolicySnapshot)

def groupNameSet : List String := (snap.groups.map (·.name) ++ snap.groups.map (·.id)).filter (· ≠ "")

variable (group : ResolvedGroup)

def hasProxies : Bool := !group.allNodeLogicalIDs.isEmpty || hasBuiltin group

def checkMihomoMember (loc : String) (group : ResolvedGroup) (member : ResolvedGroupMember) :
    Except CapabilityError Unit :=
  let tID := trimSpace member.targetID
  let tName := trimSpace member.displayName
  if member.kind = .group ∧ (tID ≠ "" ∧ tID ∉ groupNameSet snap) ∧ tName ≠ "" ∧ tName ∉ groupNameSet snap then
    mihomoError loc group.name ("group " ++ Strconv.quote lib.toRuntime group.name ++
      " references non-existent child group " ++ Strconv.quote lib.toRuntime tName)
  else .ok ()

def emptyFallbackOf : String :=
  if group.usesEmptyPass then "PASS" else if group.emptyFallbackPass then "REJECT" else ""

def proxyNames : List String :=
  if group.usesEmptyPass then ["PASS"] else group.members.map (·.displayName)

def renderMihomoGroup (index : ℕ) (group : ResolvedGroup) : Except CapabilityError MihomoGroup :=
  let loc := groupLocation index
  if group.usesEmptyPass = false ∧ (group.members = [] ∨ (group.emptyFallbackPass ∧ hasProxies group = false)) then
    mihomoError loc group.name ("proxy group " ++ Strconv.quote lib.toRuntime group.name ++
      " has no proxies (required_nonempty)")
  else do
    checks (group.members.map (checkMihomoMember lib snap loc group))
    let built ← buildMihomoGroup loc group (proxyNames group)
    .ok { built with emptyFallback := emptyFallbackOf group }

def checkMihomoRuleTarget (index : ℕ) (rule : ResolvedRule) : Except CapabilityError Unit :=
  let tName := trimSpace rule.targetGroupName
  let tID := trimSpace rule.targetGroupID
  if tName ∉ ["", "DIRECT", "REJECT", "REJECT-DROP", "PASS"] ∧ tName ∉ groupNameSet snap ∧ tID ∉ groupNameSet snap then
    mihomoError (ruleLocation index) tName ("rule " ++ Strconv.quote lib.toRuntime rule.expression ++
      " targets non-existent group " ++ Strconv.quote lib.toRuntime tName)
  else .ok ()

def renderMihomo : Except CapabilityError MihomoConfig := do
  validateMihomoCredentials lib snap.nodes
  let proxies ← allOk (snap.nodes.mapIdx (renderMihomoProxy lib))
  let groups ← allOk (snap.groups.mapIdx (renderMihomoGroup lib snap))
  checks (snap.rules.mapIdx (checkMihomoRuleTarget lib snap))
  let (rules, providers) ← renderMihomoRules lib 0 [] snap.rules
  .ok
    { proxies := proxies.reduceOption
      proxyGroups := groups
      ruleProviders := providers
      rules := rules }

end

end ClashSubParser
