import ClashSubParser.DomainError

/-! The data of a policy. A typed string of the source is an inductive type; where other texts can reach the
code, `other` carries them. -/
namespace ClashSubParser

inductive Protocol
  | ss | vmess | vless | trojan | hysteria2 | wireguard | tuic | http | socks5 | anytls
  | other (s : String) (h : s ∉ ["ss", "vmess", "vless", "trojan", "hysteria2", "wireguard", "tuic",
      "http", "socks5", "anytls"])
deriving DecidableEq

def Protocol.text : Protocol → String
  | ss => "ss"
  | vmess => "vmess"
  | vless => "vless"
  | trojan => "trojan"
  | hysteria2 => "hysteria2"
  | wireguard => "wireguard"
  | tuic => "tuic"
  | http => "http"
  | socks5 => "socks5"
  | anytls => "anytls"
  | other s _ => s

inductive ProbeVerdict
  | available | restricted | unknown | error | stale
  | other (s : String) (h : s ∉ ["available", "restricted", "unknown", "error", "stale"])
deriving DecidableEq

def ProbeVerdict.text : ProbeVerdict → String
  | available => "available"
  | restricted => "restricted"
  | unknown => "unknown"
  | error => "error"
  | stale => "stale"
  | other s _ => s

inductive ProbeKind
  | baseline | geo | streaming | ai | speed | ipRisk
  | other (s : String) (h : s ∉ ["baseline", "geo", "streaming", "ai", "speed", "ip_risk"])
deriving DecidableEq

def ProbeKind.text : ProbeKind → String
  | baseline => "baseline"
  | geo => "geo"
  | streaming => "streaming"
  | ai => "ai"
  | speed => "speed"
  | ipRisk => "ip_risk"
  | other s _ => s

def ProbeKind.isValid : ProbeKind → Bool
  | other _ _ => false
  | _ => true

inductive GroupType
  | select | urltest | fallback | loadbalance
  | other (s : String) (h : s ∉ ["select", "urltest", "fallback", "loadbalance"])
deriving DecidableEq

def GroupType.text : GroupType → String
  | select => "select"
  | urltest => "urltest"
  | fallback => "fallback"
  | loadbalance => "loadbalance"
  | other s _ => s

def GroupType.isValid : GroupType → Bool
  | other _ _ => false
  | _ => true

inductive RuleAction
  | allow | reject | quarantine
  | other (s : String) (h : s ∉ ["allow", "reject", "quarantine"])
deriving DecidableEq

def RuleAction.text : RuleAction → String
  | allow => "allow"
  | reject => "reject"
  | quarantine => "quarantine"
  | other s _ => s

def RuleAction.isValid : RuleAction → Bool
  | other _ _ => false
  | _ => true

inductive RiskAction
  | allow | review | block | unknown
  | other (s : String) (h : s ∉ ["allow", "review", "block", "unknown"])
deriving DecidableEq

inductive SourceOperation
  | add | remove
  | other (s : String) (h : s ∉ ["add", "remove"])
deriving DecidableEq

def SourceOperation.text : SourceOperation → String
  | add => "add"
  | remove => "remove"
  | other s _ => s

def SourceOperation.isValid : SourceOperation → Bool
  | other _ _ => false
  | _ => true

inductive MemberSourceKind
  | manualNode | groupRef | groupNodes | regex | filter | typedBuiltin
  | other (s : String)
      (h : s ∉ ["manual_node", "group_ref", "group_nodes", "regex", "filter", "typed_builtin"])
deriving DecidableEq

def MemberSourceKind.text : MemberSourceKind → String
  | manualNode => "manual_node"
  | groupRef => "group_ref"
  | groupNodes => "group_nodes"
  | regex => "regex"
  | filter => "filter"
  | typedBuiltin => "typed_builtin"
  | other s _ => s

def MemberSourceKind.isValid : MemberSourceKind → Bool
  | other _ _ => false
  | _ => true

structure InboundProtocolCredential where
  password : String := ""
  uuid : String := ""
  method : String := ""
  alterID : Int := 0
  privateKey : String := ""
  publicKey : String := ""
  presharedKey : String := ""
  preSharedKey : String := ""
  localAddress : List String := []
  reserved : List (BitVec 8) := []
  mtu : Int := 0
  dns : List String := []
  congestionControl : String := ""
  udpRelayMode : String := ""
  alpn : List String := []
  sni : String := ""
  disableSNI : Bool := false
  username : String := ""
  transport : GoMap String := GoMap.empty

structure Node where
  logicalID : String
  protocol : Protocol
  displayName : String
  server : String
  port : Int
  credentials : InboundProtocolCredential
  active : Bool
  connectionRevision : Int

structure NodeSource where
  nodeLogicalID : String
  subscriptionID : String
  lastSeenFetchID : String

structure ProbeObservation where
  kind : ProbeKind
  verdict : ProbeVerdict
  observedAt : Time
  latencyMS : Int

/-- `field` and `op` are kept as written: both are parsed at each use. -/
structure FilterCondition where
  field : String
  op : String
  value : String
  probeKind : Option ProbeKind := none
  freshnessSeconds : Option Int := none
deriving DecidableEq

structure NodeFilterSpec where
  conditions : List FilterCondition
deriving DecidableEq

structure MemberSource where
  id : String
  groupID : String
  operation : SourceOperation
  kind : MemberSourceKind
  position : Int
  nodeLogicalID : Option String := none
  targetGroupID : Option String := none
  pattern : Option String := none
  filterSpec : Option NodeFilterSpec := none
  builtinName : Option String := none
  createdAt : Time := 0
  updatedAt : Time := 0
deriving DecidableEq

structure NodeGroup where
  emptyFallbackPass : Bool := false
  id : String
  name : String
  groupType : GroupType
  revision : Int := 0
  sources : List MemberSource := []
  nodeFilter : Option NodeFilterSpec := none
  createdAt : Time := 0
  updatedAt : Time := 0
deriving DecidableEq

structure GroupEdge where
  id : String
  parentGroupID : String
  childGroupID : Option String := none
  nodeLogicalID : Option String := none
  position : Int
deriving DecidableEq

structure AdmissionRule where
  id : String
  revisionID : String
  name : String
  expression : String
  action : RuleAction
  position : Int

structure PolicyRule where
  id : String
  revisionID : String
  targetGroupID : String
  expression : String
  position : Int

structure RiskDecision where
  nodeLogicalID : String
  policyRevisionID : String
  decision : RiskAction
  reasonCode : String
  evaluatedAt : Time
deriving DecidableEq

/-- `uuidv7Regex`: eight, four, four, four and twelve hexadecimal digits between dashes, with the
version digit and the variant digit fixed. -/
def isValidUUIDv7 (s : String) : Bool :=
  let isHex (c : Char) : Bool := "0123456789abcdefABCDEF".toList.contains c
  match s.toList.splitOn '-' with
  | [a, b, c, d, e] =>
    a.length == 8 && a.all isHex && b.length == 4 && b.all isHex &&
    c.length == 4 && c.all isHex && c.head? == some '7' &&
    d.length == 4 && d.all isHex && (d.head?.any (fun x => "89abAB".toList.contains x)) &&
    e.length == 12 && e.all isHex
  | _ => false

/-- `logicalIDRegex`: an optional tag and sixteen to sixty-four hexadecimal digits. -/
def isValidLogicalID (s : String) : Bool :=
  let isHex (c : Char) : Bool := "0123456789abcdefABCDEF".toList.contains c
  let digits (cs : List Char) : Bool := 16 ≤ cs.length && cs.length ≤ 64 && cs.all isHex
  digits s.toList ||
    (Strings.hasPrefix s "node_" && digits (s.toList.drop 5))

def isMatchRule (rt : Runtime) (expr : String) : Bool :=
  let norm := Strings.toUpper rt (Strings.trimSpace expr)
  norm == "MATCH" || Strings.hasPrefix norm "MATCH," || Strings.hasPrefix norm "MATCH " ||
    norm == "FINAL" || Strings.hasPrefix norm "FINAL," || Strings.hasPrefix norm "FINAL "

end ClashSubParser
