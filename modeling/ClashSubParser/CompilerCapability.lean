import ClashSubParser.Digest
import ClashSubParser.GoLibraries

/-! What a target supports, what a node must carry, and the filter that leaves out the nodes that fail. -/
namespace ClashSubParser

open List

inductive CompilerTarget
  | mihomo | singBox | surge | quantumultX
  | other (s : String) (h : s ∉ ["mihomo", "singbox", "surge", "qx"])
deriving DecidableEq

def CompilerTarget.text : CompilerTarget → String
  | mihomo => "mihomo"
  | singBox => "singbox"
  | surge => "surge"
  | quantumultX => "qx"
  | other s _ => s

def Protocol.isValid : Protocol → Bool
  | other _ _ => false
  | _ => true

structure Capability where
  protocols : List Protocol
  groupTypes : List GroupType
  ruleKinds : List String

structure CapabilityError where
  target : CompilerTarget
  location : String
  feature : String
  reason : String
deriving DecidableEq

/-- The `Error` method. -/
def CapabilityError.error (e : CapabilityError) : String :=
  "target " ++ e.target.text ++ " cannot render " ++ e.feature ++ " at " ++ e.location ++ ": " ++ e.reason

def mihomoCapability : Capability where
  protocols := [.ss, .vmess, .vless, .trojan, .hysteria2, .wireguard, .tuic, .http, .socks5, .anytls]
  groupTypes := [.select, .urltest, .fallback, .loadbalance]
  ruleKinds :=
    ["DOMAIN", "DOMAIN-SUFFIX", "DOMAIN-KEYWORD", "IP-CIDR", "IP-CIDR6", "GEOIP", "GEOSITE", "RULE-SET",
     "SRC-IP-CIDR", "SRC-PORT", "DST-PORT", "PORT", "PROCESS-NAME", "MATCH"]

def singBoxCapability : Capability where
  protocols := [.ss, .vmess, .vless, .trojan, .hysteria2, .wireguard, .tuic]
  groupTypes := []
  ruleKinds := []

def surgeCapability : Capability where
  protocols := [.ss, .vmess, .trojan, .hysteria2, .tuic, .wireguard]
  groupTypes := []
  ruleKinds := []

def quantumultXCapability : Capability where
  protocols := [.ss, .vmess, .trojan]
  groupTypes := []
  ruleKinds := []

def capabilityForTarget : CompilerTarget → Option Capability
  | .mihomo => some mihomoCapability
  | .singBox => some singBoxCapability
  | .surge => some surgeCapability
  | .quantumultX => some quantumultXCapability
  | .other _ _ => none

def reject {α : Type} (target : CompilerTarget) (location feature reason : String) : Except CapabilityError α :=
  .error ⟨target, location, feature, reason⟩

@[simp] theorem reject_ne_ok {α : Type} (target : CompilerTarget) (location feature reason : String) (a : α) :
    reject target location feature reason ≠ .ok a := by simp [reject]

@[simp] theorem ite_reject_eq_ok {α : Type} (p : Prop) [Decidable p] (target : CompilerTarget)
    (location feature reason : String) (x : Except CapabilityError α) (a : α) :
    (if p then reject target location feature reason else x) = .ok a ↔ ¬p ∧ x = .ok a := by
  split_ifs with h <;> simp [h]

theorem exists_ite_reject_iff {α : Type} {p : Prop} [Decidable p] {target : CompilerTarget}
    {location feature reason : String} {x : Except CapabilityError α} :
    (∃ a, (if p then reject target location feature reason else x) = .ok a) ↔ ¬p ∧ ∃ a, x = .ok a := by
  simp only [ite_reject_eq_ok, exists_and_left]

def nodeLocation (index : ℕ) : String := "nodes[" ++ toString index ++ "]"

section

variable (lib : Libraries)

/-- The fields a protocol cannot do without, with `fail` for the error of the node. -/
def validateProtocolFields (fail : String → Except CapabilityError Unit) (protocol : Protocol)
    (c : InboundProtocolCredential) : Except CapabilityError Unit :=
  match protocol with
  | .ss =>
    if Strings.trimSpace c.method = "" ∨ Strings.trimSpace c.password = "" then
      fail "missing required cipher or password in shadowsocks credentials"
    else .ok ()
  | .vmess =>
    if Strings.trimSpace c.uuid = "" then fail "missing required uuid in vmess credentials"
    else if c.alterID < 0 then fail "invalid alterId in vmess credentials"
    else .ok ()
  | .vless =>
    if Strings.trimSpace c.uuid = "" then fail "missing required uuid in vless credentials"
    else if Strings.trimSpace (c.transport.value "sid") ≠ "" ∧ Strings.trimSpace (c.transport.value "pbk") = "" then
      fail "missing required reality public key in vless credentials"
    else .ok ()
  | .trojan =>
    if Strings.trimSpace c.password = "" then fail "missing required password in trojan credentials" else .ok ()
  | .hysteria2 =>
    if Strings.trimSpace c.password = "" then fail "missing required password in hysteria2 credentials" else .ok ()
  | .wireguard =>
    if Strings.trimSpace c.privateKey = "" then fail "missing required private_key in wireguard credentials"
    else if Strings.trimSpace c.publicKey = "" then fail "missing required public_key in wireguard credentials"
    else if c.localAddress = [] then fail "missing required local_address in wireguard credentials"
    else if c.localAddress.any (fun raw =>
        Strings.trimSpace raw = "" || (lib.parsePrefix (Strings.trimSpace raw)).isNone) then
      fail "invalid local_address CIDR in wireguard credentials"
    else if c.reserved.length > 0 ∧ c.reserved.length ≠ 3 then
      fail "invalid reserved bytes in wireguard credentials"
    else if c.mtu < 0 ∨ c.mtu > 65535 then fail "invalid mtu in wireguard credentials"
    else .ok ()
  | .tuic =>
    if Strings.trimSpace c.uuid = "" then fail "missing required uuid in tuic credentials"
    else if Strings.trimSpace c.password = "" then fail "missing required password in tuic credentials"
    else .ok ()
  | .http => .ok ()
  | .socks5 => .ok ()
  | .anytls =>
    if Strings.trimSpace c.password = "" then fail "missing required password in anytls credentials" else .ok ()
  | .other _ _ => fail "protocol is not supported"

def validateCredentialEnvelope (target : CompilerTarget) (index : ℕ) (node : ResolvedNode) :
    Except CapabilityError Unit :=
  let fail := reject target (nodeLocation index) node.protocol.text
  if Strings.trimSpace node.logicalID = "" then fail "node logical ID is required"
  else if node.protocol.isValid = false then fail "protocol is not supported"
  else if Strings.trimSpace node.server = "" then fail "missing server address in credential payload"
  else if node.port ≤ 0 ∨ node.port > 65535 then fail "invalid port in credential payload"
  else if target = .singBox ∧ Strings.toLower lib.toRuntime (node.credentials.transport.value "network") = "xhttp" then
    reject .singBox (nodeLocation index ++ ".transport.network") "xhttp"
      "sing-box does not support xhttp transport protocol"
  else validateProtocolFields lib fail node.protocol node.credentials

end

theorem validateCredentialEnvelope_ok_iff (lib : Libraries) (target : CompilerTarget) (i j : ℕ)
    (node : ResolvedNode) :
    validateCredentialEnvelope lib target i node = .ok () ↔ validateCredentialEnvelope lib target j node = .ok () := by
  simp only [validateCredentialEnvelope, ite_reject_eq_ok]
  cases node.protocol <;> simp [validateProtocolFields]

structure ManifestExcludedNode where
  nodeID : String
  code : String
  reason : String
deriving DecidableEq

section

variable (lib : Libraries) (target : CompilerTarget) (capability : Capability)

def exclusionReason (index : ℕ) (node : ResolvedNode) : String :=
  if node.protocol ∉ capability.protocols then
    "target " ++ target.text ++ " does not support protocol " ++ node.protocol.text
  else
    match validateCredentialEnvelope lib target index node with
    | .error err => err.error
    | .ok _ => ""

def excludedNode (index : ℕ) (node : ResolvedNode) : ManifestExcludedNode :=
  ⟨node.logicalID, "unsupported_target_capability", exclusionReason lib target capability index node⟩

def admittedNodes (nodes : List ResolvedNode) : List ResolvedNode :=
  (nodes.zipIdx.filter (fun n => exclusionReason lib target capability n.2 n.1 = "")).map (·.1)

def excludedNodes (nodes : List ResolvedNode) : List ManifestExcludedNode :=
  (nodes.zipIdx.filter (fun n => exclusionReason lib target capability n.2 n.1 ≠ "")).map
    (fun n => excludedNode lib target capability n.2 n.1)

variable (admitted : List ResolvedNode)

/-- `admittedSet`: the IDs and the names of the admitted nodes. -/
def admittedSet : List String :=
  admitted.map (·.logicalID) ++ admitted.map (·.displayName)

def keepsMember (m : ResolvedGroupMember) : Bool :=
  m.kind ≠ .node || (admittedSet admitted).contains m.targetID || (admittedSet admitted).contains m.displayName

def filterGroup (g : ResolvedGroup) : ResolvedGroup :=
  { g with members := g.members.filter (keepsMember admitted) }

end

def filterCompatibleSnapshot (lib : Libraries) (snap : ResolvedPolicySnapshot) (target : CompilerTarget) :
    ResolvedPolicySnapshot × List ManifestExcludedNode :=
  match capabilityForTarget target with
  | none => (snap, [])
  | some capability =>
    let admitted := admittedNodes lib target capability snap.nodes
    ({ snap with
        nodes := admitted
        groups := snap.groups.map (filterGroup admitted) },
     excludedNodes lib target capability snap.nodes)

section

variable {lib : Libraries} {target : CompilerTarget} {capability : Capability}

theorem CapabilityError.error_ne_empty (e : CapabilityError) : e.error ≠ "" := by
  intro h
  have hl := congrArg String.length h
  simp [CapabilityError.error, String.length_append] at hl

def Admits (lib : Libraries) (target : CompilerTarget) (capability : Capability) (node : ResolvedNode) : Prop :=
  node.protocol ∈ capability.protocols ∧ validateCredentialEnvelope lib target 0 node = .ok ()

instance (lib : Libraries) (target : CompilerTarget) (capability : Capability) (node : ResolvedNode) :
    Decidable (Admits lib target capability node) := inferInstanceAs (Decidable (_ ∧ _))

theorem exclusionReason_eq_empty_iff {i : ℕ} {node : ResolvedNode} :
    exclusionReason lib target capability i node = "" ↔ Admits lib target capability node := by
  rw [exclusionReason, Admits, ← validateCredentialEnvelope_ok_iff lib target i 0]
  by_cases hp : node.protocol ∈ capability.protocols
  · cases hv : validateCredentialEnvelope lib target i node with
    | error e => simp [hp, e.error_ne_empty]
    | ok u => simp [hp]
  · have hne : "target " ++ target.text ++ " does not support protocol " ++ node.protocol.text ≠ "" := by
      intro h
      have hl := congrArg String.length h
      simp [String.length_append] at hl
    simp [hp, hne]

/-- Compatible mode keeps the nodes that every check of the target admits. -/
theorem mem_admittedNodes {nodes : List ResolvedNode} {node : ResolvedNode} :
    node ∈ admittedNodes lib target capability nodes ↔ node ∈ nodes ∧ Admits lib target capability node := by
  simp only [admittedNodes, mem_map, mem_filter, decide_eq_true_eq, exclusionReason_eq_empty_iff]
  constructor
  · rintro ⟨⟨n, i⟩, ⟨hin, ha⟩, rfl⟩
    exact ⟨fst_mem_of_mem_zipIdx hin, ha⟩
  · rintro ⟨hin, ha⟩
    obtain ⟨i, hi, rfl⟩ := mem_iff_getElem.mp hin
    exact ⟨(nodes[i], i), ⟨mem_zipIdx_iff_getElem?.mpr (by simp [hi]), ha⟩, rfl⟩

end

end ClashSubParser
