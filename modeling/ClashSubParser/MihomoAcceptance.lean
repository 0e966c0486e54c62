import ClashSubParser.MihomoErrors

/-! What a node needs for the Mihomo renderer beside the checks common to all targets. -/
namespace ClashSubParser

open FirstError Strings

section

variable (lib : Libraries)

def ArePrefixes (ipv4 ipv6 : String) (addresses : List String) : Prop :=
  ∀ raw ∈ addresses, ∃ p, lib.parsePrefix (trimSpace raw) = some p ∧ p.text = if p.is4 then ipv4 else ipv6

def OnePrefixEach (addresses : List String) : Prop :=
  addresses ≠ [] ∧ ∃ ipv4 ipv6, ArePrefixes lib ipv4 ipv6 addresses

end

section

variable (lib : Libraries) (c : InboundProtocolCredential)

def MihomoProtocolAccepts : Protocol → Prop
  | .ss => networkOf lib c ∈ ["", "tcp", "udp"]
  | .vmess => networkOf lib c ∈ ["", "tcp", "ws", "grpc"]
  | .vless =>
    networkOf lib c ∈ ["", "tcp", "ws", "grpc", "xhttp"] ∧
      (transportValue c shortIDKeys = "" ∨ transportValue c publicKeyKeys ≠ "") ∧
      transportValue c ["flow"] ∈ ["", "xtls-rprx-vision", "xtls-rprx-vision-udp443"]
  | .trojan => networkOf lib c ∈ ["", "tcp", "ws", "grpc"]
  | .hysteria2 =>
    networkOf lib c ∈ ["", "quic", "udp", "tcp"] ∧
      (transportValue c ["obfs"] = "" ∧ transportValue c ["obfs-password", "obfs_password"] = "" ∨
        transportValue c ["obfs"] = "salamander" ∧ transportValue c ["obfs-password", "obfs_password"] ≠ "")
  | .wireguard => networkOf lib c ∈ ["", "wireguard", "udp"] ∧ OnePrefixEach lib c.localAddress
  | .tuic =>
    networkOf lib c ∈ ["", "quic", "udp", "tcp"] ∧
      toLower lib.toRuntime (transportValue c congestionKeys) ∈ ["", "cubic", "new_reno", "bbr"] ∧
      toLower lib.toRuntime (transportValue c ["udp_relay_mode", "udp-relay-mode"]) ∈ ["", "native", "quic"]
  | .http => True
  | .socks5 => True
  | .anytls => trimSpace c.password ≠ ""
  | .other _ _ => True

/-- What the renderer asks of a node beside the checks common to all targets. -/
def MihomoAccepts (protocol : Protocol) : Prop :=
  (∀ entry ∈ c.transport.entries, unsupportedEntry protocol entry = false) ∧ MihomoProtocolAccepts lib c protocol

end

section

variable {lib : Libraries} {loc : String} {c : InboundProtocolCredential}

theorem checkNetwork_eq_ok_iff {p : Protocol} {allowed : List String} :
    checkNetwork lib loc p allowed c = .ok () ↔ networkOf lib c ∈ "" :: allowed := by
  rw [checkNetwork, unsupportedValue, mihomoError, ite_reject_eq_ok, not_not, and_iff_left rfl]

theorem validateMihomoTransportKeys_eq_ok_iff {p : Protocol} {transport : GoMap String} :
    validateMihomoTransportKeys lib loc p transport = .ok () ↔
      ∀ entry ∈ transport.entries, unsupportedEntry p entry = false := by
  rw [validateMihomoTransportKeys]
  cases hfd : transport.entries.find? (unsupportedEntry p) with
  | none => simpa using hfd
  | some entry =>
    have hm := List.mem_of_find?_eq_some hfd
    have hu := List.find?_some hfd
    simp only [mihomoError, reject_ne_ok, false_iff, not_forall]
    exact ⟨entry, hm, by simp [hu]⟩

theorem exists_splitAddresses_iff {addresses : List String} : ∀ ipv4 ipv6,
    (∃ ips, splitMihomoWireGuardAddresses lib loc ipv4 ipv6 addresses = .ok ips) ↔
      (ipv4 ≠ "" ∨ ipv6 ≠ "" ∨ addresses ≠ []) ∧
        ∃ a b, (ipv4 = "" ∨ a = ipv4) ∧ (ipv6 = "" ∨ b = ipv6) ∧ ArePrefixes lib a b addresses := by
  induction addresses with
  | nil =>
    intro ipv4 ipv6
    have hch : ∃ a b, (ipv4 = "" ∨ a = ipv4) ∧ (ipv6 = "" ∨ b = ipv6) ∧ ArePrefixes lib a b [] :=
      ⟨ipv4, ipv6, Or.inr rfl, Or.inr rfl, by simp [ArePrefixes]⟩
    rw [and_iff_left hch]
    simp only [splitMihomoWireGuardAddresses, mihomoError, ite_reject_eq_ok, not_and_or, Except.ok.injEq,
      exists_and_left, exists_eq', ne_eq, not_true_eq_false, or_false, and_true]
  | cons raw rest ih =>
    intro ipv4 ipv6
    rw [splitMihomoWireGuardAddresses]
    cases hp : lib.parsePrefix (trimSpace raw) with
    | none => simp [mihomoError, ArePrefixes, hp]
    | some p =>
      have ht := p.text_ne
      have hc (a b : String) : ArePrefixes lib a b (raw :: rest) ↔
          (p.text = if p.is4 then a else b) ∧ ArePrefixes lib a b rest := by
        simp [ArePrefixes, hp]
      -- a second prefix of one kind has to be the first one
      have hk (ip : String) : ¬(ip ≠ "" ∧ ip ≠ p.text) ↔ ip = "" ∨ p.text = ip := by
        rw [not_and_or, not_not, not_not, eq_comm (a := p.text)]
      cases h4 : p.is4 with
      | true =>
        simp only [if_true, mihomoError, ite_reject_eq_ok, exists_and_left, ih, hc, h4, hk]
        simp [ht]
      | false =>
        simp only [Bool.false_eq_true, if_false, mihomoError, ite_reject_eq_ok, exists_and_left, ih, hc, h4, hk]
        simp [ht]
        tauto

theorem exists_splitAddresses_iff_onePrefixEach {addresses : List String} :
    (∃ ips, splitMihomoWireGuardAddresses lib loc "" "" addresses = .ok ips) ↔ OnePrefixEach lib addresses := by
  rw [exists_splitAddresses_iff, OnePrefixEach]
  simp

theorem validateMihomoProtocol_eq_ok_iff {protocol : Protocol} :
    validateMihomoProtocol lib loc protocol c = .ok () ↔ MihomoProtocolAccepts lib c protocol := by
  cases protocol <;> simp only [validateMihomoProtocol, MihomoProtocolAccepts, bind_unit_eq_ok_iff,
    checkNetwork_eq_ok_iff, map_eq_ok_iff, exists_splitAddresses_iff_onePrefixEach, mihomoError, unsupportedValue,
    ite_reject_eq_ok, not_not, and_true, not_and_or, ne_eq]
  case hysteria2 =>
    refine and_congr_right fun _ => ?_
    by_cases hn : transportValue c ["obfs"] = ""
    · simp [hn]
    · by_cases ho : transportValue c ["obfs"] = "salamander"
      · simp [ho]
      · simp [hn, ho]

/-- A node passes if it passes the common checks and its protocol's. -/
theorem validateMihomoNode_eq_ok_iff {i : ℕ} {node : ResolvedNode} : validateMihomoNode lib i node = .ok () ↔
      validateCredentialEnvelope lib .mihomo i node = .ok () ∧ MihomoAccepts lib node.credentials node.protocol := by
  simp only [validateMihomoNode, bind_unit_eq_ok_iff, validateMihomoTransportKeys_eq_ok_iff,
    validateMihomoProtocol_eq_ok_iff, MihomoAccepts]

theorem exists_renderMihomoProxy {i : ℕ} {node : ResolvedNode}
    (h : MihomoAccepts lib node.credentials node.protocol) : ∃ proxy, renderMihomoProxy lib i node = .ok proxy := by
  have ha (hp : node.protocol = .wireguard) : OnePrefixEach lib node.credentials.localAddress := by
    rw [hp] at h
    exact h.2.2
  rw [renderMihomoProxy.eq_def]
  cases hp : node.protocol with
  | wireguard =>
    obtain ⟨ips, hi⟩ := exists_splitAddresses_iff_onePrefixEach.mpr (ha hp)
    exact ⟨_, map_eq_ok_iff.mpr ⟨ips, hi, rfl⟩⟩
  | _ => exact ⟨_, rfl⟩

end

end ClashSubParser
