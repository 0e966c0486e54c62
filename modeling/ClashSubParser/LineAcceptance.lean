import ClashSubParser.MihomoErrors

/-! What a node needs for a Surge or a Quantumult X line, and where the errors of a node without it are. -/
namespace ClashSubParser

open FirstError Strings

section

variable (lib : Libraries)

def SurgeOptionalValue (value : String) : Prop := value = "" ∨ isSurgeSafeValue value = true

def SurgeObfsAccepts (transport : GoMap String) : Prop :=
  let obfs := toLower lib.toRuntime (trimSpace (transport.value "obfs"))
  let host := trimSpace (transport.value "host")
  let path := trimSpace (transport.value "path")
  (obfs ∈ ["http", "tls"] ∧ SurgeOptionalValue host ∧ SurgeOptionalValue path) ∨ (obfs = "" ∧ path = "" ∧ host = "")

def SurgeWSAccepts (netMode : String) (transport : GoMap String) : Prop :=
  let path := trimSpace (transport.value "path")
  let host := trimSpace (transport.value "host")
  (netMode = "ws" ∧ SurgeOptionalValue path ∧
    (host = "" ∨ isSurgeSafeValue host = true ∧ containsAny host ": " = false)) ∨
    (netMode ≠ "ws" ∧ path = "" ∧ host = "")

def SurgeProtocolAccepts (c : InboundProtocolCredential) : Protocol → Prop
  | .ss =>
    toLower lib.toRuntime (trimSpace c.method) ∈ surgeSupportedSSCiphers ∧
      isSurgeSafeValue (trimSpace c.password) = true ∧ surgeNetMode lib c.transport ∈ ["", "tcp"] ∧
      trimSpace (c.transport.value "service_name") = "" ∧ hasSurgeTLS lib c.transport = false ∧
      SurgeObfsAccepts lib c.transport
  | .vmess =>
    isSurgeSafeValue (trimSpace c.uuid) = true ∧
      toLower lib.toRuntime (trimSpace c.method) ∈ surgeSupportedVMessCiphers ∧
      surgeNetMode lib c.transport ∈ ["", "tcp", "ws"] ∧ trimSpace (c.transport.value "service_name") = "" ∧
      SurgeWSAccepts (surgeNetMode lib c.transport) c.transport ∧
      SurgeOptionalValue (surgeFirstNonEmpty (c.sni :: ["sni", "servername"].map c.transport.value))
  | .trojan =>
    isSurgeSafeValue (trimSpace c.password) = true ∧
      surgeNetMode lib c.transport ∈ ["", "tcp", "ws"] ∧ trimSpace (c.transport.value "service_name") = "" ∧
      SurgeWSAccepts (surgeNetMode lib c.transport) c.transport ∧
      SurgeOptionalValue (surgeFirstNonEmpty (c.sni :: ["sni", "servername"].map c.transport.value))
  | .hysteria2 =>
    isSurgeSafeValue (trimSpace c.password) = true ∧
      surgeNetMode lib c.transport ∈ ["", "quic", "udp", "tcp"] ∧
      (trimSpace (c.transport.value "down") = "" ∨
        (parseSurgeBandwidthMbps lib (trimSpace (c.transport.value "down"))).isSome = true) ∧
      SurgeOptionalValue
        (surgeFirstNonEmpty (c.sni :: ["sni", "servername", "serverName", "peer"].map c.transport.value))
  | .tuic =>
    isSurgeSafeValue (trimSpace c.uuid) = true ∧ isSurgeSafeValue (trimSpace c.password) = true ∧
      surgeNetMode lib c.transport ∈ ["", "quic", "udp", "tcp"] ∧
      SurgeOptionalValue (surgeFirstNonEmpty (c.sni :: ["sni", "servername"].map c.transport.value)) ∧
      SurgeOptionalValue (join (surgeALPN c) ":")
  | .wireguard =>
    isSurgeSafeValue (trimSpace c.privateKey) = true ∧ isSurgeSafeValue (trimSpace c.publicKey) = true ∧
      (∀ raw ∈ c.localAddress, (lib.parsePrefix (trimSpace raw)).isSome = true) ∧
      SurgeOptionalValue (trimSpace c.preSharedKey)
  | _ => False

def SurgeAccepts (node : ResolvedNode) : Prop :=
  isSurgeSafeIdentifier (trimSpace node.displayName) = true ∧ isSurgeSafeToken (trimSpace node.server) = true ∧
    hasSurgeUnsupportedRealityOrFlow lib node.credentials.transport = false ∧
    SurgeProtocolAccepts lib node.credentials node.protocol

variable {lib} {loc feature reason key value : String}

theorem exists_surgeOptional_iff :
    (∃ fs, surgeOptional loc feature reason key value = .ok fs) ↔ SurgeOptionalValue value := by
  rw [SurgeOptionalValue, surgeOptional]
  by_cases he : value = ""
  · simp [he]
  · simp [he, surgeError]

variable {transport : GoMap String}

theorem checkSurgeNetMode_eq_ok_iff {p : Protocol} {what : String} {allowed : List String} :
    checkSurgeNetMode lib loc p what allowed transport = .ok () ↔ surgeNetMode lib transport ∈ "" :: allowed := by
  rw [checkSurgeNetMode, surgeError, ite_reject_eq_ok, not_not, and_iff_left rfl]

theorem exists_surgeDownloadBandwidth_iff : (∃ fs, surgeDownloadBandwidth lib loc transport = .ok fs) ↔
      (trimSpace (transport.value "down") = "" ∨
        (parseSurgeBandwidthMbps lib (trimSpace (transport.value "down"))).isSome = true) := by
  rw [surgeDownloadBandwidth]
  by_cases he : trimSpace (transport.value "down") = ""
  · simp [he]
  · cases hparse : parseSurgeBandwidthMbps lib (trimSpace (transport.value "down")) with
    | none => simp [he, surgeError]
    | some mbps => simp [he]

theorem exists_surgeSelfIPs_iff {addresses : List String} : ∀ ip ipv6,
    (∃ ips, surgeSelfIPs lib loc ip ipv6 addresses = .ok ips) ↔
      ∀ raw ∈ addresses, (lib.parsePrefix (trimSpace raw)).isSome = true := by
  induction addresses with
  | nil => simp [surgeSelfIPs]
  | cons raw rest ih =>
    intro ip ipv6
    rw [surgeSelfIPs]
    cases hp : lib.parsePrefix (trimSpace raw) with
    | none => simp [surgeError, hp]
    | some p =>
      cases h4 : p.is4 with
      | true | false => simp [hp, h4, ih]

theorem exists_surgeSSObfs_iff :
    (∃ fs, surgeSSObfs lib loc transport = .ok fs) ↔ SurgeObfsAccepts lib transport := by
  rw [surgeSSObfs, SurgeObfsAccepts]
  by_cases hn : toLower lib.toRuntime (trimSpace (transport.value "obfs")) = ""
  · simp [hn, surgeError, not_or]
  · simp only [ne_eq, hn, not_false_eq_true, if_true, surgeError, exists_ite_reject_iff, exists_bind_iff,
      Except.ok.injEq, exists_eq', and_true, exists_and_right, exists_surgeOptional_iff, false_and, or_false,
      List.mem_cons, List.not_mem_nil, not_and_or, not_not]

theorem exists_buildSurgeWSParams_iff {netMode : String} :
    (∃ fs, buildSurgeWSParams loc feature netMode transport = .ok fs) ↔ SurgeWSAccepts netMode transport := by
  rw [buildSurgeWSParams, SurgeWSAccepts]
  by_cases hws : netMode = "ws"
  · have hh (path : List LineField) : (∃ fs, (if trimSpace (transport.value "host") = "" then
        .ok ([.param "ws" "true"] ++ path)
      else if isSurgeSafeValue (trimSpace (transport.value "host")) = false ∨
          containsAny (trimSpace (transport.value "host")) ": " = true then
        surgeError loc feature "invalid ws-headers host in transport"
      else .ok ([.param "ws" "true"] ++ path ++ [.param "ws-headers" ("Host:" ++ trimSpace (transport.value "host"))])) =
        .ok fs) ↔ (trimSpace (transport.value "host") = "" ∨
          isSurgeSafeValue (trimSpace (transport.value "host")) = true ∧
            containsAny (trimSpace (transport.value "host")) ": " = false) := by
      by_cases he : trimSpace (transport.value "host") = ""
      · simp [he]
      · simp [he, surgeError]
    simp only [hws, ne_eq, not_true_eq_false, if_false, true_and, false_and, or_false]
    simp only [exists_bind_iff, hh, exists_and_right, exists_surgeOptional_iff]
  · simp [hws, surgeError]

theorem exists_renderSurgeProtocol_iff {name server : String} {port : Int} {protocol : Protocol}
    {c : InboundProtocolCredential} :
    (∃ fields, renderSurgeProtocol lib loc name server port protocol c = .ok fields) ↔
      SurgeProtocolAccepts lib c protocol := by
  cases protocol <;> simp only [renderSurgeProtocol, renderSurgeSSProxy, renderSurgeVMessProxy, renderSurgeTrojanProxy,
    renderSurgeHysteria2Proxy, renderSurgeTUICProxy, renderSurgeWireGuardProxy, SurgeProtocolAccepts, surgeError,
    exists_ite_reject_iff, exists_bind_iff, exists_and_right, exists_unit_iff, checkSurgeNetMode_eq_ok_iff,
    exists_surgeSSObfs_iff, exists_buildSurgeWSParams_iff, exists_surgeDownloadBandwidth_iff, exists_surgeSelfIPs_iff,
    exists_surgeOptional_iff, Except.ok.injEq, exists_eq', and_true, not_or, not_not, Bool.not_eq_false,
    Bool.not_eq_true, ne_eq, and_assoc, reject_ne_ok, exists_false]

/-- A node has a Surge line if it passes the common checks and those of Surge. -/
theorem exists_renderSurgeProxyLine_iff {i : ℕ} {node : ResolvedNode} :
    (∃ fields, renderSurgeProxyLine lib i node = .ok fields) ↔
      validateCredentialEnvelope lib .surge i node = .ok () ∧ SurgeAccepts lib node := by
  simp only [renderSurgeProxyLine, SurgeAccepts, surgeError, exists_bind_iff, exists_ite_reject_iff,
    exists_renderSurgeProtocol_iff, exists_and_right, exists_unit_iff, Bool.not_eq_false, Bool.not_eq_true]

end

def Within (place : String) (e : CapabilityError) : Prop := hasPrefix e.location place = true

section

variable (lib : Libraries) (loc : String)

@[simp] theorem within_reject {α : Type} (t : CompilerTarget) (feature reason : String) :
    OnlyErrors (Within loc) (reject t loc feature reason : Except CapabilityError α) :=
  onlyErrors_reject.mpr (hasPrefix_self loc)

@[simp] theorem within_envelope (t : CompilerTarget) (i : ℕ) (node : ResolvedNode) :
    OnlyErrors (Within (nodeLocation i)) (validateCredentialEnvelope lib t i node) :=
  (ordinary_envelope lib t i node).mono fun _ he => he.1

@[simp] theorem within_surgeOptional (feature reason key value : String) :
    OnlyErrors (Within loc) (surgeOptional loc feature reason key value) := by
  simp [surgeOptional, surgeError, within_reject]

@[simp] theorem within_checkSurgeNetMode (p : Protocol) (what : String) (allowed : List String)
    (transport : GoMap String) : OnlyErrors (Within loc)
    (checkSurgeNetMode lib loc p what allowed transport) := by
  simp [checkSurgeNetMode, surgeError, within_reject]

@[simp] theorem within_surgeDownloadBandwidth (transport : GoMap String) :
    OnlyErrors (Within loc) (surgeDownloadBandwidth lib loc transport) := by
  rw [surgeDownloadBandwidth]
  cases parseSurgeBandwidthMbps lib (trimSpace (transport.value "down")) with
  | none => simp [surgeError, within_reject]
  | some mbps => simp

@[simp] theorem within_surgeSelfIPs (addresses : List String) : ∀ ip ipv6,
    OnlyErrors (Within loc) (surgeSelfIPs lib loc ip ipv6 addresses) := by
  induction addresses with
  | nil => simp [surgeSelfIPs]
  | cons raw rest ih =>
    intro ip ipv6
    rw [surgeSelfIPs]
    cases lib.parsePrefix (trimSpace raw) with
    | none => simp [surgeError, within_reject]
    | some p => simp [ih]

theorem within_renderSurgeProtocol (name server : String) (port : Int) (p : Protocol)
    (c : InboundProtocolCredential) :
    OnlyErrors (Within loc) (renderSurgeProtocol lib loc name server port p c) := by
  cases p with
  | ss => simp [renderSurgeProtocol, renderSurgeSSProxy, surgeSSObfs, surgeError]
  | vmess => simp [renderSurgeProtocol, renderSurgeVMessProxy, buildSurgeWSParams, surgeError]
  | trojan => simp [renderSurgeProtocol, renderSurgeTrojanProxy, buildSurgeWSParams, surgeError]
  | hysteria2 => simp [renderSurgeProtocol, renderSurgeHysteria2Proxy, surgeError]
  | tuic => simp [renderSurgeProtocol, renderSurgeTUICProxy, surgeError]
  | wireguard => simp [renderSurgeProtocol, renderSurgeWireGuardProxy, surgeError]
  | _ => simp [renderSurgeProtocol, surgeError]

theorem within_renderSurgeProxyLine (i : ℕ) (node : ResolvedNode) :
    OnlyErrors (Within (nodeLocation i)) (renderSurgeProxyLine lib i node) := by
  simp [renderSurgeProxyLine, surgeError, within_reject, within_renderSurgeProtocol, within_envelope]

end

section

def QXTransport.Accepts (t : QXTransport) : Protocol → Prop
  | .ss =>
    (t.netType ∈ ["", "tcp"] ∧ t.obfs ∈ ["", "http", "tls", "ws", "wss"]) ∨
      (t.netType = "ws" ∧ t.obfs ∈ ["", "ws", "wss"])
  | .vmess =>
    (t.netType ∈ ["", "tcp"] ∧ (t.obfs = "http" ∧ t.tlsEnabled = false ∨ t.obfs ∈ ["", "over-tls"])) ∨
      (t.netType = "http" ∧ t.tlsEnabled = false) ∨ (t.netType = "ws" ∧ t.obfs ∈ ["", "ws", "wss"])
  | .trojan =>
    t.rawTLS ∉ ["false", "0", "no", "off"] ∧
      ((t.netType ∈ ["", "tcp"] ∧ t.obfs ∈ ["", "over-tls"]) ∨ (t.netType = "ws" ∧ t.obfs ∈ ["", "ws", "wss"]))
  | _ => False

variable (lib : Libraries)

def QXCredentialsAccept (c : InboundProtocolCredential) : Protocol → Prop
  | .ss =>
    toLower lib.toRuntime (trimSpace c.method) ∈ validQXSSCiphers ∧ hasUnsafeQXChars (trimSpace c.password) = false
  | .vmess =>
    toLower lib.toRuntime (trimSpace c.method) ∈ "" :: validQXVMessMethods ∧ hasUnsafeQXChars (trimSpace c.uuid) = false
  | .trojan => hasUnsafeQXChars (trimSpace c.password) = false
  | _ => False

def QuantumultXAccepts (node : ResolvedNode) : Prop :=
  let tag := trimSpace node.displayName
  let server := trimSpace node.server
  let tMap := node.credentials.transport
  let t := qxTransportOf lib tMap
  tag ≠ "" ∧ server ≠ "" ∧ server ≠ trimSpace node.logicalID ∧
    (∀ text ∈ [tag, server, t.host, t.sni, t.path, t.obfs], hasUnsafeQXChars text = false) ∧
    (∀ key ∈ ["pbk", "sid", "flow", "service_name"], trimSpace (tMap.value key) = "") ∧
    QXCredentialsAccept lib node.credentials node.protocol ∧ t.Accepts node.protocol

variable {lib} {target : CompilerTarget} {loc feature : String}

theorem ne_ws_of_tcp {netType : String} (h : netType = "" ∨ netType = "tcp") : netType ≠ "http" ∧ netType ≠ "ws" := by
  rcases h with rfl | rfl <;> decide

theorem exists_guard_iff {α : Type} {p : Prop} [Decidable p] {reason : String} {a : α} :
    (∃ b, (if ¬p then reject target loc feature reason else .ok a) = .ok b) ↔ p := by
  simp only [exists_ite_reject_iff, not_not, Except.ok.injEq, exists_eq', and_true]

theorem mem_tcp_iff {netType : String} : netType ∈ ["", "tcp"] ↔ netType = "" ∨ netType = "tcp" := by simp

variable {t : QXTransport}

theorem exists_qxSSTransport_iff :
    (∃ fs, qxSSTransport (reject target loc feature) t = .ok fs) ↔ t.Accepts .ss := by
  rw [qxSSTransport, QXTransport.Accepts, mem_tcp_iff]
  by_cases ht : t.netType = "" ∨ t.netType = "tcp"
  · rw [if_pos ht, exists_guard_iff]
    simp only [ht, ne_ws_of_tcp ht, true_and, false_and, or_false]
  · rw [if_neg ht]
    by_cases hws : t.netType = "ws"
    · rw [if_pos hws, exists_guard_iff]
      simp [hws]
    · simp [ht, hws]

theorem exists_qxVMessTransport_iff :
    (∃ fs, qxVMessTransport (reject target loc feature) t = .ok fs) ↔ t.Accepts .vmess := by
  rw [qxVMessTransport, QXTransport.Accepts, mem_tcp_iff]
  by_cases ht : t.netType = "" ∨ t.netType = "tcp"
  · rw [if_pos ht]
    simp only [ht, ne_ws_of_tcp ht, true_and, false_and, or_false]
    by_cases hh : t.obfs = "http"
    · simp [hh]
    · rw [if_neg hh]
      simp only [hh, false_and, false_or, exists_ite_reject_iff, not_not]
      refine and_iff_left ?_
      split_ifs <;> exact ⟨_, rfl⟩
  · rw [if_neg ht]
    by_cases hh : t.netType = "http"
    · simp [hh]
    · rw [if_neg hh]
      by_cases hws : t.netType = "ws"
      · rw [if_pos hws, exists_guard_iff]
        simp [hws]
      · simp [ht, hh, hws]

theorem exists_qxTrojanTransport_iff : (∃ fs, qxTrojanTransport (reject target loc feature) t = .ok fs) ↔
      (t.netType ∈ ["", "tcp"] ∧ t.obfs ∈ ["", "over-tls"]) ∨ (t.netType = "ws" ∧ t.obfs ∈ ["", "ws", "wss"]) := by
  rw [qxTrojanTransport, mem_tcp_iff]
  by_cases ht : t.netType = "" ∨ t.netType = "tcp"
  · rw [if_pos ht, exists_guard_iff]
    simp only [ht, ne_ws_of_tcp ht, true_and, false_and, or_false]
  · rw [if_neg ht]
    by_cases hws : t.netType = "ws"
    · rw [if_pos hws, exists_guard_iff]
      simp [hws]
    · simp [ht, hws]

theorem exists_qxProtocol_iff {endpoint tag : String} {protocol : Protocol} {c : InboundProtocolCredential} :
    (∃ fields, qxProtocol (reject target loc feature) lib endpoint tag protocol c t = .ok fields) ↔
      QXCredentialsAccept lib c protocol ∧ t.Accepts protocol := by
  have hss : ∀ m ∈ validQXSSCiphers, hasUnsafeQXChars m = false := by decide
  have hv : ∀ m ∈ validQXVMessMethods, hasUnsafeQXChars m = false := by decide
  cases protocol with
  | ss =>
    simp only [qxProtocol, QXCredentialsAccept, exists_ite_reject_iff, exists_bind_iff, Except.ok.injEq, exists_eq',
      and_true, exists_qxSSTransport_iff, not_or, Bool.not_eq_true, not_not]
    constructor
    · rintro ⟨⟨-, hpw⟩, hm, ht⟩
      exact ⟨⟨hm, hpw⟩, ht⟩
    · rintro ⟨⟨hm, hpw⟩, ht⟩
      exact ⟨⟨hss _ hm, hpw⟩, hm, ht⟩
  | vmess =>
    simp only [qxProtocol, QXCredentialsAccept, exists_ite_reject_iff, exists_bind_iff, Except.ok.injEq, exists_eq',
      and_true, exists_qxVMessTransport_iff, not_or, Bool.not_eq_true, not_not]
    have hm : toLower lib.toRuntime (trimSpace c.method) ∈ "" :: validQXVMessMethods ↔
        (if toLower lib.toRuntime (trimSpace c.method) = "" then "auto"
          else toLower lib.toRuntime (trimSpace c.method)) ∈ validQXVMessMethods := by
      by_cases he : toLower lib.toRuntime (trimSpace c.method) = ""
      · simp [he, validQXVMessMethods]
      · simp [he]
    rw [hm]
    constructor
    · rintro ⟨⟨hu, -⟩, hm, ht⟩
      exact ⟨⟨hm, hu⟩, ht⟩
    · rintro ⟨⟨hm, hu⟩, ht⟩
      exact ⟨⟨hu, hv _ hm⟩, hm, ht⟩
  | trojan =>
    simp only [qxProtocol, QXCredentialsAccept, QXTransport.Accepts, exists_ite_reject_iff, exists_bind_iff,
      Except.ok.injEq, exists_eq', and_true, exists_qxTrojanTransport_iff, Bool.not_eq_true]
  | _ => simp [qxProtocol, QXCredentialsAccept]

theorem exists_renderQuantumultXNode_iff {i : ℕ} {node : ResolvedNode} :
    (∃ fields, renderQuantumultXNode lib i node = .ok fields) ↔
      validateCredentialEnvelope lib .quantumultX i node = .ok () ∧ QuantumultXAccepts lib node := by
  simp only [renderQuantumultXNode, renderQuantumultXServerLine, QuantumultXAccepts, exists_bind_iff,
    exists_ite_reject_iff, exists_qxProtocol_iff, exists_and_right, exists_unit_iff, not_or, not_not,
    Bool.not_eq_true, List.forall_mem_cons, List.not_mem_nil, false_implies, implies_true, and_true, ne_eq]
  refine and_congr_right fun _ => ?_
  constructor
  · rintro ⟨⟨ht, hsv, ht', hs'⟩, hid, ⟨hpb, hsi⟩, hf, hs, ⟨hh, hsn, hp, ho⟩, h⟩
    exact ⟨ht, hsv, hid, ⟨ht', hs', hh, hsn, hp, ho⟩, ⟨hpb, hsi, hf, hs⟩, h⟩
  · rintro ⟨ht, hsv, hid, ⟨ht', hs', hh, hsn, hp, ho⟩, ⟨hpb, hsi, hf, hs⟩, h⟩
    exact ⟨⟨ht, hsv, ht', hs'⟩, hid, ⟨hpb, hsi⟩, hf, hs, ⟨hh, hsn, hp, ho⟩, h⟩

theorem within_renderQuantumultXNode (i : ℕ) (node : ResolvedNode) :
    OnlyErrors (Within (nodeLocation i)) (renderQuantumultXNode lib i node) := by
  have hf {α : Type} (feature reason : String) := @within_reject (nodeLocation i) α .quantumultX feature reason
  have ht (feature : String) (t : QXTransport) :
      OnlyErrors (Within (nodeLocation i)) (qxSSTransport (reject .quantumultX (nodeLocation i) feature) t) ∧
        OnlyErrors (Within (nodeLocation i)) (qxVMessTransport (reject .quantumultX (nodeLocation i) feature) t) ∧
        OnlyErrors (Within (nodeLocation i)) (qxTrojanTransport (reject .quantumultX (nodeLocation i) feature) t) := by
    simp [qxSSTransport, qxVMessTransport, qxTrojanTransport, hf]
  have hp (feature endpoint tag : String) (p : Protocol) (c : InboundProtocolCredential)
      (t : QXTransport) : OnlyErrors (Within (nodeLocation i))
        (qxProtocol (reject .quantumultX (nodeLocation i) feature) lib endpoint tag p c t) := by
    cases p <;> simp [qxProtocol, hf, ht]
  simp [renderQuantumultXNode, renderQuantumultXServerLine, within_envelope, hf, hp]

end

end ClashSubParser
