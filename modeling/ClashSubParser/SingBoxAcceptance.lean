import ClashSubParser.LineAcceptance

/-! What a node needs for the sing-box export, in terms of the configuration that is read from it. -/
namespace ClashSubParser

open List FirstError Strings Except

section

variable (lib : Libraries) (cfg : NodeConfig)

/-- A transport other than XHTTP; over gRPC the host is the name of the TLS identity. -/
def V2RayAccepts (tlsEnabled : Bool) : Prop :=
  determineTransportType lib cfg ≠ "xhttp" ∧
    (determineTransportType lib cfg = "grpc" → cfg.transportHost = "" ∨
      (tlsEnabled = true ∧ cfg.sni ≠ "" ∧ equalFold lib.toRuntime cfg.transportHost cfg.sni = true))

def ShortIDAccepts (sid : String) : Prop :=
  sid = "" ∨ (byteLen sid % 2 = 0 ∧ byteLen sid ≤ 16 ∧ sid.toList.all isHexRune = true)

def RealityAccepts : Prop :=
  cfg.realityPublicKey = "" ∨
    ((decodePublicKey lib (trimSpace cfg.realityPublicKey)).any (fun key => key.length = 32) = true ∧
      ShortIDAccepts (trimSpace cfg.realityShortID))

def v2rayNetworks : List String := ["", "tcp", "udp", "ws", "grpc", "http", "httpupgrade"]

def NodeConfig.UsesTLS : Prop := cfg.tls = true ∨ cfg.transport.value "tls" = "true"

instance (cfg : NodeConfig) : Decidable cfg.UsesTLS := inferInstanceAs (Decidable (_ ∨ _))

def BandwidthAccepts (m : GoMap String) (key : String) : Prop :=
  trimSpace (m.value key) = "" ∨ (bandwidthMbps lib (trimSpace (m.value key))).isSome = true

def SingBoxOptionAccepts : Prop :=
  match cfg.protocol with
  | .ss =>
    toLower lib.toRuntime (trimSpace cfg.method) ∈ validShadowsocksMethods ∧ networkName lib cfg ∈ ["", "tcp", "udp"]
  | .vmess =>
    toLower lib.toRuntime (trimSpace cfg.method) ∈ validVMessSecurities ∧ networkName lib cfg ∈ v2rayNetworks ∧
      V2RayAccepts lib cfg (decide cfg.UsesTLS) ∧ (cfg.clientFingerprint = "" ∨ cfg.UsesTLS)
  | .vless =>
    networkName lib cfg ∈ v2rayNetworks ∧ trimSpace (cfg.transport.value "flow") ∈ ["", "xtls-rprx-vision"] ∧
      (if trimSpace (cfg.transport.value "flow") ≠ "" ∨ cfg.realityPublicKey ≠ "" ∨ cfg.UsesTLS then
        RealityAccepts lib cfg ∧ V2RayAccepts lib cfg true
      else V2RayAccepts lib cfg false)
  | .trojan => networkName lib cfg ∈ v2rayNetworks ∧ V2RayAccepts lib cfg true
  | .hysteria2 =>
    networkName lib cfg ∈ ["", "quic", "udp", "tcp"] ∧
      (cfg.hy2Obfs = "" ∧ cfg.hy2ObfsPassword = "" ∨ cfg.hy2Obfs = "salamander" ∧ cfg.hy2ObfsPassword ≠ "") ∧
      BandwidthAccepts lib cfg.transport "up" ∧ BandwidthAccepts lib cfg.transport "down"
  | .tuic =>
    networkName lib cfg ∈ ["", "quic", "udp", "tcp"] ∧
      toLower lib.toRuntime (trimSpace cfg.tuicCongestionControl) ∈ ["", "cubic", "new_reno", "bbr"] ∧
      toLower lib.toRuntime (trimSpace cfg.tuicUDPRelayMode) ∈ ["", "native", "quic"]
  | .wireguard => cfg.privateKey ≠ ""
  | _ => False

def SingBoxAccepts (node : ResolvedNode) : Prop :=
  SingBoxOptionAccepts lib
    (nodeConfigFromNode lib node.protocol (trimSpace node.server) node.port node.credentials)

variable {lib}

theorem exists_ite_singBoxInvalid_iff {α : Type} {p : Prop} [Decidable p] {code message : String}
    {x : Except GoError α} :
    (∃ a, (if p then singBoxInvalid lib code message else x) = .ok a) ↔ ¬p ∧ ∃ a, x = .ok a := by
  by_cases h : p
  · simp [h, singBoxInvalid, invalid]
  · simp [h]

variable {cfg : NodeConfig} {proto : Protocol} {name : String}

theorem validatePlainNetworkName_eq_ok_iff :
    validateV2RayNetworkName lib proto name false = .ok () ↔ name ∈ ["", "tcp", "udp"] := by
  rw [validateV2RayNetworkName]
  by_cases hpl : name ∈ ["", "tcp", "udp"]
  · simp only [hpl, if_true]
  · simp only [hpl, if_false, Bool.false_eq_true, and_false, iff_false]
    simp [unsupportedNetwork, singBoxInvalid, invalid]

theorem validateV2RayNetworkName_eq_ok_iff :
    validateV2RayNetworkName lib proto name true = .ok () ↔ name ∈ v2rayNetworks := by
  have ha : v2rayNetworks = ["", "tcp", "udp"] ++ ["ws", "grpc", "http", "httpupgrade"] := rfl
  rw [validateV2RayNetworkName, ha, mem_append]
  by_cases hpl : name ∈ ["", "tcp", "udp"]
  · simp only [hpl, if_true, true_or]
  · by_cases hv : name ∈ ["ws", "grpc", "http", "httpupgrade"]
    · simp only [hpl, hv, if_false, and_self, if_true, or_true]
    · simp only [hpl, hv, if_false, false_and, or_self, iff_false]
      simp [unsupportedNetwork, singBoxInvalid, invalid]

theorem validateQuicTransportNetwork_eq_ok_iff :
    validateQuicTransportNetwork lib proto name = .ok () ↔ name ∈ ["", "quic", "udp", "tcp"] := by
  rw [validateQuicTransportNetwork]
  split_ifs with h
  · simp only [h]
  · simp only [h, iff_false]
    simp [unsupportedNetwork, singBoxInvalid, invalid]

theorem exists_parseBandwidthMbps_iff {m : GoMap String} {key : String} :
    (∃ mbps, parseBandwidthMbps lib m key = .ok mbps) ↔ BandwidthAccepts lib m key := by
  rw [parseBandwidthMbps, BandwidthAccepts]
  by_cases he : trimSpace (m.value key) = ""
  · simp [he]
  · cases hparse : bandwidthMbps lib (trimSpace (m.value key)) with
    | none => simp [he, singBoxInvalid, invalid]
    | some mbps => simp [he]

theorem exists_buildV2RayTransport_iff {tls : Bool} :
    (∃ transport, buildV2RayTransport lib cfg tls = .ok transport) ↔ V2RayAccepts lib cfg tls := by
  unfold buildV2RayTransport V2RayAccepts
  generalize determineTransportType lib cfg = kind
  split
  · simp [singBoxInvalid, invalid]
  · simp
  · simp
  · simp
  · simp only [exists_ite_singBoxInvalid_iff, ok.injEq, exists_eq', and_true, true_implies, not_and_or, not_or,
      not_not, Bool.not_eq_false, ne_eq]
    exact (and_iff_right (by decide)).symm
  · rename_i hx _ _ _ hg
    simp only [ok.injEq, exists_eq', true_iff]
    exact ⟨hx, fun h => (hg h).elim⟩

theorem checkShortID_eq_ok_iff {sid : String} : checkShortID lib sid = .ok () ↔ ShortIDAccepts sid := by
  rw [← exists_unit_iff, checkShortID, ShortIDAccepts]
  by_cases he : sid = ""
  · simp [he]
  · simp only [he, if_false, false_or, exists_ite_singBoxInvalid_iff, exists_const, and_true, ne_eq, not_not,
      Bool.not_eq_false, gt_iff_lt, not_lt]

theorem exists_buildReality_iff : (∃ tls, buildReality lib cfg = .ok tls) ↔ RealityAccepts lib cfg := by
  rw [buildReality, RealityAccepts]
  by_cases he : cfg.realityPublicKey = ""
  · simp [he]
  · simp only [he, if_false, false_or]
    cases decodePublicKey lib (trimSpace cfg.realityPublicKey) with
    | none => simp [singBoxInvalid, invalid]
    | some key =>
      simp only [exists_ite_singBoxInvalid_iff, exists_bind_iff, exists_unit_iff, checkShortID_eq_ok_iff,
        Option.any_some,
        ne_eq, not_not, ok.injEq, exists_eq', and_true, decide_eq_true_eq]

theorem exists_buildVMessOutbound_iff : (∃ out, buildVMessOutbound lib cfg = .ok out) ↔
      V2RayAccepts lib cfg (decide cfg.UsesTLS) ∧ (cfg.clientFingerprint = "" ∨ cfg.UsesTLS) := by
  rw [buildVMessOutbound, exists_bind_iff]
  by_cases ht : cfg.tls = true ∨ cfg.transport.value "tls" = "true"
  · have hu : cfg.UsesTLS := ht
    rw [if_pos ht, Option.isSome_some, decide_eq_true hu, and_iff_left (Or.inr hu),
      ← exists_buildV2RayTransport_iff]
    refine exists_congr fun transport => and_iff_left ?_
    cases cfg.fingerprint? with
    | none | some fp => exact ⟨_, rfl⟩
  · have hu : ¬cfg.UsesTLS := ht
    rw [if_neg ht, Option.isSome_none, decide_eq_false hu, or_iff_left hu, ← exists_buildV2RayTransport_iff,
      ← exists_and_right]
    refine exists_congr fun transport => and_congr_right fun _ => ?_
    by_cases hfp : cfg.clientFingerprint = ""
    · simp [NodeConfig.fingerprint?, hfp]
    · simp [NodeConfig.fingerprint?, hfp, singBoxInvalid, invalid]

theorem exists_buildVLESSOutbound_iff {flow : String} : (∃ out, buildVLESSOutbound lib cfg flow = .ok out) ↔
      if flow ≠ "" ∨ cfg.realityPublicKey ≠ "" ∨ cfg.UsesTLS then RealityAccepts lib cfg ∧ V2RayAccepts lib cfg true
      else V2RayAccepts lib cfg false := by
  have hc : (flow ≠ "" ∨ cfg.tls = true ∨ cfg.realityPublicKey ≠ "" ∨ cfg.transport.value "tls" = "true") ↔
      flow ≠ "" ∨ cfg.realityPublicKey ≠ "" ∨ cfg.UsesTLS := by
    rw [NodeConfig.UsesTLS, or_left_comm (a := cfg.tls = true)]
  rw [buildVLESSOutbound]
  by_cases ht : flow ≠ "" ∨ cfg.realityPublicKey ≠ "" ∨ cfg.UsesTLS
  · rw [if_pos (hc.mpr ht), if_pos ht]
    simp only [exists_bind_iff, exists_and_right, ok.injEq, exists_eq', and_true, exists_buildReality_iff,
      exists_buildV2RayTransport_iff]
  · rw [if_neg (fun h => ht (hc.mp h)), if_neg ht]
    simp only [exists_bind_iff, ok.injEq, exists_eq', and_true, exists_buildV2RayTransport_iff]

theorem exists_buildProtocolOption_iff :
    (∃ option, buildProtocolOption lib cfg = .ok option) ↔ SingBoxOptionAccepts lib cfg := by
  rw [buildProtocolOption, SingBoxOptionAccepts]
  cases cfg.protocol <;> simp only [exists_ite_singBoxInvalid_iff, exists_bind_iff, exists_and_right, exists_unit_iff,
    exists_map_iff, validatePlainNetworkName_eq_ok_iff, validateV2RayNetworkName_eq_ok_iff,
    validateQuicTransportNetwork_eq_ok_iff, exists_buildVMessOutbound_iff, exists_buildVLESSOutbound_iff,
    exists_buildV2RayTransport_iff, exists_parseBandwidthMbps_iff, buildWireGuardEndpoint, ok.injEq, exists_eq',
    and_true, not_and_or, not_not, ne_eq, mem_cons, not_mem_nil, or_false, reduceCtorEq, exists_false]
  case vmess => rfl
  case hysteria2 =>
    refine and_congr_right fun _ => ?_
    by_cases hn : cfg.hy2Obfs = ""
    · simp [hn]
    · by_cases ho : cfg.hy2Obfs = "salamander"
      · simp [ho]
      · simp [hn, ho]

theorem exists_buildExportNodeOption_iff {tag : String} {node : ResolvedNode} :
    (∃ out, buildExportNodeOption lib tag node = .ok out) ↔
      trimSpace node.server ≠ "" ∧ (1 ≤ node.port ∧ node.port ≤ 65535) ∧ SingBoxAccepts lib node := by
  rw [buildExportNodeOption, SingBoxAccepts]
  simp only [exists_ite_singBoxInvalid_iff, exists_bind_iff, ok.injEq, exists_eq', and_true,
    exists_buildProtocolOption_iff, not_or, not_lt, gt_iff_lt, ne_eq]

theorem exists_renderSingBoxNode_iff {seen : List String} {i : ℕ} {node : ResolvedNode} :
    (∃ out, renderSingBoxNode lib seen i node = .ok out) ↔
      validateCredentialEnvelope lib .singBox i node = .ok () ∧ trimSpace node.displayName ∉ seen ∧
        SingBoxAccepts lib node := by
  have he := @exists_buildExportNodeOption_iff lib (trimSpace node.displayName) node
  -- the checks before have seen to the endpoint and to the network
  have hfs : validateCredentialEnvelope lib .singBox i node = .ok () →
      toLower lib.toRuntime (node.credentials.transport.value "network") ≠ "xhttp" ∧ trimSpace node.server ≠ "" ∧
        1 ≤ node.port ∧ node.port ≤ 65535 := by
    intro h
    simp only [validateCredentialEnvelope, ite_reject_eq_ok, true_and] at h
    obtain ⟨-, -, hsv, hp, hx, -⟩ := h
    exact ⟨hx, hsv, by omega⟩
  simp only [renderSingBoxNode, exists_ite_reject_iff, exists_bind_iff, exists_and_right, exists_unit_iff]
  cases hbuild : buildExportNodeOption lib (trimSpace node.displayName) node with
  | error err =>
    simp only [hbuild, reduceCtorEq, exists_false, false_iff] at he
    simp only [reject_ne_ok, exists_false, and_false, false_iff]
    rintro ⟨hen, -, ha⟩
    obtain ⟨-, hsv, hp⟩ := hfs hen
    exact he ⟨hsv, hp, ha⟩
  | ok out =>
    simp only [hbuild, ok.injEq, exists_eq', true_iff] at he
    simp only [ok.injEq, exists_eq', and_true, he.2.2]
    exact ⟨fun h => h.2, fun h => ⟨(hfs h.1).1, h⟩⟩

/-- The loop succeeds if each node is accepted and no two have one name. -/
theorem exists_renderSingBoxNodes_iff {nodes : List ResolvedNode} : ∀ i seen,
    (∃ outs, renderSingBoxNodes lib i seen nodes = .ok outs) ↔
      (∀ n ∈ nodes, validateCredentialEnvelope lib .singBox 0 n = .ok () ∧ trimSpace n.displayName ∉ seen ∧
        SingBoxAccepts lib n) ∧ (nodes.map (fun n => trimSpace n.displayName)).Nodup := by
  induction nodes with
  | nil => simp [renderSingBoxNodes]
  | cons node rest ih =>
    intro i seen
    simp only [renderSingBoxNodes, exists_bind_iff, exists_and_right, ok.injEq, exists_eq', and_true,
      exists_renderSingBoxNode_iff, ih, forall_mem_cons, map_cons, nodup_cons, mem_map,
      validateCredentialEnvelope_ok_iff lib .singBox i 0]
    constructor
    · rintro ⟨hno, hr, hnd⟩
      refine ⟨⟨hno, fun n hn => ?_⟩, ?_, hnd⟩
      · obtain ⟨he, hs, ha⟩ := hr n hn
        exact ⟨he, fun h => hs (mem_cons_of_mem _ h), ha⟩
      · rintro ⟨n, hn, ht⟩
        exact (hr n hn).2.1 (ht ▸ mem_cons_self)
    · rintro ⟨⟨hno, hr⟩, hta, hnd⟩
      refine ⟨hno, fun n hn => ?_, hnd⟩
      obtain ⟨he, hs, ha⟩ := hr n hn
      refine ⟨he, ?_, ha⟩
      rw [mem_cons, not_or]
      exact ⟨fun h => hta ⟨n, hn, h⟩, hs⟩

theorem within_renderSingBoxNode (seen : List String) (i : ℕ) (node : ResolvedNode) :
    OnlyErrors (Within (nodeLocation i)) (renderSingBoxNode lib seen i node) := by
  have hn : OnlyErrors (Within (nodeLocation i)) (reject .singBox (nodeLocation i ++ ".transport.network") "xhttp"
      "sing-box does not support xhttp transport protocol" : Except CapabilityError SingBoxNode) :=
    onlyErrors_reject.mpr (hasPrefix_append _ _)
  rw [renderSingBoxNode]
  cases buildExportNodeOption lib (trimSpace node.displayName) node with
  | error err | ok out => simp [hn, within_envelope, within_reject]

theorem within_renderSingBoxNodes (nodes : List ResolvedNode) : ∀ i seen,
    OnlyErrors (Within "nodes[") (renderSingBoxNodes lib i seen nodes) := by
  induction nodes with
  | nil => simp [renderSingBoxNodes]
  | cons node rest ih =>
    intro i seen
    have hn : OnlyErrors (Within "nodes[") (renderSingBoxNode lib seen i node) :=
      (within_renderSingBoxNode seen i node).mono fun e he => hasPrefix_trans he (hasPrefix_nodes i)
    simp [renderSingBoxNodes, hn, ih]

end

end ClashSubParser
