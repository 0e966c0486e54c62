import ClashSubParser.CompilerCapability
import ClashSubParser.NodeCredentials

/-! The sing-box options of a node. -/
namespace ClashSubParser

open Strings

/-- What is read of a `NodeConfig`; of the headers only `Host` is ever set. -/
structure NodeConfig where
  protocol : Protocol
  server : String
  port : Int
  method : String := ""
  password : String := ""
  uuid : String := ""
  alterID : Int := 0
  privateKey : String := ""
  publicKey : String := ""
  presharedKey : String := ""
  network : String := ""
  tls : Bool := false
  sni : String := ""
  alpn : List String := []
  skipCertVerify : Bool := false
  clientFingerprint : String := ""
  transport : GoMap String
  path : String := ""
  host : Option String := none
  serviceName : String := ""
  realityPublicKey : String := ""
  realityShortID : String := ""
  hy2Ports : String := ""
  hy2Obfs : String := ""
  hy2ObfsPassword : String := ""
  tuicCongestionControl : String := ""
  tuicUDPRelayMode : String := ""
  tuicDisableSNI : Bool := false
  localAddress : List String := []
  reserved : List (BitVec 8) := []
  mtu : ℕ := 0

def orElse (field other : String) : String := if field = "" then other else field

section

variable (lib : Libraries)

def applyTransportFields (cfg : NodeConfig) (m : GoMap String) : NodeConfig :=
  let first (keys : List String) : String := firstNonEmpty (keys.map (fun k => trimSpace (m.value k)))
  { cfg with
    network := orElse cfg.network (m.value "network")
    tls := cfg.tls || isTruthy lib.toRuntime (m.value "tls")
    sni := orElse cfg.sni (m.value "sni")
    path := orElse cfg.path (m.value "path")
    host := if cfg.host = none ∧ m.value "host" ≠ "" then some (m.value "host") else cfg.host
    serviceName := orElse cfg.serviceName (m.value "service_name")
    alpn :=
      if cfg.alpn = [] then ((split (trimSpace (m.value "alpn")) ',').map trimSpace).filter (· ≠ "") else cfg.alpn
    realityPublicKey := orElse cfg.realityPublicKey (first ["pbk", "reality_public_key"])
    realityShortID := orElse cfg.realityShortID (first ["sid", "reality_short_id"])
    clientFingerprint := orElse cfg.clientFingerprint (first ["fp", "client_fingerprint"])
    hy2Obfs := orElse cfg.hy2Obfs (trimSpace (m.value "obfs"))
    hy2ObfsPassword := orElse cfg.hy2ObfsPassword (first ["obfs-password", "obfs_password"])
    skipCertVerify := cfg.skipCertVerify || hasInsecureTransport lib.toRuntime m
    hy2Ports := orElse cfg.hy2Ports (extractHy2Ports m)
    tuicDisableSNI := cfg.tuicDisableSNI || hasTUICDisableSNI lib.toRuntime m }

def applyCredentials (cfg : NodeConfig) (creds : InboundProtocolCredential) : NodeConfig :=
  { cfg with
    password := creds.password
    uuid := creds.uuid
    method := creds.method
    alterID := creds.alterID
    privateKey := creds.privateKey
    publicKey := creds.publicKey
    presharedKey := creds.effectivePreSharedKey
    localAddress := creds.localAddress
    reserved := creds.reserved
    mtu := if creds.mtu > 0 then creds.mtu.toNat % 2^32 else cfg.mtu
    tuicCongestionControl := orElse creds.congestionControl cfg.tuicCongestionControl
    tuicUDPRelayMode := orElse creds.udpRelayMode cfg.tuicUDPRelayMode
    tuicDisableSNI := cfg.tuicDisableSNI || creds.disableSNI
    alpn := if cfg.alpn = [] then creds.alpn else cfg.alpn
    sni := orElse cfg.sni creds.sni }

/-- `strings.Trim(s, "[]")` -/
def trimBrackets (s : String) : String :=
  let bracket (c : Char) : Bool := c == '[' || c == ']'
  String.ofList ((s.toList.dropWhile bracket).rdropWhile bracket)

/-- A server with a name stands for the TLS identity and the HTTP host where none is given. -/
def applyServerName (cfg : NodeConfig) : NodeConfig :=
  if cfg.server ≠ "" ∧ lib.parseIP (trimBrackets cfg.server) = false then
    let usesTLS := cfg.tls || [Protocol.trojan, .hysteria2, .tuic].contains cfg.protocol
    let sni := if usesTLS then orElse cfg.sni cfg.server else cfg.sni
    let host :=
      if cfg.network ∈ ["ws", "http", "httpupgrade", "grpc"] then
        some (cfg.host.getD (if cfg.network = "grpc" ∧ sni ≠ "" then sni else cfg.server))
      else cfg.host
    { cfg with sni := sni, host := host }
  else cfg

/-- `NodeConfigFromNode`, and `NodeConfigFromPayload` on what it passes. -/
def nodeConfigFromNode (protocol : Protocol) (server : String) (port : Int) (c : InboundProtocolCredential) :
    NodeConfig :=
  let cfg := applyTransportFields lib { protocol := protocol, server := server, port := port, transport := c.transport }
    c.transport
  let cfg := applyTransportFields lib (applyCredentials cfg c) c.transport
  let cfg :=
    if cfg.protocol = .vless ∧ (trimSpace (cfg.transport.value "flow") ≠ "" ∨ cfg.realityPublicKey ≠ "") then
      { cfg with tls := true }
    else cfg
  applyServerName lib cfg

def determineTransportType (config : NodeConfig) : String :=
  let given := firstNonEmpty [config.transport.value "type", config.transport.value "network"]
  let lower := toLower lib.toRuntime (trimSpace config.network)
  let raw :=
    if given = "" ∧ config.network ≠ "" ∧
        lower ∈ ["ws", "websocket", "grpc", "http", "httpupgrade", "quic", "xhttp"] then lower
    else given
  let raw := toLower lib.toRuntime (trimSpace raw)
  if raw = "websocket" then "ws" else raw

def networkName (config : NodeConfig) : String :=
  let t := determineTransportType lib config
  if t ≠ "" then t
  else if config.network ≠ "" then toLower lib.toRuntime (trimSpace config.network)
  else if config.transport.value "network" ≠ "" then
    toLower lib.toRuntime (trimSpace (config.transport.value "network"))
  else "tcp"

end

/-- The options of an outbound TLS connection, enabled where they are there. -/
structure SingBoxTLS where
  serverName : String
  insecure : Bool
  disableSNI : Bool := false
  alpn : List String
  /-- the fingerprint of an enabled uTLS -/
  utls : Option String := none
  /-- public key and short ID -/
  reality : Option (String × String) := none

inductive SingBoxTransport
  | http (host : Option String) (path : String) (headers : Option String)
  | httpUpgrade (host path : String) (headers : Option String)
  | ws (path : String) (headers : Option String)
  | grpc (serviceName : String)

/-- The options of an outbound, whose network is always cleared for an export. -/
inductive SingBoxOutbound
  | shadowsocks (method password : String)
  | vmess (uuid security : String) (alterID : Int) (tls : Option SingBoxTLS) (transport : Option SingBoxTransport)
  | vless (uuid flow : String) (tls : Option SingBoxTLS) (transport : Option SingBoxTransport)
  | trojan (password : String) (tls : SingBoxTLS) (transport : Option SingBoxTransport)
  | hysteria2 (password : String) (tls : SingBoxTLS) (serverPorts : List String)
      (obfs : Option (String × String)) (upMbps downMbps : Int)
  | tuic (uuid password congestionControl udpRelayMode : String) (tls : SingBoxTLS)

structure SingBoxEndpoint where
  privateKey : String
  address : List NetPrefix
  mtu : ℕ
  publicKey : String
  preSharedKey : String
  /-- whether the peer also takes all IPv6 addresses -/
  allowIPv6 : Bool
  reserved : List (BitVec 8)

/-- What a node becomes; tag, server and port stand before the options. -/
structure SingBoxNode where
  tag : String
  server : String
  port : Int
  options : SingBoxOutbound ⊕ SingBoxEndpoint

section

variable (lib : Libraries)

def singBoxInvalid {α : Type} (code message : String) : Except GoError α := invalid lib.toRuntime code message

def validShadowsocksMethods : List String :=
  ["none", "aes-128-gcm", "aes-192-gcm", "aes-256-gcm", "chacha20-ietf-poly1305", "xchacha20-ietf-poly1305",
   "2022-blake3-aes-128-gcm", "2022-blake3-aes-256-gcm", "2022-blake3-chacha20-poly1305", "aes-128-ctr",
   "aes-192-ctr", "aes-256-ctr", "aes-128-cfb", "aes-192-cfb", "aes-256-cfb", "rc4-md5", "chacha20-ietf", "xchacha20"]

def validVMessSecurities : List String :=
  ["", "auto", "none", "zero", "aes-128-cfb", "aes-128-gcm", "chacha20-poly1305"]

def unsupportedNetwork (proto : Protocol) (netName : String) : Except GoError Unit :=
  singBoxInvalid lib "unsupported_transport_network"
    ("unsupported network " ++ Strconv.quote lib.toRuntime netName ++ " in " ++ proto.text ++ " transport")

def validateV2RayNetworkName (proto : Protocol) (netName : String) (allowV2RayTransports : Bool) :
    Except GoError Unit :=
  if netName ∈ ["", "tcp", "udp"] then .ok ()
  else if netName ∈ ["ws", "grpc", "http", "httpupgrade"] ∧ allowV2RayTransports = true then .ok ()
  else unsupportedNetwork lib proto netName

def validateQuicTransportNetwork (proto : Protocol) (netName : String) : Except GoError Unit :=
  if netName ∈ ["", "quic", "udp", "tcp"] then .ok () else unsupportedNetwork lib proto netName

/-- `parseBandwidthMbps`, after the option has been trimmed. -/
def bandwidthMbps (raw : String) : Option Int :=
  let text := toLower lib.toRuntime raw
  let normalized :=
    if hasSuffix text "mbps" then trimSpace (String.ofList (text.toList.dropLast.dropLast.dropLast.dropLast))
    else if hasSuffix text "m" then trimSpace (String.ofList text.toList.dropLast)
    else text
  (Strconv.parseInt normalized).bind (fun val => if val ≤ 0 then none else some val)

def parseBandwidthMbps (m : GoMap String) (key : String) : Except GoError Int :=
  let raw := trimSpace (m.value key)
  if raw = "" then .ok 0
  else
    match bandwidthMbps lib raw with
    | some val => .ok val
    | none =>
      singBoxInvalid lib "invalid_hy2_bandwidth"
        ("invalid hysteria2 " ++ key ++ " bandwidth " ++ Strconv.quote lib.toRuntime raw)

variable (config : NodeConfig)

def NodeConfig.transportHost : String :=
  orElse (config.host.getD "") (config.transport.value "host")

def buildV2RayTransport (tlsEnabled : Bool) : Except GoError (Option SingBoxTransport) :=
  let path := orElse config.path (config.transport.value "path")
  let host := config.transportHost
  match determineTransportType lib config with
  | "xhttp" =>
    singBoxInvalid lib "unsupported_transport" "xhttp transport is not supported by underlying sing-box library"
  | "http" => .ok (some (.http (if host ≠ "" then some host else none) path config.host))
  | "httpupgrade" => .ok (some (.httpUpgrade host path config.host))
  | "ws" => .ok (some (.ws path config.host))
  | "grpc" =>
    if host ≠ "" ∧ (tlsEnabled = false ∨ config.sni = "" ∨ equalFold lib.toRuntime host config.sni = false) then
      singBoxInvalid lib "unsupported_grpc_host"
        "grpc transport cannot override Host/authority independently of TLS SNI in sing-box"
    else .ok (some (.grpc (orElse config.serviceName (config.transport.value "service_name"))))
  | _ => .ok none

def NodeConfig.plainTLS : SingBoxTLS where
  serverName := config.sni
  insecure := config.skipCertVerify
  alpn := config.alpn

def decodePublicKey (text : String) : Option (List (BitVec 8)) :=
  (lib.base64 3 text).orElse fun _ => (lib.base64 2 text).orElse fun _ => (lib.base64 1 text).orElse fun _ =>
    lib.base64 0 text

def isHexRune (c : Char) : Bool := c.isDigit || ('a' ≤ c && c ≤ 'f') || ('A' ≤ c && c ≤ 'F')

def checkShortID (sid : String) : Except GoError Unit :=
  if sid = "" then .ok ()
  else if byteLen sid % 2 ≠ 0 then
    singBoxInvalid lib "invalid_reality_short_id" "Reality short ID must be an even-length hex string"
  else if byteLen sid > 16 then
    singBoxInvalid lib "invalid_reality_short_id" "Reality short ID must not exceed 8 bytes (16 hex characters)"
  else if sid.toList.all isHexRune = false then
    singBoxInvalid lib "invalid_reality_short_id" "Reality short ID must contain only valid hex characters"
  else .ok ()

def NodeConfig.fingerprint? : Option String :=
  if config.clientFingerprint ≠ "" then some config.clientFingerprint else none

def buildReality : Except GoError SingBoxTLS :=
  let tls := { config.plainTLS with utls := config.fingerprint? }
  if config.realityPublicKey = "" then .ok tls
  else
    match decodePublicKey lib (trimSpace config.realityPublicKey) with
    | some decoded =>
      if decoded.length ≠ 32 then
        singBoxInvalid lib "invalid_reality_public_key" "Reality public key must decode to exactly 32 bytes"
      else do
        let sid := trimSpace config.realityShortID
        checkShortID lib sid
        .ok
          { tls with
            reality := some (lib.base64RawURL decoded, sid)
            utls := some (config.fingerprint?.getD "chrome") }
    | none => singBoxInvalid lib "invalid_reality_public_key" "Reality public key must decode to exactly 32 bytes"

def buildVMessOutbound : Except GoError SingBoxOutbound := do
  let tls := if config.tls = true ∨ config.transport.value "tls" = "true" then some config.plainTLS else none
  let transport ← buildV2RayTransport lib config tls.isSome
  match config.fingerprint?, tls with
  | none, _ => .ok (.vmess config.uuid (orElse config.method "auto") config.alterID tls transport)
  | some _, none => singBoxInvalid lib "utls_without_tls" "client fingerprint requires TLS in vmess outbound"
  | some fp, some tls =>
    .ok (.vmess config.uuid (orElse config.method "auto") config.alterID (some { tls with utls := some fp }) transport)

def buildVLESSOutbound (flow : String) : Except GoError SingBoxOutbound :=
  if flow ≠ "" ∨ config.tls = true ∨ config.realityPublicKey ≠ "" ∨ config.transport.value "tls" = "true" then do
    let tls ← buildReality lib config
    let transport ← buildV2RayTransport lib config true
    .ok (.vless config.uuid flow (some tls) transport)
  else do
    let transport ← buildV2RayTransport lib config false
    .ok (.vless config.uuid flow none transport)

def buildWireGuardEndpoint : Except GoError SingBoxEndpoint :=
  if config.privateKey = "" then singBoxInvalid lib "missing_private_key" "wireguard private key is required"
  else
    let withBits (raw : String) : String :=
      if contains raw "/" then raw else if contains raw ":" then raw ++ "/128" else raw ++ "/32"
    let addrs :=
      ((config.localAddress.map trimSpace).filter (· ≠ "")).filterMap (fun raw => lib.parsePrefix (withBits raw))
    let addrList := if addrs = [] then (lib.parsePrefix "10.0.0.2/32").toList else addrs
    .ok
      { privateKey := config.privateKey
        address := addrList
        mtu := if config.mtu = 0 then 1420 else config.mtu
        publicKey := config.publicKey
        preSharedKey := config.presharedKey
        allowIPv6 := addrList.any (fun p => !p.is4)
        reserved := config.reserved }

def buildProtocolOption (cfg : NodeConfig) : Except GoError (SingBoxOutbound ⊕ SingBoxEndpoint) :=
  match cfg.protocol with
  | .ss => do
    let method := toLower lib.toRuntime (trimSpace cfg.method)
    if method ∉ validShadowsocksMethods then
      singBoxInvalid lib "unsupported_ss_cipher"
        ("unsupported shadowsocks cipher " ++ Strconv.quote lib.toRuntime cfg.method ++ " in sing-box")
    else
      validateV2RayNetworkName lib .ss (networkName lib cfg) false
      .ok (.inl (.shadowsocks method cfg.password))
  | .vmess => do
    let sec := toLower lib.toRuntime (trimSpace cfg.method)
    if sec ∉ validVMessSecurities then
      singBoxInvalid lib "unsupported_vmess_security"
        ("unsupported vmess security " ++ Strconv.quote lib.toRuntime cfg.method ++ " in sing-box")
    else
      validateV2RayNetworkName lib .vmess (networkName lib cfg) true
      let out ← buildVMessOutbound lib { cfg with method := sec }
      .ok (.inl out)
  | .vless => do
    validateV2RayNetworkName lib .vless (networkName lib cfg) true
    let flow := trimSpace (cfg.transport.value "flow")
    if flow ≠ "" ∧ flow ≠ "xtls-rprx-vision" then
      singBoxInvalid lib "unsupported_vless_flow"
        ("unsupported vless flow " ++ Strconv.quote lib.toRuntime flow ++ " in sing-box")
    else
      let out ← buildVLESSOutbound lib cfg flow
      .ok (.inl out)
  | .trojan => do
    validateV2RayNetworkName lib .trojan (networkName lib cfg) true
    let transport ← buildV2RayTransport lib cfg true
    .ok (.inl (.trojan cfg.password { cfg.plainTLS with utls := cfg.fingerprint? } transport))
  | .hysteria2 => do
    validateQuicTransportNetwork lib .hysteria2 (networkName lib cfg)
    if cfg.hy2Obfs ≠ "" ∧ cfg.hy2Obfs ≠ "salamander" then
      singBoxInvalid lib "unsupported_hy2_obfs"
        ("unsupported hysteria2 obfs type " ++ Strconv.quote lib.toRuntime cfg.hy2Obfs ++ " in sing-box")
    else if cfg.hy2Obfs ≠ "" ∧ cfg.hy2ObfsPassword = "" then
      singBoxInvalid lib "missing_hy2_obfs_password" "missing required obfs-password for hysteria2 obfs"
    else if cfg.hy2Obfs = "" ∧ cfg.hy2ObfsPassword ≠ "" then
      singBoxInvalid lib "missing_hy2_obfs_type" "missing required obfs type for hysteria2 obfs-password"
    else
      let upMbps ← parseBandwidthMbps lib cfg.transport "up"
      let downMbps ← parseBandwidthMbps lib cfg.transport "down"
      .ok (.inl (.hysteria2 cfg.password cfg.plainTLS (if cfg.hy2Ports ≠ "" then [cfg.hy2Ports] else [])
        (if cfg.hy2Obfs ≠ "" then some (cfg.hy2Obfs, cfg.hy2ObfsPassword) else none) upMbps downMbps))
  | .tuic => do
    validateQuicTransportNetwork lib .tuic (networkName lib cfg)
    let cc := toLower lib.toRuntime (trimSpace cfg.tuicCongestionControl)
    let mode := toLower lib.toRuntime (trimSpace cfg.tuicUDPRelayMode)
    if cc ∉ ["", "cubic", "new_reno", "bbr"] then
      singBoxInvalid lib "unsupported_tuic_congestion_control"
        ("unsupported tuic congestion_control " ++ Strconv.quote lib.toRuntime cfg.tuicCongestionControl ++
          " in sing-box")
    else if mode ∉ ["", "native", "quic"] then
      singBoxInvalid lib "unsupported_tuic_udp_relay_mode"
        ("unsupported tuic udp_relay_mode " ++ Strconv.quote lib.toRuntime cfg.tuicUDPRelayMode ++ " in sing-box")
    else
      .ok (.inl (.tuic cfg.uuid cfg.password cc mode { cfg.plainTLS with disableSNI := cfg.tuicDisableSNI }))
  | .wireguard => (buildWireGuardEndpoint lib cfg).map .inr
  | _ =>
    .error (.plain ((newValidationError lib.toRuntime "unsupported_protocol"
      "unsupported protocol for sing-box runtime").error ++ ": " ++ cfg.protocol.text))

def buildExportNodeOption (tag : String) (node : ResolvedNode) : Except GoError SingBoxNode :=
  let server := trimSpace node.server
  if server = "" then singBoxInvalid lib "missing_server" "node server address is required"
  else if node.port < 1 ∨ node.port > 65535 then
    singBoxInvalid lib "invalid_port" "node port must be between 1 and 65535"
  else do
    let options ← buildProtocolOption lib (nodeConfigFromNode lib node.protocol server node.port node.credentials)
    .ok ⟨tag, server, node.port, options⟩

end

end ClashSubParser
