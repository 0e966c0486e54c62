import ClashSubParser.CompilerCapability
import ClashSubParser.NodeCredentials

/-! The nodes of a Mihomo document: what the renderer checks of a node, and the proxy it writes. -/
namespace ClashSubParser

open FirstError Strings

def mihomoError {α : Type} (location feature reason : String) : Except CapabilityError α :=
  reject .mihomo location feature reason

section

variable (c : InboundProtocolCredential)

def transportAlias (key : String) : String :=
  if key ∈ ["sni", "servername", "serverName", "peer"] then trimSpace c.sni
  else if key ∈ ["disable_sni", "disable-sni", "tuic_disable_sni"] then if c.disableSNI then "true" else ""
  else if key ∈ ["congestion_control", "congestion-control", "congestion_controller", "congestion-controller"] then
    trimSpace c.congestionControl
  else if key ∈ ["udp_relay_mode", "udp-relay-mode"] then trimSpace c.udpRelayMode
  else ""

def transportValue (keys : List String) : String :=
  firstNonEmpty (keys.flatMap (fun key => [trimSpace (c.transport.value key), transportAlias c key]))

def extractMihomoALPN : List String :=
  let own := (c.alpn.map trimSpace).filter (· ≠ "")
  if own ≠ [] then own
  else ((split (trimSpace (c.transport.value "alpn")) ',').map trimSpace).filter (· ≠ "")

end

def commonTLSKeys : List String :=
  ["network", "tls", "sni", "servername", "serverName", "peer", "skip_cert_verify", "skip-cert-verify", "skipcert",
   "insecure", "allowInsecure"]

def fingerprintKeys : List String := ["fp", "fingerprint", "client-fingerprint", "client_fingerprint"]

def serviceNameKeys : List String := ["service_name", "serviceName", "grpc-service-name"]

def sniKeys : List String := ["sni", "servername", "serverName", "peer"]

def publicKeyKeys : List String := ["pbk", "public-key", "public_key", "reality-public-key", "reality_public_key"]

def shortIDKeys : List String := ["sid", "short-id", "short_id", "reality-short-id", "reality_short_id"]

def portsKeys : List String := ["ports", "server_ports", "hy2_ports", "mport"]

def congestionKeys : List String :=
  ["congestion_control", "congestion-control", "congestion_controller", "congestion-controller"]

def allowedMihomoTransportKeys : Protocol → List String
  | .ss => ["network", "plugin", "plugin-opts", "plugin_opts"]
  | .vmess => commonTLSKeys ++ ["alpn"] ++ fingerprintKeys ++ ["path", "host"] ++ serviceNameKeys
  | .vless =>
    commonTLSKeys ++ ["alpn", "flow"] ++ fingerprintKeys ++ publicKeyKeys ++ shortIDKeys ++ ["path", "host"] ++
      serviceNameKeys ++ ["mode", "headers", "xhttp-opts", "xhttp_opts", "ech-opts", "ech_opts", "udp", "encryption",
      "extra"]
  | .trojan => commonTLSKeys ++ ["alpn"] ++ fingerprintKeys ++ ["path", "host"] ++ serviceNameKeys
  | .hysteria2 =>
    commonTLSKeys ++ ["alpn", "up", "down", "obfs", "obfs-password", "obfs_password"] ++ portsKeys
  | .wireguard => ["network"]
  | .tuic =>
    commonTLSKeys ++ ["alpn", "disable_sni", "disable-sni", "tuic_disable_sni"] ++ congestionKeys ++
      ["udp_relay_mode", "udp-relay-mode"] ++ portsKeys
  | .http => commonTLSKeys ++ ["headers"]
  | .socks5 => commonTLSKeys ++ ["udp"]
  | .anytls =>
    commonTLSKeys ++ ["alpn"] ++ fingerprintKeys ++ ["udp", "ech-opts", "ech_opts", "idle-session-check-interval",
      "idle_session_check_interval", "idle-session-timeout", "idle_session_timeout", "min-idle-session",
      "min_idle_session", "disable-reuse", "disable_reuse"]
  | .other _ _ => []

def unsupportedEntry (protocol : Protocol) (entry : String × String) : Bool :=
  let key := trimSpace entry.1
  trimSpace entry.2 ≠ "" && !hasPrefix key "extra" && !hasPrefix key "unknown" &&
    !(allowedMihomoTransportKeys protocol).contains key

section

variable (lib : Libraries)

def validateMihomoTransportKeys (loc : String) (protocol : Protocol) (transport : GoMap String) :
    Except CapabilityError Unit :=
  match transport.entries.find? (unsupportedEntry protocol) with
  | none => .ok ()
  | some entry =>
    mihomoError loc protocol.text ("unsupported transport parameter " ++
      Strconv.quote lib.toRuntime (trimSpace entry.1) ++ " for " ++ protocol.text)

def splitMihomoWireGuardAddresses (loc : String) (ipv4 ipv6 : String) :
    List String → Except CapabilityError (String × String)
  | [] =>
    if ipv4 = "" ∧ ipv6 = "" then
      mihomoError loc "wireguard" "missing required local_address in wireguard credentials"
    else .ok (ipv4, ipv6)
  | raw :: rest =>
    match lib.parsePrefix (trimSpace raw) with
    | none => mihomoError loc "wireguard" "invalid local_address CIDR in wireguard credentials"
    | some p =>
      if p.is4 then
        if ipv4 ≠ "" ∧ ipv4 ≠ p.text then
          mihomoError loc "wireguard" "multiple IPv4 local_address CIDRs cannot be represented in mihomo wireguard"
        else splitMihomoWireGuardAddresses loc p.text ipv6 rest
      else
        if ipv6 ≠ "" ∧ ipv6 ≠ p.text then
          mihomoError loc "wireguard" "multiple IPv6 local_address CIDRs cannot be represented in mihomo wireguard"
        else splitMihomoWireGuardAddresses loc ipv4 p.text rest

def networkOf (c : InboundProtocolCredential) : String := toLower lib.toRuntime (transportValue c ["network"])

def unsupportedValue (loc : String) (protocol : Protocol) (what value suffix : String) : Except CapabilityError Unit :=
  mihomoError loc protocol.text ("unsupported " ++ what ++ " " ++ Strconv.quote lib.toRuntime value ++ " in " ++
    protocol.text ++ " " ++ suffix)

def checkNetwork (loc : String) (protocol : Protocol) (allowed : List String) (c : InboundProtocolCredential) :
    Except CapabilityError Unit :=
  if networkOf lib c ∉ "" :: allowed then unsupportedValue lib loc protocol "network" (networkOf lib c) "transport"
  else .ok ()

def validateMihomoProtocol (loc : String) (protocol : Protocol) (c : InboundProtocolCredential) :
    Except CapabilityError Unit :=
  match protocol with
  | .ss => checkNetwork lib loc .ss ["tcp", "udp"] c
  | .vmess => checkNetwork lib loc .vmess ["tcp", "ws", "grpc"] c
  | .vless => do
    checkNetwork lib loc .vless ["tcp", "ws", "grpc", "xhttp"] c
    if transportValue c shortIDKeys ≠ "" ∧ transportValue c publicKeyKeys = "" then
      mihomoError loc "vless" "missing required reality public key in vless credentials"
    else if transportValue c ["flow"] ∉ ["", "xtls-rprx-vision", "xtls-rprx-vision-udp443"] then
      unsupportedValue lib loc .vless "flow" (transportValue c ["flow"]) "transport"
    else .ok ()
  | .trojan => checkNetwork lib loc .trojan ["tcp", "ws", "grpc"] c
  | .hysteria2 => do
    checkNetwork lib loc .hysteria2 ["quic", "udp", "tcp"] c
    let obfs := transportValue c ["obfs"]
    let obfsPw := transportValue c ["obfs-password", "obfs_password"]
    if obfs ∉ ["", "salamander"] then unsupportedValue lib loc .hysteria2 "obfs mode" obfs "transport"
    else if obfs = "salamander" ∧ obfsPw = "" then
      mihomoError loc "hysteria2" "missing required obfs-password for hysteria2 salamander obfs"
    else if obfs = "" ∧ obfsPw ≠ "" then
      mihomoError loc "hysteria2" "obfs-password requires obfs mode in hysteria2 transport"
    else .ok ()
  | .wireguard => do
    checkNetwork lib loc .wireguard ["wireguard", "udp"] c
    (splitMihomoWireGuardAddresses lib loc "" "" c.localAddress).map (fun _ => ())
  | .tuic => do
    checkNetwork lib loc .tuic ["quic", "udp", "tcp"] c
    let cc := toLower lib.toRuntime (transportValue c congestionKeys)
    let mode := toLower lib.toRuntime (transportValue c ["udp_relay_mode", "udp-relay-mode"])
    if cc ∉ ["", "cubic", "new_reno", "bbr"] then
      unsupportedValue lib loc .tuic "congestion controller" cc "credentials"
    else if mode ∉ ["", "native", "quic"] then unsupportedValue lib loc .tuic "udp relay mode" mode "credentials"
    else .ok ()
  | .anytls =>
    if trimSpace c.password = "" then mihomoError loc "anytls" "missing required password in anytls credentials"
    else .ok ()
  | .http => .ok ()
  | .socks5 => .ok ()
  | .other _ _ => .ok ()

def validateMihomoNode (index : ℕ) (node : ResolvedNode) : Except CapabilityError Unit := do
  validateCredentialEnvelope lib .mihomo index node
  validateMihomoTransportKeys lib (nodeLocation index) node.protocol node.credentials.transport
  validateMihomoProtocol lib (nodeLocation index) node.protocol node.credentials

def validateMihomoCredentials (nodes : List ResolvedNode) : Except CapabilityError Unit :=
  checks (nodes.mapIdx (validateMihomoNode lib))

end

structure MihomoWSOpts where
  path : String := ""
  headers : GoMap String := GoMap.empty

structure MihomoGRPCOpts where
  grpcServiceName : String

structure MihomoRealityOpts where
  publicKey : String
  shortID : String

structure MihomoXHTTPOpts where
  path : String
  host : String
  mode : String
  headers : GoMap String

inductive MihomoXHTTP
  | raw (m : AnyMap)
  | opts (o : MihomoXHTTPOpts)

structure MihomoHysteria2Proxy where
  name : String
  server : String
  port : Int
  ports : String
  password : String
  sni : String
  skipCertVerify : Bool
  alpn : List String
  up : String
  down : String
  obfs : String
  obfsPassword : String

structure MihomoSSProxy where
  name : String
  server : String
  port : Int
  cipher : String
  password : String
  plugin : String

structure MihomoVMessProxy where
  name : String
  server : String
  port : Int
  uuid : String
  alterID : Int
  cipher : String
  network : String
  tls : Bool
  servername : String
  skipCertVerify : Bool
  alpn : List String
  clientFingerprint : String
  wsOpts : Option MihomoWSOpts
  grpcOpts : Option MihomoGRPCOpts

structure MihomoVLESSProxy where
  name : String
  server : String
  port : Int
  uuid : String
  network : String
  tls : Bool
  servername : String
  skipCertVerify : Bool
  alpn : List String
  flow : String
  clientFingerprint : String
  realityOpts : Option MihomoRealityOpts
  echOpts : AnyMap
  wsOpts : Option MihomoWSOpts
  grpcOpts : Option MihomoGRPCOpts
  xhttpOpts : Option MihomoXHTTP

structure MihomoTrojanProxy where
  name : String
  server : String
  port : Int
  password : String
  network : String
  sni : String
  skipCertVerify : Bool
  alpn : List String
  clientFingerprint : String
  wsOpts : Option MihomoWSOpts
  grpcOpts : Option MihomoGRPCOpts

structure MihomoWireGuardProxy where
  name : String
  server : String
  port : Int
  ip : String
  ipv6 : String
  privateKey : String
  publicKey : String
  preSharedKey : String
  reserved : List (BitVec 8)
  mtu : Int
  dns : List String

structure MihomoTUICProxy where
  name : String
  server : String
  port : Int
  uuid : String
  password : String
  congestionController : String
  udpRelayMode : String
  alpn : List String
  sni : String
  disableSNI : Bool
  skipCertVerify : Bool

structure MihomoHTTPProxy where
  name : String
  server : String
  port : Int
  username : String
  password : String
  tls : Bool
  sni : String
  skipCertVerify : Bool
  headers : GoMap String

structure MihomoSocks5Proxy where
  name : String
  server : String
  port : Int
  username : String
  password : String
  tls : Bool
  sni : String
  skipCertVerify : Bool
  udp : Bool

structure MihomoAnyTLSProxy where
  name : String
  server : String
  port : Int
  password : String
  sni : String
  alpn : List String
  clientFingerprint : String
  skipCertVerify : Bool
  udp : Bool
  echOpts : AnyMap
  idleSessionCheckInterval : Int
  idleSessionTimeout : Int
  minIdleSession : Int
  disableReuse : Bool

/-- An entry of the `proxies` list; its `type` is the name of the protocol. -/
inductive MihomoProxy
  | hysteria2 (p : MihomoHysteria2Proxy)
  | ss (p : MihomoSSProxy)
  | vmess (p : MihomoVMessProxy)
  | vless (p : MihomoVLESSProxy)
  | trojan (p : MihomoTrojanProxy)
  | wireguard (p : MihomoWireGuardProxy)
  | tuic (p : MihomoTUICProxy)
  | http (p : MihomoHTTPProxy)
  | socks5 (p : MihomoSocks5Proxy)
  | anytls (p : MihomoAnyTLSProxy)

def MihomoProxy.name : MihomoProxy → String
  | hysteria2 p => p.name
  | ss p => p.name
  | vmess p => p.name
  | vless p => p.name
  | trojan p => p.name
  | wireguard p => p.name
  | tuic p => p.name
  | http p => p.name
  | socks5 p => p.name
  | anytls p => p.name

section

variable (lib : Libraries)

def wsOptsOf (network : String) (c : InboundProtocolCredential) : Option MihomoWSOpts :=
  if network = "ws" then
    some
      { path := transportValue c ["path"]
        headers :=
          if transportValue c ["host"] ≠ "" then GoMap.singleton "Host" (transportValue c ["host"])
          else GoMap.empty }
  else none

def grpcOptsOf (network : String) (c : InboundProtocolCredential) : Option MihomoGRPCOpts :=
  if network = "grpc" ∧ transportValue c serviceNameKeys ≠ "" then some ⟨transportValue c serviceNameKeys⟩ else none

def jsonMapOf (text : String) : AnyMap := if text = "" then [] else (lib.unmarshalJSONMap text).getD []

variable (c : InboundProtocolCredential)

def echOptsOf : AnyMap := jsonMapOf lib (transportValue c ["ech-opts", "ech_opts"])

def xhttpHeadersOf : GoMap String :=
  let text := transportValue c ["headers"]
  if text ≠ "" ∧ (lib.unmarshalJSONStrings text).2 then (lib.unmarshalJSONStrings text).1 else GoMap.empty

def xhttpOptsOf (network : String) (c : InboundProtocolCredential) : Option MihomoXHTTP :=
  if network ≠ "xhttp" then none
  else
    let raw := jsonMapOf lib (transportValue c ["xhttp-opts", "xhttp_opts"])
    if raw ≠ [] then some (.raw raw)
    else
      some (.opts
        { path := transportValue c ["path"]
          host := transportValue c ["host"]
          mode := transportValue c ["mode"]
          headers := xhttpHeadersOf lib c })

def httpHeadersOf : GoMap String :=
  let text := transportValue c ["headers"]
  if text ≠ "" then (lib.unmarshalJSONStrings text).1 else GoMap.empty

/-- `strconv.Atoi`, zero for an error. -/
def atoiOrZero (s : String) : Int := (Strconv.parseInt s).getD 0

variable (node : ResolvedNode)

def hysteria2ProxyOf : MihomoHysteria2Proxy :=
  let c := node.credentials
  { name := node.displayName
    server := node.server
    port := node.port
    ports := if extractHy2Ports c.transport = "" then transportValue c ["mport"] else extractHy2Ports c.transport
    password := c.password
    sni := transportValue c sniKeys
    skipCertVerify := hasInsecureTransport lib.toRuntime c.transport
    alpn := extractMihomoALPN c
    up := transportValue c ["up"]
    down := transportValue c ["down"]
    obfs := transportValue c ["obfs"]
    obfsPassword := transportValue c ["obfs-password", "obfs_password"] }

def ssProxyOf : MihomoSSProxy :=
  let c := node.credentials
  { name := node.displayName
    server := node.server
    port := node.port
    cipher := c.method
    password := c.password
    plugin := transportValue c ["plugin"] }

def vmessProxyOf : MihomoVMessProxy :=
  let c := node.credentials
  let network := networkOf lib c
  { name := node.displayName
    server := node.server
    port := node.port
    uuid := trimSpace c.uuid
    alterID := c.alterID
    cipher := if trimSpace c.method = "" then "auto" else trimSpace c.method
    network := network
    tls := isTruthy lib.toRuntime (transportValue c ["tls"])
    servername := transportValue c sniKeys
    skipCertVerify := hasInsecureTransport lib.toRuntime c.transport
    alpn := extractMihomoALPN c
    clientFingerprint := transportValue c fingerprintKeys
    wsOpts := wsOptsOf network c
    grpcOpts := grpcOptsOf network c }

def vlessProxyOf : MihomoVLESSProxy :=
  let c := node.credentials
  let network := networkOf lib c
  let pbk := transportValue c publicKeyKeys
  { name := node.displayName
    server := node.server
    port := node.port
    uuid := trimSpace c.uuid
    network := network
    tls := isTruthy lib.toRuntime (transportValue c ["tls"]) || pbk ≠ ""
    servername := transportValue c sniKeys
    skipCertVerify := hasInsecureTransport lib.toRuntime c.transport
    alpn := extractMihomoALPN c
    flow := transportValue c ["flow"]
    clientFingerprint := transportValue c fingerprintKeys
    realityOpts := if pbk ≠ "" then some ⟨pbk, transportValue c shortIDKeys⟩ else none
    echOpts := echOptsOf lib c
    wsOpts := wsOptsOf network c
    grpcOpts := grpcOptsOf network c
    xhttpOpts := xhttpOptsOf lib network c }

def trojanProxyOf : MihomoTrojanProxy :=
  let c := node.credentials
  let network := networkOf lib c
  { name := node.displayName
    server := node.server
    port := node.port
    password := c.password
    network := network
    sni := transportValue c sniKeys
    skipCertVerify := hasInsecureTransport lib.toRuntime c.transport
    alpn := extractMihomoALPN c
    clientFingerprint := transportValue c fingerprintKeys
    wsOpts := wsOptsOf network c
    grpcOpts := grpcOptsOf network c }

/-- The other fields of the entry are fixed: DNS goes over the tunnel where servers are given, and UDP is on. -/
def wireGuardProxyOf (ips : String × String) : MihomoWireGuardProxy :=
  let c := node.credentials
  { name := node.displayName
    server := node.server
    port := node.port
    ip := ips.1
    ipv6 := ips.2
    privateKey := trimSpace c.privateKey
    publicKey := trimSpace c.publicKey
    preSharedKey := c.effectivePreSharedKey
    reserved := c.reserved
    mtu := c.mtu
    dns := (c.dns.map trimSpace).filter (· ≠ "") }

def tuicProxyOf : MihomoTUICProxy :=
  let c := node.credentials
  { name := node.displayName
    server := node.server
    port := node.port
    uuid := trimSpace c.uuid
    password := c.password
    congestionController := toLower lib.toRuntime (transportValue c congestionKeys)
    udpRelayMode := toLower lib.toRuntime (transportValue c ["udp_relay_mode", "udp-relay-mode"])
    alpn := extractMihomoALPN c
    sni := transportValue c sniKeys
    disableSNI := c.disableSNI || hasTUICDisableSNI lib.toRuntime c.transport
    skipCertVerify := hasInsecureTransport lib.toRuntime c.transport }

def httpProxyOf : MihomoHTTPProxy :=
  let c := node.credentials
  { name := node.displayName
    server := node.server
    port := node.port
    username := c.username
    password := c.password
    tls := isTruthy lib.toRuntime (transportValue c ["tls"])
    sni := transportValue c sniKeys
    skipCertVerify := hasInsecureTransport lib.toRuntime c.transport
    headers := httpHeadersOf lib c }

def socks5ProxyOf : MihomoSocks5Proxy :=
  let c := node.credentials
  { name := node.displayName
    server := node.server
    port := node.port
    username := c.username
    password := c.password
    tls := isTruthy lib.toRuntime (transportValue c ["tls"])
    sni := transportValue c sniKeys
    skipCertVerify := hasInsecureTransport lib.toRuntime c.transport
    udp := isTruthy lib.toRuntime (transportValue c ["udp"]) }

def anyTLSProxyOf : MihomoAnyTLSProxy :=
  let c := node.credentials
  { name := node.displayName
    server := node.server
    port := node.port
    password := c.password
    sni := transportValue c sniKeys
    alpn := extractMihomoALPN c
    clientFingerprint := transportValue c fingerprintKeys
    skipCertVerify := hasInsecureTransport lib.toRuntime c.transport
    udp := isTruthy lib.toRuntime (transportValue c ["udp"])
    echOpts := echOptsOf lib c
    idleSessionCheckInterval :=
      atoiOrZero (transportValue c ["idle-session-check-interval", "idle_session_check_interval"])
    idleSessionTimeout := atoiOrZero (transportValue c ["idle-session-timeout", "idle_session_timeout"])
    minIdleSession := atoiOrZero (transportValue c ["min-idle-session", "min_idle_session"])
    disableReuse := isTruthy lib.toRuntime (transportValue c ["disable-reuse", "disable_reuse"]) }

def renderMihomoProxy (index : ℕ) (node : ResolvedNode) : Except CapabilityError (Option MihomoProxy) :=
  match node.protocol with
  | .hysteria2 => .ok (some (.hysteria2 (hysteria2ProxyOf lib node)))
  | .ss => .ok (some (.ss (ssProxyOf node)))
  | .vmess => .ok (some (.vmess (vmessProxyOf lib node)))
  | .vless => .ok (some (.vless (vlessProxyOf lib node)))
  | .trojan => .ok (some (.trojan (trojanProxyOf lib node)))
  | .wireguard =>
    (splitMihomoWireGuardAddresses lib (nodeLocation index) "" "" node.credentials.localAddress).map
      (fun ips => some (.wireguard (wireGuardProxyOf node ips)))
  | .tuic => .ok (some (.tuic (tuicProxyOf lib node)))
  | .http => .ok (some (.http (httpProxyOf lib node)))
  | .socks5 => .ok (some (.socks5 (socks5ProxyOf lib node)))
  | .anytls => .ok (some (.anytls (anyTLSProxyOf lib node)))
  | .other _ _ => .ok none

end

end ClashSubParser
