import ClashSubParser.ProxyLines

/-! `renderSurge`: one line of a `[Proxy]` section for each node. -/
namespace ClashSubParser

open FirstError Strings

def surgeSupportedSSCiphers : List String :=
  ["aes-128-gcm", "aes-192-gcm", "aes-256-gcm", "chacha20-ietf-poly1305", "xchacha20-ietf-poly1305",
   "2022-blake3-aes-128-gcm", "2022-blake3-aes-256-gcm", "rc4-md5", "aes-128-cfb", "aes-192-cfb", "aes-256-cfb",
   "aes-128-ctr", "aes-192-ctr", "aes-256-ctr", "bf-cfb", "camellia-128-cfb", "camellia-192-cfb",
   "camellia-256-cfb", "salsa20", "chacha20", "chacha20-ietf", "none"]

def surgeSupportedVMessCiphers : List String :=
  ["", "auto", "aes-128-gcm", "chacha20-poly1305", "chacha20-ietf-poly1305", "none", "zero"]

def surgeError {α : Type} (location feature reason : String) : Except CapabilityError α :=
  reject .surge location feature reason

def isSurgeSafeIdentifier (s : String) : Bool := s ≠ "" && !containsAny s "\r\n\x00,="

def isSurgeSafeToken (s : String) : Bool := s ≠ "" && !containsAny s "\r\n\x00,= \t"

def isSurgeSafeValue (s : String) : Bool := s ≠ "" && !containsAny s "\r\n\x00,"

def surgeFirstNonEmpty (values : List String) : String := firstNonEmpty (values.map trimSpace)

section

variable (lib : Libraries) (transport : GoMap String)

def hasSurgeUnsupportedRealityOrFlow : Bool :=
  ["pbk", "sid", "flow"].any (fun k => trimSpace (transport.value k) ≠ "") ||
    equalFold lib.toRuntime (trimSpace (transport.value "security")) "reality"

def hasSurgeTLS : Bool :=
  isTruthy lib.toRuntime (transport.value "tls") ||
    equalFold lib.toRuntime (trimSpace (transport.value "security")) "tls"

def surgeNetMode : String :=
  toLower lib.toRuntime (trimSpace (transport.value "network"))

def checkSurgeNetMode (loc : String) (protocol : Protocol) (what : String) (allowed : List String)
    (transport : GoMap String) : Except CapabilityError Unit :=
  if surgeNetMode lib transport ∉ "" :: allowed then
    surgeError loc protocol.text ("unsupported network " ++
      Strconv.quote lib.toRuntime (surgeNetMode lib transport) ++ " in " ++ what ++ " transport")
  else .ok ()

def surgeOptional (loc feature reason key value : String) : Except CapabilityError (List LineField) :=
  if value = "" then .ok []
  else if isSurgeSafeValue value = false then surgeError loc feature reason
  else .ok [.param key value]

def surgeSkipCertVerify : List LineField :=
  if hasInsecureTransport lib.toRuntime transport then [.param "skip-cert-verify" "true"] else []

def parseSurgeBandwidthMbps (raw : String) : Option Int :=
  let text := toLower lib.toRuntime (trimSpace raw)
  let normalized :=
    if hasSuffix text "mbps" then trimSpace (String.ofList (text.toList.dropLast.dropLast.dropLast.dropLast))
    else if hasSuffix text "m" then trimSpace (String.ofList text.toList.dropLast)
    else text
  (Strconv.parseInt normalized).bind (fun val => if val ≤ 0 then none else some val)

def surgeHead (name kind server : String) (port : Int) : List LineField :=
  [.head name kind, .bare server, .bare (toString port)]

def surgeDownloadBandwidth (loc : String) (transport : GoMap String) : Except CapabilityError (List LineField) :=
  let downRaw := trimSpace (transport.value "down")
  if downRaw = "" then .ok []
  else
    match parseSurgeBandwidthMbps lib downRaw with
    | none =>
      surgeError loc Protocol.hysteria2.text
        ("invalid hysteria2 bandwidth " ++ Strconv.quote lib.toRuntime downRaw)
    | some downMbps => .ok [.param "download-bandwidth" (toString downMbps)]

def renderSurgeHysteria2Proxy (loc name server : String) (port : Int) (c : InboundProtocolCredential) :
    Except CapabilityError (List LineField) := do
  let password := trimSpace c.password
  if isSurgeSafeValue password = false then
    surgeError loc Protocol.hysteria2.text "hysteria2 password contains characters invalid in Surge [Proxy] line"
  else
    checkSurgeNetMode lib loc .hysteria2 "hysteria2" ["quic", "udp", "tcp"] c.transport
    let down ← surgeDownloadBandwidth lib loc c.transport
    let sni ← surgeOptional loc Protocol.hysteria2.text "invalid sni in hysteria2 transport" "sni"
      (surgeFirstNonEmpty (c.sni :: ["sni", "servername", "serverName", "peer"].map c.transport.value))
    .ok (surgeHead name "hysteria2" server port ++ [.param "password" password] ++ down ++ sni ++
      surgeSkipCertVerify lib c.transport)

def surgeALPN (c : InboundProtocolCredential) : List String :=
  let own := (c.alpn.map trimSpace).filter (· ≠ "")
  if own ≠ [] then own else ((split (c.transport.value "alpn") ',').map trimSpace).filter (· ≠ "")

def renderSurgeTUICProxy (loc name server : String) (port : Int) (c : InboundProtocolCredential) :
    Except CapabilityError (List LineField) := do
  let uuid := trimSpace c.uuid
  let password := trimSpace c.password
  if isSurgeSafeValue uuid = false ∨ isSurgeSafeValue password = false then
    surgeError loc Protocol.tuic.text "tuic credentials contain characters invalid in Surge [Proxy] line"
  else
    checkSurgeNetMode lib loc .tuic "tuic" ["quic", "udp", "tcp"] c.transport
    let sni ← surgeOptional loc Protocol.tuic.text "invalid sni in tuic transport" "sni"
      (surgeFirstNonEmpty (c.sni :: ["sni", "servername"].map c.transport.value))
    let alpn ← surgeOptional loc Protocol.tuic.text "invalid alpn in tuic transport" "alpn" (join (surgeALPN c) ":")
    .ok (surgeHead name "tuic" server port ++ [.param "uuid" uuid, .param "password" password] ++ sni ++ alpn ++
      surgeSkipCertVerify lib c.transport)

def surgeSelfIPs (loc : String) (selfIP selfIPv6 : String) : List String → Except CapabilityError (String × String)
  | [] => .ok (selfIP, selfIPv6)
  | rawAddr :: rest =>
    match lib.parsePrefix (trimSpace rawAddr) with
    | none => surgeError loc Protocol.wireguard.text "invalid local_address CIDR in wireguard credentials"
    | some pfx =>
      if pfx.is4 then surgeSelfIPs loc (if selfIP = "" then pfx.addr else selfIP) selfIPv6 rest
      else surgeSelfIPs loc selfIP (if selfIPv6 = "" then pfx.addr else selfIPv6) rest

def surgeClientID : List (BitVec 8) → List LineField
  | [a, b, c] => [.param "client-id" (toString a.toNat ++ "/" ++ toString b.toNat ++ "/" ++ toString c.toNat)]
  | _ => []

def renderSurgeWireGuardProxy (loc name server : String) (port : Int) (c : InboundProtocolCredential) :
    Except CapabilityError (List LineField) := do
  let privateKey := trimSpace c.privateKey
  let publicKey := trimSpace c.publicKey
  if isSurgeSafeValue privateKey = false ∨ isSurgeSafeValue publicKey = false then
    surgeError loc Protocol.wireguard.text "wireguard keys contain characters invalid in Surge [Proxy] line"
  else
    let (selfIP, selfIPv6) ← surgeSelfIPs lib loc "" "" c.localAddress
    let psk ← surgeOptional loc Protocol.wireguard.text
      "wireguard pre-shared-key contains characters invalid in Surge [Proxy] line" "preshared-key"
      (trimSpace c.preSharedKey)
    .ok (surgeHead name "wireguard" server port ++ nonEmptyParam "self-ip" selfIP ++ nonEmptyParam "self-ip-v6" selfIPv6 ++
      [.param "private-key" privateKey, .param "peer-public-key" publicKey] ++ psk ++ surgeClientID c.reserved ++
      if c.mtu > 0 then [.param "mtu" (toString c.mtu)] else [])

def surgeSSObfs (loc : String) (transport : GoMap String) : Except CapabilityError (List LineField) := do
  let obfs := toLower lib.toRuntime (trimSpace (transport.value "obfs"))
  let host := trimSpace (transport.value "host")
  let path := trimSpace (transport.value "path")
  if obfs ≠ "" then
    if obfs ≠ "http" ∧ obfs ≠ "tls" then
      surgeError loc Protocol.ss.text
        ("unsupported shadowsocks obfs mode " ++ Strconv.quote lib.toRuntime obfs ++ " for surge")
    else
      let obfsHost ← surgeOptional loc Protocol.ss.text "invalid obfs-host in shadowsocks transport" "obfs-host" host
      let obfsURI ← surgeOptional loc Protocol.ss.text "invalid obfs-uri in shadowsocks transport" "obfs-uri" path
      .ok ([.param "obfs" obfs] ++ obfsHost ++ obfsURI)
  else if path ≠ "" ∨ host ≠ "" then
    surgeError loc Protocol.ss.text "transport host or path on shadowsocks requires obfs mode for surge"
  else .ok []

def renderSurgeSSProxy (loc name server : String) (port : Int) (c : InboundProtocolCredential) :
    Except CapabilityError (List LineField) := do
  let fail := surgeError loc Protocol.ss.text
  let cipher := toLower lib.toRuntime (trimSpace c.method)
  let password := trimSpace c.password
  if cipher ∉ surgeSupportedSSCiphers then fail "unsupported shadowsocks encrypt-method for surge"
  else if isSurgeSafeValue password = false then
    fail "shadowsocks password contains characters invalid in Surge [Proxy] line"
  else
    checkSurgeNetMode lib loc .ss "shadowsocks" ["tcp"] c.transport
    if trimSpace (c.transport.value "service_name") ≠ "" then
      fail "grpc transport is not supported in shadowsocks for surge"
    else if hasSurgeTLS lib c.transport then
      fail "standalone tls wrapper is not supported in shadowsocks for surge"
    else
      let obfs ← surgeSSObfs lib loc c.transport
      .ok (surgeHead name "ss" server port ++ [.param "encrypt-method" cipher, .param "password" password] ++ obfs)

def buildSurgeWSParams (loc feature netMode : String) (transport : GoMap String) :
    Except CapabilityError (List LineField) := do
  let path := trimSpace (transport.value "path")
  let host := trimSpace (transport.value "host")
  if netMode ≠ "ws" then
    if path ≠ "" ∨ host ≠ "" then surgeError loc feature "transport path or host requires ws network for surge"
    else .ok []
  else
    let wsPath ← surgeOptional loc feature "invalid ws-path in transport" "ws-path" path
    if host = "" then .ok ([.param "ws" "true"] ++ wsPath)
    else if isSurgeSafeValue host = false ∨ containsAny host ": " = true then
      surgeError loc feature "invalid ws-headers host in transport"
    else .ok ([.param "ws" "true"] ++ wsPath ++ [.param "ws-headers" ("Host:" ++ host)])

def renderSurgeVMessProxy (loc name server : String) (port : Int) (c : InboundProtocolCredential) :
    Except CapabilityError (List LineField) := do
  let fail := surgeError loc Protocol.vmess.text
  let uuid := trimSpace c.uuid
  if isSurgeSafeValue uuid = false then fail "vmess uuid contains characters invalid in Surge [Proxy] line"
  else if toLower lib.toRuntime (trimSpace c.method) ∉ surgeSupportedVMessCiphers then
    fail "unsupported vmess cipher for surge"
  else
    checkSurgeNetMode lib loc .vmess "vmess" ["tcp", "ws"] c.transport
    if trimSpace (c.transport.value "service_name") ≠ "" then
      fail "grpc service_name is not supported in vmess transport for surge"
    else
      let wsParams ← buildSurgeWSParams loc Protocol.vmess.text (surgeNetMode lib c.transport) c.transport
      let sni ← surgeOptional loc Protocol.vmess.text "invalid sni in vmess transport" "sni"
        (surgeFirstNonEmpty (c.sni :: ["sni", "servername"].map c.transport.value))
      .ok (surgeHead name "vmess" server port ++
        [.param "username" uuid, .param "vmess-aead" (if c.alterID > 0 then "false" else "true")] ++ wsParams ++
        (if hasSurgeTLS lib c.transport then [.param "tls" "true"] else []) ++ sni ++
        surgeSkipCertVerify lib c.transport)

def renderSurgeTrojanProxy (loc name server : String) (port : Int) (c : InboundProtocolCredential) :
    Except CapabilityError (List LineField) := do
  let fail := surgeError loc Protocol.trojan.text
  let password := trimSpace c.password
  if isSurgeSafeValue password = false then
    fail "trojan password contains characters invalid in Surge [Proxy] line"
  else
    checkSurgeNetMode lib loc .trojan "trojan" ["tcp", "ws"] c.transport
    if trimSpace (c.transport.value "service_name") ≠ "" then
      fail "grpc service_name is not supported in trojan transport for surge"
    else
      let wsParams ← buildSurgeWSParams loc Protocol.trojan.text (surgeNetMode lib c.transport) c.transport
      let sni ← surgeOptional loc Protocol.trojan.text "invalid sni in trojan transport" "sni"
        (surgeFirstNonEmpty (c.sni :: ["sni", "servername"].map c.transport.value))
      .ok (surgeHead name "trojan" server port ++ [.param "password" password] ++ wsParams ++ sni ++
        surgeSkipCertVerify lib c.transport)

def renderSurgeProtocol (loc name server : String) (port : Int) (protocol : Protocol) (c : InboundProtocolCredential) :
    Except CapabilityError (List LineField) :=
  match protocol with
  | .ss => renderSurgeSSProxy lib loc name server port c
  | .vmess => renderSurgeVMessProxy lib loc name server port c
  | .trojan => renderSurgeTrojanProxy lib loc name server port c
  | .hysteria2 => renderSurgeHysteria2Proxy lib loc name server port c
  | .tuic => renderSurgeTUICProxy lib loc name server port c
  | .wireguard => renderSurgeWireGuardProxy lib loc name server port c
  | _ => surgeError loc protocol.text "protocol is not supported"

def renderSurgeProxyLine (index : ℕ) (node : ResolvedNode) : Except CapabilityError (List LineField) := do
  let loc := nodeLocation index
  let fail := surgeError loc node.protocol.text
  validateCredentialEnvelope lib .surge index node
  let name := trimSpace node.displayName
  let server := trimSpace node.server
  if isSurgeSafeIdentifier name = false then
    fail "node display name contains characters invalid in Surge [Proxy] line"
  else if isSurgeSafeToken server = false then
    fail "server address contains characters invalid in Surge [Proxy] line"
  else if hasSurgeUnsupportedRealityOrFlow lib node.credentials.transport then
    fail "reality or xtls flow transport is not supported by surge"
  else renderSurgeProtocol lib loc name server node.port node.protocol node.credentials

def renderSurge (nodes : List ResolvedNode) : Except CapabilityError String := do
  let lines ← allOk (nodes.mapIdx (renderSurgeProxyLine lib))
  .ok (lineDocument (lines.map lineOf))

end

end ClashSubParser
