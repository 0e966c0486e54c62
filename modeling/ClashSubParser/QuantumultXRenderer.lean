import ClashSubParser.ProxyLines

/-! `renderQuantumultX`: one line of a `server_local` section for each node. -/
namespace ClashSubParser

open FirstError Strings

def validQXSSCiphers : List String :=
  ["none", "rc4", "rc4-md5", "aes-128-cfb", "aes-192-cfb", "aes-256-cfb", "aes-128-ctr", "aes-192-ctr", "aes-256-ctr",
   "bf-cfb", "camellia-128-cfb", "camellia-192-cfb", "camellia-256-cfb", "salsa20", "chacha20", "chacha20-ietf",
   "aes-128-gcm", "aes-192-gcm", "aes-256-gcm", "chacha20-ietf-poly1305", "chacha20-poly1305",
   "xchacha20-ietf-poly1305", "2022-blake3-aes-128-gcm", "2022-blake3-aes-256-gcm", "2022-blake3-chacha20-poly1305"]

def validQXVMessMethods : List String :=
  ["auto", "none", "zero", "aes-128-cfb", "aes-128-gcm", "chacha20-poly1305", "chacha20-ietf-poly1305"]

def hasUnsafeQXChars (s : String) : Bool := containsAny s ",\r\n"

structure QXTransport where
  netType : String
  rawTLS : String
  tlsEnabled : Bool
  obfs : String
  host : String
  sni : String
  path : String
  insecure : Bool

section

variable (lib : Libraries)

def qxTransportOf (tMap : GoMap String) : QXTransport :=
  let rawTLS := toLower lib.toRuntime (trimSpace (tMap.value "tls"))
  { netType := toLower lib.toRuntime (trimSpace (tMap.value "network"))
    rawTLS := rawTLS
    tlsEnabled := isTruthy lib.toRuntime rawTLS || rawTLS == "tls"
    obfs := toLower lib.toRuntime (trimSpace (tMap.value "obfs"))
    host := trimSpace (tMap.value "host")
    sni := trimSpace (tMap.value "sni")
    path := trimSpace (tMap.value "path")
    insecure := hasInsecureTransport lib.toRuntime tMap }

end

namespace QXTransport

variable (t : QXTransport)

def tlsHost : String := firstNonEmpty [t.sni, t.host]

def noVerification : List LineField := if t.insecure then [.param "tls-verification" "false"] else []

def mode : String := if t.tlsEnabled = true ∨ t.obfs = "wss" then "wss" else "ws"

def webSocket : List LineField :=
  [.param "obfs" t.mode] ++ nonEmptyParam "obfs-host" t.host ++ nonEmptyParam "obfs-uri" t.path ++
    if t.mode = "wss" then nonEmptyParam "tls-host" t.tlsHost ++ t.noVerification else []

def plainHTTP : List LineField :=
  [.param "obfs" "http"] ++ nonEmptyParam "obfs-host" t.host ++ nonEmptyParam "obfs-uri" t.path

/-- The obfuscation of a Shadowsocks line over TCP, `mode` being the one that is written. -/
def obfuscation (mode : String) : List LineField :=
  if mode = "" then []
  else
    [.param "obfs" mode] ++ nonEmptyParam "obfs-host" (firstNonEmpty [t.host, t.sni]) ++
      (if mode = "http" ∨ mode = "ws" ∨ mode = "wss" then nonEmptyParam "obfs-uri" t.path else []) ++
      (if mode = "tls" ∨ mode = "wss" then t.noVerification else [])

/-- `tlsVerify` -/
def verification : LineField := .param "tls-verification" (if t.insecure then "false" else "true")

end QXTransport

section

variable (fail : String → Except CapabilityError (List LineField))

def qxSSTransport (t : QXTransport) : Except CapabilityError (List LineField) :=
  if t.netType = "" ∨ t.netType = "tcp" then
    if t.obfs ∉ ["", "http", "tls", "ws", "wss"] then fail "unsupported obfs mode in shadowsocks transport"
    else .ok (t.obfuscation (if t.obfs = "" ∧ t.tlsEnabled = true then "tls" else t.obfs))
  else if t.netType = "ws" then
    if t.obfs ∉ ["", "ws", "wss"] then fail "unsupported obfs mode in shadowsocks ws transport" else .ok t.webSocket
  else fail "unsupported network in shadowsocks transport"

def qxVMessTransport (t : QXTransport) : Except CapabilityError (List LineField) :=
  if t.netType = "" ∨ t.netType = "tcp" then
    if t.obfs = "http" then
      if t.tlsEnabled then fail "unsupported http obfs with tls in vmess transport" else .ok t.plainHTTP
    else if t.obfs ∉ ["", "over-tls"] then fail "unsupported obfs mode in vmess transport"
    else if t.tlsEnabled = true ∨ t.obfs = "over-tls" then
      .ok ([.param "obfs" "over-tls"] ++ nonEmptyParam "tls-host" t.tlsHost ++ t.noVerification)
    else .ok []
  else if t.netType = "http" then
    if t.tlsEnabled then fail "unsupported http network with tls in vmess transport" else .ok t.plainHTTP
  else if t.netType = "ws" then
    if t.obfs ∉ ["", "ws", "wss"] then fail "unsupported obfs mode in vmess ws transport" else .ok t.webSocket
  else fail "unsupported network in vmess transport"

def qxTrojanTransport (t : QXTransport) : Except CapabilityError (List LineField) :=
  if t.netType = "" ∨ t.netType = "tcp" then
    if t.obfs ∉ ["", "over-tls"] then fail "unsupported obfs mode in trojan transport"
    else .ok ([.param "over-tls" "true"] ++ nonEmptyParam "tls-host" t.tlsHost ++ [t.verification])
  else if t.netType = "ws" then
    if t.obfs ∉ ["", "ws", "wss"] then fail "unsupported obfs mode in trojan ws transport"
    else
      .ok ([.param "obfs" "wss"] ++ nonEmptyParam "obfs-host" t.host ++ nonEmptyParam "obfs-uri" t.path ++
        nonEmptyParam "tls-host" t.tlsHost ++ [t.verification])
  else fail "unsupported network in trojan transport"

variable (lib : Libraries)

def qxProtocol (endpoint tag : String) (protocol : Protocol) (c : InboundProtocolCredential) (t : QXTransport) :
    Except CapabilityError (List LineField) :=
  match protocol with
  | .ss => do
    let method := toLower lib.toRuntime (trimSpace c.method)
    let password := trimSpace c.password
    if hasUnsafeQXChars method = true ∨ hasUnsafeQXChars password = true then
      fail "invalid characters in shadowsocks credentials"
    else if method ∉ validQXSSCiphers then fail "unsupported cipher in shadowsocks credentials"
    else
      let transport ← qxSSTransport fail t
      .ok ([.head "shadowsocks" endpoint, .param "method" method, .param "password" password] ++ transport ++
        [.param "tag" tag])
  | .vmess => do
    let uuid := trimSpace c.uuid
    let written := toLower lib.toRuntime (trimSpace c.method)
    let method := if written = "" then "auto" else written
    if hasUnsafeQXChars uuid = true ∨ hasUnsafeQXChars method = true then
      fail "invalid characters in vmess credentials"
    else if method ∉ validQXVMessMethods then fail "unsupported cipher in vmess credentials"
    else
      let transport ← qxVMessTransport fail t
      .ok ([.head "vmess" endpoint, .param "method" method, .param "password" uuid] ++ transport ++
        [.param "tag" tag])
  | .trojan => do
    let password := trimSpace c.password
    if hasUnsafeQXChars password then fail "invalid characters in trojan credentials"
    else if t.rawTLS ∈ ["false", "0", "no", "off"] then fail "trojan requires tls in Quantumult X"
    else
      let transport ← qxTrojanTransport fail t
      .ok ([.head "trojan" endpoint, .param "password" password] ++ transport ++ [.param "tag" tag])
  | _ => fail "protocol is not supported"

end

section

variable (lib : Libraries)

def renderQuantumultXServerLine (index : ℕ) (node : ResolvedNode) : Except CapabilityError (List LineField) :=
  let fail := reject .quantumultX (nodeLocation index) node.protocol.text
  let tag := trimSpace node.displayName
  let server := trimSpace node.server
  let tMap := node.credentials.transport
  let t := qxTransportOf lib tMap
  if tag = "" ∨ server = "" ∨ hasUnsafeQXChars tag = true ∨ hasUnsafeQXChars server = true then
    fail "invalid characters in node display name or server address"
  else if server = trimSpace node.logicalID then fail "placeholder logical ID server address is not allowed"
  else if trimSpace (tMap.value "pbk") ≠ "" ∨ trimSpace (tMap.value "sid") ≠ "" then
    fail "reality transport is not supported by Quantumult X"
  else if trimSpace (tMap.value "flow") ≠ "" then fail "xtls flow is not supported by Quantumult X"
  else if trimSpace (tMap.value "service_name") ≠ "" then fail "grpc service_name is not supported by Quantumult X"
  else if hasUnsafeQXChars t.host = true ∨ hasUnsafeQXChars t.sni = true ∨ hasUnsafeQXChars t.path = true ∨
      hasUnsafeQXChars t.obfs = true then
    fail "invalid characters in transport options"
  else qxProtocol fail lib (joinHostPort server (toString node.port)) tag node.protocol node.credentials t

def renderQuantumultXNode (index : ℕ) (node : ResolvedNode) : Except CapabilityError (List LineField) := do
  validateCredentialEnvelope lib .quantumultX index node
  renderQuantumultXServerLine lib index node

def renderQuantumultX (nodes : List ResolvedNode) : Except CapabilityError String := do
  let lines ← allOk (nodes.mapIdx (renderQuantumultXNode lib))
  .ok (lineDocument (lines.map lineOf))

end

end ClashSubParser
