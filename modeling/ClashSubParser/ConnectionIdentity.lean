import ClashSubParser.InventoryReconcile
import ClashSubParser.JsonEncoding

/-! The identity the parser gives to an entry of a payload: a hash of the whole connection in a canonical
form, in which the uuid is in lower case. -/
namespace ClashSubParser

open Strings Json

/-- The map left by writing the entries one after the other, so that a later entry of a key replaces an
earlier one. -/
def GoMap.ofWrites (writes : List (String × String)) : GoMap String where
  entries := (sortedSet (writes.map Prod.fst)).map (fun k => (k, (writes.reverse.lookup k).getD ""))
  sorted := by
    rw [List.pairwise_map]
    exact (sortedSet_pairwise _).imp₂ (fun _ _ hle hne => lt_of_le_of_ne hle hne) (sortedSet_nodup _)

def GoMap.filterKeys (m : GoMap String) (keep : String → Bool) : GoMap String where
  entries := m.entries.filter (fun e => keep e.1)
  sorted := m.sorted.filter _

def obfsPasswordKeys : List String := ["obfs-password", "obfs_password"]

/-- `canonicalAuth`, with the fields a credential has. -/
structure CanonicalAuth where
  username : String
  password : String
  uuid : String
  method : String
  alterID : Int
  privateKey : String
  publicKey : String
  preSharedKey : String
  localAddress : List String
  reserved : List (BitVec 8)
  mtu : Int
  dns : List String
  congestionControl : String
  udpRelayMode : String
  alpn : List String
  sni : String
  disableSNI : Bool
  obfsPassword : String

structure CanonicalConnectionIdentity where
  version : String
  protocol : String
  server : String
  port : Int
  transport : GoMap String
  auth : CanonicalAuth

def jsonAuth (a : CanonicalAuth) : Text := object
  [optionalText "username" a.username, optionalText "password" a.password, optionalText "uuid" a.uuid,
   optionalText "method" a.method, optionalInt "alter_id" a.alterID,
   optionalText "private_key" a.privateKey, optionalText "public_key" a.publicKey,
   optionalText "pre_shared_key" a.preSharedKey, texts "local_address" a.localAddress,
   optional "reserved" (!a.reserved.isEmpty) (quoted (base64 a.reserved)), optionalInt "mtu" a.mtu,
   texts "dns" a.dns, optionalText "congestion_control" a.congestionControl,
   optionalText "udp_relay_mode" a.udpRelayMode, texts "alpn" a.alpn, optionalText "sni" a.sni,
   optional "disable_sni" a.disableSNI "true".toList, optionalText "obfs_password" a.obfsPassword]

def jsonIdentity (c : CanonicalConnectionIdentity) : Text := object
  [Json.text "version" c.version, Json.text "protocol" c.protocol, Json.text "server" c.server,
   plain "port" c.port, optional "transport" (!c.transport.entries.isEmpty) (Json.map string c.transport),
   field "auth" (jsonAuth c.auth)]

section

variable (rt : Runtime)

/-- Go ranges over a map in no fixed order; of two keys that agree in lower case the one written last is the
greater one here. -/
def canonicalTransport (transportParams : GoMap String) (creds : InboundProtocolCredential) : GoMap String :=
  let srcTransport := if transportParams.entries.isEmpty then creds.transport else transportParams
  GoMap.ofWrites (srcTransport.entries.filterMap (fun e =>
    let trimmedK := toLower rt (trimSpace e.1)
    let trimmedV := trimSpace e.2
    if trimmedK = "" ∨ trimmedV = "" ∨ trimmedK ∈ obfsPasswordKeys then none else some (trimmedK, trimmedV)))

def canonicalAuth (creds : InboundProtocolCredential) : CanonicalAuth where
  username := trimSpace creds.username
  password := creds.password
  uuid := toLower rt (trimSpace creds.uuid)
  method := toLower rt (trimSpace creds.method)
  alterID := creds.alterID
  privateKey := trimSpace creds.privateKey
  publicKey := trimSpace creds.publicKey
  preSharedKey := trimSpace creds.effectivePreSharedKey
  localAddress := sortStrings creds.localAddress
  reserved := creds.reserved
  mtu := creds.mtu
  dns := sortStrings creds.dns
  congestionControl := toLower rt (trimSpace creds.congestionControl)
  udpRelayMode := toLower rt (trimSpace creds.udpRelayMode)
  alpn := creds.alpn
  sni := toLower rt (trimSpace creds.sni)
  disableSNI := creds.disableSNI
  obfsPassword := ((creds.transport.get? "obfs-password").or (creds.transport.get? "obfs_password")).getD ""

def canonicalIdentity (protocol : Protocol) (server : String) (port : Int) (transportParams : GoMap String)
    (creds : InboundProtocolCredential) : CanonicalConnectionIdentity where
  version := "conn_v1"
  protocol := toLower rt (trimSpace protocol.text)
  server := toLower rt (trimSpace server)
  port := port
  transport := canonicalTransport rt transportParams creds
  auth := canonicalAuth rt creds

def computeConnectionLogicalID (protocol : Protocol) (server : String) (port : Int)
    (transportParams : GoMap String) (creds : InboundProtocolCredential) : String :=
  let identity := canonicalIdentity rt protocol server port transportParams creds
  "node_" ++ hexHalf (rt.sha256 (String.ofList (jsonIdentity identity)))

/-- The entry the parser makes of a proxy. The credentials hold the same map as the parameter, whose values
are trimmed in place before the identity is computed. -/
def newNormalizedNode (protocol : Protocol) (name server : String) (port : Int) (transport : GoMap String)
    (creds : InboundProtocolCredential) : ExtractedItem :=
  let server := toLower rt (trimSpace server)
  let transport := transport.filterMap (fun value => some (trimSpace value))
  let creds := { creds with transport := transport }
  let normTransport := transport.filterKeys (· ∉ obfsPasswordKeys)
  { node :=
      { logicalID := computeConnectionLogicalID rt protocol server port normTransport creds
        protocol := protocol
        displayName := if name = "" then joinHostPort server (toString port) else name
        server := server
        port := port
        credentials := creds
        active := true
        connectionRevision := 0 }
    transport := normTransport }

variable {rt}

/-- Two spellings of a uuid give one identity. The service compares the uuids of two connections as they are
written. -/
theorem logicalID_newNormalizedNode_uuid {u v : String} (h : toLower rt (trimSpace u) = toLower rt (trimSpace v))
    (protocol : Protocol) (name name' server : String) (port : Int) (transport : GoMap String)
    (creds : InboundProtocolCredential) :
    (newNormalizedNode rt protocol name server port transport { creds with uuid := u }).node.logicalID =
      (newNormalizedNode rt protocol name' server port transport { creds with uuid := v }).node.logicalID := by
  simp only [newNormalizedNode, computeConnectionLogicalID, canonicalIdentity, canonicalAuth, canonicalTransport,
    InboundProtocolCredential.effectivePreSharedKey, h]

end

theorem computeConnectionLogicalID_json (protocol : Protocol) (server : String) (port : Int)
    (transportParams : GoMap String) (creds : InboundProtocolCredential) :
    computeConnectionLogicalID asciiRuntime protocol server port transportParams creds =
      "node_" ++ hexHalf (Sha256.sumText
        (jsonIdentity (canonicalIdentity asciiRuntime protocol server port transportParams creds))) := by
  change "node_" ++ hexHalf (Sha256.sumText (String.ofList _).toList) = _
  rw [String.toList_ofList]

end ClashSubParser
