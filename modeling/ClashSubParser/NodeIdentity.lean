import ClashSubParser.InventoryStore

/-! When two nodes have the same connection, and the identities under which a node is stored. -/
namespace ClashSubParser

open Strings

/-- `hex.EncodeToString(sum[:16])`. -/
def hexHalf (sum : Fin 32 → BitVec 8) : String :=
  String.join (((List.finRange 32).take 16).map (fun i => Strconv.hexByte (sum i)))

def areInboundCredentialsEqual (a b : InboundProtocolCredential) : Bool :=
  a.password == b.password && a.uuid == b.uuid && a.method == b.method && a.alterID == b.alterID &&
  a.privateKey == b.privateKey && a.publicKey == b.publicKey &&
  a.effectivePreSharedKey == b.effectivePreSharedKey && a.mtu == b.mtu &&
  a.congestionControl == b.congestionControl && a.udpRelayMode == b.udpRelayMode && a.sni == b.sni &&
  a.disableSNI == b.disableSNI && a.username == b.username &&
  a.localAddress == b.localAddress && a.reserved == b.reserved && a.dns == b.dns && a.alpn == b.alpn &&
  a.transport.entries.length == b.transport.entries.length &&
  a.transport.entries.all (fun e => b.transport.get? e.1 == some e.2)

section

variable (rt : Runtime)

/-- Servers are compared without their surrounding space and up to case. -/
def areConnectionParametersEqual (a b : Node) : Bool :=
  a.protocol == b.protocol && equalFold rt (trimSpace a.server) (trimSpace b.server) && a.port == b.port &&
  areInboundCredentialsEqual a.credentials b.credentials

def computeScopedLogicalID (subscriptionID baseLogicalID : String) : String :=
  "node_" ++ hexHalf (rt.sha256 (subscriptionID ++ "|" ++ baseLogicalID))

def sensitiveKeys : List String :=
  ["password", "secret", "token", "key", "private_key", "private-key", "public_key", "public-key",
    "preshared_key", "pre_shared_key", "pre-shared-key", "psk", "obfs-password", "obfs_password", "uuid",
    "auth", "username", "user"]

/-- The values are looked up under the keys in lower case, so that those of other keys are lost. -/
def computeNodeLogicalID (protocol : Protocol) (server : String) (port : Int) (transportParams : GoMap String) :
    String :=
  let keys := (transportParams.entries.map (fun e => toLower rt (trimSpace e.1))).filter (· ∉ sensitiveKeys)
  let paramParts := (sortStrings keys).map (fun k => k ++ "=" ++ trimSpace (transportParams.value k))
  let canonical := toLower rt (trimSpace protocol.text) ++ "|" ++ toLower rt (trimSpace server) ++ "|" ++
    toString port ++ "|" ++ join paramParts "&"
  "node_" ++ hexHalf (rt.sha256 canonical)

end

theorem GoMap.get?_eq_some {V : Type} {m : GoMap V} {k : String} {v : V} (h : (k, v) ∈ m.entries) :
    m.get? k = some v := by
  have hso := m.sorted
  rw [GoMap.get?]
  revert h hso
  generalize m.entries = entries
  intro h hso
  induction entries with
  | nil => cases h
  | cons e rest ih =>
    rw [List.pairwise_cons] at hso
    rcases List.mem_cons.mp h with rfl | hr
    · simp
    · have hlt : e.1 < k := hso.1 (k, v) hr
      have hne : (k == e.1) = false := beq_false_of_ne hlt.ne'
      rw [List.lookup_cons, hne]
      exact ih hr hso.2

theorem areInboundCredentialsEqual_self (c : InboundProtocolCredential) : areInboundCredentialsEqual c c = true := by
  have ht : c.transport.entries.all (fun e => c.transport.get? e.1 == some e.2) = true := by
    rw [List.all_eq_true]
    intro e he
    rw [GoMap.get?_eq_some (k := e.1) (v := e.2) he]
    exact beq_self_eq_true _
  simp [areInboundCredentialsEqual, ht]

/-- Nodes with one configuration have one connection. -/
theorem areConnectionParametersEqual_of_config {rt : Runtime} (hf : ∀ c, rt.foldRune c c = true)
    {a b : Node} (hp : a.protocol = b.protocol) (hc : a.config = b.config) :
    areConnectionParametersEqual rt a b = true := by
  have hsv : a.server = b.server := congrArg ConnectionConfig.server hc
  have hpo : a.port = b.port := congrArg ConnectionConfig.port hc
  have hcr : a.credentials = b.credentials := congrArg ConnectionConfig.credentials hc
  have heq : ∀ s, equalFold rt s s = true := by
    intro s
    have ha : ∀ l : List Char, (l.zip l).all (fun p => rt.foldRune p.1 p.2) = true := by
      intro l
      induction l with
      | nil => rfl
      | cons c l ih => simp [hf, ih]
    simp [equalFold, ha]
  rw [areConnectionParametersEqual, hp, hsv, hpo, hcr, heq, areInboundCredentialsEqual_self]
  simp

end ClashSubParser
