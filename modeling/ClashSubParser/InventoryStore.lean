import ClashSubParser.KeyedTable
import ClashSubParser.NodeCredentials

/-! The tables of the node inventory. A statement that breaks a foreign key or a `CHECK` fails and leaves the
tables as they are. Revisions are within `int64`, as the columns hold them. -/
namespace ClashSubParser

open KeyedTable

instance {V : Type} [DecidableEq V] : DecidableEq (GoMap V) := fun a b =>
  decidable_of_iff (a.entries = b.entries)
    ⟨fun h => by cases a; cases b; cases h; rfl, congrArg GoMap.entries⟩

deriving instance DecidableEq for InboundProtocolCredential

structure SubscriptionRow where
  id : String
  name : String
  sourceURLSecretRef : String
  namePrefix : String
deriving DecidableEq

structure ConnectionConfig where
  server : String
  port : Int
  credentials : InboundProtocolCredential
deriving DecidableEq

def Node.config (n : Node) : ConnectionConfig := ⟨n.server, n.port, n.credentials⟩

structure ConnectionVersion where
  nodeLogicalID : String
  connectionRevision : Int
  /-- `none` where the stored text is not JSON -/
  effectiveConfig : Option ConnectionConfig
  sourceEntryID : Option String

structure ConnectionHead where
  logicalID : String
  connectionRevision : Int

structure NodeOverride where
  nodeLogicalID : String
  fieldPath : String
  overrideValueJSON : String

structure NodeSourceHistory where
  nodeLogicalID : String
  subscriptionID : Option String
  sourceIdentity : String
  connectionRevision : Int
  evidenceKey : String

inductive EntryKind
  | proxy | notice | unknown
deriving DecidableEq

structure SubscriptionEntry where
  id : String
  payloadID : String
  subscriptionID : String
  ordinal : ℕ
  sourceKey : String
  rawName : String
  entryKind : EntryKind
  userKindOverride : Option EntryKind
  overrideAnchor : String
  nodeLogicalID : Option String
  /-- in seconds -/
  createdAt : Int

/-- The tables; the entries of subscriptions stand in the order of their row ids. -/
structure Inventory where
  subscriptions : Table SubscriptionRow.id
  nodes : Table Node.logicalID
  sources : Table (fun s : NodeSource => (s.nodeLogicalID, s.subscriptionID))
  versions : Table (fun v : ConnectionVersion => (v.nodeLogicalID, v.connectionRevision))
  heads : Table ConnectionHead.logicalID
  overrides : Table (fun o : NodeOverride => (o.nodeLogicalID, o.fieldPath))
  history : Table (fun h : NodeSourceHistory => (h.nodeLogicalID, h.evidenceKey))
  entries : List SubscriptionEntry

namespace Inventory

def empty : Inventory where
  subscriptions := Table.empty
  nodes := Table.empty
  sources := Table.empty
  versions := Table.empty
  heads := Table.empty
  overrides := Table.empty
  history := Table.empty
  entries := []

variable (db : Inventory) (id : String)

def hasNode : Bool := (db.nodes.get? id).isSome

def hasEntry : Bool := db.entries.any (fun e => e.id == id)

variable (subID : String)

def hasSource : Bool := (db.sources.get? (id, subID)).isSome

def hasOtherOwner : Bool :=
  db.sources.rows.any (fun s => s.nodeLogicalID == id && s.subscriptionID != subID)

variable (v : ConnectionVersion)

def acceptsVersion : Bool :=
  db.hasNode v.nodeLogicalID && v.sourceEntryID.all db.hasEntry

def writeVersion : Inventory :=
  if db.acceptsVersion v then { db with versions := db.versions.put v } else db

def upsertVersion : Inventory :=
  match db.versions.get? (v.nodeLogicalID, v.connectionRevision) with
  | none => db.writeVersion v
  | some old => db.writeVersion { v with sourceEntryID := old.sourceEntryID.or v.sourceEntryID }

def upsertHead (rev : Int) : Inventory :=
  if db.hasNode id && (db.versions.get? (id, rev)).isSome then
    { db with heads := db.heads.put ⟨id, rev⟩ }
  else db

def upsertNode (n : Node) : Inventory := { db with nodes := db.nodes.put n }

def upsertSource (s : NodeSource) : Inventory := { db with sources := db.sources.put s }

def deleteSource : Inventory :=
  { db with sources := db.sources.deleteWhere (fun s => (s.nodeLogicalID, s.subscriptionID) = (id, subID)) }

/-- Of a stored row of the same evidence only the time of its last observation changes. -/
def insertHistory (h : NodeSourceHistory) : Inventory :=
  if (db.history.get? (h.nodeLogicalID, h.evidenceKey)).isSome then db
  else { db with history := db.history.put h }

def latestRawName (nodeID : String) : Option String :=
  let listed := db.entries.filter (fun e => e.subscriptionID = subID ∧ e.nodeLogicalID = some nodeID)
  let newer (best : Option SubscriptionEntry) (e : SubscriptionEntry) : Option SubscriptionEntry :=
    match best with
    | none => some e
    | some b => if b.createdAt ≤ e.createdAt then some e else some b
  (listed.foldl newer none).map SubscriptionEntry.rawName

end Inventory

end ClashSubParser
