import ClashSubParser.DisplayNames

/-! Reconciling a subscription. What entries are matched against is read once, before the first one is
written. -/
namespace ClashSubParser

open Strings

structure ExtractedItem where
  node : Node
  transport : GoMap String

structure ExtractResult where
  items : List ExtractedItem
  rejected : ℕ

inductive Fetched
  | fetchFailed (e : GoError)
  | parseFailed (e : GoError)
  | extracted (r : ExtractResult)

inductive FetchOutcome
  | success | partially | failed
deriving DecidableEq

structure ReconcileStamp where
  fetchID : String
  payloadID : String
  entryID : ℕ → String
  now : Int

structure ReconcileResult where
  fetchID : String
  outcome : FetchOutcome
  nodesParsed : ℕ
  nodesValid : ℕ

/-! ### Classification -/

def noticeKeywords : List String := ["剩余流量", "套餐到期", "新域名", "公告", "通知"]

def zeroUUID : String := "00000000-0000-4000-8000-000000000000"

def classifySubscriptionEntry (rt : Runtime) (isVerifiedSource : Bool) (server : String) (port : Int)
    (creds : InboundProtocolCredential) (rawName : String) : EntryKind × String × String :=
  let normServer := toLower rt (trimSpace server)
  let isLoopbackOrZero := ["127.0.0.1", "localhost", "0.0.0.0"].contains normServer
  let isZeroUUID := trimSpace creds.uuid == zeroUUID || trimSpace creds.password == zeroUUID
  let hasNoticeKeyword := noticeKeywords.any (fun k => contains rawName k)
  if isLoopbackOrZero && port == 1 && isZeroUUID && hasNoticeKeyword then
    if isVerifiedSource then (.notice, "Verified source notice combo rule match", "v2-proven-combo")
    else (.unknown, "Matches notice pattern but source lacks verified rule gate", "v2-proven-combo")
  else (.proxy, "Normal proxy", "v2-proven-combo")

def SubscriptionRow.isVerifiedSource (rt : Runtime) (sub : SubscriptionRow) : Bool :=
  sub.id == "01a0b9af-c116-7967-bc7f-197aa43a2e49" || contains (toLower rt sub.name) "dogegg" ||
    contains (toLower rt sub.sourceURLSecretRef) "dogegg"

structure PrevOverride where
  kind : EntryKind
  anchor : String

structure KindOverrides where
  byAnchor : String → Option PrevOverride
  byName : String → Option PrevOverride
  ambiguous : List String

/-- The first kind recorded for a key stays; another kind makes the key ambiguous. -/
def recordOverride (known : String → Option PrevOverride) (ambiguous : List String) (key : String)
    (po : PrevOverride) : (String → Option PrevOverride) × List String :=
  match known key with
  | some old =>
    if old.kind ≠ po.kind then (known, key :: ambiguous) else (Function.update known key (some po), ambiguous)
  | none => (Function.update known key (some po), ambiguous)

def KindOverrides.record (o : KindOverrides) (e : SubscriptionEntry) (kind : EntryKind) : KindOverrides :=
  let po : PrevOverride := ⟨kind, e.overrideAnchor⟩
  let (byAnchor, ambiguous) := recordOverride o.byAnchor o.ambiguous e.overrideAnchor po
  let (byAnchor, ambiguous) :=
    if e.sourceKey ≠ "" then recordOverride byAnchor ambiguous e.sourceKey po else (byAnchor, ambiguous)
  let (byName, ambiguous) :=
    if e.rawName ≠ "" then recordOverride o.byName ambiguous e.rawName po else (o.byName, ambiguous)
  ⟨byAnchor, byName, ambiguous⟩

def loadKindOverrides (db : Inventory) (subID : String) : KindOverrides :=
  (db.entries.filter (fun e => e.subscriptionID = subID)).foldl
    (fun o e => (e.userKindOverride.map (o.record e)).getD o) ⟨fun _ => none, fun _ => none, []⟩

def KindOverrides.lookup (o : KindOverrides) (sourceKey displayName : String) : Option PrevOverride :=
  match o.byAnchor sourceKey with
  | some po => if sourceKey ∈ o.ambiguous then none else some po
  | none =>
    match o.byName displayName with
    | some po => if displayName ∈ o.ambiguous then none else some po
    | none => none

/-! ### What is read before the loop -/

def existingNodes (db : Inventory) (subID : String) : List Node :=
  (db.nodes.rows.filter (fun n => db.hasSource n.logicalID subID ||
    db.history.rows.any (fun h => h.nodeLogicalID == n.logicalID && h.subscriptionID == some subID))).map
      (fun n => { n with displayName := (db.latestRawName subID n.logicalID).getD n.displayName })

structure ReconcileContext where
  sub : SubscriptionRow
  success : Bool
  existing : List Node
  kindOverrides : KindOverrides
  fieldOverrides : List NodeOverride
  items : List ExtractedItem
  stamp : ReconcileStamp

def loadContext (db : Inventory) (sub : SubscriptionRow) (stamp : ReconcileStamp) (extract : ExtractResult) :
    ReconcileContext where
  sub := sub
  success := extract.rejected == 0
  existing := existingNodes db sub.id
  kindOverrides := loadKindOverrides db sub.id
  fieldOverrides := db.overrides.rows
  items := extract.items
  stamp := stamp

/-! ### Matching -/

def Node.nameProtoKey (n : Node) : String := n.displayName ++ "|" ++ n.protocol.text

def Node.sourceKey (n : Node) : String :=
  n.protocol.text ++ "|" ++ n.server ++ "|" ++ toString n.port ++ "|" ++ n.displayName

def applyFieldOverride (lib : InventoryLibraries) (node : Node) (fieldPath valJSON : String) : Node :=
  let text := lib.unmarshalString "" valJSON
  match toLower lib.toRuntime fieldPath with
  | "server" =>
    match text with
    | .ok s => if s ≠ "" then { node with server := s } else node
    | .error _ => node
  | "port" =>
    match lib.unmarshalInt valJSON with
    | .ok p => if 0 < p then { node with port := p } else node
    | .error _ => node
  | "sni" =>
    match text with
    | .ok s => { node with credentials := { node.credentials with sni := s } }
    | .error _ => node
  | "password" =>
    match text with
    | .ok s => { node with credentials := { node.credentials with password := s } }
    | .error _ => node
  | "uuid" =>
    match text with
    | .ok s => { node with credentials := { node.credentials with uuid := s } }
    | .error _ => node
  | _ => node

namespace ReconcileContext

variable (lib : InventoryLibraries) (ctx : ReconcileContext) (node : Node)

def classify : EntryKind :=
  (classifySubscriptionEntry lib.toRuntime (ctx.sub.isVerifiedSource lib.toRuntime) node.server node.port
    node.credentials node.displayName).1

def userOverride : Option PrevOverride :=
  ctx.kindOverrides.lookup node.sourceKey node.displayName

def effectiveKind : EntryKind :=
  ((ctx.userOverride node).map PrevOverride.kind).getD (ctx.classify lib node)

variable (item : ExtractedItem)

def candidateID : String :=
  if item.node.logicalID = "" then
    computeNodeLogicalID lib.toRuntime item.node.protocol item.node.server item.node.port item.transport
  else item.node.logicalID

def scopedCandidateID : String :=
  computeScopedLogicalID lib.toRuntime ctx.sub.id (candidateID lib item)

def findExisting (id : String) : Option Node := ctx.existing.find? (fun n => n.logicalID = id)

def byIdentity : Option Node :=
  if node.logicalID = "" then none else ctx.findExisting node.logicalID

def byName : Option Node :=
  match ctx.existing.filter (fun n => n.nameProtoKey = node.nameProtoKey) with
  | [m] => some m
  | _ => none

def uniqueIncoming : Bool :=
  (ctx.items.filter (fun item => item.node.nameProtoKey = node.nameProtoKey)).length == 1

def matchedNotice : Option Node := (ctx.byIdentity node).or (ctx.byName node)

/-- Identity first, then a name that is unique on both sides, then the identity of this subscription's
own copy, then the computed one. -/
def matchedNode : Option Node :=
  (ctx.byIdentity item.node).or
    ((if ctx.uniqueIncoming item.node then ctx.byName item.node else none).or
      ((ctx.findExisting (ctx.scopedCandidateID lib item)).or (ctx.findExisting (candidateID lib item))))

def withOverrides (id : String) (node : Node) : Node :=
  (ctx.fieldOverrides.filter (fun o => o.nodeLogicalID = id)).foldl
    (fun node o => applyFieldOverride lib node o.fieldPath o.overrideValueJSON) node

def entryNode : Node :=
  match ctx.matchedNode lib item with
  | some m => ctx.withOverrides lib m.logicalID item.node
  | none => item.node

end ReconcileContext

/-! ### Placing -/

/-- The row an entry is written to, and what is stored there beside the entry's own fields. -/
structure Placement where
  target : String
  revision : Int
  active : Bool

section

variable (lib : InventoryLibraries) (ctx : ReconcileContext) (db : Inventory)

/-- A changed connection gets the next revision, in a row of its own where others share the node. -/
def placeMatched (m node : Node) (scopedID : String) : Placement :=
  if areConnectionParametersEqual lib.toRuntime m node then ⟨m.logicalID, m.connectionRevision, m.active⟩
  else if db.hasOtherOwner m.logicalID ctx.sub.id then ⟨scopedID, int64 (m.connectionRevision+1), m.active⟩
  else ⟨m.logicalID, int64 (m.connectionRevision+1), m.active⟩

/-- The stored row of the computed identity is taken over where it has the same connection. -/
def placeCandidate (ex node : Node) (candidate scopedID : String) : Placement :=
  if db.hasSource candidate ctx.sub.id then ⟨candidate, ex.connectionRevision, ex.active⟩
  else if db.hasOtherOwner candidate ctx.sub.id then
    if areConnectionParametersEqual lib.toRuntime ex node then ⟨candidate, ex.connectionRevision, ex.active⟩
    else ⟨scopedID, 1, true⟩
  else
    if areConnectionParametersEqual lib.toRuntime ex node then ⟨candidate, ex.connectionRevision, true⟩
    else ⟨scopedID, 1, true⟩

def placeScoped (node : Node) (scopedID : String) (active : Bool) : Placement :=
  match db.nodes.get? scopedID with
  | some sc =>
    if areConnectionParametersEqual lib.toRuntime sc node then
      ⟨scopedID, sc.connectionRevision, active && sc.active⟩
    else ⟨scopedID, int64 (sc.connectionRevision+1), active && sc.active⟩
  | none => ⟨scopedID, 1, true⟩

def placeUnmatched (node : Node) (candidate scopedID : String) : Placement :=
  match db.nodes.get? candidate with
  | none => ⟨candidate, 1, true⟩
  | some ex =>
    let p := placeCandidate lib ctx db ex node candidate scopedID
    if p.target = scopedID then placeScoped lib db node scopedID p.active else p

def place (item : ExtractedItem) : Placement :=
  match ctx.matchedNode lib item with
  | some m => placeMatched lib ctx db m (ctx.entryNode lib item) (ctx.scopedCandidateID lib item)
  | none =>
    placeUnmatched lib ctx db item.node (ReconcileContext.candidateID lib item) (ctx.scopedCandidateID lib item)

/-- The table refuses a revision that has wrapped around, which ends the transaction. -/
def refusal (item : ExtractedItem) : Option GoError :=
  let p := place lib ctx db item
  if p.revision ≤ 0 then
    some (.wrapped ("failed to upsert node " ++ p.target ++ ": ")
      (.plain "constraint failed: CHECK constraint failed: connection_revision > 0 (275)"))
  else none

end

/-! ### Writing -/

section

variable (lib : InventoryLibraries) (ctx : ReconcileContext) (db : Inventory)

/-- Version and head at a placement. The entry the version refers to is stored only later. -/
def recordConnection (p : Placement) (node : Node) (entryID : String) : Inventory :=
  (db.upsertVersion ⟨p.target, p.revision, some node.config, some entryID⟩).upsertHead p.target p.revision

/-- A node that others share is left to them; its association goes only if the payload is complete. -/
def unlinkShared (m : Node) : Inventory :=
  let db := db.insertHistory
    { nodeLogicalID := m.logicalID
      subscriptionID := some ctx.sub.id
      sourceIdentity := "sub:" ++ ctx.sub.id
      connectionRevision := m.connectionRevision
      evidenceKey := "cow_unlinked:" ++ m.logicalID ++ ":" ++ ctx.sub.id }
  if ctx.success then db.deleteSource m.logicalID ctx.sub.id else db

def prepare (item : ExtractedItem) (entryID : String) : Inventory :=
  let node := ctx.entryNode lib item
  let p := place lib ctx db item
  match ctx.matchedNode lib item with
  | some m =>
    if areConnectionParametersEqual lib.toRuntime m node then
      db.upsertVersion ⟨p.target, p.revision, some node.config, some entryID⟩
    else if db.hasOtherOwner m.logicalID ctx.sub.id then
      recordConnection (unlinkShared ctx db m) p node entryID
    else recordConnection db p node entryID
  | none => recordConnection db p node entryID

structure Progress where
  db : Inventory
  seen : List String

def placedNode (p : Placement) (node : Node) : Node :=
  { node with logicalID := p.target, active := p.active, connectionRevision := p.revision }

def ingestNode (st : Progress) (item : ExtractedItem) (entryID : String) : Progress :=
  let p := place lib ctx st.db item
  let db := (prepare lib ctx st.db item entryID).upsertNode (placedNode p (ctx.entryNode lib item))
  if p.target ∈ st.seen then ⟨db, st.seen⟩
  else ⟨db.upsertSource ⟨p.target, ctx.sub.id, ctx.stamp.fetchID⟩, p.target :: st.seen⟩

def entryRow (ordinal : ℕ) (node : Node) (attached : Option String) : SubscriptionEntry where
  id := ctx.stamp.entryID ordinal
  payloadID := ctx.stamp.payloadID
  subscriptionID := ctx.sub.id
  ordinal := ordinal
  sourceKey := node.sourceKey
  rawName := node.displayName
  entryKind := ctx.classify lib node
  userKindOverride := (ctx.userOverride node).map PrevOverride.kind
  overrideAnchor := ((ctx.userOverride node).map PrevOverride.anchor).getD ""
  nodeLogicalID := attached.filter (fun id => id ≠ "")
  createdAt := ctx.stamp.now

def Progress.addEntry (st : Progress) (e : SubscriptionEntry) : Progress :=
  { st with db := { st.db with entries := st.db.entries ++ [e] } }

def ingest (st : Progress) (ordinal : ℕ) (item : ExtractedItem) : Progress :=
  if ctx.effectiveKind lib item.node = .notice then
    st.addEntry (entryRow lib ctx ordinal item.node ((ctx.matchedNotice item.node).map Node.logicalID))
  else
    (ingestNode lib ctx st item (ctx.stamp.entryID ordinal)).addEntry
      (entryRow lib ctx ordinal item.node (some (place lib ctx st.db item).target))

def ingestAll : ℕ → Progress → List ExtractedItem → Progress
  | _, st, [] => st
  | ordinal, st, item :: rest => ingestAll (ordinal + 1) (ingest lib ctx st ordinal item) rest

def firstRefusal : ℕ → Progress → List ExtractedItem → Option GoError
  | _, _, [] => none
  | ordinal, st, item :: rest =>
    (if ctx.effectiveKind lib item.node = .notice then none else refusal lib ctx st.db item).or
      (firstRefusal (ordinal + 1) (ingest lib ctx st ordinal item) rest)

def isStale (s : NodeSource) : Bool :=
  s.subscriptionID == ctx.sub.id && s.lastSeenFetchID != ctx.stamp.fetchID

def archiveSource (s : NodeSource) : Inventory :=
  match db.nodes.get? s.nodeLogicalID with
  | some n => db.insertHistory
      { nodeLogicalID := s.nodeLogicalID
        subscriptionID := some ctx.sub.id
        sourceIdentity := "sub:" ++ ctx.sub.id
        connectionRevision := n.connectionRevision
        evidenceKey := "refresh_removed:" ++ ctx.sub.id ++ ":" ++ s.lastSeenFetchID }
  | none => db

def pruneSources : Inventory :=
  let archived := (db.sources.rows.filter (isStale ctx)).foldl (archiveSource ctx) db
  { archived with sources := archived.sources.deleteWhere (isStale ctx) }

def settled : Progress :=
  let st := ingestAll lib ctx 0 ⟨db, []⟩ ctx.items
  if ctx.success then { st with db := pruneSources ctx st.db } else st

end

/-- Only a payload with entries reaches the transaction; an error leaves the tables as they are. -/
def reconcileSubscription (lib : InventoryLibraries) (db : Inventory) (subID : String)
    (stamp : ReconcileStamp) (fetched : Fetched) : Except GoError (Inventory × ReconcileResult) :=
  match db.subscriptions.get? subID with
  | none => .error (.domain (newNotFoundError lib.toRuntime "subscription_not_found"
      ("subscription " ++ subID ++ " not found")))
  | some sub =>
    match fetched with
    | .fetchFailed e => .error (.wrapped ("failed to fetch subscription " ++ sub.id ++ ": ") e)
    | .parseFailed e => .error (.wrapped ("failed to parse subscription " ++ sub.id ++ " content: ") e)
    | .extracted extract =>
      if extract.items.isEmpty then
        .error (.plain ("failed to reconcile subscription " ++ sub.id ++
          ": [stage:parse reason_code:empty_subscription] extracted 0 valid nodes from subscription content"))
      else
        let ctx := loadContext db sub stamp extract
        match firstRefusal lib ctx 0 ⟨db, []⟩ ctx.items with
        | some e => .error (.wrapped "reconcile transaction failed: " e)
        | none =>
          let st := settled lib ctx db
          match st.db.recomputeNodeDisplayNames lib (ctx.existing.map Node.logicalID ++ st.seen) GoMap.empty with
          | .error e => .error (.wrapped "reconcile transaction failed: " e)
          | .ok db' => .ok (db',
              { fetchID := stamp.fetchID
                outcome := if ctx.success then .success else .partially
                nodesParsed := extract.items.length + extract.rejected
                nodesValid := extract.items.length })

end ClashSubParser
