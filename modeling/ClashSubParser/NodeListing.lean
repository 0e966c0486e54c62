import ClashSubParser.InventoryReconcile
import ClashSubParser.StableSort

/-! What the node repository lists: the conditions of `node_predicates.go` and the pages of `List`. -/
namespace ClashSubParser

open List KeyedTable StableSort

structure SubscriptionFetch where
  id : String
  subscriptionID : String
  outcome : FetchOutcome
  startedAt : Int

/-- `ORDER BY started_at DESC, id DESC`. -/
def SubscriptionFetch.newer (f g : SubscriptionFetch) : Bool :=
  g.startedAt < f.startedAt || (f.startedAt = g.startedAt && g.id < f.id)

/-- The inventory with the tables and columns that only the node queries read. -/
structure NodeTables extends Inventory where
  /-- the subscriptions with `enabled = 1` -/
  enabledIDs : List String
  fetches : List SubscriptionFetch
  /-- the nodes whose history has a row of cause `manual_confirmed` -/
  confirmedIDs : List String
  nodeCreatedAt : String → Int

inductive NodeScope
  | default | enabledSubscriptions | allAssets
deriving DecidableEq

/-- The fields of a `NodeFilter` that the probe runner sets. -/
structure NodeQuery where
  scope : NodeScope
  activeOnly : Bool
  logicalIDs : List String
  excludeNotices : Bool
  page : Int
  pageSize : Int

namespace NodeQuery

def effectivePageSize (f : NodeQuery) : ℕ :=
  if f.pageSize ≤ 0 then 50 else if f.pageSize > 100 then 100 else f.pageSize.toNat

def effectivePage (f : NodeQuery) : ℕ := if f.page ≤ 0 then 1 else f.page.toNat

end NodeQuery

namespace NodeTables

variable (db : NodeTables)

def latestGoodFetch (subID : String) : Option String :=
  let good := db.fetches.filter fun f =>
    f.subscriptionID = subID && (f.outcome = .success || f.outcome = .partially)
  let pick (best : Option SubscriptionFetch) (f : SubscriptionFetch) : Option SubscriptionFetch :=
    match best with
    | none => some f
    | some b => if f.newer b then some f else some b
  (good.foldl pick none).map SubscriptionFetch.id

variable (id : String)

/-- An enabled subscription listed the node in its latest good fetch. -/
def listedByEnabled : Bool :=
  db.sources.rows.any fun s =>
    s.nodeLogicalID = id && (db.subscriptions.get? s.subscriptionID).isSome &&
      db.enabledIDs.contains s.subscriptionID && s.lastSeenFetchID ≠ "" &&
      db.latestGoodFetch s.subscriptionID = some s.lastSeenFetchID

/-- An active node without a source that was confirmed by hand, or that no subscription ever brought. -/
def standsAlone : Bool :=
  db.nodes.rows.any (fun n => n.logicalID = id && n.active) &&
    !db.sources.rows.any (fun s => s.nodeLogicalID = id) &&
    (db.confirmedIDs.contains id ||
      (!db.entries.any (fun e => e.nodeLogicalID = some id) && !db.history.rows.any (fun h => h.nodeLogicalID = id)))

/-- `enabledSubscriptionsInventorySubquery`. -/
def inEnabledInventory : Bool := db.listedByEnabled id || db.standsAlone id

/-- `confirmedNoticeExclusionSubquery`: some entry of the node is a notice and none was declared a proxy. -/
def isConfirmedNotice : Bool :=
  db.entries.any (fun e => e.nodeLogicalID = some id && e.userKindOverride.getD e.entryKind = .notice) &&
    !db.entries.any fun e => e.nodeLogicalID = some id && e.userKindOverride = some .proxy

/-- `buildNodeFilterPredicates`. -/
def admits (f : NodeQuery) (n : Node) : Bool :=
  (if f.scope = .enabledSubscriptions then db.inEnabledInventory n.logicalID && !db.isConfirmedNotice n.logicalID
    else !f.excludeNotices || !db.isConfirmedNotice n.logicalID) &&
  (!f.activeOnly || n.active) && (f.logicalIDs.isEmpty || f.logicalIDs.contains n.logicalID)

/-- The columns of the current connection version stand for those of the node. -/
def withConnection (n : Node) : Node :=
  match db.heads.get? n.logicalID with
  | none => n
  | some head =>
    let n := { n with connectionRevision := head.connectionRevision }
    match (db.versions.get? (n.logicalID, head.connectionRevision)).bind (·.effectiveConfig) with
    | none => n
    | some config => { n with server := config.server, port := config.port, credentials := config.credentials }

def matching (f : NodeQuery) : List Node := db.nodes.rows.filter (db.admits f)

/-- `List`: a page of the matching nodes, the newest first, and how many there are. -/
def list (f : NodeQuery) : List Node × ℕ :=
  let sorted :=
    stableSort (fun a b => decide (db.nodeCreatedAt b.logicalID < db.nodeCreatedAt a.logicalID)) (db.matching f)
  let offset := (f.effectivePage - 1) * f.effectivePageSize
  (((sorted.drop offset).take f.effectivePageSize).map db.withConnection, (db.matching f).length)

end NodeTables

/-! ### The first page of a query for given ids -/

namespace NodeTables

variable {db : NodeTables} {f : NodeQuery}

@[simp] theorem withConnection_logicalID (n : Node) : (db.withConnection n).logicalID = n.logicalID := by
  rw [withConnection]
  split
  · rfl
  · dsimp only
    split <;> rfl

theorem map_logicalID_withConnection (nodes : List Node) :
    (nodes.map db.withConnection).map Node.logicalID = nodes.map Node.logicalID := by
  rw [map_map]
  apply map_congr_left
  intro n _
  exact withConnection_logicalID n

/-- A query lists no node twice. -/
theorem nodup_matching : ((db.matching f).map Node.logicalID).Nodup :=
  db.nodes.nodup.sublist (filter_sublist.map Node.logicalID)

theorem list_first_page (hpa : f.effectivePage = 1) :
    ∃ rest, ((db.list f).1.map Node.logicalID ++ rest).Perm ((db.matching f).map Node.logicalID) ∧
      (db.list f).1.length = min f.effectivePageSize (db.matching f).length := by
  let less (a b : Node) : Bool := decide (db.nodeCreatedAt b.logicalID < db.nodeCreatedAt a.logicalID)
  have hp : (db.list f).1 = ((stableSort less (db.matching f)).take f.effectivePageSize).map db.withConnection := by
    rw [list, hpa, Nat.sub_self, Nat.zero_mul]
    rfl
  refine ⟨((stableSort less (db.matching f)).drop f.effectivePageSize).map Node.logicalID, ?_, ?_⟩
  · rw [hp, map_logicalID_withConnection, ← map_append, take_append_drop]
    exact (stableSort_perm less _).map _
  · rw [hp, length_map, length_take, (stableSort_perm less _).length_eq]

end NodeTables

end ClashSubParser
