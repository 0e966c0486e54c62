import ClashSubParser.ConnectionIdentity
import ClashSubParser.RefreshEffects

/-! Whether a refresh leaves the nodes of other subscriptions alone. An entry that has joined a shared node
makes a later one with its identity take the node for one of its own. -/
namespace ClashSubParser

open KeyedTable Strings

/-- What a refresh of a subscription owes the other owners of a node: the node's connection, as the service
compares connections, and their association with it. -/
structure Isolated (lib : InventoryLibraries) (subID : String) (db db' : Inventory) : Prop where
  connection : ∀ s ∈ db.sources.rows, s.subscriptionID ≠ subID → ∀ n ∈ db.nodes.get? s.nodeLogicalID,
    ∃ n', db'.nodes.get? s.nodeLogicalID = some n' ∧ areConnectionParametersEqual lib.toRuntime n n' = true
  association : ∀ s ∈ db.sources.rows, s.subscriptionID ≠ subID →
    db'.hasSource s.nodeLogicalID s.subscriptionID = true

/-- Before the call: where entries reach a node that another subscription owns, the last of them has the
connection stored there. -/
def SharesEqually (lib : InventoryLibraries) (ctx : ReconcileContext) (db : Inventory) : Prop :=
  ∀ s ∈ db.sources.rows, s.subscriptionID ≠ ctx.sub.id → ∀ n ∈ db.nodes.get? s.nodeLogicalID,
    ∀ item ∈ lastPlaced (destinations lib ctx db [] ctx.items) s.nodeLogicalID,
      areConnectionParametersEqual lib.toRuntime n (ctx.entryNode lib item) = true

instance (lib : InventoryLibraries) (ctx : ReconcileContext) (db : Inventory) :
    Decidable (SharesEqually lib ctx db) := inferInstanceAs (Decidable (∀ s ∈ _, _))

theorem areConnectionParametersEqual_congr (rt : Runtime) (n : Node) {a b : Node} (h : a.StoresConnection b) :
    areConnectionParametersEqual rt n a = areConnectionParametersEqual rt n b := by
  have hsv : a.server = b.server := congrArg ConnectionConfig.server h.2
  have hp : a.port = b.port := congrArg ConnectionConfig.port h.2
  have hc : a.credentials = b.credentials := congrArg ConnectionConfig.credentials h.2
  rw [areConnectionParametersEqual, areConnectionParametersEqual, h.1, hsv, hp, hc]

theorem uuid_eq_of_equal {rt : Runtime} {a b : Node} (h : areConnectionParametersEqual rt a b = true) :
    a.credentials.uuid = b.credentials.uuid := by
  by_contra hne
  simp [areConnectionParametersEqual, areInboundCredentialsEqual, hne] at h

theorem Inventory.SameOthers.hasSource {subID : String} {db db' : Inventory} (h : db.SameOthers subID db')
    {s : NodeSource} (hs : s ∈ db.sources.rows) (ho : s.subscriptionID ≠ subID) :
    db'.hasSource s.nodeLogicalID s.subscriptionID = true := by
  have hr : db'.sources.get? (s.nodeLogicalID, s.subscriptionID) = some s :=
    Table.get?_eq_some.mpr ⟨(h s ho).mpr hs, rfl⟩
  rw [Inventory.hasSource, hr]
  rfl

section

variable {lib : InventoryLibraries} {db : Inventory} {subID : String} {stamp : ReconcileStamp} {fetched : Fetched}

variable (hfold : ∀ c, lib.foldRune c c = true)
include hfold

theorem isolated_self : Isolated lib subID db db where
  connection _ _ _ n hn := ⟨n, hn, areConnectionParametersEqual_of_config hfold rfl rfl⟩
  association _ hs hother := (Inventory.SameOthers.refl subID db).hasSource hs hother

/-- After a call that returns, the row of a shared node compares as the last entry that reached it, or as
before. -/
theorem isolated_iff_sharesEqually {ctx : ReconcileContext} {db' : Inventory}
    (htr : Tracks lib ctx db ⟨db, []⟩ []) (hr : Inventory.OnlyRenamed (settled lib ctx db).db db') :
    Isolated lib ctx.sub.id db db' ↔ SharesEqually lib ctx db := by
  have hsr := congrArg Inventory.sources hr.tables
  have hot : db.SameOthers ctx.sub.id db' := htr.sameOthers.trans (.of_sources hsr)
  constructor
  · intro h s hs ho n hn item hi
    have hl := htr.lastWrites s.nodeLogicalID
    rw [Option.mem_def.mp hi] at hl
    obtain ⟨m, hm, hst⟩ := hl
    obtain ⟨m', hm', hs'⟩ := hr.storesConnection hm hst
    obtain ⟨n', hn', heq⟩ := h.connection s hs ho n hn
    obtain rfl := Option.some.inj (hm'.symm.trans hn')
    rw [← areConnectionParametersEqual_congr lib.toRuntime n hs']
    exact heq
  · intro h
    refine ⟨fun s hs ho n hn => ?_, fun s hs ho => hot.hasSource hs ho⟩
    have hl := htr.lastWrites s.nodeLogicalID
    cases hplaced : lastPlaced (destinations lib ctx db [] ctx.items) s.nodeLogicalID with
    | some item =>
      rw [hplaced] at hl
      obtain ⟨m, hm, hst⟩ := hl
      obtain ⟨m', hm', hs'⟩ := hr.storesConnection hm hst
      refine ⟨m', hm', ?_⟩
      rw [areConnectionParametersEqual_congr lib.toRuntime n hs']
      exact h s hs ho n hn item hplaced
    | none =>
      -- no entry reached the row: only its name may differ
      rw [hplaced] at hl
      obtain ⟨m', hm', hs'⟩ := hr.storesConnection (hl.trans hn) ⟨rfl, rfl⟩
      refine ⟨m', hm', ?_⟩
      rw [areConnectionParametersEqual_congr lib.toRuntime n hs']
      exact areConnectionParametersEqual_of_config hfold rfl rfl

/-- A refresh of any payload and outcome leaves the nodes of other subscriptions alone exactly when, if the
call returns, the entries it reads share equally. -/
theorem reconcile_isolates_iff : Isolated lib subID db (db.refreshed lib subID stamp fetched) ↔
      ∀ r, reconcileSubscription lib db subID stamp fetched = .ok r →
        ∀ sub extract, db.subscriptions.get? subID = some sub → fetched = .extracted extract →
          SharesEqually lib (loadContext db sub stamp extract) db := by
  apply reconcile_iff
  · intro e hc
    rw [Inventory.refreshed_error hc]
    exact isolated_self hfold
  · intro r sub extract _ hs _ hr
    obtain ⟨-, rfl⟩ := Table.get?_eq_some.mp hs
    exact isolated_iff_sharesEqually hfold (tracks_start lib db sub stamp extract) hr

end

section

def otherSubscription : SubscriptionRow := ⟨"t", "other", "https://example.org/sub", ""⟩

abbrev lowerUUID : String := "2dd61d93-75d8-4da4-ac0e-6aece7eac365"

abbrev upperUUID : String := "2DD61D93-75D8-4DA4-AC0E-6AECE7EAC365"

def quicTransport : GoMap String := ⟨[("network", "quic"), ("tls", "true")], by decide⟩

/-- The entry the parser makes of a TUIC proxy. -/
def tuicEntry (name uuid : String) : ExtractedItem :=
  newNormalizedNode asciiRuntime .tuic name "a.example" 443 quicTransport { uuid := uuid, password := "p" }

def sharedID : String := "node_bbe30db130aa739420c623d89c42d924"

/-- What the parser makes of either spelling, with the identity written out. -/
def sharedEntry (name uuid : String) : ExtractedItem where
  node :=
    { logicalID := sharedID
      protocol := .tuic
      displayName := name
      server := "a.example"
      port := 443
      credentials := { uuid := uuid, password := "p", transport := quicTransport }
      active := true
      connectionRevision := 0 }
  transport := quicTransport

theorem tuicEntry_eq {name uuid : String} (hn : name ≠ "")
    (hu : toLower asciiRuntime (trimSpace uuid) = lowerUUID) : tuicEntry name uuid = sharedEntry name uuid := by
  have hid : (tuicEntry name uuid).node.logicalID = sharedID := by
    have hl : (tuicEntry "A" lowerUUID).node.logicalID = sharedID := by
      rw [tuicEntry, newNormalizedNode, computeConnectionLogicalID_json]
      decide +kernel
    have hc : toLower asciiRuntime (trimSpace lowerUUID) = lowerUUID := by decide +kernel
    rw [← hl]
    exact logicalID_newNormalizedNode_uuid (hu.trans hc.symm) _ _ _ _ _ _ { password := "p" }
  have hs : toLower asciiRuntime (trimSpace "a.example") = "a.example" := by decide +kernel
  have ht : quicTransport.filterMap (fun value => some (trimSpace value)) = quicTransport := by decide +kernel
  have hk : quicTransport.filterKeys (· ∉ obfsPasswordKeys) = quicTransport := by decide +kernel
  rw [sharedEntry, ← hid]
  simp only [tuicEntry, newNormalizedNode, hs, ht, hk, if_neg hn]

theorem tuicEntry_lower : tuicEntry "A" lowerUUID = sharedEntry "A" lowerUUID :=
  tuicEntry_eq (by decide) (by decide +kernel)

theorem tuicEntry_upper {name : String} (hn : name ≠ "") : tuicEntry name upperUUID = sharedEntry name upperUUID :=
  tuicEntry_eq hn (by decide +kernel)

/-- The other subscription has been refreshed, so that it owns the node of the entry. -/
def ownedInventory (item : ExtractedItem) : Inventory :=
  { Inventory.empty with
    subscriptions := (Table.empty.put sampleSubscription).put otherSubscription }.refreshed asciiInventory "t"
      (sampleStamp "e") (.extracted ⟨[item], 0⟩)

abbrev sharedInventory : Inventory := ownedInventory (tuicEntry "A" lowerUUID)

abbrev joiningListing : ExtractResult := ⟨[tuicEntry "A" lowerUUID], 0⟩

theorem reconcile_isolates_joining : succeeded (reconcileSubscription asciiInventory sharedInventory "s"
      (sampleStamp "f") (.extracted joiningListing)) = true ∧
    Isolated asciiInventory "s" sharedInventory
      (sharedInventory.refreshed asciiInventory "s" (sampleStamp "f") (.extracted joiningListing)) := by
  rw [sharedInventory, joiningListing, tuicEntry_lower]
  refine ⟨by decide +kernel, (reconcile_isolates_iff fun _ => beq_self_eq_true _).mpr ?_⟩
  intro _ _ sub extract hs hf
  have hsa : (ownedInventory (sharedEntry "A" lowerUUID)).subscriptions.get? "s" = some sampleSubscription := by
    decide +kernel
  obtain rfl := Option.some.inj (hsa.symm.trans hs)
  obtain rfl := Fetched.extracted.inj hf
  decide +kernel

/-- The payload lists the node twice, the second time with its uuid in upper case. -/
abbrev respelledListing : ExtractResult := ⟨[tuicEntry "A" lowerUUID, tuicEntry "B" upperUUID], 0⟩

/-- The first entry joins the shared node, and the second one overwrites it. -/
theorem exists_overwritten_shared_node : succeeded (reconcileSubscription asciiInventory sharedInventory "s"
      (sampleStamp "f") (.extracted respelledListing)) = true ∧
    ¬Isolated asciiInventory "s" sharedInventory
      (sharedInventory.refreshed asciiInventory "s" (sampleStamp "f") (.extracted respelledListing)) := by
  rw [sharedInventory, respelledListing, tuicEntry_lower, tuicEntry_upper (by decide)]
  refine ⟨by decide +kernel, fun h => ?_⟩
  have ho : ∃ s ∈ (ownedInventory (sharedEntry "A" lowerUUID)).sources.rows,
      s.nodeLogicalID = sharedID ∧ s.subscriptionID ≠ "s" := by decide +kernel
  have hb : ((ownedInventory (sharedEntry "A" lowerUUID)).nodes.get? sharedID).map (·.credentials.uuid) =
      some lowerUUID := by decide +kernel
  have ha : (((ownedInventory (sharedEntry "A" lowerUUID)).refreshed asciiInventory "s" (sampleStamp "f") (.extracted
      ⟨[sharedEntry "A" lowerUUID, sharedEntry "B" upperUUID], 0⟩)).nodes.get? sharedID).map (·.credentials.uuid) =
        some upperUUID := by decide +kernel
  obtain ⟨s, hs, hid, hother⟩ := ho
  obtain ⟨n, hn, hl⟩ := Option.map_eq_some_iff.mp hb
  rw [← hid] at hn ha
  obtain ⟨n', hn', heq⟩ := h.connection s hs hother n hn
  rw [hn', Option.map_some, ← uuid_eq_of_equal heq, hl] at ha
  exact absurd (Option.some.inj ha) (by decide)

end

end ClashSubParser
