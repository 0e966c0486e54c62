import ClashSubParser.ReconcileTargets

/-! Whether a refresh represents every entry of its payload. Two entries can reach one row, which then holds
the later one. -/
namespace ClashSubParser

open List KeyedTable

variable (ctx : ReconcileContext)

theorem archiveSource_eq (db : Inventory) (s : NodeSource) :
    ∃ history, archiveSource ctx db s = { db with history := history } := by
  rw [archiveSource]
  split
  · exact db.insertHistory_eq _
  · exact ⟨db.history, rfl⟩

theorem archived_eq (stale : List NodeSource) : ∀ db : Inventory,
    ∃ history, stale.foldl (archiveSource ctx) db = { db with history := history } := by
  induction stale with
  | nil => exact fun db => ⟨db.history, rfl⟩
  | cons s stale ih =>
    intro db
    obtain ⟨history, hs⟩ := archiveSource_eq ctx db s
    rw [foldl_cons, hs]
    exact ih _

theorem pruneSources_eq (db : Inventory) :
    ∃ history sources, pruneSources ctx db = { db with history := history, sources := sources } := by
  obtain ⟨history, h⟩ := archived_eq ctx (db.sources.rows.filter (isStale ctx)) db
  rw [pruneSources, h]
  exact ⟨_, _, rfl⟩

theorem settled_eq (lib : InventoryLibraries) (ctx : ReconcileContext) (db : Inventory) :
    (settled lib ctx db).db.nodes = (ingestAll lib ctx 0 ⟨db, []⟩ ctx.items).db.nodes ∧
    (settled lib ctx db).db.entries = (ingestAll lib ctx 0 ⟨db, []⟩ ctx.items).db.entries := by
  rw [settled]
  split_ifs
  · obtain ⟨history, sources, h⟩ := pruneSources_eq ctx (ingestAll lib ctx 0 ⟨db, []⟩ ctx.items).db
    rw [h]
    exact ⟨rfl, rfl⟩
  · exact ⟨rfl, rfl⟩

section

variable {lib : InventoryLibraries} {db db' : Inventory} {subID : String} {sub : SubscriptionRow}
  {stamp : ReconcileStamp} {extract : ExtractResult} {result : ReconcileResult}

/-- What a call that returns has done: its rows were renamed, and the outcome is that of the payload. -/
structure Committed (lib : InventoryLibraries) (ctx : ReconcileContext) (db db' : Inventory)
    (result : ReconcileResult) : Prop where
  renamed : Inventory.OnlyRenamed (settled lib ctx db).db db'
  outcome : result.outcome = if ctx.success then .success else .partially

theorem reconcileSubscription_eq_ok (hs : db.subscriptions.get? subID = some sub)
    (h : reconcileSubscription lib db subID stamp (.extracted extract) = .ok (db', result)) :
    Committed lib (loadContext db sub stamp extract) db db' result := by
  rw [reconcileSubscription, hs] at h
  dsimp only at h
  split at h
  · cases h
  · split at h
    · cases h
    · split at h
      · cases h
      · next hn =>
        cases h
        exact ⟨Inventory.OnlyRenamed.recomputeNodeDisplayNames hn, rfl⟩

/-- Entries with different identities have different nodes, and the node of each entry stores the
entry's connection under the overrides of the node it was matched with. -/
structure Represented (lib : InventoryLibraries) (ctx : ReconcileContext) (db : Inventory)
    (rows : List SubscriptionEntry) : Prop where
  distinct : ∀ a ∈ inventoried lib ctx ctx.items rows, ∀ b ∈ inventoried lib ctx ctx.items rows,
    a.1.node.logicalID ≠ b.1.node.logicalID → a.2.nodeLogicalID ≠ b.2.nodeLogicalID
  stored : ∀ a ∈ inventoried lib ctx ctx.items rows, ∃ id n, a.2.nodeLogicalID = some id ∧
    db.nodes.get? id = some n ∧ n.StoresConnection (ctx.entryNode lib a.1)

/-- Before the call: no two entries reach one row unless they agree in identity and connection. -/
structure Separated (lib : InventoryLibraries) (ctx : ReconcileContext) (db : Inventory) : Prop where
  named : ∀ a ∈ destinations lib ctx db [] ctx.items, a.2 ≠ ""
  apart : ∀ a ∈ destinations lib ctx db [] ctx.items, ∀ b ∈ destinations lib ctx db [] ctx.items,
    a.2 = b.2 → a.1.node.logicalID = b.1.node.logicalID ∧
      (ctx.entryNode lib a.1).StoresConnection (ctx.entryNode lib b.1)

instance (n node : Node) : Decidable (n.StoresConnection node) :=
  inferInstanceAs (Decidable (n.protocol = node.protocol ∧ n.config = node.config))

instance (lib : InventoryLibraries) (ctx : ReconcileContext) (db : Inventory) : Decidable (Separated lib ctx db) :=
  decidable_of_iff ((∀ a ∈ destinations lib ctx db [] ctx.items, a.2 ≠ "") ∧
      ∀ a ∈ destinations lib ctx db [] ctx.items, ∀ b ∈ destinations lib ctx db [] ctx.items,
        a.2 = b.2 → a.1.node.logicalID = b.1.node.logicalID ∧
          (ctx.entryNode lib a.1).StoresConnection (ctx.entryNode lib b.1))
    ⟨fun h => ⟨h.1, h.2⟩, fun h => ⟨h.named, h.apart⟩⟩

theorem Node.StoresConnection.trans {a b c : Node} (h : a.StoresConnection b) (h' : b.StoresConnection c) :
    a.StoresConnection c := ⟨h.1.trans h'.1, h.2.trans h'.2⟩

theorem Node.StoresConnection.symm {a b : Node} (h : a.StoresConnection b) : b.StoresConnection a :=
  ⟨h.1.symm, h.2.symm⟩

theorem Inventory.OnlyRenamed.storesConnection (h : Inventory.OnlyRenamed db db') {id : String} {n node : Node}
    (hn : db.nodes.get? id = some n) (hst : n.StoresConnection node) :
    ∃ n', db'.nodes.get? id = some n' ∧ n'.StoresConnection node := by
  have hr := h.nodes id
  rw [hn, Option.map_some, Option.map_eq_some_iff] at hr
  obtain ⟨n', hn', heq⟩ := hr
  have hp : n'.unnamed.protocol = n.unnamed.protocol := by rw [heq]
  have hc : n'.unnamed.config = n.unnamed.config := by rw [heq]
  have hs : n'.StoresConnection n := ⟨hp, hc⟩
  exact ⟨n', hn', hs.trans hst⟩

variable (lib db sub stamp extract) in
theorem tracks_start : Tracks lib (loadContext db sub stamp extract) db ⟨db, []⟩ [] where
  seen _ := Iff.rfl
  others _ := rfl
  untouched _ _ := rfl
  written _ hid := absurd hid not_mem_nil
  linked _ hid := absurd hid not_mem_nil
  unlinked _ _ hfind hnode := hasSource_of_findExisting hfind hnode

/-- The rows a call stores for its entries name their destinations, and every destination stores the
connection of one of the entries that reach it. -/
theorem reconcile_destinations (hs : db.subscriptions.get? subID = some sub)
    (h : reconcileSubscription lib db subID stamp (.extracted extract) = .ok (db', result)) :
    let ctx := loadContext db sub stamp extract
    let reached := destinations lib ctx db [] extract.items
    ∃ rows, db'.entries = db.entries ++ rows ∧ rows.length = extract.items.length ∧
      (inventoried lib ctx extract.items rows).map (fun p => (p.1, p.2.nodeLogicalID)) =
        reached.map (fun p => (p.1, (some p.2).filter (fun id => id ≠ ""))) ∧
      ∀ a ∈ reached, ∃ b ∈ reached, b.2 = a.2 ∧
        ∃ n, db'.nodes.get? a.2 = some n ∧ n.StoresConnection (ctx.entryNode lib b.1) := by
  intro ctx reached
  have hr := (reconcileSubscription_eq_ok hs h).renamed
  obtain ⟨hns, he⟩ := settled_eq lib ctx db
  obtain ⟨rows, hro, hl, hnamed, htr⟩ := (tracks_start lib db sub stamp extract).ingestAll extract.items 0
  refine ⟨rows, ?_, hl, hnamed, ?_⟩
  · have ht := congrArg Inventory.entries hr.tables
    exact ht.trans (he.trans hro)
  · intro a ha
    obtain ⟨item, hi, n, hn, hst⟩ := htr.written a.2 (mem_map_of_mem ha)
    obtain ⟨n', hn', hs'⟩ := hr.storesConnection (hns ▸ hn) hst
    exact ⟨(item, a.2), hi, rfl, n', hn', hs'⟩

theorem exists_mem_of_map_eq {α β γ : Type} {f : α → γ} {g : β → γ} {l : List α} {l' : List β}
    (h : l.map f = l'.map g) {a : α} (ha : a ∈ l) : ∃ b ∈ l', g b = f a := by
  have hm := mem_map_of_mem (f := f) ha
  rwa [h, mem_map] at hm

abbrev attached (id : String) : Option String := (some id).filter (fun id => id ≠ "")

section

variable {ctx : ReconcileContext} {rows : List SubscriptionEntry}
  (hnamed : (inventoried lib ctx ctx.items rows).map (fun p => (p.1, p.2.nodeLogicalID)) =
    (destinations lib ctx db [] ctx.items).map (fun p => (p.1, attached p.2)))
include hnamed

theorem separated_of_represented (hr : Represented lib ctx db' rows) : Separated lib ctx db := by
  have hi : ∀ b ∈ destinations lib ctx db [] ctx.items, ∃ a ∈ inventoried lib ctx ctx.items rows,
      a.1 = b.1 ∧ a.2.nodeLogicalID = attached b.2 := by
    intro b hb
    obtain ⟨a, ha, heq⟩ := exists_mem_of_map_eq hnamed.symm hb
    exact ⟨a, ha, Prod.mk.inj heq⟩
  constructor
  · intro b hb he
    obtain ⟨a, ha, -, hid⟩ := hi b hb
    obtain ⟨id, n, hs, -⟩ := hr.stored a ha
    rw [hid, he] at hs
    simp at hs
  · intro b hb b' hb' hrc
    obtain ⟨a, ha, hab, hid⟩ := hi b hb
    obtain ⟨a', ha', hab', hi'⟩ := hi b' hb'
    have hsa : a.2.nodeLogicalID = a'.2.nodeLogicalID := by rw [hid, hi', hrc]
    rw [← hab, ← hab']
    constructor
    · by_contra hdiff
      exact hr.distinct a ha a' ha' hdiff hsa
    · -- both entries are stored in the one node they name
      obtain ⟨id, n, hs, hn, hst⟩ := hr.stored a ha
      obtain ⟨id', n', hs', hn', hst'⟩ := hr.stored a' ha'
      have his : id = id' := Option.some.inj (hs.symm.trans (hsa.trans hs'))
      rw [his, hn'] at hn
      cases hn
      exact hst.symm.trans hst'

theorem represented_of_separated
    (hst : ∀ a ∈ destinations lib ctx db [] ctx.items, ∃ b ∈ destinations lib ctx db [] ctx.items,
      b.2 = a.2 ∧ ∃ n, db'.nodes.get? a.2 = some n ∧ n.StoresConnection (ctx.entryNode lib b.1))
    (hs : Separated lib ctx db) : Represented lib ctx db' rows := by
  have hr : ∀ a ∈ inventoried lib ctx ctx.items rows, ∃ b ∈ destinations lib ctx db [] ctx.items,
      b.1 = a.1 ∧ a.2.nodeLogicalID = some b.2 := by
    intro a ha
    obtain ⟨b, hb, heq⟩ := exists_mem_of_map_eq hnamed ha
    have hsh : attached b.2 = some b.2 := by simp [hs.named b hb]
    exact ⟨b, hb, (Prod.mk.inj heq).1, (Prod.mk.inj heq).2.symm.trans hsh⟩
  constructor
  · intro a ha a' ha' hd hsa
    obtain ⟨b, hb, hba, hid⟩ := hr a ha
    obtain ⟨b', hb', hba', hi'⟩ := hr a' ha'
    rw [hid, hi'] at hsa
    have hi := (hs.apart b hb b' hb' (Option.some.inj hsa)).1
    rw [hba, hba'] at hi
    exact hd hi
  · intro a ha
    obtain ⟨b, hb, hba, hid⟩ := hr a ha
    obtain ⟨b', hb', hrc, n, hn, hss⟩ := hst b hb
    refine ⟨b.2, n, hid, hn, ?_⟩
    rw [← hba]
    exact hss.trans (hs.apart b' hb' b hb hrc).2

end

def succeeded (outcome : Except GoError (Inventory × ReconcileResult)) : Bool :=
  match outcome with
  | .ok r => decide (r.2.outcome = .success)
  | .error _ => false

theorem exists_of_succeeded {outcome : Except GoError (Inventory × ReconcileResult)}
    (h : succeeded outcome = true) : ∃ db result, outcome = .ok (db, result) ∧ result.outcome = .success := by
  cases outcome with
  | error e => cases h
  | ok r => exact ⟨r.1, r.2, rfl, of_decide_eq_true h⟩

/-- A refresh represents the entries of its payload exactly when their destinations keep them apart. -/
theorem reconcile_represents_iff (hsub : db.subscriptions.get? subID = some sub)
    (h : reconcileSubscription lib db subID stamp (.extracted extract) = .ok (db', result)) :
    ∃ rows, db'.entries = db.entries ++ rows ∧ rows.length = extract.items.length ∧
      (Represented lib (loadContext db sub stamp extract) db' rows ↔
        Separated lib (loadContext db sub stamp extract) db) := by
  obtain ⟨rows, he, hl, hnamed, hs⟩ := reconcile_destinations hsub h
  exact ⟨rows, he, hl, separated_of_represented hnamed, represented_of_separated hnamed hs⟩

end

section

def sampleSubscription : SubscriptionRow := ⟨"s", "sub", "https://example.com/sub", ""⟩

def sampleInventory : Inventory :=
  { Inventory.empty with subscriptions := Table.empty.put sampleSubscription }

def listed (id name server : String) : ExtractedItem where
  node :=
    { logicalID := id
      protocol := .ss
      displayName := name
      server := server
      port := 443
      credentials := { password := "p", method := "m" }
      active := true
      connectionRevision := 0 }
  transport := GoMap.empty

def sampleStamp (fetchID : String) : ReconcileStamp := ⟨fetchID, fetchID, fun i => fetchID ++ toString i, 0⟩

def firstListing : ExtractResult := ⟨[listed "node_x" "A" "a.example"], 0⟩

def listedInventory : Inventory :=
  match reconcileSubscription asciiInventory sampleInventory "s" (sampleStamp "f") (.extracted firstListing) with
  | .ok r => r.1
  | .error _ => sampleInventory

/-- The node of the first listing as it was, and two new ones. -/
def grownListing : ExtractResult :=
  ⟨[listed "node_x" "A" "a.example", listed "node_y" "B" "b.example", listed "node_z" "C" "c.example"], 0⟩

theorem reconcile_represents_grown : ∃ db' result,
    reconcileSubscription asciiInventory listedInventory "s" (sampleStamp "g") (.extracted grownListing) =
      .ok (db', result) ∧ result.outcome = .success ∧
    ∃ rows, db'.entries = listedInventory.entries ++ rows ∧ rows.length = 3 ∧
      Represented asciiInventory (loadContext listedInventory sampleSubscription (sampleStamp "g") grownListing)
        db' rows := by
  have hsu : listedInventory.subscriptions.get? "s" = some sampleSubscription := by decide +kernel
  obtain ⟨db', result, h, hs⟩ := exists_of_succeeded (by decide +kernel :
    succeeded (reconcileSubscription asciiInventory listedInventory "s" (sampleStamp "g")
      (.extracted grownListing)) = true)
  obtain ⟨rows, he, hl, hi⟩ := reconcile_represents_iff hsu h
  exact ⟨db', result, h, hs, rows, he, hl, hi.mpr (by decide +kernel)⟩

/-- The node of the first listing under a new name, and a new node under its old one. -/
def renamedListing : ExtractResult :=
  ⟨[listed "node_x" "B" "a.example", listed "node_y" "A" "b.example"], 0⟩

/-- The first entry is found by its identity and the second by its name: both reach one row. -/
theorem exists_unrepresented_entry : ∃ db' result,
    reconcileSubscription asciiInventory listedInventory "s" (sampleStamp "g") (.extracted renamedListing) =
      .ok (db', result) ∧ result.outcome = .success ∧
    ∃ rows, db'.entries = listedInventory.entries ++ rows ∧ rows.length = 2 ∧
      ¬Represented asciiInventory (loadContext listedInventory sampleSubscription (sampleStamp "g") renamedListing)
        db' rows := by
  have hsu : listedInventory.subscriptions.get? "s" = some sampleSubscription := by decide
  obtain ⟨db', result, h, hs⟩ := exists_of_succeeded (by decide :
    succeeded (reconcileSubscription asciiInventory listedInventory "s" (sampleStamp "g")
      (.extracted renamedListing)) = true)
  obtain ⟨rows, he, hl, hnamed, -⟩ := reconcile_destinations hsu h
  refine ⟨db', result, h, hs, rows, he, hl, ?_⟩
  intro hr
  have hm : ¬Separated asciiInventory
      (loadContext listedInventory sampleSubscription (sampleStamp "g") renamedListing) listedInventory := by
    decide
  exact hm (separated_of_represented hnamed hr)

end

end ClashSubParser
