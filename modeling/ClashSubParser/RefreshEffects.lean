import ClashSubParser.EntryRepresentation

/-! What a refresh does to the tables as a whole. -/
namespace ClashSubParser

open KeyedTable

section

variable (lib : InventoryLibraries) (ctx : ReconcileContext) (db : Inventory)

theorem Tracks.ingestAll_induction (P : Progress → List (ExtractedItem × String) → Prop)
    (hno : ∀ (st : Progress) (placed : List (ExtractedItem × String)) (item : ExtractedItem) (eid : String),
      Tracks lib ctx db st placed → P st placed → P (ClashSubParser.ingestNode lib ctx st item eid)
        (placed ++ [(item, destination lib ctx db (placed.map Prod.snd) item)]))
    (hen : ∀ (st : Progress) (placed : List (ExtractedItem × String)) (e : SubscriptionEntry),
      P st placed → P (st.addEntry e) placed) :
    ∀ (items : List ExtractedItem) (n : ℕ) {st : Progress} {placed : List (ExtractedItem × String)},
      Tracks lib ctx db st placed → P st placed →
        P (ClashSubParser.ingestAll lib ctx n st items)
          (placed ++ destinations lib ctx db (placed.map Prod.snd) items) := by
  intro items
  induction items with
  | nil =>
    intro n st placed _ hP
    rw [destinations, List.append_nil]
    exact hP
  | cons item rest ih =>
    intro n st placed h hP
    rw [ClashSubParser.ingestAll, ingest, destinations]
    by_cases hk : ctx.effectiveKind lib item.node = .notice
    · -- a notice only stores its entry
      rw [if_pos hk, if_pos hk]
      exact ih (n + 1) (h.addEntry _) (hen _ _ _ hP)
    · rw [if_neg hk, if_neg hk]
      have hn := ih (n + 1) ((h.ingestNode item (ctx.stamp.entryID n)).addEntry _)
        (hen _ _ (entryRow lib ctx n item.node (some (place lib ctx st.db item).target))
          (hno st placed item (ctx.stamp.entryID n) h hP))
      rw [List.map_append, List.append_assoc] at hn
      exact hn

end

/-! ### The associations of other subscriptions -/

section

variable (lib : InventoryLibraries) (ctx : ReconcileContext)

theorem sameOthers_pruneSources (db : Inventory) : db.SameOthers ctx.sub.id (pruneSources ctx db) := by
  intro s hs
  have hfr : isStale ctx s = false := by
    rw [isStale, beq_false_of_ne hs, Bool.false_and]
  obtain ⟨history, h⟩ := archived_eq ctx (db.sources.rows.filter (isStale ctx)) db
  rw [pruneSources, h]
  rw [Table.mem_deleteWhere]
  exact and_iff_left hfr

variable {lib ctx} in
theorem Tracks.sameOthers {db : Inventory} (h : Tracks lib ctx db ⟨db, []⟩ []) :
    db.SameOthers ctx.sub.id (settled lib ctx db).db := by
  have hl := Tracks.ingestAll_induction lib ctx db (fun st _ => db.SameOthers ctx.sub.id st.db)
    (fun st _ item eid _ hst => hst.trans (ingestNode_spec lib ctx st item eid).2.2.2.1)
    (fun _ _ _ hst => hst) ctx.items 0 h (.refl ctx.sub.id db)
  rw [settled]
  split_ifs
  · exact hl.trans (sameOthers_pruneSources ctx _)
  · exact hl

end

/-! ### The entry whose node a row stores -/

variable (placed : List (ExtractedItem × String))

def lastPlaced (id : String) : Option ExtractedItem :=
  placed.foldl (fun last p => if p.2 = id then some p.1 else last) none

theorem lastPlaced_concat (item : ExtractedItem) (d id : String) :
    lastPlaced (placed ++ [(item, d)]) id = if d = id then some item else lastPlaced placed id := by
  rw [lastPlaced, List.foldl_append]
  rfl

section

variable {lib : InventoryLibraries} {ctx : ReconcileContext} {db : Inventory}

/-- What holds of every row before the loop, and is kept by an entry for the row it reaches and for the others,
holds after the loop. -/
theorem Tracks.rows_settled (h : Tracks lib ctx db ⟨db, []⟩ [])
    (Q : String → List (ExtractedItem × String) → Option Node → Prop)
    (hst : ∀ id, Q id [] (db.nodes.get? id))
    (hre : ∀ st placed item, Tracks lib ctx db st placed →
      let p := place lib ctx st.db item
      Q p.target placed (st.db.nodes.get? p.target) → Q p.target (placed ++ [(item, p.target)])
        (some (placedNode p (ctx.entryNode lib item))))
    (ho : ∀ id d placed item row, d ≠ id → Q id placed row → Q id (placed ++ [(item, d)]) row) (id : String) :
    Q id (destinations lib ctx db [] ctx.items)
      ((settled lib ctx db).db.nodes.get? id) := by
  rw [(settled_eq lib ctx db).1]
  refine Tracks.ingestAll_induction lib ctx db
    (fun st placed => ∀ id, Q id placed (st.db.nodes.get? id)) ?_ (fun _ _ _ h => h) ctx.items 0
    h hst id
  intro st placed item eid htr hr id
  rw [(ingestNode_spec lib _ st item eid).1, ← htr.place_target item]
  by_cases hid : (place lib ctx st.db item).target = id
  · have hs := st.db.nodes.get?_put_self (placedNode (place lib ctx st.db item) (ctx.entryNode lib item))
    rw [← hid]
    exact hs ▸ hre st placed item htr (hr _)
  · rw [Table.get?_put_of_ne _ (placedNode _ _) (fun heq => hid heq.symm)]
    exact ho id _ placed item _ hid (hr id)

/-- Every row stores the connection of the last entry that reached it, or is as it was before the loop. -/
theorem Tracks.lastWrites (h : Tracks lib ctx db ⟨db, []⟩ []) (id : String) :
    match lastPlaced (destinations lib ctx db [] ctx.items) id with
    | some item => ∃ n, (settled lib ctx db).db.nodes.get? id = some n ∧
        n.StoresConnection (ctx.entryNode lib item)
    | none => (settled lib ctx db).db.nodes.get? id = db.nodes.get? id := by
  refine h.rows_settled (fun id placed row => match lastPlaced placed id with
    | some item => ∃ n, row = some n ∧ n.StoresConnection (ctx.entryNode lib item)
    | none => row = db.nodes.get? id) (fun _ => rfl) ?_ ?_ id
  · intro st placed item _ p _
    rw [lastPlaced_concat, if_pos rfl]
    exact ⟨_, rfl, rfl, rfl⟩
  · intro id d placed item row hd hr
    rw [lastPlaced_concat, if_neg hd]
    exact hr

end

/-! ### Every outcome of a call -/

def Inventory.refreshed (lib : InventoryLibraries) (db : Inventory) (subID : String) (stamp : ReconcileStamp)
    (fetched : Fetched) : Inventory :=
  match reconcileSubscription lib db subID stamp fetched with
  | .ok r => r.1
  | .error _ => db

section

variable {lib : InventoryLibraries} {db : Inventory} {subID : String} {stamp : ReconcileStamp} {fetched : Fetched}

theorem Inventory.refreshed_error {e : GoError} (h : reconcileSubscription lib db subID stamp fetched = .error e) :
    db.refreshed lib subID stamp fetched = db := by
  rw [Inventory.refreshed, h]

theorem exists_of_reconcile_ok {r : Inventory × ReconcileResult}
    (h : reconcileSubscription lib db subID stamp fetched = .ok r) :
    ∃ sub extract, db.subscriptions.get? subID = some sub ∧ fetched = .extracted extract ∧
      Inventory.OnlyRenamed (settled lib (loadContext db sub stamp extract) db).db
        (db.refreshed lib subID stamp fetched) := by
  have ha : db.refreshed lib subID stamp fetched = r.1 := by rw [Inventory.refreshed, h]
  cases hs : db.subscriptions.get? subID with
  | none =>
    rw [reconcileSubscription, hs] at h
    cases h
  | some sub =>
    cases fetched with
    | fetchFailed e | parseFailed e =>
      rw [reconcileSubscription, hs] at h
      cases h
    | extracted extract =>
      refine ⟨sub, extract, rfl, rfl, ?_⟩
      rw [ha]
      exact (reconcileSubscription_eq_ok hs h).renamed

/-- A property of the call that an error has, and that a call that returns has if what it read is `good`. -/
theorem reconcile_iff {P : Prop} {good : SubscriptionRow → ExtractResult → Prop}
    (he : ∀ e, reconcileSubscription lib db subID stamp fetched = .error e → P)
    (hok : ∀ r sub extract, reconcileSubscription lib db subID stamp fetched = .ok r →
      db.subscriptions.get? subID = some sub → fetched = .extracted extract →
      Inventory.OnlyRenamed (settled lib (loadContext db sub stamp extract) db).db
        (db.refreshed lib subID stamp fetched) → (P ↔ good sub extract)) :
    P ↔ ∀ r, reconcileSubscription lib db subID stamp fetched = .ok r →
      ∀ sub extract, db.subscriptions.get? subID = some sub → fetched = .extracted extract → good sub extract := by
  cases hc : reconcileSubscription lib db subID stamp fetched with
  | error e => exact iff_of_true (he e hc) nofun
  | ok r =>
    obtain ⟨sub, extract, hs, hf, hr⟩ := exists_of_reconcile_ok hc
    have hi := hok r sub extract hc hs hf hr
    constructor
    · intro h _ _ sub' extract' hs' hf'
      obtain rfl := Option.some.inj (hs.symm.trans hs')
      obtain rfl := Fetched.extracted.inj (hf.symm.trans hf')
      exact hi.mp h
    · intro h
      exact hi.mpr (h r rfl sub extract hs hf)

end

/-! ### The nodes that entries and history name -/

/-- An entry or a row of the history names the node. -/
def Inventory.Names (db : Inventory) (id : String) : Prop :=
  (∃ e ∈ db.entries, e.nodeLogicalID = some id) ∨ ∃ h ∈ db.history.rows, h.nodeLogicalID = id

section

variable {lib : InventoryLibraries} {ctx : ReconcileContext} {db : Inventory} {id : String}

theorem Inventory.Names.of_insertHistory {h : NodeSourceHistory} (hn : (db.insertHistory h).Names id) :
    db.Names id ∨ h.nodeLogicalID = id := by
  rw [insertHistory] at hn
  split_ifs at hn
  · exact .inl hn
  · rcases hn with he | ⟨h', hh, rfl⟩
    · exact .inl (.inl he)
    · rcases Table.mem_put.mp hh with ⟨hm, -⟩ | rfl
      · exact .inl (.inr ⟨h', hm, rfl⟩)
      · exact .inr rfl

theorem Inventory.names_recordConnection (db : Inventory) (p : Placement) (node : Node) (entryID : String) :
    (recordConnection db p node entryID).Names id ↔ db.Names id := by
  obtain ⟨versions, heads, h⟩ := recordConnection_eq db p node entryID
  rw [h]
  rfl

theorem ReconcileContext.mem_of_matchedNotice {node m : Node} (h : ctx.matchedNotice node = some m) :
    m ∈ ctx.existing := by
  rw [matchedNotice, Option.or_eq_some_iff, byIdentity] at h
  rcases h with h | ⟨-, h⟩
  · split_ifs at h
    exact mem_of_findExisting h
  · exact mem_of_byName h

/-- Before the node is written, only a node the payload was matched with gets a row in the history. -/
theorem Inventory.Names.of_prepare {item : ExtractedItem} {entryID : String}
    (hn : (prepare lib ctx db item entryID).Names id) : db.Names id ∨ ∃ m ∈ ctx.existing, m.logicalID = id := by
  rw [prepare] at hn
  cases hm : ctx.matchedNode lib item with
  | none =>
    rw [hm] at hn
    exact .inl ((names_recordConnection ..).mp hn)
  | some m =>
    rw [hm] at hn
    dsimp only at hn
    split_ifs at hn
    · obtain ⟨versions, hv⟩ := db.upsertVersion_eq _
      rw [hv] at hn
      exact .inl hn
    · rw [names_recordConnection, unlinkShared] at hn
      have hx (h : m.logicalID = id) : ∃ m ∈ ctx.existing, m.logicalID = id :=
        ⟨m, ReconcileContext.mem_of_matchedNode hm, h⟩
      split_ifs at hn
      · exact (Inventory.Names.of_insertHistory hn).imp_right hx
      · exact hn.of_insertHistory.imp_right hx
    · exact .inl ((names_recordConnection ..).mp hn)

theorem Progress.names_addEntry {st : Progress} {e : SubscriptionEntry} (hn : (st.addEntry e).db.Names id) :
    st.db.Names id ∨ e.nodeLogicalID = some id := by
  rcases hn with ⟨e', he, hid⟩ | hh
  · rcases List.mem_append.mp he with he | he
    · exact .inl (.inl ⟨e', he, hid⟩)
    · exact .inr (List.mem_singleton.mp he ▸ hid)
  · exact .inl (.inr hh)

theorem attached_of_entryRow {ordinal : ℕ} {node : Node} {attached : Option String}
    (h : (entryRow lib ctx ordinal node attached).nodeLogicalID = some id) : attached = some id := by
  change attached.filter _ = some id at h
  exact (Option.filter_eq_some_iff.mp h).1

/-- One entry names the node it is placed at, or a node of the subscription that it was matched with. -/
theorem Inventory.Names.of_ingest {st : Progress} {ordinal : ℕ} {item : ExtractedItem}
    (hn : (ingest lib ctx st ordinal item).db.Names id) :
    st.db.Names id ∨ (∃ m ∈ ctx.existing, m.logicalID = id) ∨ id ∈ (ingest lib ctx st ordinal item).seen := by
  rw [ingest] at hn ⊢
  split_ifs at hn ⊢
  · rcases Progress.names_addEntry hn with hn | hr
    · exact .inl hn
    · obtain ⟨m, hm, rfl⟩ := Option.map_eq_some_iff.mp (attached_of_entryRow hr)
      exact .inr (.inl ⟨m, ReconcileContext.mem_of_matchedNotice hm, rfl⟩)
  · have hseen := (ingestNode_spec lib ctx st item (ctx.stamp.entryID ordinal)).2.2.1 id
    rcases Progress.names_addEntry hn with hn | hr
    · have hp : (prepare lib ctx st.db item (ctx.stamp.entryID ordinal)).Names id := by
        rw [ingestNode] at hn
        split_ifs at hn <;> exact hn
      exact hp.of_prepare.imp_right .inl
    · exact .inr (.inr (hseen.mpr (.inr (Option.some.inj (attached_of_entryRow hr)).symm)))

theorem seen_subset_ingest (st : Progress) (ordinal : ℕ) (item : ExtractedItem) :
    st.seen ⊆ (ingest lib ctx st ordinal item).seen := by
  intro id hid
  rw [ingest]
  split_ifs
  · exact hid
  · exact ((ingestNode_spec lib ctx st item (ctx.stamp.entryID ordinal)).2.2.1 id).mpr (.inl hid)

theorem seen_subset_ingestAll : ∀ (items : List ExtractedItem) (ordinal : ℕ) (st : Progress),
    st.seen ⊆ (ingestAll lib ctx ordinal st items).seen
  | [], _, _ => List.Subset.refl _
  | item :: rest, ordinal, st =>
    List.Subset.trans (seen_subset_ingest st ordinal item) (seen_subset_ingestAll rest (ordinal + 1) _)

theorem Inventory.Names.of_ingestAll : ∀ (items : List ExtractedItem) (ordinal : ℕ) {st : Progress},
    (ingestAll lib ctx ordinal st items).db.Names id →
      st.db.Names id ∨ (∃ m ∈ ctx.existing, m.logicalID = id) ∨ id ∈ (ingestAll lib ctx ordinal st items).seen := by
  intro items
  induction items with
  | nil => exact fun _ _ hn => .inl hn
  | cons item rest ih =>
    intro ordinal st hn
    rcases ih (ordinal + 1) hn with hs | hr
    · refine hs.of_ingest.imp_right (Or.imp_right fun hseen => ?_)
      exact seen_subset_ingestAll rest (ordinal + 1) _ hseen
    · exact .inr hr

end

end ClashSubParser
