import ClashSubParser.ActionRuns
import ClashSubParser.RefreshEffects

/-! The kinds users give to entries, over refreshes of one payload that copy them from row to row. -/
namespace ClashSubParser

open Function List KeyedTable ActionRuns Inventory

/-! ### Setting a kind -/

def Inventory.setUserOverride (db : Inventory) (entryID : String) (kind : Option EntryKind) (anchor : String) :
    Inventory :=
  { db with entries := db.entries.map (fun e =>
      if e.id = entryID then { e with userKindOverride := kind, overrideAnchor := anchor } else e) }

/-- Set or clear the kind of an entry. `parsedKey` stands for the key of the row's parsed columns, which is
used only where the row has no source key. -/
def overrideEntryKind (rt : Runtime) (parsedKey : SubscriptionEntry → String) (db : Inventory) (entryID : String)
    (kind : Option EntryKind) : Except GoError Inventory :=
  match db.entries.find? (fun e => e.id = entryID) with
  | none => .error (.domain (newNotFoundError rt "entry_not_found" ("entry " ++ entryID ++ " not found")))
  | some e => .ok (db.setUserOverride entryID kind (if e.sourceKey = "" then parsedKey e else e.sourceKey))

/-! ### Rows that agree with the decisions -/

def Inventory.entriesOf (db : Inventory) (subID : String) : List SubscriptionEntry :=
  db.entries.filter (fun e => e.subscriptionID = subID)

theorem Inventory.mem_entriesOf {db : Inventory} {subID : String} {e : SubscriptionEntry} :
    e ∈ db.entriesOf subID ↔ e ∈ db.entries ∧ e.subscriptionID = subID := by
  rw [entriesOf, mem_filter, decide_eq_true_iff]

/-- The rows of a subscription against the kind decided last for each source key. -/
structure Agreed (subID : String) (items : List ExtractedItem) (db : Inventory)
    (decided : String → Option EntryKind) : Prop where
  ids : (db.entries.map SubscriptionEntry.id).Nodup
  listed : ∀ e ∈ db.entriesOf subID, ∃ item ∈ items,
    e.sourceKey = item.node.sourceKey ∧ e.rawName = item.node.displayName
  held : ∀ e ∈ db.entriesOf subID, ∀ kind, e.userKindOverride = some kind →
    decided e.sourceKey = some kind ∧ e.overrideAnchor = e.sourceKey
  stored : ∀ item ∈ items, ∀ kind, decided item.node.sourceKey = some kind →
    ∃ e ∈ db.entriesOf subID, e.sourceKey = item.node.sourceKey ∧ e.userKindOverride = some kind

structure KindOverrides.Records (o : KindOverrides) (subID : String) (db : Inventory)
    (decided : String → Option EntryKind) (rows : List SubscriptionEntry) : Prop where
  byAnchor : ∀ key po, o.byAnchor key = some po → decided key = some po.kind ∧ po.anchor = key
  byName : ∀ name po, o.byName name = some po →
    ∃ e ∈ db.entriesOf subID, e.rawName = name ∧ e.userKindOverride = some po.kind
  complete : ∀ e ∈ rows, e.userKindOverride ≠ none → o.byAnchor e.sourceKey ≠ none
  unambiguous : o.ambiguous = []

section

variable {known : String → Option PrevOverride} {key : String} {po : PrevOverride}

theorem recordOverride_eq (h : ∀ old, known key = some old → old.kind = po.kind) (ambiguous : List String) :
    recordOverride known ambiguous key po = (update known key (some po), ambiguous) := by
  rw [recordOverride]
  cases hkn : known key with
  | none => rfl
  | some old => exact if_neg (not_not.mpr (h old hkn))

theorem forall_update {P : String → PrevOverride → Prop} (h : ∀ k p, known k = some p → P k p) (hpo : P key po) :
    ∀ k p, update known key (some po) k = some p → P k p := by
  intro k p hk
  by_cases hke : k = key
  · rw [hke, update_self] at hk
    rw [hke, ← Option.some.inj hk]
    exact hpo
  · rw [update_of_ne hke] at hk
    exact h k p hk

variable {o : KindOverrides} {e : SubscriptionEntry} {kind : EntryKind}

theorem KindOverrides.record_eq (ha : e.overrideAnchor = e.sourceKey)
    (hk : ∀ old, o.byAnchor e.sourceKey = some old → old.kind = kind)
    (hn : ∀ old, o.byName e.rawName = some old → old.kind = kind) :
    o.record e kind = ⟨update o.byAnchor e.sourceKey (some ⟨kind, e.sourceKey⟩),
      if e.rawName ≠ "" then update o.byName e.rawName (some ⟨kind, e.sourceKey⟩) else o.byName,
      o.ambiguous⟩ := by
  rw [KindOverrides.record, ha, recordOverride_eq hk]
  -- the row is recorded under its source key twice
  have hag : ∀ old, update o.byAnchor e.sourceKey (some ⟨kind, e.sourceKey⟩) e.sourceKey = some old →
      old.kind = kind := by
    intro old ho
    rw [update_self] at ho
    rw [← Option.some.inj ho]
  dsimp only
  rw [recordOverride_eq hag, update_idem, ite_self, recordOverride_eq hn]
  split_ifs
  · rfl
  · rfl

end

section

variable {subID : String} {items : List ExtractedItem} {db : Inventory} {decided : String → Option EntryKind}
  {o : KindOverrides} {rows : List SubscriptionEntry}

theorem Agreed.sourceKey_eq (h : Agreed subID items db decided)
    (hnm : (items.map (fun item => item.node.displayName)).Nodup) {e : SubscriptionEntry}
    (he : e ∈ db.entriesOf subID) {item : ExtractedItem} (hi : item ∈ items)
    (hn : e.rawName = item.node.displayName) : e.sourceKey = item.node.sourceKey := by
  obtain ⟨item', hi', hk, hr⟩ := h.listed e he
  obtain rfl : item = item' := inj_on_of_nodup_map hnm hi hi' (hn.symm.trans hr)
  exact hk

theorem KindOverrides.Records.record (h : o.Records subID db decided rows) (ha : Agreed subID items db decided)
    (hnm : (items.map (fun item => item.node.displayName)).Nodup) {e : SubscriptionEntry} {kind : EntryKind}
    (he : e ∈ db.entriesOf subID) (hki : e.userKindOverride = some kind) :
    (o.record e kind).Records subID db decided (rows ++ [e]) := by
  obtain ⟨hd, han⟩ := ha.held e he kind hki
  obtain ⟨item, hit, hi, hr⟩ := ha.listed e he
  have hk (old : PrevOverride) (ho : o.byAnchor e.sourceKey = some old) : old.kind = kind :=
    Option.some.inj ((h.byAnchor _ old ho).1.symm.trans hd)
  have hn (old : PrevOverride) (ho : o.byName e.rawName = some old) : old.kind = kind := by
    obtain ⟨e', he', hr', hk'⟩ := h.byName _ old ho
    have hke' := ha.sourceKey_eq hnm he' hit (hr'.trans hr)
    have hd' := (ha.held e' he' _ hk').1
    rw [hke', ← hi, hd] at hd'
    exact (Option.some.inj hd').symm
  rw [KindOverrides.record_eq han hk hn]
  refine ⟨forall_update h.byAnchor ⟨hd, rfl⟩, ?_, ?_, h.unambiguous⟩
  · split_ifs
    · exact forall_update h.byName ⟨e, he, rfl, hki⟩
    · exact h.byName
  · intro e' he' hso
    dsimp only
    by_cases hs : e'.sourceKey = e.sourceKey
    · rw [hs, update_self]
      exact Option.some_ne_none _
    · rw [update_of_ne hs]
      rcases mem_append.mp he' with ho | hne
      · exact h.complete e' ho hso
      · rw [mem_singleton.mp hne] at hs
        exact absurd rfl hs

theorem Agreed.records (ha : Agreed subID items db decided)
    (hn : (items.map (fun item => item.node.displayName)).Nodup) :
    (loadKindOverrides db subID).Records subID db decided (db.entriesOf subID) := by
  have hf : ∀ (rest rows : List SubscriptionEntry) (o : KindOverrides), (∀ e ∈ rest, e ∈ db.entriesOf subID) →
      o.Records subID db decided rows →
      (rest.foldl (fun o e => (e.userKindOverride.map (o.record e)).getD o) o).Records subID db decided
        (rows ++ rest) := by
    intro rest
    induction rest with
    | nil =>
      intro rows o _ h
      rw [append_nil]
      exact h
    | cons e rest ih =>
      intro rows o hr h
      rw [append_cons]
      refine ih _ _ (fun e' he' => hr e' (mem_cons_of_mem e he')) ?_
      dsimp only
      cases hk : e.userKindOverride with
      | none =>
        refine ⟨h.byAnchor, h.byName, fun e' he' hs => ?_, h.unambiguous⟩
        rcases mem_append.mp he' with ho | hne
        · exact h.complete e' ho hs
        · rw [mem_singleton.mp hne] at hs
          exact absurd hk hs
      | some kind => exact h.record ha hn (hr e mem_cons_self) hk
  exact hf (db.entriesOf subID) [] ⟨fun _ => none, fun _ => none, []⟩ (fun _ he => he)
    ⟨nofun, nofun, fun _ he => absurd he not_mem_nil, rfl⟩

theorem Agreed.lookup (h : Agreed subID items db decided)
    (hn : (items.map (fun item => item.node.displayName)).Nodup) {item : ExtractedItem} (hi : item ∈ items) :
    (loadKindOverrides db subID).lookup item.node.sourceKey item.node.displayName =
      (decided item.node.sourceKey).map (fun kind => ⟨kind, item.node.sourceKey⟩) := by
  have hr := h.records hn
  have ha (key : String) : key ∉ (loadKindOverrides db subID).ambiguous := by
    rw [hr.unambiguous]
    exact not_mem_nil
  rw [KindOverrides.lookup]
  cases hanchor : (loadKindOverrides db subID).byAnchor item.node.sourceKey with
  | some po =>
    obtain ⟨hd, hk⟩ := hr.byAnchor _ _ hanchor
    rw [hd, Option.map_some, ← hk]
    exact if_neg (ha _)
  | none =>
    -- without a row under the key there is none under the name
    have hno : ∀ e ∈ db.entriesOf subID, e.sourceKey = item.node.sourceKey → e.userKindOverride = none := by
      intro e he hk
      by_contra hki
      exact hr.complete e he hki (hk ▸ hanchor)
    have hd : decided item.node.sourceKey = none := by
      by_contra hsome
      obtain ⟨kind, hki⟩ := Option.ne_none_iff_exists'.mp hsome
      obtain ⟨e, he, hk, ho⟩ := h.stored item hi kind hki
      rw [hno e he hk] at ho
      cases ho
    rw [hd]
    cases hname : (loadKindOverrides db subID).byName item.node.displayName with
    | none => rfl
    | some po =>
      obtain ⟨e, he, hra, ho⟩ := hr.byName _ _ hname
      rw [hno e he (h.sourceKey_eq hn he hi hra)] at ho
      cases ho

end

/-! ### The rows a refresh adds -/

section

variable {lib : InventoryLibraries} {ctx : ReconcileContext}

def EntryRows (lib : InventoryLibraries) (ctx : ReconcileContext) (numbered : List (ExtractedItem × ℕ))
    (rows : List SubscriptionEntry) : Prop :=
  List.Forall₂ (fun p row => ∃ attached, row = entryRow lib ctx p.2 p.1.node attached) numbered rows

variable (lib ctx) in
theorem entryRows_ingestAll : ∀ (items : List ExtractedItem) (n : ℕ) (st : Progress),
    ∃ rows, (ingestAll lib ctx n st items).db.entries = st.db.entries ++ rows ∧
      EntryRows lib ctx (items.zipIdx n) rows := by
  intro items
  induction items with
  | nil =>
    intro n st
    exact ⟨[], (append_nil _).symm, List.Forall₂.nil⟩
  | cons item rest ih =>
    intro n st
    -- whichever branch is taken, one row is stored for the entry
    obtain ⟨attached, hen⟩ : ∃ attached, (ingest lib ctx st n item).db.entries =
        st.db.entries ++ [entryRow lib ctx n item.node attached] := by
      rw [ingest]
      split_ifs
      · exact ⟨_, rfl⟩
      · refine ⟨some (place lib ctx st.db item).target, ?_⟩
        have hk := (ingestNode_spec lib ctx st item (ctx.stamp.entryID n)).2.1
        rw [Progress.addEntry, hk]
    obtain ⟨rows, hr, ha⟩ := ih (n + 1) (ingest lib ctx st n item)
    refine ⟨entryRow lib ctx n item.node attached :: rows, ?_, List.Forall₂.cons ⟨attached, rfl⟩ ha⟩
    rw [ingestAll, hr, hen, append_assoc]
    rfl

theorem EntryRows.ids {numbered : List (ExtractedItem × ℕ)} {rows : List SubscriptionEntry}
    (h : EntryRows lib ctx numbered rows) :
    rows.map SubscriptionEntry.id = numbered.map (fun p => ctx.stamp.entryID p.2) := by
  induction h with
  | nil => rfl
  | cons hr _ ih =>
    obtain ⟨-, rfl⟩ := hr
    rw [map_cons, map_cons, ih]
    rfl

theorem EntryRows.exists_item {numbered : List (ExtractedItem × ℕ)} {rows : List SubscriptionEntry}
    (h : EntryRows lib ctx numbered rows) {e : SubscriptionEntry} (he : e ∈ rows) :
    ∃ p ∈ numbered, ∃ attached, e = entryRow lib ctx p.2 p.1.node attached := by
  induction h with
  | nil => exact absurd he not_mem_nil
  | @cons p row _ _ hr _ ih =>
    rcases mem_cons.mp he with rfl | he
    · exact ⟨p, mem_cons_self, hr⟩
    · obtain ⟨q, hq, hen⟩ := ih he
      exact ⟨q, mem_cons_of_mem p hq, hen⟩

theorem exists_rows_of_refreshed (lib : InventoryLibraries) (db : Inventory) (subID : String)
    (stamp : ReconcileStamp) (extract : ExtractResult) : db.refreshed lib subID stamp (.extracted extract) = db ∨
      ∃ sub rows, db.subscriptions.get? subID = some sub ∧
        (db.refreshed lib subID stamp (.extracted extract)).entries = db.entries ++ rows ∧
        EntryRows lib (loadContext db sub stamp extract) extract.items.zipIdx rows := by
  cases hc : reconcileSubscription lib db subID stamp (.extracted extract) with
  | error e => exact .inl (refreshed_error hc)
  | ok r =>
    right
    obtain ⟨sub, extract', hs, hf, hre⟩ := exists_of_reconcile_ok hc
    obtain rfl := Fetched.extracted.inj hf
    obtain ⟨rows, hr, ha⟩ :=
      entryRows_ingestAll lib (loadContext db sub stamp extract) extract.items 0 ⟨db, []⟩
    refine ⟨sub, rows, hs, ?_, ha⟩
    have he := congrArg entries hre.tables
    have hse := (settled_eq lib (loadContext db sub stamp extract) db).2
    calc (db.refreshed lib subID stamp (.extracted extract)).entries
        = (settled lib (loadContext db sub stamp extract) db).db.entries := he
      _ = (ingestAll lib (loadContext db sub stamp extract) 0 ⟨db, []⟩ extract.items).db.entries := hse
      _ = db.entries ++ rows := hr

end

/-! ### Runs -/

inductive KindCall
  | reconcile (stamp : ReconcileStamp)
  | overrideKind (entryID : String) (kind : Option EntryKind)

structure KindHistory where
  db : Inventory
  decided : String → Option EntryKind

section

variable (lib : InventoryLibraries) (parsedKey : SubscriptionEntry → String) (subID : String)
  (payload : ExtractResult)

variable (st : KindHistory)

def KindHistory.step : KindCall → KindHistory
  | .reconcile stamp => { st with db := st.db.refreshed lib subID stamp (.extracted payload) }
  | .overrideKind entryID kind =>
    match st.db.entries.find? (fun e => e.id = entryID),
      overrideEntryKind lib.toRuntime parsedKey st.db entryID kind with
    | some e, .ok db => ⟨db, update st.decided e.sourceKey kind⟩
    | _, _ => st

/-- The ids a refresh draws are new, and kinds are given to entries of this subscription. -/
def KindCall.Permitted : KindCall → Prop
  | .reconcile stamp => (st.db.entries.map SubscriptionEntry.id ++
      (List.range payload.items.length).map stamp.entryID).Nodup
  | .overrideKind entryID _ => ∃ e ∈ st.db.entriesOf subID, e.id = entryID

/-- No other row of the entry has another kind than the one that is given. -/
def KindCall.Uncontested : KindCall → Prop
  | .reconcile _ => True
  | .overrideKind entryID kind => ∀ e ∈ st.db.entriesOf subID, e.id = entryID →
      ∀ e' ∈ st.db.entriesOf subID, e'.id ≠ entryID → e'.sourceKey = e.sourceKey →
        ∀ kind' ∈ e'.userKindOverride, kind = some kind'

instance (st : KindHistory) (call : KindCall) : Decidable (call.Permitted subID payload st) := by
  cases call <;> unfold KindCall.Permitted <;> infer_instance

instance (st : KindHistory) (call : KindCall) : Decidable (call.Uncontested subID st) := by
  cases call <;> unfold KindCall.Uncontested <;> infer_instance

/-- At the next refresh every entry has the kind decided last for it, or that of the classifier. -/
def KindHistory.Honoured : Prop :=
  ∀ sub stamp, st.db.subscriptions.get? subID = some sub → ∀ item ∈ payload.items,
    (loadContext st.db sub stamp payload).effectiveKind lib item.node =
      (st.decided item.node.sourceKey).getD ((loadContext st.db sub stamp payload).classify lib item.node)

variable {lib parsedKey subID payload} {db : Inventory} {decided : String → Option EntryKind} {e : SubscriptionEntry}

theorem Agreed.userOverride {sub : SubscriptionRow} (h : Agreed sub.id payload.items db decided)
    (hn : (payload.items.map (fun item => item.node.displayName)).Nodup) (stamp : ReconcileStamp)
    {item : ExtractedItem} (hi : item ∈ payload.items) :
    (loadContext db sub stamp payload).userOverride item.node =
      (decided item.node.sourceKey).map (fun kind => ⟨kind, item.node.sourceKey⟩) :=
  h.lookup hn hi

theorem Agreed.honoured {st : KindHistory} (h : Agreed subID payload.items st.db st.decided)
    (hn : (payload.items.map (fun item => item.node.displayName)).Nodup) : st.Honoured lib subID payload := by
  intro sub stamp hs item hi
  obtain ⟨-, rfl⟩ := Table.get?_eq_some.mp hs
  rw [ReconcileContext.effectiveKind, h.userOverride hn stamp hi]
  cases st.decided item.node.sourceKey with
  | none | some kind => rfl

theorem mem_entriesOf_refreshed {sub : SubscriptionRow} {stamp : ReconcileStamp} {rows : List SubscriptionEntry}
    (het : (db.refreshed lib sub.id stamp (.extracted payload)).entries = db.entries ++ rows)
    (hr : EntryRows lib (loadContext db sub stamp payload) payload.items.zipIdx rows)
    (he : e ∈ (db.refreshed lib sub.id stamp (.extracted payload)).entriesOf sub.id) :
    e ∈ db.entriesOf sub.id ∨ ∃ item ∈ payload.items, ∃ n attached,
      e = entryRow lib (loadContext db sub stamp payload) n item.node attached := by
  obtain ⟨hm, ho⟩ := mem_entriesOf.mp he
  rw [het, mem_append] at hm
  rcases hm with hol | hn
  · exact .inl (mem_entriesOf.mpr ⟨hol, ho⟩)
  · obtain ⟨p, hp, attached, hen⟩ := hr.exists_item hn
    have hi : p.1 ∈ payload.items := by
      rw [(mem_zipIdx' hp).2]
      exact getElem_mem _
    exact .inr ⟨p.1, hi, p.2, attached, hen⟩

theorem Agreed.reconcile (h : Agreed subID payload.items db decided)
    (hn : (payload.items.map (fun item => item.node.displayName)).Nodup) {stamp : ReconcileStamp}
    (hid : (db.entries.map SubscriptionEntry.id ++ (List.range payload.items.length).map stamp.entryID).Nodup) :
    Agreed subID payload.items (db.refreshed lib subID stamp (.extracted payload)) decided := by
  rcases exists_rows_of_refreshed lib db subID stamp payload with hs | ⟨sub, rows, hsu, hen, hr⟩
  · rw [hs]
    exact h
  · obtain ⟨-, rfl⟩ := Table.get?_eq_some.mp hsu
    constructor
    · have hor : payload.items.zipIdx.map (fun p => stamp.entryID p.2) =
          (List.range payload.items.length).map stamp.entryID := by
        rw [range_eq_range', ← zipIdx_map_snd 0 payload.items, map_map]
        rfl
      rw [hen, map_append, hr.ids]
      change (_ ++ payload.items.zipIdx.map (fun p => stamp.entryID p.2)).Nodup
      rw [hor]
      exact hid
    · intro e he
      rcases mem_entriesOf_refreshed hen hr he with ho | ⟨item, hi, n, attached, rfl⟩
      · exact h.listed e ho
      · exact ⟨item, hi, rfl, rfl⟩
    · intro e he kind hk
      rcases mem_entriesOf_refreshed hen hr he with ho | ⟨item, hi, n, attached, rfl⟩
      · exact h.held e ho kind hk
      · -- the row carries what was found for its entry
        have hu := h.userOverride hn stamp hi
        rw [entryRow, hu] at hk ⊢
        cases hdecided : decided item.node.sourceKey with
        | none =>
          rw [hdecided] at hk
          cases hk
        | some decision =>
          rw [hdecided] at hk
          cases hk
          exact ⟨rfl, rfl⟩
    · intro item hi kind hk
      obtain ⟨e, he, hke, hov⟩ := h.stored item hi kind hk
      obtain ⟨ho, how⟩ := mem_entriesOf.mp he
      refine ⟨e, mem_entriesOf.mpr ⟨?_, how⟩, hke, hov⟩
      rw [hen]
      exact mem_append_left rows ho

theorem Node.sourceKey_ne_empty (n : Node) : n.sourceKey ≠ "" := by
  intro h
  have hl := congrArg String.length h
  simp [Node.sourceKey, String.length_append] at hl

def SubscriptionEntry.withKind (e : SubscriptionEntry) (kind : Option EntryKind) : SubscriptionEntry :=
  { e with userKindOverride := kind, overrideAnchor := e.sourceKey }

def Inventory.withEntry (db : Inventory) (e : SubscriptionEntry) : Inventory :=
  { db with entries := db.entries.map (fun row => if row.id = e.id then e else row) }

theorem Inventory.mem_entriesOf_withEntry (ho : e.subscriptionID = subID)
    (hid : ∃ row ∈ db.entries, row.id = e.id) (e' : SubscriptionEntry) :
    e' ∈ (db.withEntry e).entriesOf subID ↔ e' = e ∨ (e' ∈ db.entriesOf subID ∧ e'.id ≠ e.id) := by
  rw [mem_entriesOf, withEntry, mem_map]
  constructor
  · intro hma
    obtain ⟨⟨row, hm, hc⟩, hs⟩ := hma
    split_ifs at hc with hr
    · exact .inl hc.symm
    · rw [← hc] at hs ⊢
      exact .inr ⟨mem_entriesOf.mpr ⟨hm, hs⟩, hr⟩
  · intro hc
    rcases hc with hse | ⟨hol, hne⟩
    · obtain ⟨row, hm, hr⟩ := hid
      rw [hse]
      exact ⟨⟨row, hm, if_pos hr⟩, ho⟩
    · obtain ⟨hm, hs⟩ := mem_entriesOf.mp hol
      exact ⟨⟨e', hm, if_neg hne⟩, hs⟩

theorem Inventory.ids_withEntry (db : Inventory) (e : SubscriptionEntry) :
    (db.withEntry e).entries.map SubscriptionEntry.id = db.entries.map SubscriptionEntry.id := by
  rw [withEntry, map_map]
  apply map_congr_left
  intro row _
  rw [comp_apply]
  split_ifs with hid
  · exact hid.symm
  · rfl

variable (lib parsedKey) in
theorem overrideEntryKind_eq_ok
    (hi : (db.entries.map SubscriptionEntry.id).Nodup) (he : e ∈ db.entries) (hk : e.sourceKey ≠ "")
    (kind : Option EntryKind) : db.entries.find? (fun row => row.id = e.id) = some e ∧
      overrideEntryKind lib.toRuntime parsedKey db e.id kind = .ok (db.withEntry (e.withKind kind)) := by
  have hf : db.entries.find? (fun row => row.id = e.id) = some e := (Table.find?_key hi).mpr ⟨he, rfl⟩
  refine ⟨hf, ?_⟩
  rw [overrideEntryKind, hf]
  dsimp only
  rw [if_neg hk, setUserOverride, withEntry]
  congr 2
  apply map_congr_left
  intro row hr
  by_cases hid : row.id = e.id
  · obtain rfl : row = e := inj_on_of_nodup_map hi hr he hid
    rfl
  · rw [if_neg hid]
    exact (if_neg hid).symm

theorem Agreed.overrideKind (h : Agreed subID payload.items db decided) (he : e ∈ db.entriesOf subID)
    {kind : Option EntryKind} (hu : ∀ e' ∈ db.entriesOf subID, e'.id ≠ e.id → e'.sourceKey = e.sourceKey →
      ∀ kind' ∈ e'.userKindOverride, kind = some kind') :
    Agreed subID payload.items (db.withEntry (e.withKind kind)) (update decided e.sourceKey kind) := by
  obtain ⟨hr, how⟩ := mem_entriesOf.mp he
  have hm : ∀ e', e' ∈ (db.withEntry (e.withKind kind)).entriesOf subID ↔
      e' = e.withKind kind ∨ (e' ∈ db.entriesOf subID ∧ e'.id ≠ e.id) :=
    mem_entriesOf_withEntry how ⟨e, hr, rfl⟩
  constructor
  · rw [ids_withEntry]
    exact h.ids
  · intro e' he'
    rcases (hm e').mp he' with rfl | ⟨ho, -⟩
    · exact h.listed e he
    · exact h.listed e' ho
  · intro e' he' k hk
    rcases (hm e').mp he' with rfl | ⟨ho, hid⟩
    · exact ⟨(update_self e.sourceKey kind decided).trans hk, rfl⟩
    · obtain ⟨hd, ha⟩ := h.held e' ho k hk
      refine ⟨?_, ha⟩
      by_cases hke : e'.sourceKey = e.sourceKey
      · rw [hke, update_self]
        exact hu e' ho hid hke k hk
      · rw [update_of_ne hke]
        exact hd
  · intro item hi k hk
    by_cases hke : item.node.sourceKey = e.sourceKey
    · rw [hke, update_self] at hk
      exact ⟨e.withKind kind, (hm _).mpr (.inl rfl), hke.symm, hk⟩
    · rw [update_of_ne hke] at hk
      obtain ⟨e', he', hk', hov⟩ := h.stored item hi k hk
      refine ⟨e', (hm e').mpr (.inr ⟨he', fun hid => hke ?_⟩), hk', hov⟩
      -- a row with the id of the entry is its row
      obtain ⟨hr', -⟩ := mem_entriesOf.mp he'
      obtain rfl : e' = e := inj_on_of_nodup_map h.ids hr' hr hid
      exact hk'.symm

theorem Agreed.step (hn : (payload.items.map (fun item => item.node.displayName)).Nodup)
    (st : KindHistory) (call : KindCall) (h : Agreed subID payload.items st.db st.decided)
    (hc : call.Permitted subID payload st ∧ call.Uncontested subID st) :
    Agreed subID payload.items (st.step lib parsedKey subID payload call).db
      (st.step lib parsedKey subID payload call).decided := by
  cases call with
  | reconcile stamp => exact h.reconcile hn hc.1
  | overrideKind entryID kind =>
    obtain ⟨⟨e, he, rfl⟩, hu⟩ := hc
    obtain ⟨hr, -⟩ := mem_entriesOf.mp he
    obtain ⟨item, -, hk, -⟩ := h.listed e he
    have hne : e.sourceKey ≠ "" := by
      rw [hk]
      exact item.node.sourceKey_ne_empty
    obtain ⟨hf, hok⟩ := overrideEntryKind_eq_ok lib parsedKey h.ids hr hne kind
    rw [KindHistory.step, hf, hok]
    exact h.overrideKind he (hu e he rfl)

/-- Over every run of refreshes of one payload with distinct names and kinds given to its entries, in which no
other row of an entry holds another kind than the one given, the last decision holds at the next refresh. -/
theorem kinds_honoured (db : Inventory) (hids : (db.entries.map SubscriptionEntry.id).Nodup)
    (hfresh : ∀ e ∈ db.entries, e.subscriptionID ≠ subID)
    (hnames : (payload.items.map (fun item => item.node.displayName)).Nodup) (calls : List KindCall)
    (hcalls : Along (KindHistory.step lib parsedKey subID payload)
      (fun st call => call.Permitted subID payload st ∧ call.Uncontested subID st) ⟨db, fun _ => none⟩ calls) :
    (run (KindHistory.step lib parsedKey subID payload) ⟨db, fun _ => none⟩ calls).Honoured lib subID payload := by
  have hs : Agreed subID payload.items db (fun _ => none) := by
    have hem : ∀ e, e ∉ db.entriesOf subID := fun e he =>
      hfresh e (mem_entriesOf.mp he).1 (mem_entriesOf.mp he).2
    exact ⟨hids, fun e he => absurd he (hem e), fun e he => absurd he (hem e), fun _ _ _ h => by cases h⟩
  have hen := hcalls.invariant (I := fun st : KindHistory => Agreed subID payload.items st.db st.decided)
    (Agreed.step hnames) hs
  exact hen.honoured hnames

end

section

/-- A kind is given to the entry of the first payload and copied by the second refresh. -/
def copiedKind : List KindCall :=
  [.reconcile (sampleStamp "f"), .overrideKind "f0" (some .notice), .reconcile (sampleStamp "g")]

abbrev sampleKinds : KindHistory → KindCall → KindHistory :=
  KindHistory.step asciiInventory SubscriptionEntry.rawName "s" firstListing

theorem kinds_honoured_copied :
    (run sampleKinds ⟨sampleInventory, fun _ => none⟩ copiedKind).Honoured asciiInventory "s" firstListing :=
  kinds_honoured sampleInventory nodup_nil (fun _ he => absurd he not_mem_nil) (by decide) copiedKind
    (by decide)

/-- The user clears the kind in the latest payload; the row of the first payload still has it, and the next
refresh takes it from there. -/
theorem exists_revived_kind : Along sampleKinds (KindCall.Permitted "s" firstListing) ⟨sampleInventory, fun _ => none⟩
      (copiedKind ++ [.overrideKind "g0" none]) ∧
    ¬(run sampleKinds ⟨sampleInventory, fun _ => none⟩ (copiedKind ++ [.overrideKind "g0" none])).Honoured
      asciiInventory "s" firstListing := by
  refine ⟨by decide, fun h => ?_⟩
  have hs : (run sampleKinds ⟨sampleInventory, fun _ => none⟩
      (copiedKind ++ [.overrideKind "g0" none])).db.subscriptions.get? "s" = some sampleSubscription := by
    decide
  have hk := h sampleSubscription (sampleStamp "h") hs (listed "node_x" "A" "a.example") mem_cons_self
  exact absurd hk (by decide)

end

end ClashSubParser
