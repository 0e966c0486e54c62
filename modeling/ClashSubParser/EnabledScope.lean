import ClashSubParser.EntryOverrides
import ClashSubParser.NodeListing
import ClashSubParser.RefreshFlags

/-! The inventory of the enabled subscriptions, over refreshes and overrides of kinds. -/
namespace ClashSubParser

open List KeyedTable ActionRuns

def SubscriptionEntry.effectiveKind (e : SubscriptionEntry) : EntryKind := e.userKindOverride.getD e.entryKind

inductive ScopeCall
  | reconcile (subID : String) (startedAt : Int) (stamp : ReconcileStamp) (fetched : Fetched)
  | overrideKind (entryID : String) (kind : Option EntryKind)

namespace NodeTables

section

variable (lib : InventoryLibraries) (parsedKey : SubscriptionEntry → String) (db : NodeTables)

/-- A good fetch is stored together with its tables. The row of a failed one is left out: no query reads it. -/
def refresh (subID : String) (startedAt : Int) (stamp : ReconcileStamp) (fetched : Fetched) : NodeTables :=
  { db with
    toInventory := db.toInventory.refreshed lib subID stamp fetched
    fetches := db.fetches ++
      match reconcileSubscription lib db.toInventory subID stamp fetched with
      | .ok (_, result) => [⟨stamp.fetchID, subID, result.outcome, startedAt⟩]
      | .error _ => [] }

def step : ScopeCall → NodeTables
  | .reconcile subID startedAt stamp fetched => db.refresh lib subID startedAt stamp fetched
  | .overrideKind entryID kind =>
    match overrideEntryKind lib.toRuntime parsedKey db.toInventory entryID kind with
    | .ok inventory => { db with toInventory := inventory }
    | .error _ => db

/-- The payload of the subscription whose entries were stored last. -/
def latestPayload (subID : String) : Option String :=
  (db.entriesOf subID).getLast?.map SubscriptionEntry.payloadID

/-- The node is among those that the repository returns for the enabled subscriptions. -/
def InScope (id : String) : Prop :=
  ∃ n ∈ db.matching ⟨.enabledSubscriptions, true, [], true, 1, 0⟩, n.logicalID = id

/-- The row brings its node into the inventory of the enabled subscriptions. -/
def Lists (s : NodeSource) : Prop :=
  (db.subscriptions.get? s.subscriptionID).isSome = true ∧ s.subscriptionID ∈ db.enabledIDs ∧
    s.lastSeenFetchID ≠ "" ∧ db.latestGoodFetch s.subscriptionID = some s.lastSeenFetchID

end

variable {lib : InventoryLibraries} {parsedKey : SubscriptionEntry → String} {db : NodeTables} {id : String}

theorem inScope_iff : db.InScope id ↔ (∃ n ∈ db.nodes.rows, n.logicalID = id ∧ n.active = true) ∧
    db.inEnabledInventory id = true ∧ db.isConfirmedNotice id = false := by
  simp only [InScope, matching, mem_filter, admits, Bool.and_eq_true, Bool.not_eq_true', if_true, isEmpty_nil,
    Bool.not_true, Bool.false_or, Bool.true_or, and_true]
  constructor
  · rintro ⟨n, ⟨hn, hs, ha⟩, rfl⟩
    exact ⟨⟨n, hn, rfl, ha⟩, hs⟩
  · rintro ⟨⟨n, hn, rfl, ha⟩, hs⟩
    exact ⟨n, ⟨hn, hs, ha⟩, rfl⟩

theorem isConfirmedNotice_eq_false_iff : db.isConfirmedNotice id = false ↔
    (∀ e ∈ db.entries, e.nodeLogicalID = some id → e.effectiveKind ≠ .notice) ∨
      ∃ e ∈ db.entries, e.nodeLogicalID = some id ∧ e.userKindOverride = some .proxy := by
  rw [isConfirmedNotice, Bool.and_eq_false_iff, Bool.not_eq_false', any_eq_false, any_eq_true]
  simp only [Bool.and_eq_true, decide_eq_true_eq, not_and, SubscriptionEntry.effectiveKind, Ne]

theorem exists_rows_refreshed (db : Inventory) (subID : String) (stamp : ReconcileStamp) (fetched : Fetched) :
    ∃ rows, (db.refreshed lib subID stamp fetched).entries = db.entries ++ rows := by
  cases hc : reconcileSubscription lib db subID stamp fetched with
  | error e => exact ⟨[], by rw [Inventory.refreshed_error hc, append_nil]⟩
  | ok r =>
    obtain ⟨-, extract, -, rfl, -⟩ := exists_of_reconcile_ok hc
    rcases exists_rows_of_refreshed lib db subID stamp extract with hs | ⟨-, rows, -, hr, -⟩
    · exact ⟨[], by rw [hs, append_nil]⟩
    · exact ⟨rows, hr⟩

/-- A row of an entry stays in the tables, attached to the same node. -/
theorem exists_entry_step (call : ScopeCall) {e : SubscriptionEntry} (he : e ∈ db.entries) :
    ∃ e' ∈ (db.step lib parsedKey call).entries, e'.payloadID = e.payloadID ∧ e'.nodeLogicalID = e.nodeLogicalID := by
  cases call with
  | reconcile subID startedAt stamp fetched =>
    obtain ⟨rows, hr⟩ := exists_rows_refreshed db.toInventory subID stamp fetched
    exact ⟨e, hr ▸ mem_append_left rows he, rfl, rfl⟩
  | overrideKind entryID kind =>
    rw [step, overrideEntryKind]
    cases db.entries.find? (fun row => row.id = entryID) with
    | none => exact ⟨e, he, rfl, rfl⟩
    | some row =>
      refine ⟨_, mem_map_of_mem he, ?_⟩
      split_ifs <;> exact ⟨rfl, rfl⟩

theorem exists_entry_run (calls : List ScopeCall) : ∀ {db : NodeTables} {e : SubscriptionEntry}, e ∈ db.entries →
    ∃ e' ∈ (run (step lib parsedKey) db calls).entries, e'.payloadID = e.payloadID ∧
      e'.nodeLogicalID = e.nodeLogicalID := by
  induction calls with
  | nil => exact fun he => ⟨_, he, rfl, rfl⟩
  | cons call rest ih =>
    intro db e he
    obtain ⟨e', he', hp, hn⟩ := exists_entry_step call he
    obtain ⟨e'', he'', hp', hn'⟩ := ih he'
    exact ⟨e'', he'', hp'.trans hp, hn'.trans hn⟩

/-- Whether a listed node is in scope depends on the entries of all payloads ever stored. -/
theorem inScope_run_iff (lib : InventoryLibraries) (parsedKey : SubscriptionEntry → String) (db : NodeTables)
    (calls : List ScopeCall) (id : String) :
    let after := run (step lib parsedKey) db calls
    (∀ before later, calls = before ++ later → ∀ e ∈ (run (step lib parsedKey) db before).entries,
      ∃ e' ∈ after.entries, e'.payloadID = e.payloadID ∧ e'.nodeLogicalID = e.nodeLogicalID) ∧
    ((∃ n ∈ after.nodes.rows, n.logicalID = id ∧ n.active = true) → after.listedByEnabled id = true →
      (after.InScope id ↔ (∀ e ∈ after.entries, e.nodeLogicalID = some id → e.effectiveKind ≠ .notice) ∨
        ∃ e ∈ after.entries, e.nodeLogicalID = some id ∧ e.userKindOverride = some .proxy)) := by
  intro after
  refine ⟨?_, fun ha hli => ?_⟩
  · rintro before later rfl e he
    obtain ⟨e', he', hs⟩ := exists_entry_run later he
    refine ⟨e', ?_, hs⟩
    change e' ∈ (run _ db (before ++ later)).entries
    rw [run_append]
    exact he'
  · have hin : after.inEnabledInventory id = true := by rw [inEnabledInventory, hli, Bool.true_or]
    rw [inScope_iff, isConfirmedNotice_eq_false_iff]
    exact ⟨fun h => h.2.2, fun h => ⟨ha, hin, h⟩⟩

theorem listedByEnabled_iff :
    db.listedByEnabled id = true ↔ ∃ s ∈ db.sources.rows, s.nodeLogicalID = id ∧ db.Lists s := by
  simp [listedByEnabled, Lists, and_assoc]

theorem latestGoodFetch_append {db' : NodeTables} {f : SubscriptionFetch} (hf : db'.fetches = db.fetches ++ [f])
    (hgo : f.outcome = .partially)
    (hn : ∀ g ∈ db.fetches, g.subscriptionID = f.subscriptionID → g.startedAt < f.startedAt) (subID : String) :
    db'.latestGoodFetch subID = if subID = f.subscriptionID then some f.id else db.latestGoodFetch subID := by
  rw [latestGoodFetch, hf, filter_append]
  split_ifs with hs
  · rw [filter_cons_of_pos (by simp [hs, hgo]), filter_nil, foldl_append, foldl_cons, foldl_nil]
    split
    · rfl
    · next b hb =>
      have hbe : f.newer b = true := by
        -- the best of a list is one of its fetches
        refine foldlRecOn (motive := fun best => best = some b → f.newer b = true) _ _ ?_ ?_ hb
        · exact nofun
        intro best ih g hg heq
        have hg' : f.newer g = true := by
          simp only [mem_filter, Bool.and_eq_true, decide_eq_true_eq] at hg
          simp [SubscriptionFetch.newer, hn g hg.1 (hg.2.1.trans hs)]
        cases best with
        | none =>
          cases heq
          exact hg'
        | some c =>
          dsimp only at heq
          split_ifs at heq
          · cases heq
            exact hg'
          · exact ih heq
      rw [if_pos hbe]
      rfl
  · rw [filter_cons_of_neg (by simp [Ne.symm hs]), filter_nil, append_nil]
    rfl

theorem standsAlone_iff : db.standsAlone id = true ↔ (∃ n ∈ db.nodes.rows, n.logicalID = id ∧ n.active = true) ∧
    (∀ s ∈ db.sources.rows, s.nodeLogicalID ≠ id) ∧ (id ∈ db.confirmedIDs ∨ ¬db.Names id) := by
  simp [standsAlone, Inventory.Names, and_assoc]

theorem sourced_of_existing {subID : String} {m : Node} (h : m ∈ existingNodes db.toInventory subID) :
    (∃ s ∈ db.sources.rows, s.nodeLogicalID = m.logicalID) ∨ db.Names m.logicalID := by
  obtain ⟨n, hn, rfl⟩ := mem_map.mp h
  rcases Bool.or_eq_true_iff.mp (mem_filter.mp hn).2 with hs | hh
  · obtain ⟨s, hs⟩ := Option.isSome_iff_exists.mp hs
    obtain ⟨hm, hk⟩ := Table.get?_eq_some.mp hs
    exact .inl ⟨s, hm, congrArg Prod.fst hk⟩
  · obtain ⟨h, hm, hk⟩ := any_eq_true.mp hh
    exact .inr (.inr ⟨h, hm, beq_iff_eq.mp (Bool.and_eq_true_iff.mp hk).1⟩)

/-- What a partial refresh does to the tables that the query of the scope reads. -/
structure PartialRefresh (db after : NodeTables) (subID fetchID : String) (startedAt : Int)
    (reached : List String) : Prop where
  subscriptions : after.subscriptions = db.subscriptions
  enabledIDs : after.enabledIDs = db.enabledIDs
  confirmedIDs : after.confirmedIDs = db.confirmedIDs
  fetches : after.fetches = db.fetches ++ [⟨fetchID, subID, .partially, startedAt⟩]
  others : db.SameOthers subID after.toInventory
  kept : db.KeepsSources after.toInventory
  sources : ∀ id, after.sources.get? (id, subID) =
    if id ∈ reached then some ⟨id, subID, fetchID⟩ else db.sources.get? (id, subID)
  names : ∀ id, after.Names id → db.Names id ∨ (∃ s ∈ db.sources.rows, s.nodeLogicalID = id) ∨ id ∈ reached

theorem partialRefresh (startedAt : Int) {sub : SubscriptionRow} {stamp : ReconcileStamp} {extract : ExtractResult}
    {r : Inventory × ReconcileResult} (hs : db.subscriptions.get? sub.id = some sub)
    (hc : reconcileSubscription lib db.toInventory sub.id stamp (.extracted extract) = .ok r)
    (ho : r.2.outcome = .partially) :
    PartialRefresh db (db.refresh lib sub.id startedAt stamp (.extracted extract)) sub.id stamp.fetchID startedAt
      ((destinations lib (loadContext db.toInventory sub stamp extract) db.toInventory [] extract.items).map
        Prod.snd) := by
  let ctx := loadContext db.toInventory sub stamp extract
  have ha : (db.refresh lib sub.id startedAt stamp (.extracted extract)).toInventory =
      { (settled lib ctx db.toInventory).db with nodes := r.1.nodes } := by
    rw [← (reconcileSubscription_eq_ok hs hc).renamed.tables]
    change db.toInventory.refreshed .. = _
    rw [Inventory.refreshed, hc]
  have ht := tracks_start lib db.toInventory sub stamp extract
  have hf := success_of_outcome hs hc (by rw [ho]; decide)
  obtain ⟨hsu, hr⟩ := ht.sources_settled hf
  refine ⟨?_, rfl, rfl, ?_, ?_, ?_, ?_, ?_⟩
  · rw [ha]
    exact hsu
  · change db.fetches ++ _ = _
    rw [hc, ← ho]
  · rw [ha]
    exact ht.sameOthers.trans (.of_sources rfl)
  · rw [ha]
    exact ht.keepsSources hf rfl
  · rw [ha]
    exact hr
  · intro id hn
    rw [ha] at hn
    obtain ⟨-, -, -, -, htr⟩ := ht.ingestAll extract.items 0
    have hst : settled lib ctx db.toInventory = ingestAll lib ctx 0 ⟨db.toInventory, []⟩ extract.items :=
      if_neg (by rw [hf]; decide)
    have hi : (ingestAll lib ctx 0 ⟨db.toInventory, []⟩ extract.items).db.Names id := hst ▸ hn
    rcases hi.of_ingestAll extract.items 0 with hb | ⟨m, hm, rfl⟩ | hseen
    · exact .inl hb
    · exact (sourced_of_existing hm).elim (.inr ∘ .inl) .inl
    · exact .inr (.inr ((htr.seen id).mp hseen))

namespace PartialRefresh

variable {after : NodeTables} {subID fetchID : String} {startedAt : Int} {reached : List String}
  (h : PartialRefresh db after subID fetchID startedAt reached)

include h

/-- Only a node that the payload reaches gets a new association. -/
theorem mem_of_unreached {s : NodeSource} (hs : s ∈ after.sources.rows) (hno : s.nodeLogicalID ∉ reached) :
    s ∈ db.sources.rows := by
  by_cases ho : s.subscriptionID = subID
  · have hr := (h.sources _).symm.trans (Table.get?_eq_some.mpr ⟨hs, Prod.ext rfl ho⟩)
    rw [if_neg hno] at hr
    exact (Table.get?_eq_some.mp hr).1
  · exact (h.others s ho).mp hs

theorem exists_source {s : NodeSource} (hs : s ∈ db.sources.rows) :
    ∃ s' ∈ after.sources.rows, s'.nodeLogicalID = s.nodeLogicalID := by
  have hk := h.kept s.nodeLogicalID s.subscriptionID
    (by rw [Inventory.hasSource, Table.get?_eq_some.mpr ⟨hs, rfl⟩]; rfl)
  obtain ⟨s', hs'⟩ := Option.isSome_iff_exists.mp hk
  obtain ⟨hm, hke⟩ := Table.get?_eq_some.mp hs'
  exact ⟨s', hm, congrArg Prod.fst hke⟩

/-- A node that stood alone still does unless the payload reaches it. -/
theorem standsAlone (ha : ∃ n ∈ after.nodes.rows, n.logicalID = id ∧ n.active = true) (hno : id ∉ reached)
    (hal : db.standsAlone id = true) : after.standsAlone id = true := by
  obtain ⟨-, hns, hcn⟩ := standsAlone_iff.mp hal
  refine standsAlone_iff.mpr ⟨ha, ?_, ?_⟩
  · rintro s hs rfl
    exact hns s (h.mem_of_unreached hs hno) rfl
  · rw [h.confirmedIDs]
    refine hcn.imp_right fun hnn hna => ?_
    rcases h.names id hna with hb | ⟨s, hs, heq⟩ | hr
    · exact hnn hb
    · exact hns s hs heq
    · exact hno hr

variable (hnew : ∀ f ∈ db.fetches, f.subscriptionID = subID → f.startedAt < startedAt)
include hnew

theorem latestGoodFetch (owner : String) :
    after.latestGoodFetch owner = if owner = subID then some fetchID else db.latestGoodFetch owner :=
  latestGoodFetch_append h.fetches rfl hnew owner

theorem lists_iff {s : NodeSource} (hs : s.subscriptionID ≠ subID) : after.Lists s ↔ db.Lists s := by
  rw [Lists, Lists, h.subscriptions, h.enabledIDs, h.latestGoodFetch hnew, if_neg hs]

theorem lists_of_reached (hsub : (db.subscriptions.get? subID).isSome = true) (hen : subID ∈ db.enabledIDs)
    (hid : fetchID ≠ "") (hin : id ∈ reached) : ∃ s ∈ after.sources.rows, s.nodeLogicalID = id ∧ after.Lists s := by
  have hr := h.sources id
  rw [if_pos hin] at hr
  refine ⟨_, (Table.get?_eq_some.mp hr).1, rfl, ?_, h.enabledIDs ▸ hen, hid, ?_⟩
  · rw [h.subscriptions]
    exact hsub
  · rw [h.latestGoodFetch hnew, if_pos rfl]

/-- A row under which the refreshed subscription still lists a node is one that the payload wrote. -/
theorem reached_of_lists (hfresh : ∀ s ∈ db.sources.rows, s.lastSeenFetchID ≠ fetchID) {s : NodeSource}
    (hs : s ∈ after.sources.rows) (ho : s.subscriptionID = subID) (hl : after.Lists s) :
    s.nodeLogicalID ∈ reached := by
  by_contra hno
  have hlt := hl.2.2.2
  rw [h.latestGoodFetch hnew, if_pos ho] at hlt
  exact hfresh s (h.mem_of_unreached hs hno) (Option.some.inj hlt).symm

end PartialRefresh

/-- A failed refresh leaves the inventory as it is. A partial one keeps a node exactly if another enabled
subscription lists it, an entry of the partial payload reaches it, or the node stood alone before. -/
theorem inScope_refresh_iff (lib : InventoryLibraries) (db : NodeTables) (subID : String) (startedAt : Int)
    (stamp : ReconcileStamp) (fetched : Fetched) (id : String) :
    let after := db.refresh lib subID startedAt stamp fetched
    (∀ e, reconcileSubscription lib db.toInventory subID stamp fetched = .error e → after = db) ∧
    ∀ r sub extract, reconcileSubscription lib db.toInventory subID stamp fetched = .ok r →
      r.2.outcome = .partially → db.subscriptions.get? subID = some sub → fetched = .extracted extract →
      subID ∈ db.enabledIDs → stamp.fetchID ≠ "" → (∀ s ∈ db.sources.rows, s.lastSeenFetchID ≠ stamp.fetchID) →
      (∀ f ∈ db.fetches, f.subscriptionID = subID → f.startedAt < startedAt) → db.InScope id →
      (∃ n ∈ after.nodes.rows, n.logicalID = id ∧ n.active = true) → after.isConfirmedNotice id = false →
      (after.InScope id ↔
        (∃ s ∈ db.sources.rows, s.nodeLogicalID = id ∧ s.subscriptionID ≠ subID ∧ db.Lists s) ∨
        id ∈ (destinations lib (loadContext db.toInventory sub stamp extract) db.toInventory [] extract.items).map
          Prod.snd ∨
        db.standsAlone id = true) := by
  intro after
  constructor
  · intro e hc
    change db.refresh .. = db
    rw [refresh, hc, Inventory.refreshed_error hc]
    dsimp only
    rw [append_nil]
  rintro r sub extract hc hou hsu rfl hen hid hfresh hnew hbefore ha hn
  obtain ⟨-, rfl⟩ := Table.get?_eq_some.mp hsu
  have h := partialRefresh startedAt hsu hc hou
  generalize (destinations lib (loadContext db.toInventory sub stamp extract) db.toInventory []
    extract.items).map Prod.snd = reached at h ⊢
  have hsome : (db.subscriptions.get? sub.id).isSome = true := hsu ▸ rfl
  rw [inScope_iff, inEnabledInventory, Bool.or_eq_true, listedByEnabled_iff] at hbefore ⊢
  constructor
  · rintro ⟨-, ⟨s, hs, rfl, hl⟩ | hal, -⟩
    · by_cases ho : s.subscriptionID = sub.id
      · exact .inr (.inl (h.reached_of_lists hnew hfresh hs ho hl))
      · exact .inl ⟨s, (h.others s ho).mp hs, rfl, ho, (h.lists_iff hnew ho).mp hl⟩
    · -- a listed node keeps an association, so it would not stand alone now
      refine .inr (.inr (hbefore.2.1.resolve_left ?_))
      rintro ⟨s, hs, rfl, -⟩
      obtain ⟨s', hs', heq⟩ := h.exists_source hs
      exact (standsAlone_iff.mp hal).2.1 s' hs' heq
  · intro hor
    refine ⟨ha, ?_, hn⟩
    by_cases hin : id ∈ reached
    · exact .inl (h.lists_of_reached hnew hsome hen hid hin)
    · rcases hor with ⟨s, hs, rfl, hne, hl⟩ | hin' | hal
      · exact .inl ⟨s, (h.others s hne).mpr hs, rfl, (h.lists_iff hnew hne).mpr hl⟩
      · exact absurd hin' hin
      · exact .inr (h.standsAlone ha hin hal)

end NodeTables

def sampleTables : NodeTables where
  toInventory := sampleInventory
  enabledIDs := ["s"]
  fetches := []
  confirmedIDs := []
  nodeCreatedAt := fun _ => 0

abbrev sampleScope : List ScopeCall → NodeTables :=
  run (NodeTables.step asciiInventory SubscriptionEntry.rawName) sampleTables

theorem inScope_run_listed :
    (sampleScope [.reconcile "s" 0 (sampleStamp "f") (.extracted firstListing)]).InScope "node_x" :=
  ((NodeTables.inScope_run_iff asciiInventory SubscriptionEntry.rawName sampleTables _ "node_x").2 (by decide)
    (by decide)).mpr (by decide)

/-- The entry of the first payload is declared a notice. Under its new name the node is an ordinary proxy of the
second payload, and stays excluded. -/
theorem exists_excluded_listed_node :
    let after := sampleScope [.reconcile "s" 0 (sampleStamp "f") (.extracted firstListing),
      .overrideKind "f0" (some .notice),
      .reconcile "s" 1 (sampleStamp "g") (.extracted ⟨[listed "node_x" "B" "a.example"], 0⟩)]
    (∃ n ∈ after.nodes.rows, n.logicalID = "node_x" ∧ n.active = true) ∧ after.listedByEnabled "node_x" = true ∧
    (∀ e ∈ after.entries, e.nodeLogicalID = some "node_x" →
      after.latestPayload e.subscriptionID = some e.payloadID → e.effectiveKind ≠ .notice) ∧
    ¬after.InScope "node_x" := by
  intro after
  rw [NodeTables.inScope_iff]
  decide

abbrev onceRefreshed : NodeTables := sampleScope [.reconcile "s" 0 (sampleStamp "f") (.extracted firstListing)]

/-- A second refresh that can use one entry of its payload. -/
abbrev partlyRefreshed (item : ExtractedItem) : NodeTables :=
  onceRefreshed.refresh asciiInventory "s" 1 (sampleStamp "g") (.extracted ⟨[item], 1⟩)

theorem inScope_refresh_listed_again : (partlyRefreshed (listed "node_x" "B" "a.example")).InScope "node_x" := by
  obtain ⟨r, hr, ho⟩ := FirstError.map_eq_ok_iff.mp (by decide : (reconcileSubscription asciiInventory
    onceRefreshed.toInventory "s" (sampleStamp "g") (.extracted ⟨[listed "node_x" "B" "a.example"], 1⟩)).map
    (·.2.outcome) = .ok .partially)
  exact ((NodeTables.inScope_refresh_iff asciiInventory _ "s" 1 _ _ "node_x").2 r sampleSubscription _ hr ho
    (by decide) rfl (by decide) (by decide) (by decide) (by decide) (NodeTables.inScope_iff.mpr (by decide))
    (by decide) (by decide)).mpr (.inr (.inl (by decide)))

/-- A partial payload without the node takes it out of the inventory. -/
theorem exists_dropped_node :
    let after := partlyRefreshed (listed "node_y" "B" "b.example")
    (after.fetches.map SubscriptionFetch.outcome).getLast? = some .partially ∧ onceRefreshed.InScope "node_x" ∧
    (∃ n ∈ after.nodes.rows, n.logicalID = "node_x" ∧ n.active = true) ∧ after.isConfirmedNotice "node_x" = false ∧
    ¬after.InScope "node_x" := by
  intro after
  rw [NodeTables.inScope_iff, NodeTables.inScope_iff]
  decide +kernel

end ClashSubParser
