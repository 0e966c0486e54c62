import ClashSubParser.SharedNodes

/-! What a refresh does to active flags and associations. A connection that leaves a shared node takes its
flag along. -/
namespace ClashSubParser

open List KeyedTable Option

def Inventory.sourced (db : Inventory) (id subID : String) : Bool :=
  db.hasSource id subID || db.history.rows.any (fun h => h.nodeLogicalID == id && h.subscriptionID == some subID)

structure NonDestructive (subID : String) (outcome : FetchOutcome) (db db' : Inventory) : Prop where
  kept : ∀ id, db.hasNode id = true → db'.hasNode id = true
  enabled : ∀ id n n', db.nodes.get? id = some n → db'.nodes.get? id = some n' →
    n.active = true → n'.active = true
  disabled : ∀ id n n', db.nodes.get? id = some n → db'.nodes.get? id = some n' →
    db.sourced id subID = true → n.active = false → n'.active = false
  sources : outcome ≠ .success → ∀ id owner, db.hasSource id owner = true → db'.hasSource id owner = true

variable (lib : InventoryLibraries)

def Inventory.refreshOutcome (db : Inventory) (subID : String) (stamp : ReconcileStamp)
    (fetched : Fetched) : FetchOutcome :=
  match reconcileSubscription lib db subID stamp fetched with
  | .ok r => r.2.outcome
  | .error _ => .failed

/-- The node with which the last matched one of the entries that reach a row is matched. -/
def lastMatched (ctx : ReconcileContext) (placed : List (ExtractedItem × String))
    (id : String) : Option Node :=
  placed.foldl (fun last p => if p.2 = id then (ctx.matchedNode lib p.1).or last else last) none

/-- Before the call: where a matched entry is the last one to reach a stored row, the row has the flag of the
matched node, or is disabled and none of the subscription's. -/
def FlagsAgree (ctx : ReconcileContext) (db : Inventory) : Prop :=
  ∀ n ∈ db.nodes.rows, ∀ m ∈ lastMatched lib ctx (destinations lib ctx db [] ctx.items) n.logicalID,
    m.active = n.active ∨ (n.active = false ∧ db.sourced n.logicalID ctx.sub.id = false)

instance (lib : InventoryLibraries) (ctx : ReconcileContext) (db : Inventory) : Decidable (FlagsAgree lib ctx db) :=
  inferInstanceAs (Decidable (∀ n ∈ _, _))

section

variable {lib : InventoryLibraries} {ctx : ReconcileContext} {db : Inventory}

theorem lastMatched_concat (placed : List (ExtractedItem × String)) (item : ExtractedItem) (d id : String) :
    lastMatched lib ctx (placed ++ [(item, d)]) id =
      if d = id then (ctx.matchedNode lib item).or (lastMatched lib ctx placed id)
      else lastMatched lib ctx placed id := by
  rw [lastMatched, foldl_append]
  rfl

theorem mem_of_lastMatched {placed : List (ExtractedItem × String)} {id : String} {m : Node}
    (h : lastMatched lib ctx placed id = some m) : id ∈ placed.map Prod.snd := by
  induction placed using List.reverseRecOn with
  | nil => cases h
  | append_singleton placed p ih =>
    obtain ⟨item, d⟩ := p
    rw [lastMatched_concat] at h
    rw [map_append, mem_append]
    split_ifs at h with hd
    · exact .inr (mem_singleton.mpr hd.symm)
    · exact .inl (ih h)

theorem placeMatched_active (m node : Node) (scopedID : String) :
    (placeMatched lib ctx db m node scopedID).active = m.active := by
  rw [placeMatched]
  split_ifs <;> rfl

theorem placeScoped_active {node r : Node} {scopedID : String} {active : Bool}
    (hr : db.nodes.get? scopedID = some r) :
    (placeScoped lib db node scopedID active).active = (active && r.active) := by
  rw [placeScoped, hr]
  dsimp only
  split_ifs <;> rfl

variable (lib ctx db) in
/-- The computed identity keeps the flag of its row, unless it takes over a row without association with
this subscription. -/
theorem placeCandidate_active (ex node : Node) (c scopedID : String) :
    let p := placeCandidate lib ctx db ex node c scopedID
    (p.target = scopedID ∧ p.active = true) ∨ (p.target = c ∧
      (p.active = ex.active ∨ (p.active = true ∧ db.hasSource c ctx.sub.id = false))) := by
  intro p
  by_cases hs : db.hasSource c ctx.sub.id = true
  · have hp : p = ⟨c, ex.connectionRevision, ex.active⟩ := if_pos hs
    rw [hp]
    exact .inr ⟨rfl, .inl rfl⟩
  · have hp : p = _ := if_neg hs
    rw [hp]
    split_ifs
    · exact .inr ⟨rfl, .inl rfl⟩
    · exact .inl ⟨rfl, rfl⟩
    · exact .inr ⟨rfl, .inr ⟨rfl, Bool.not_eq_true _ ▸ hs⟩⟩
    · exact .inl ⟨rfl, rfl⟩

/-- The flag of an entry without a match is that of the row it reaches, unless it takes over a stored row. -/
theorem placeUnmatched_active {node r : Node} {c scopedID : String}
    (hr : db.nodes.get? (placeUnmatched lib ctx db node c scopedID).target = some r) :
    let p := placeUnmatched lib ctx db node c scopedID
    p.active = r.active ∨ (p.active = true ∧ p.target = c ∧ db.hasSource c ctx.sub.id = false) := by
  intro p
  cases hex : db.nodes.get? c with
  | none =>
    have hp : placeUnmatched lib ctx db node c scopedID = ⟨c, 1, true⟩ := by
      rw [placeUnmatched, hex]
    rw [hp, hex] at hr
    cases hr
  | some ex =>
    have hc := placeCandidate_active lib ctx db ex node c scopedID
    have hpl : p = if (placeCandidate lib ctx db ex node c scopedID).target = scopedID then
        placeScoped lib db node scopedID (placeCandidate lib ctx db ex node c scopedID).active
        else placeCandidate lib ctx db ex node c scopedID := by
      change placeUnmatched lib ctx db node c scopedID = _
      rw [placeUnmatched, hex]
    change db.nodes.get? p.target = some r at hr
    split_ifs at hpl with hs
    · rw [hpl, placeScoped_target] at hr
      rw [hpl, placeScoped_active hr]
      left
      rcases hc with ⟨-, ha⟩ | ⟨htg, ha | ⟨ha, -⟩⟩
      · rw [ha, Bool.true_and]
      · -- the two identities are one, and so are the rows
        rw [← hs, htg, hex] at hr
        rw [ha, some.inj hr, Bool.and_self]
      · rw [ha, Bool.true_and]
    · rw [hpl] at hr ⊢
      rcases hc with ⟨htg, -⟩ | ⟨htg, ha | ⟨ha, hsr⟩⟩
      · exact absurd htg hs
      · rw [htg, hex] at hr
        rw [ha, some.inj hr]
        exact .inl rfl
      · exact .inr ⟨ha, htg, hsr⟩

end

/-! ### The loop -/

section

variable {lib : InventoryLibraries} {ctx : ReconcileContext} {db : Inventory} {st : Progress}
  {placed : List (ExtractedItem × String)}

theorem place_active_of_matched {item : ExtractedItem} {m : Node} (h : ctx.matchedNode lib item = some m) :
    (place lib ctx st.db item).active = m.active := by
  rw [place, h]
  exact placeMatched_active m _ _

/-- An entry without a match keeps the flag of the row it reaches, or takes over a row that no entry has
reached. -/
theorem Tracks.place_active (htracks : Tracks lib ctx db st placed) {item : ExtractedItem} {r : Node}
    (h : ctx.matchedNode lib item = none) (hr : st.db.nodes.get? (place lib ctx st.db item).target = some r) :
    (place lib ctx st.db item).active = r.active ∨ ((place lib ctx st.db item).active = true ∧
      ctx.findExisting (place lib ctx st.db item).target = none ∧
      (place lib ctx st.db item).target ∉ placed.map Prod.snd) := by
  have hn := ReconcileContext.findExisting_candidateID h
  rw [place, h] at hr ⊢
  rcases placeUnmatched_active hr with ha | ⟨ha, htg, hs⟩
  · exact .inl ha
  · rw [htg]
    refine .inr ⟨ha, hn, fun hre => ?_⟩
    rw [htracks.linked _ hre hn] at hs
    cases hs

/-- After the loop a row has the flag of the node the last matched entry was matched with; without such an entry
its flag is as before, or the row was taken over. -/
theorem Tracks.lastFlags (h : Tracks lib ctx db ⟨db, []⟩ []) (id : String) :
    match lastMatched lib ctx (destinations lib ctx db [] ctx.items) id with
    | some m => ∃ n, (settled lib ctx db).db.nodes.get? id = some n ∧ n.active = m.active
    | none => ∀ n, db.nodes.get? id = some n → ∃ n', (settled lib ctx db).db.nodes.get? id = some n' ∧
        (n'.active = n.active ∨ (n'.active = true ∧ ctx.findExisting id = none)) := by
  refine h.rows_settled (fun id placed row => match lastMatched lib ctx placed id with
    | some m => ∃ n, row = some n ∧ n.active = m.active
    | none => ∀ n, db.nodes.get? id = some n → ∃ n', row = some n' ∧
        (n'.active = n.active ∨ (n'.active = true ∧ ctx.findExisting id = none)))
    (fun id n hn => ⟨n, hn, .inl rfl⟩) ?_ ?_ id
  · intro st placed item htracks p hro
    rw [lastMatched_concat, if_pos rfl]
    cases hm : ctx.matchedNode lib item with
    | some m => exact ⟨_, rfl, place_active_of_matched hm⟩
    | none =>
      cases hlast : lastMatched lib ctx placed p.target with
      | some m =>
        rw [hlast] at hro
        obtain ⟨r, hr, ha⟩ := hro
        refine ⟨_, rfl, ?_⟩
        rcases htracks.place_active hm hr with hs | ⟨-, -, hf⟩
        · exact hs.trans ha
        · exact absurd (mem_of_lastMatched hlast) hf
      | none =>
        rw [hlast] at hro
        intro n hn
        obtain ⟨r, hr, ha⟩ := hro n hn
        refine ⟨_, rfl, ?_⟩
        rcases htracks.place_active hm hr with hs | ⟨ht, hne, -⟩
        · change p.active = n.active ∨ (p.active = true ∧ _)
          rw [hs]
          exact ha
        · exact .inr ⟨ht, hne⟩
  · intro id d placed item row hd hro
    rw [lastMatched_concat, if_neg hd]
    exact hro

end

/-! ### Associations -/

def Inventory.KeepsSources (db db' : Inventory) : Prop :=
  ∀ id owner, db.hasSource id owner = true → db'.hasSource id owner = true

section

variable {lib : InventoryLibraries} {ctx : ReconcileContext} {db : Inventory}

/-- A partial refresh stamps the associations with the nodes its entries reach, and leaves the others. -/
theorem Tracks.sources_settled (h : Tracks lib ctx db ⟨db, []⟩ []) (hf : ctx.success = false) :
    (settled lib ctx db).db.subscriptions = db.subscriptions ∧
    ∀ id, (settled lib ctx db).db.sources.get? (id, ctx.sub.id) =
      if id ∈ (destinations lib ctx db [] ctx.items).map Prod.snd then some ⟨id, ctx.sub.id, ctx.stamp.fetchID⟩
      else db.sources.get? (id, ctx.sub.id) := by
  rw [settled, hf]
  refine Tracks.ingestAll_induction lib ctx db
    (fun st placed => st.db.subscriptions = db.subscriptions ∧ ∀ id, st.db.sources.get? (id, ctx.sub.id) =
      if id ∈ placed.map Prod.snd then some ⟨id, ctx.sub.id, ctx.stamp.fetchID⟩ else db.sources.get? (id, ctx.sub.id))
    ?_ (fun _ _ _ hst => hst) ctx.items 0 h ⟨rfl, fun _ => rfl⟩
  rintro st placed item eid ht ⟨hsu, hr⟩
  obtain ⟨_, _, _, _, hp, rfl | ⟨hs, -⟩⟩ := prepare_eq lib ctx st.db item eid
  · rw [← ht.place_target item, ClashSubParser.ingestNode, hp]
    simp only [map_append, mem_append, map_singleton, mem_singleton]
    split_ifs with hse
    · refine ⟨hsu, fun id => (hr id).trans (if_congr ?_ rfl rfl)⟩
      exact (or_iff_left_of_imp (fun hid => hid ▸ (ht.seen _).mp hse)).symm
    · refine ⟨hsu, fun id => ?_⟩
      change (st.db.sources.put _).get? (id, ctx.sub.id) = _
      by_cases hid : id = (place lib ctx st.db item).target
      · rw [hid, st.db.sources.get?_put_self ⟨_, ctx.sub.id, ctx.stamp.fetchID⟩, if_pos (.inr rfl)]
      · rw [st.db.sources.get?_put_of_ne _ (fun hk => hid (congrArg Prod.fst hk)), hr]
        simp only [hid, or_false]
  · rw [hf] at hs
    cases hs

theorem Tracks.keepsSources (h : Tracks lib ctx db ⟨db, []⟩ []) (hf : ctx.success = false) {db' : Inventory}
    (hsr : db'.sources = (settled lib ctx db).db.sources) : db.KeepsSources db' := by
  intro id owner hso
  rw [Inventory.hasSource, hsr]
  by_cases ho : owner = ctx.sub.id
  · rw [ho, (h.sources_settled hf).2]
    split_ifs
    · rfl
    · exact ho ▸ hso
  · obtain ⟨s, hs⟩ := isSome_iff_exists.mp hso
    obtain ⟨hm, hk⟩ := Table.get?_eq_some.mp hs
    obtain ⟨rfl, rfl⟩ := Prod.mk.inj hk
    exact h.sameOthers.hasSource hm ho

end

/-! ### The call -/

section

variable {lib : InventoryLibraries} {db : Inventory} {subID : String} {stamp : ReconcileStamp} {fetched : Fetched}

theorem sourced_of_findExisting {sub : SubscriptionRow} {extract : ExtractResult} {n : Node}
    (hn : n ∈ db.nodes.rows) (h : (loadContext db sub stamp extract).findExisting n.logicalID = none) :
    db.sourced n.logicalID sub.id = false := by
  by_contra hs
  rw [Bool.not_eq_false] at hs
  rw [ReconcileContext.findExisting, find?_eq_none] at h
  exact h _ (mem_map_of_mem (mem_filter.mpr ⟨hn, hs⟩)) (decide_eq_true rfl)

theorem Inventory.OnlyRenamed.active {db db' : Inventory} (h : Inventory.OnlyRenamed db db') {id : String} {n : Node}
    (hn : db.nodes.get? id = some n) : ∃ n', db'.nodes.get? id = some n' ∧ n'.active = n.active := by
  have hrenamed := h.nodes id
  rw [hn, map_some, map_eq_some_iff] at hrenamed
  obtain ⟨n', hn', heq⟩ := hrenamed
  have ha : n'.unnamed.active = n.unnamed.active := congrArg Node.active heq
  exact ⟨n', hn', ha⟩

theorem success_of_outcome {sub : SubscriptionRow} {extract : ExtractResult} {r : Inventory × ReconcileResult}
    (hs : db.subscriptions.get? subID = some sub)
    (h : reconcileSubscription lib db subID stamp (.extracted extract) = .ok r) (ho : r.2.outcome ≠ .success) :
    (loadContext db sub stamp extract).success = false := by
  rw [(reconcileSubscription_eq_ok hs h).outcome] at ho
  by_contra hsuccess
  rw [Bool.not_eq_false] at hsuccess
  exact ho (if_pos hsuccess)

theorem nonDestructive_self (subID : String) (outcome : FetchOutcome) (db : Inventory) :
    NonDestructive subID outcome db db where
  kept _ h := h
  enabled _ _ _ h h' hactive := some.inj (h.symm.trans h') ▸ hactive
  disabled _ _ _ h h' _ hactive := some.inj (h.symm.trans h') ▸ hactive
  sources _ _ _ h := h

/-- It suffices that every stored row keeps its flag, or was disabled and none of the subscription's. -/
theorem nonDestructive_of_rows {outcome : FetchOutcome} {db' : Inventory}
    (hr : ∀ id n, db.nodes.get? id = some n → ∃ n', db'.nodes.get? id = some n' ∧
      (n'.active = n.active ∨ (n.active = false ∧ db.sourced id subID = false)))
    (hsr : outcome ≠ .success → db.KeepsSources db') : NonDestructive subID outcome db db' := by
  constructor
  · intro id hid
    obtain ⟨n, hn⟩ := isSome_iff_exists.mp hid
    obtain ⟨n', hn', -⟩ := hr id n hn
    rw [Inventory.hasNode, hn']
    rfl
  · intro id n n' hn hn' ha
    obtain ⟨n'', hn'', hc⟩ := hr id n hn
    obtain rfl := some.inj (hn'.symm.trans hn'')
    rcases hc with hs | ⟨hf, -⟩
    · exact hs.trans ha
    · exact absurd (ha.symm.trans hf) (by decide)
  · intro id n n' hn hn' hso ha
    obtain ⟨n'', hn'', hc⟩ := hr id n hn
    obtain rfl := some.inj (hn'.symm.trans hn'')
    rcases hc with hs | ⟨-, hno⟩
    · exact hs.trans ha
    · exact absurd (hso.symm.trans hno) (by decide)
  · exact hsr

section

variable {ctx : ReconcileContext} {db' : Inventory} (htracks : Tracks lib ctx db ⟨db, []⟩ [])
  (hrenamed : Inventory.OnlyRenamed (settled lib ctx db).db db')
  (hlisted : ∀ n ∈ db.nodes.rows, ctx.findExisting n.logicalID = none → db.sourced n.logicalID ctx.sub.id = false)

include htracks hrenamed

theorem active_of_lastMatched {id : String} {m : Node}
    (hm : lastMatched lib ctx (destinations lib ctx db [] ctx.items) id = some m) :
    ∃ n', db'.nodes.get? id = some n' ∧ n'.active = m.active := by
  have hl := htracks.lastFlags id
  rw [hm] at hl
  obtain ⟨r, hr, ha⟩ := hl
  obtain ⟨n', hn', hs⟩ := hrenamed.active hr
  exact ⟨n', hn', hs.trans ha⟩

include hlisted

theorem active_of_lastMatched_none {n : Node} (hn : n ∈ db.nodes.rows)
    (hno : lastMatched lib ctx (destinations lib ctx db [] ctx.items) n.logicalID = none) :
    ∃ n', db'.nodes.get? n.logicalID = some n' ∧
      (n'.active = n.active ∨ (n.active = false ∧ db.sourced n.logicalID ctx.sub.id = false)) := by
  have hro : db.nodes.get? n.logicalID = some n := Table.get?_eq_some.mpr ⟨hn, rfl⟩
  have hl := htracks.lastFlags n.logicalID
  rw [hno] at hl
  obtain ⟨r, hr, ha⟩ := hl n hro
  obtain ⟨n', hn', hs⟩ := hrenamed.active hr
  refine ⟨n', hn', ?_⟩
  rw [hs]
  rcases ha with hk | ⟨ht, hf⟩
  · exact .inl hk
  · cases hold : n.active with
    | true => exact .inl ht
    | false => exact .inr ⟨rfl, hlisted n hn hf⟩

theorem nonDestructive_iff_flagsAgree {outcome : FetchOutcome} (hou : outcome ≠ .success → ctx.success = false) :
    NonDestructive ctx.sub.id outcome db db' ↔ FlagsAgree lib ctx db := by
  have hs := congrArg Inventory.sources hrenamed.tables
  constructor
  · intro h n hn m hm
    have hr : db.nodes.get? n.logicalID = some n := Table.get?_eq_some.mpr ⟨hn, rfl⟩
    obtain ⟨n', hn', ha⟩ := active_of_lastMatched htracks hrenamed hm
    have he := h.enabled _ n n' hr hn'
    have hd := h.disabled _ n n' hr hn'
    rw [ha] at he hd
    cases ho : n.active with
    | true => exact .inl (he ho)
    | false =>
      cases hso : db.sourced n.logicalID ctx.sub.id with
      | true => exact .inl (hd hso ho)
      | false => exact .inr ⟨rfl, rfl⟩
  · intro h
    apply nonDestructive_of_rows
    · intro id n hn
      obtain ⟨hme, rfl⟩ := Table.get?_eq_some.mp hn
      cases hl : lastMatched lib ctx (destinations lib ctx db [] ctx.items) n.logicalID with
      | some m =>
        obtain ⟨n', hn', ha⟩ := active_of_lastMatched htracks hrenamed hl
        refine ⟨n', hn', ?_⟩
        rw [ha]
        exact h n hme m hl
      | none => exact active_of_lastMatched_none htracks hrenamed hlisted hme hl
    · intro hf
      exact htracks.keepsSources (hou hf) hs

end

/-- A refresh of any payload and outcome is non-destructive exactly when, if the call returns, the flags of
the nodes it matches agree with those stored where their entries go. -/
theorem reconcile_nonDestructive_iff :
    NonDestructive subID (db.refreshOutcome lib subID stamp fetched) db (db.refreshed lib subID stamp fetched) ↔
      ∀ r, reconcileSubscription lib db subID stamp fetched = .ok r →
        ∀ sub extract, db.subscriptions.get? subID = some sub → fetched = .extracted extract →
          FlagsAgree lib (loadContext db sub stamp extract) db := by
  apply reconcile_iff
  · intro e hc
    rw [Inventory.refreshed_error hc]
    exact nonDestructive_self subID _ db
  · intro r sub extract hc hs hf hrenamed
    have hr : db.refreshOutcome lib subID stamp fetched = r.2.outcome := by
      rw [Inventory.refreshOutcome, hc]
    rw [hf] at hc
    have hsu := success_of_outcome hs hc
    obtain ⟨-, rfl⟩ := Table.get?_eq_some.mp hs
    rw [hr]
    exact nonDestructive_iff_flagsAgree (tracks_start lib db sub stamp extract) hrenamed
      (fun n => sourced_of_findExisting) hsu

end

section

/-- The subscription has joined the node of another one, then listed it with its uuid in upper case and got
a row of its own. -/
def copiedInventory (joined copied : ExtractedItem) : Inventory :=
  ((ownedInventory joined).refreshed asciiInventory "s" (sampleStamp "f") (.extracted ⟨[joined], 0⟩)).refreshed
    asciiInventory "s" (sampleStamp "g") (.extracted ⟨[copied], 0⟩)

abbrev respelledInventory : Inventory := copiedInventory (tuicEntry "A" lowerUUID) (tuicEntry "A" upperUUID)

abbrev upperListing : ExtractResult := ⟨[tuicEntry "A" upperUUID], 0⟩

theorem reconcile_nonDestructive_copied : succeeded (reconcileSubscription asciiInventory respelledInventory "s"
      (sampleStamp "h") (.extracted upperListing)) = true ∧
    NonDestructive "s" (respelledInventory.refreshOutcome asciiInventory "s" (sampleStamp "h")
        (.extracted upperListing)) respelledInventory
      (respelledInventory.refreshed asciiInventory "s" (sampleStamp "h") (.extracted upperListing)) := by
  rw [respelledInventory, upperListing, tuicEntry_lower, tuicEntry_upper (by decide)]
  refine ⟨by decide +kernel, reconcile_nonDestructive_iff.mpr ?_⟩
  intro _ _ sub extract hs hf
  have hsa : (copiedInventory (sharedEntry "A" lowerUUID) (sharedEntry "A" upperUUID)).subscriptions.get? "s" =
      some sampleSubscription := by decide +kernel
  obtain rfl := some.inj (hsa.symm.trans hs)
  obtain rfl := Fetched.extracted.inj hf
  decide +kernel

def copiedID : String := computeScopedLogicalID asciiInventory.toRuntime "s" sharedID

def deactivated (db : Inventory) (id : String) : Inventory :=
  match db.nodes.get? id with
  | some n => db.upsertNode { n with active := false }
  | none => db

abbrev disabledInventory : Inventory := deactivated respelledInventory copiedID

/-- The same payload again: the entry is matched with the node it was copied from, whose flag enables the
copy. -/
theorem exists_enabled_copy : succeeded (reconcileSubscription asciiInventory disabledInventory "s"
      (sampleStamp "h") (.extracted upperListing)) = true ∧
    ¬NonDestructive "s" (disabledInventory.refreshOutcome asciiInventory "s" (sampleStamp "h")
        (.extracted upperListing)) disabledInventory
      (disabledInventory.refreshed asciiInventory "s" (sampleStamp "h") (.extracted upperListing)) := by
  rw [disabledInventory, respelledInventory, upperListing, tuicEntry_lower, tuicEntry_upper (by decide)]
  generalize hdb : deactivated (copiedInventory (sharedEntry "A" lowerUUID) (sharedEntry "A" upperUUID)) copiedID = db
  refine ⟨by subst hdb; decide +kernel, fun h => ?_⟩
  have hb : (db.nodes.get? copiedID).map Node.active = some false := by subst hdb; decide +kernel
  have ha : ((db.refreshed asciiInventory "s" (sampleStamp "h")
      (.extracted ⟨[sharedEntry "A" upperUUID], 0⟩)).nodes.get? copiedID).map Node.active = some true := by
    subst hdb
    decide +kernel
  have hf : db.sourced copiedID "s" = true := by subst hdb; decide +kernel
  obtain ⟨n, hn, hi⟩ := map_eq_some_iff.mp hb
  obtain ⟨n', hn', hac⟩ := map_eq_some_iff.mp ha
  have hk := h.disabled copiedID n n' hn hn' hf hi
  exact absurd (hk.symm.trans hac) (by decide)

end

end ClashSubParser
