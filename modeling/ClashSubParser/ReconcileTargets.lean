import ClashSubParser.InventoryReconcile

/-! Where the entries of a payload end up: fixed by the tables before the call and the rows reached earlier.
-/
namespace ClashSubParser

open List KeyedTable ReconcileContext Inventory

/-! ### What the statements leave alone -/

section

variable (db : Inventory)

theorem Inventory.writeVersion_eq (v : ConnectionVersion) :
    ∃ versions, db.writeVersion v = { db with versions := versions } := by
  rw [writeVersion]
  split_ifs
  · exact ⟨_, rfl⟩
  · exact ⟨db.versions, rfl⟩

theorem Inventory.upsertVersion_eq (v : ConnectionVersion) :
    ∃ versions, db.upsertVersion v = { db with versions := versions } := by
  rw [upsertVersion]
  split
  · exact db.writeVersion_eq v
  · exact db.writeVersion_eq _

theorem Inventory.upsertHead_eq (id : String) (rev : Int) :
    ∃ heads, db.upsertHead id rev = { db with heads := heads } := by
  rw [upsertHead]
  split_ifs
  · exact ⟨_, rfl⟩
  · exact ⟨db.heads, rfl⟩

theorem Inventory.insertHistory_eq (h : NodeSourceHistory) :
    ∃ history, db.insertHistory h = { db with history := history } := by
  rw [insertHistory]
  split_ifs
  · exact ⟨db.history, rfl⟩
  · exact ⟨_, rfl⟩

theorem recordConnection_eq (p : Placement) (node : Node) (entryID : String) :
    ∃ versions heads, recordConnection db p node entryID = { db with versions := versions, heads := heads } := by
  obtain ⟨versions, hv⟩ := db.upsertVersion_eq ⟨p.target, p.revision, some node.config, some entryID⟩
  obtain ⟨heads, hh⟩ := upsertHead_eq { db with versions := versions } p.target p.revision
  refine ⟨versions, heads, ?_⟩
  rw [recordConnection, hv, hh]

theorem Inventory.hasSource_deleteSource {id id' subID : String} (h : id ≠ id') :
    (db.deleteSource id' subID).hasSource id subID = db.hasSource id subID := by
  change ((db.sources.deleteWhere _).get? (id, subID)).isSome = _
  rw [Table.get?_delete, if_neg (fun hk => h (congrArg Prod.fst hk))]
  rfl

theorem Inventory.hasSource_upsertSource (id id' subID fetchID : String) :
    (db.upsertSource ⟨id', subID, fetchID⟩).hasSource id subID = (decide (id = id') || db.hasSource id subID) := by
  change ((db.sources.put _).get? (id, subID)).isSome = _
  by_cases hid : id = id'
  · rw [hid, db.sources.get?_put_self ⟨id', subID, fetchID⟩]
    simp
  · rw [db.sources.get?_put_of_ne _ (fun hk => hid (congrArg Prod.fst hk)), decide_eq_false hid]
    rfl

end

def Inventory.SameOthers (subID : String) (db db' : Inventory) : Prop :=
  ∀ s : NodeSource, s.subscriptionID ≠ subID → (s ∈ db'.sources.rows ↔ s ∈ db.sources.rows)

namespace Inventory.SameOthers

variable {subID : String} {db db' db'' : Inventory}

theorem refl (subID : String) (db : Inventory) : SameOthers subID db db := fun _ _ => Iff.rfl

theorem trans (h : SameOthers subID db db') (h' : SameOthers subID db' db'') : SameOthers subID db db'' :=
  fun s hs => (h' s hs).trans (h s hs)

theorem of_sources (h : db'.sources = db.sources) : SameOthers subID db db' := by
  intro s _
  rw [h]

theorem deleteSource (db : Inventory) (id subID : String) : SameOthers subID db (db.deleteSource id subID) := by
  intro s hs
  have ho : decide ((s.nodeLogicalID, s.subscriptionID) = (id, subID)) = false := by
    rw [decide_eq_false_iff_not, Prod.mk.injEq]
    exact fun h => hs h.2
  change s ∈ (db.sources.deleteWhere _).rows ↔ _
  rw [Table.mem_deleteWhere]
  exact and_iff_left ho

theorem upsertSource (db : Inventory) (id subID fetchID : String) :
    SameOthers subID db (db.upsertSource ⟨id, subID, fetchID⟩) := by
  intro s hs
  change s ∈ (db.sources.put _).rows ↔ _
  rw [Table.mem_put]
  constructor
  · intro h
    rcases h with h | h
    · exact h.1
    · rw [h] at hs
      exact absurd rfl hs
  · intro h
    exact .inl ⟨h, fun hk => hs (congrArg Prod.snd hk)⟩

theorem hasOtherOwner_eq (h : SameOthers subID db db') (id : String) :
    db'.hasOtherOwner id subID = db.hasOtherOwner id subID := by
  have hi (db : Inventory) : db.hasOtherOwner id subID = true ↔
      ∃ s ∈ db.sources.rows, s.nodeLogicalID = id ∧ s.subscriptionID ≠ subID := by simp [hasOtherOwner]
  rw [Bool.eq_iff_iff, hi, hi]
  refine exists_congr fun s => and_congr_left fun hs => ?_
  exact h s hs.2

end Inventory.SameOthers

section

variable (lib : InventoryLibraries) (ctx : ReconcileContext) (db : Inventory) (item : ExtractedItem) (entryID : String)

/-- The writes before that of the node: versions, heads and history, and in a complete payload the association
with a node that is left to others goes. -/
theorem prepare_eq : ∃ db₀ versions heads history,
    prepare lib ctx db item entryID = { db₀ with versions := versions, heads := heads, history := history } ∧
      (db₀ = db ∨ ctx.success = true ∧ ∃ m, ctx.matchedNode lib item = some m ∧
        db₀ = db.deleteSource m.logicalID ctx.sub.id) := by
  have hr (p : Placement) (node : Node) : ∃ versions heads, recordConnection db p node entryID =
      { db with versions := versions, heads := heads, history := db.history } := recordConnection_eq db p node entryID
  rw [prepare]
  cases ctx.matchedNode lib item with
  | none =>
    obtain ⟨versions, heads, h⟩ := hr (place lib ctx db item) (ctx.entryNode lib item)
    exact ⟨db, versions, heads, db.history, h, .inl rfl⟩
  | some m =>
    dsimp only
    split_ifs
    · obtain ⟨versions, h⟩ := db.upsertVersion_eq _
      exact ⟨db, versions, db.heads, db.history, h, .inl rfl⟩
    · obtain ⟨versions, heads, h⟩ :=
        recordConnection_eq (unlinkShared ctx db m) (place lib ctx db item) (ctx.entryNode lib item) entryID
      obtain ⟨history, hh⟩ := db.insertHistory_eq _
      rw [h, unlinkShared, hh]
      split_ifs with hs
      · exact ⟨db.deleteSource m.logicalID ctx.sub.id, versions, heads, history, rfl, .inr ⟨hs, m, rfl, rfl⟩⟩
      · exact ⟨db, versions, heads, history, rfl, .inl rfl⟩
    · obtain ⟨versions, heads, h⟩ := hr (place lib ctx db item) (ctx.entryNode lib item)
      exact ⟨db, versions, heads, db.history, h, .inl rfl⟩

theorem nodes_prepare : (prepare lib ctx db item entryID).nodes = db.nodes ∧
    (prepare lib ctx db item entryID).entries = db.entries := by
  obtain ⟨db₀, versions, heads, history, h, rfl | ⟨-, m, -, rfl⟩⟩ := prepare_eq lib ctx db item entryID
  · rw [h]
    exact ⟨rfl, rfl⟩
  · rw [h]
    exact ⟨rfl, rfl⟩

theorem sameOthers_prepare : db.SameOthers ctx.sub.id (prepare lib ctx db item entryID) := by
  obtain ⟨db₀, versions, heads, history, h, rfl | ⟨-, m, -, rfl⟩⟩ := prepare_eq lib ctx db item entryID
  · rw [h]
    exact .of_sources rfl
  · rw [h]
    exact Inventory.SameOthers.deleteSource db m.logicalID ctx.sub.id

end

section

variable {lib : InventoryLibraries} {ctx : ReconcileContext} {item : ExtractedItem} {m : Node}

theorem ReconcileContext.mem_of_findExisting {id : String} (h : ctx.findExisting id = some m) : m ∈ ctx.existing :=
  mem_of_find?_eq_some h

theorem ReconcileContext.mem_of_byName {node : Node} (h : ctx.byName node = some m) : m ∈ ctx.existing := by
  rw [byName] at h
  split at h
  next m' hf =>
    cases h
    have hm : m ∈ ctx.existing.filter (fun n => n.nameProtoKey = node.nameProtoKey) := by
      rw [hf]
      exact mem_singleton_self m
    exact mem_of_mem_filter hm
  · cases h

theorem ReconcileContext.mem_of_matchedNode (h : ctx.matchedNode lib item = some m) : m ∈ ctx.existing := by
  rw [matchedNode, Option.or_eq_some_iff, Option.or_eq_some_iff, Option.or_eq_some_iff] at h
  rcases h with h | ⟨-, h | ⟨-, h | ⟨-, h⟩⟩⟩
  · rw [byIdentity] at h
    split_ifs at h
    exact mem_of_findExisting h
  · split_ifs at h
    exact mem_of_byName h
  · exact mem_of_findExisting h
  · exact mem_of_findExisting h

theorem ReconcileContext.findExisting_candidateID (h : ctx.matchedNode lib item = none) :
    ctx.findExisting (candidateID lib item) = none := by
  rw [matchedNode] at h
  simp only [Option.or_eq_none_iff] at h
  exact h.2.2.2

theorem ReconcileContext.findExisting_ne_none (h : m ∈ ctx.existing) : ctx.findExisting m.logicalID ≠ none := by
  intro hn
  rw [findExisting, find?_eq_none] at hn
  exact hn m h (decide_eq_true rfl)

theorem hasSource_of_findExisting {db : Inventory} {sub : SubscriptionRow} {stamp : ReconcileStamp}
    {extract : ExtractResult} {id : String} (h : (loadContext db sub stamp extract).findExisting id = none)
    (hno : db.hasNode id = true) : db.hasSource id sub.id = false := by
  by_contra hsource
  rw [Bool.not_eq_false] at hsource
  obtain ⟨n, hn⟩ := Option.isSome_iff_exists.mp hno
  obtain ⟨hr, rfl⟩ := Table.get?_eq_some.mp hn
  rw [findExisting, find?_eq_none] at h
  refine h _ (mem_map_of_mem (mem_filter.mpr ⟨hr, ?_⟩)) (decide_eq_true rfl)
  rw [hsource, Bool.true_or]

end

/-! ### Destinations -/

section

variable (lib : InventoryLibraries) (ctx : ReconcileContext) (db : Inventory)

/-- The row an entry reaches when the entries before it reached the rows `earlier`. -/
def destination (earlier : List String) (item : ExtractedItem) : String :=
  match ctx.matchedNode lib item with
  | some m =>
    if areConnectionParametersEqual lib.toRuntime m (ctx.entryNode lib item) then m.logicalID
    else if db.hasOtherOwner m.logicalID ctx.sub.id then ctx.scopedCandidateID lib item
    else m.logicalID
  | none =>
    let candidate := ReconcileContext.candidateID lib item
    if candidate ∈ earlier then candidate
    else
      match db.nodes.get? candidate with
      | none => candidate
      | some ex =>
        if areConnectionParametersEqual lib.toRuntime ex item.node then candidate
        else ctx.scopedCandidateID lib item

def destinations : List String → List ExtractedItem → List (ExtractedItem × String)
  | _, [] => []
  | earlier, item :: rest =>
    if ctx.effectiveKind lib item.node = .notice then destinations earlier rest
    else (item, destination lib ctx db earlier item) ::
      destinations (earlier ++ [destination lib ctx db earlier item]) rest

def Node.StoresConnection (n node : Node) : Prop := n.protocol = node.protocol ∧ n.config = node.config

/-- The loop after some entries reached the rows `placed`, started from the tables `db`. -/
structure Tracks (st : Progress) (placed : List (ExtractedItem × String)) : Prop where
  seen : ∀ id, id ∈ st.seen ↔ id ∈ placed.map Prod.snd
  others : ∀ id, st.db.hasOtherOwner id ctx.sub.id = db.hasOtherOwner id ctx.sub.id
  untouched : ∀ id, id ∉ placed.map Prod.snd → st.db.nodes.get? id = db.nodes.get? id
  written : ∀ id ∈ placed.map Prod.snd, ∃ item, (item, id) ∈ placed ∧
    ∃ n, st.db.nodes.get? id = some n ∧ n.StoresConnection (ctx.entryNode lib item)
  linked : ∀ id ∈ placed.map Prod.snd, ctx.findExisting id = none → st.db.hasSource id ctx.sub.id = true
  unlinked : ∀ id, id ∉ placed.map Prod.snd → ctx.findExisting id = none → db.hasNode id = true →
    st.db.hasSource id ctx.sub.id = false

end

section

variable {lib : InventoryLibraries} {ctx : ReconcileContext} {db : Inventory} {st : Progress}
  {placed : List (ExtractedItem × String)} {item : ExtractedItem}

variable (lib) in
theorem placeCandidate_target (ex node : Node) {candidate : String} (scopedID : String)
    (hs : db.hasSource candidate ctx.sub.id = false) :
    (placeCandidate lib ctx db ex node candidate scopedID).target =
      if areConnectionParametersEqual lib.toRuntime ex node then candidate else scopedID := by
  rw [placeCandidate, hs]
  split_ifs <;> first | contradiction | rfl

theorem placeScoped_target {node : Node} {scopedID : String} {active : Bool} :
    (placeScoped lib db node scopedID active).target = scopedID := by
  rw [placeScoped]
  split
  · split_ifs <;> rfl
  · rfl

theorem Tracks.place_target (h : Tracks lib ctx db st placed) (item : ExtractedItem) :
    (place lib ctx st.db item).target = destination lib ctx db (placed.map Prod.snd) item := by
  rw [place, destination]
  cases hm : ctx.matchedNode lib item with
  | some m =>
    dsimp only
    rw [placeMatched, h.others]
    split_ifs <;> rfl
  | none =>
    have hne := findExisting_candidateID hm
    rw [placeUnmatched]
    -- the row of the computed identity: written by this loop, or as it was before
    by_cases he : candidateID lib item ∈ placed.map Prod.snd
    · obtain ⟨_, _, n, hn, _⟩ := h.written _ he
      have hs := h.linked _ he hne
      rw [hn, if_pos he]
      dsimp only
      rw [placeCandidate, if_pos hs]
      split_ifs with heq
      · rw [placeScoped_target]
        exact heq.symm
      · rfl
    · rw [h.untouched _ he, if_neg he]
      cases hex : db.nodes.get? (candidateID lib item) with
      | none => rfl
      | some ex =>
        have hno : db.hasNode (candidateID lib item) = true := by
          rw [hasNode, hex]
          rfl
        have htg := placeCandidate_target lib ex item.node (ctx.scopedCandidateID lib item)
          (h.unlinked _ he hne hno)
        dsimp only
        split_ifs with hsc heu heu
        · rw [placeScoped_target, ← hsc, htg, if_pos heu]
        · rw [placeScoped_target]
        · rw [htg, if_pos heu]
        · rw [htg, if_neg heu]

/-- What writing an entry's node does to the nodes, to the associations of other subscriptions and to those of
this one with nodes it had not listed before. -/
theorem ingestNode_spec (lib : InventoryLibraries) (ctx : ReconcileContext) (st : Progress)
    (item : ExtractedItem) (entryID : String) :
    let p := place lib ctx st.db item
    let st' := ingestNode lib ctx st item entryID
    st'.db.nodes = st.db.nodes.put (placedNode p (ctx.entryNode lib item)) ∧
    st'.db.entries = st.db.entries ∧
    (∀ id, id ∈ st'.seen ↔ id ∈ st.seen ∨ id = p.target) ∧
    st.db.SameOthers ctx.sub.id st'.db ∧
    ∀ id, ctx.findExisting id = none → st'.db.hasSource id ctx.sub.id =
      (decide (id = p.target ∧ p.target ∉ st.seen) || st.db.hasSource id ctx.sub.id) := by
  intro p st'
  obtain ⟨hk, he⟩ := nodes_prepare lib ctx st.db item entryID
  have ho := sameOthers_prepare lib ctx st.db item entryID
  have hsr : ∀ id, ctx.findExisting id = none →
      (prepare lib ctx st.db item entryID).hasSource id ctx.sub.id = st.db.hasSource id ctx.sub.id := by
    intro id hid
    obtain ⟨-, versions, heads, history, h, rfl | ⟨-, m, hm, rfl⟩⟩ := prepare_eq lib ctx st.db item entryID
    · rw [h]
      rfl
    · have hne : id ≠ m.logicalID := by
        rintro rfl
        exact findExisting_ne_none (mem_of_matchedNode hm) hid
      rw [h]
      exact hasSource_deleteSource st.db hne
  have hns : (prepare lib ctx st.db item entryID).nodes.put (placedNode p (ctx.entryNode lib item)) =
      st.db.nodes.put (placedNode p (ctx.entryNode lib item)) := by rw [hk]
  by_cases hs : p.target ∈ st.seen
  · have hst : st' = ⟨(prepare lib ctx st.db item entryID).upsertNode
        (placedNode p (ctx.entryNode lib item)), st.seen⟩ := if_pos hs
    rw [hst]
    refine ⟨hns, he, ?_, ho, ?_⟩
    · intro id
      exact ⟨.inl, fun h => h.elim (fun h => h) (fun h => h ▸ hs)⟩
    · intro id hid
      rw [decide_eq_false (fun h => h.2 hs), Bool.false_or]
      exact hsr id hid
  · have hst : st' = ⟨((prepare lib ctx st.db item entryID).upsertNode
        (placedNode p (ctx.entryNode lib item))).upsertSource ⟨p.target, ctx.sub.id, ctx.stamp.fetchID⟩,
        p.target :: st.seen⟩ := if_neg hs
    rw [hst]
    refine ⟨hns, he, ?_, ho.trans (.upsertSource _ _ _ _), ?_⟩
    · intro id
      rw [mem_cons, or_comm]
    · intro id hid
      rw [hasSource_upsertSource]
      simp only [hs, not_false_eq_true, and_true]
      congr 1
      exact hsr id hid

theorem Tracks.ingestNode (h : Tracks lib ctx db st placed) (item : ExtractedItem) (entryID : String) :
    Tracks lib ctx db (ingestNode lib ctx st item entryID)
      (placed ++ [(item, destination lib ctx db (placed.map Prod.snd) item)]) := by
  obtain ⟨hns, -, hse, ho, hs⟩ := ingestNode_spec lib ctx st item entryID
  rw [h.place_target item] at hse hs
  generalize hd : destination lib ctx db (placed.map Prod.snd) item = d at *
  have hm : ∀ id, id ∈ (placed ++ [(item, d)]).map Prod.snd ↔ id ∈ placed.map Prod.snd ∨ id = d := by
    intro id
    rw [map_append, mem_append]
    exact or_congr_right mem_singleton
  have hk : (placedNode (place lib ctx st.db item) (ctx.entryNode lib item)).logicalID = d :=
    (h.place_target item).trans hd
  constructor
  · intro id
    rw [hse, hm, h.seen]
  · intro id
    rw [ho.hasOtherOwner_eq, h.others]
  · intro id hid
    rw [hm, not_or] at hid
    rw [hns, Table.get?_put_of_ne _ _ (by rw [hk]; exact hid.2)]
    exact h.untouched id hid.1
  · intro id hid
    by_cases hne : id = d
    · -- the row just written
      refine ⟨item, by simp [hne], placedNode (place lib ctx st.db item) (ctx.entryNode lib item), ?_, rfl, rfl⟩
      rw [hns, hne, ← hk]
      exact Table.get?_put_self _ _
    · obtain ⟨item', hi', n, hn, hst⟩ := h.written id (((hm id).mp hid).resolve_right hne)
      refine ⟨item', mem_append_left _ hi', n, ?_, hst⟩
      rw [hns, Table.get?_put_of_ne _ _ (by rw [hk]; exact hne)]
      exact hn
  · intro id hid hf
    rw [hs id hf]
    rcases (hm id).mp hid with hol | hne
    · rw [h.linked id hol hf, Bool.or_true]
    · by_cases hfs : d ∈ st.seen
      · rw [h.linked id (hne ▸ (h.seen d).mp hfs) hf, Bool.or_true]
      · rw [decide_eq_true ⟨hne, hfs⟩, Bool.true_or]
  · intro id hid hf hno
    rw [hm, not_or] at hid
    rw [hs id hf, h.unlinked id hid.1 hf hno, Bool.or_false]
    exact decide_eq_false (fun hc => hid.2 hc.1)

theorem Tracks.addEntry (h : Tracks lib ctx db st placed) (e : SubscriptionEntry) :
    Tracks lib ctx db (st.addEntry e) placed :=
  ⟨h.seen, h.others, h.untouched, h.written, h.linked, h.unlinked⟩

/-- The entries that are no notices, each with the row stored for it. -/
def inventoried (lib : InventoryLibraries) (ctx : ReconcileContext) (items : List ExtractedItem)
    (rows : List SubscriptionEntry) : List (ExtractedItem × SubscriptionEntry) :=
  (items.zip rows).filter (fun p => ctx.effectiveKind lib p.1.node ≠ .notice)

theorem Tracks.ingestAll : ∀ (items : List ExtractedItem) (ordinal : ℕ) {st : Progress}
    {placed : List (ExtractedItem × String)}, Tracks lib ctx db st placed →
    ∃ rows, (ClashSubParser.ingestAll lib ctx ordinal st items).db.entries = st.db.entries ++ rows ∧
      rows.length = items.length ∧
      (inventoried lib ctx items rows).map (fun p => (p.1, p.2.nodeLogicalID)) =
        (destinations lib ctx db (placed.map Prod.snd) items).map
          (fun p => (p.1, (some p.2).filter (fun id => id ≠ ""))) ∧
      Tracks lib ctx db (ClashSubParser.ingestAll lib ctx ordinal st items)
        (placed ++ destinations lib ctx db (placed.map Prod.snd) items) := by
  intro items
  induction items with
  | nil =>
    intro ordinal st placed h
    refine ⟨[], ?_, rfl, rfl, ?_⟩
    · rw [append_nil]
      rfl
    · rw [destinations, append_nil]
      exact h
  | cons item rest ih =>
    intro ordinal st placed h
    rw [ClashSubParser.ingestAll, ingest, destinations]
    by_cases hk : ctx.effectiveKind lib item.node = .notice
    · -- a notice stores its entry only
      rw [if_pos hk, if_pos hk]
      obtain ⟨rows, he, hl, hr, htr⟩ := ih (ordinal + 1) (h.addEntry (entryRow lib ctx ordinal
        item.node ((ctx.matchedNotice item.node).map Node.logicalID)))
      refine ⟨_ :: rows, he.trans (append_assoc _ _ _), congrArg (· + 1) hl, ?_, htr⟩
      rw [inventoried, zip_cons_cons, filter_cons_of_neg (by simpa using hk)]
      exact hr
    · rw [if_neg hk, if_neg hk]
      have hn := (h.ingestNode item (ctx.stamp.entryID ordinal)).addEntry (entryRow lib ctx ordinal item.node
        (some (place lib ctx st.db item).target))
      obtain ⟨rows, he, hl, hr, htr⟩ := ih (ordinal + 1) hn
      rw [map_append] at hr htr
      have hs : (ClashSubParser.ingestNode lib ctx st item (ctx.stamp.entryID ordinal)).db.entries =
          st.db.entries := (ingestNode_spec lib ctx st item (ctx.stamp.entryID ordinal)).2.1
      refine ⟨entryRow lib ctx ordinal item.node (some (place lib ctx st.db item).target) :: rows, ?_,
        congrArg (· + 1) hl, ?_, ?_⟩
      · rw [he, Progress.addEntry, hs]
        exact append_assoc _ _ _
      · rw [inventoried, zip_cons_cons, filter_cons_of_pos (by simpa using hk), map_cons,
          map_cons, entryRow, h.place_target]
        exact congrArg _ hr
      · rw [append_assoc] at htr
        exact htr

end

end ClashSubParser
