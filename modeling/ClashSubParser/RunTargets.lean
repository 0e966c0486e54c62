import ClashSubParser.DelimitedLines
import ClashSubParser.ProbeRunner

/-! What a run sets out to probe: the nodes its query finds, its kinds, and the pairs of both. -/
namespace ClashSubParser

open List KeyedTable DelimitedLines Node

/-! ### The nodes -/

def NodeTables.isProbeable (db : NodeTables) (scope : NodeScope) (id : String) : Bool :=
  db.nodes.rows.any (fun n => n.logicalID = id && n.active) &&
    (scope ≠ .enabledSubscriptions || db.inEnabledInventory id) && !db.isConfirmedNotice id

section

variable {db : NodeTables} {cfg : DefaultRunner} {nodeIDs : List String}

theorem effectivePageSize_targetQuery (h : nodeIDs ≠ []) :
    (cfg.targetQuery nodeIDs).effectivePageSize = min 100 nodeIDs.length := by
  have hp := length_pos_iff.mpr h
  rw [DefaultRunner.targetQuery, NodeQuery.effectivePageSize]
  dsimp only
  split_ifs <;> omega

theorem admits_targetQuery (h : nodeIDs ≠ []) (n : Node) : db.admits (cfg.targetQuery nodeIDs) n = true ↔
    n.logicalID ∈ nodeIDs ∧ n.active = true ∧
      (cfg.targetScope = .enabledSubscriptions → db.inEnabledInventory n.logicalID = true) ∧
      db.isConfirmedNotice n.logicalID = false := by
  have hi : nodeIDs.isEmpty = false := isEmpty_eq_false_iff.mpr h
  rw [NodeTables.admits, DefaultRunner.targetQuery]
  rw [hi]
  by_cases hs : cfg.targetScope = .enabledSubscriptions <;> simp [hs, and_comm, and_left_comm]

theorem map_matching_perm (h : nodeIDs ≠ []) (hnd : nodeIDs.Nodup)
    (hp : ∀ id ∈ nodeIDs, db.isProbeable cfg.targetScope id = true) :
    ((db.matching (cfg.targetQuery nodeIDs)).map logicalID).Perm nodeIDs := by
  rw [perm_ext_iff_of_nodup NodeTables.nodup_matching hnd]
  intro id
  rw [mem_map]
  constructor
  · intro ⟨n, hn, hid⟩
    have ha := (admits_targetQuery h n).mp (mem_filter.mp hn).2
    exact hid ▸ ha.1
  · intro hid
    have hi' := hp id hid
    simp only [NodeTables.isProbeable, Bool.and_eq_true, any_eq_true, decide_eq_true_eq, Bool.or_eq_true,
      Bool.not_eq_true'] at hi'
    obtain ⟨⟨⟨n, hn, rfl, hac⟩, hs⟩, hno⟩ := hi'
    refine ⟨n, mem_filter.mpr ⟨hn, ?_⟩, rfl⟩
    apply (admits_targetQuery h n).mpr
    exact ⟨hid, hac, fun hs' => hs.resolve_left (not_not.mpr hs'), hno⟩

theorem map_targetsOf (nodeIDs : List String) (chunk : List Node) :
    (targetsOf nodeIDs chunk).map logicalID = nodeIDs.filter fun id => id ∈ chunk.map logicalID := by
  induction nodeIDs with
  | nil => rfl
  | cons id rest ih =>
    have hf : ((chunk.find? fun n => n.logicalID = id).map logicalID).toList =
        if id ∈ chunk.map logicalID then [id] else [] := by
      cases hn : chunk.find? fun n => n.logicalID = id with
      | none =>
        have hno := find?_eq_none.mp hn
        rw [if_neg]
        · rfl
        · intro hm
          obtain ⟨n, hn, hid⟩ := mem_map.mp hm
          exact hno n hn (decide_eq_true hid)
      | some n =>
        have hid : n.logicalID = id := by
          have ht := find?_some hn
          exact of_decide_eq_true ht
        rw [if_pos (mem_map.mpr ⟨n, mem_of_find?_eq_some hn, hid⟩), ← hid]
        rfl
    have hc : targetsOf (id :: rest) chunk =
        (chunk.find? fun n => n.logicalID = id).toList ++ targetsOf rest chunk := by
      rw [targetsOf, filterMap_cons]
      cases chunk.find? fun n => n.logicalID = id with
      | none | some n => rfl
    rw [hc, map_append, ih, ← Option.toList_map, hf, filter_cons]
    by_cases hm : id ∈ chunk.map logicalID
    · simp only [if_pos hm, decide_eq_true hm, if_true]
      rfl
    · simp only [if_neg hm, decide_eq_false hm, Bool.false_eq_true, if_false]
      rfl

theorem length_targets (h : nodeIDs ≠ []) (hnd : nodeIDs.Nodup)
    (hpr : ∀ id ∈ nodeIDs, db.isProbeable cfg.targetScope id = true) :
    (targetsOf nodeIDs (db.list (cfg.targetQuery nodeIDs)).1).length = min 100 nodeIDs.length := by
  have hp := map_matching_perm h hnd hpr
  have hl : (db.matching (cfg.targetQuery nodeIDs)).length = nodeIDs.length := by
    rw [← hp.length_eq, length_map]
  obtain ⟨rest, hpa, hs⟩ := @NodeTables.list_first_page db (cfg.targetQuery nodeIDs) rfl
  rw [hl, effectivePageSize_targetQuery h] at hs
  -- the ids of the page and the listed ids that it has are the same
  have hi : ((db.list (cfg.targetQuery nodeIDs)).1.map logicalID).Perm
      (nodeIDs.filter fun id => id ∈ (db.list (cfg.targetQuery nodeIDs)).1.map logicalID) := by
    have ha := hpa.trans hp
    have hn := (ha.nodup_iff.mpr hnd).of_append_left
    rw [perm_ext_iff_of_nodup hn (hnd.filter _)]
    intro id
    rw [mem_filter, decide_eq_true_eq]
    exact ⟨fun hid => ⟨ha.subset (mem_append_left _ hid), hid⟩, fun hid => hid.2⟩
  rw [← length_map logicalID, map_targetsOf, ← hi.length_eq, length_map, hs]
  omega

theorem targets_eq_iff (h : nodeIDs ≠ []) (hnd : nodeIDs.Nodup)
    (hp : ∀ id ∈ nodeIDs, db.isProbeable cfg.targetScope id = true) :
    (∀ id ∈ nodeIDs, id ∈ (targetsOf nodeIDs (db.list (cfg.targetQuery nodeIDs)).1).map logicalID) ↔
      nodeIDs.length ≤ 100 := by
  have hl := length_targets h hnd hp
  rw [← length_map logicalID, map_targetsOf] at hl
  rw [map_targetsOf]
  constructor
  · intro ha
    rw [filter_eq_self.mpr fun id hid => (mem_filter.mp (ha id hid)).2] at hl
    omega
  · intro hle id hid
    have hs : nodeIDs.filter _ = nodeIDs :=
      (filter_sublist).eq_of_length (hl.trans (by omega))
    rw [hs]
    exact hid

theorem nodup_targets (hnd : nodeIDs.Nodup) (chunk : List Node) :
    ((targetsOf nodeIDs chunk).map logicalID).Nodup := by
  rw [map_targetsOf]
  exact hnd.filter _

end

/-- A node is taken over once, on whichever pages it is found. -/
theorem nodup_addUnseen {found : List Node} (h : (found.map Node.logicalID).Nodup) (chunk : List Node) :
    ((addUnseen found chunk).map Node.logicalID).Nodup := by
  refine List.foldlRecOn (motive := fun l : List Node => (l.map Node.logicalID).Nodup) chunk _ h ?_
  intro found h n _
  split_ifs with hn
  · exact h
  · rw [map_append, map_singleton, nodup_append_comm, singleton_append, nodup_cons]
    refine ⟨fun hm => hn ?_, h⟩
    obtain ⟨m, hm, hid⟩ := mem_map.mp hm
    exact any_eq_true.mpr ⟨m, hm, decide_eq_true hid⟩

/-! ### The kinds -/

theorem isValid_of_mem_validKinds {kinds : List ProbeKind} {k : ProbeKind} (h : k ∈ validKinds kinds) :
    k.isValid = true := by
  rw [validKinds] at h
  split_ifs at h
  · rw [mem_singleton.mp h]
    rfl
  · exact (mem_filter.mp h).2

theorem nodup_validKinds {kinds : List ProbeKind} (h : kinds.Nodup) : (validKinds kinds).Nodup := by
  rw [validKinds]
  split_ifs
  · exact nodup_singleton _
  · exact h.filter _

theorem validKinds_ne_nil (kinds : List ProbeKind) : validKinds kinds ≠ [] := by
  rw [validKinds]
  split_ifs with hv
  · exact cons_ne_nil _ _
  · exact hv

/-! ### The pairs -/

abbrev ProbePair := String × ProbeKind

def pairOf (p : Node × ProbeKind) : ProbePair := (p.1.logicalID, p.2)

def pairKey (p : ProbePair) : String := seenKey p.1 p.2

theorem ProbeKind.text_injective : Function.Injective ProbeKind.text := by
  intro k k' h
  cases k <;> cases k' <;> simp only [ProbeKind.text] at h <;> first
    | rfl
    | contradiction
    | subst h
      first
        | rfl
        | rename_i hn
          exact absurd (by simp) hn

theorem slash_not_mem_text {k : ProbeKind} (hk : k.isValid = true) : '/' ∉ k.text.toList := by
  cases k with
  | other s h => contradiction
  | _ => decide

theorem pairKey_injective {p q : ProbePair} (hp : p.2.isValid = true) (hq : q.2.isValid = true)
    (h : pairKey p = pairKey q) : p = q := by
  have hl (r : ProbePair) : (pairKey r).toList = r.1.toList ++ '/' :: r.2.text.toList := by
    rw [pairKey, seenKey, String.toList_append, String.toList_append, append_assoc]
    rfl
  have hc : cutLast '/' (p.1.toList ++ '/' :: p.2.text.toList) =
      cutLast '/' (q.1.toList ++ '/' :: q.2.text.toList) := by
    rw [← hl, ← hl, h]
  rw [cutLast_append _ (slash_not_mem_text hp), cutLast_append _ (slash_not_mem_text hq)] at hc
  obtain ⟨hid, hk⟩ := Prod.mk.inj hc
  apply Prod.ext
  · exact String.toList_injective hid
  · exact ProbeKind.text_injective (String.toList_injective hk)

theorem map_pairOf_product (nodes : List Node) (kinds : List ProbeKind) :
    (nodes ×ˢ kinds).map pairOf = nodes.map logicalID ×ˢ kinds := by
  induction nodes with
  | nil => rfl
  | cons n nodes ih =>
    rw [map_cons, product_cons, product_cons, map_append, ih, map_map]
    rfl

end ClashSubParser
