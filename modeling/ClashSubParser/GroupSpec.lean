import ClashSubParser.GroupPipeline

/-! What the members of a group are meant to be, by a left fold and plain recursion. The pipeline computes
this. -/
namespace ClashSubParser

open Function List MemoRecursion StableSort

section

variable (rt : Runtime) (ctx : GroupContext) (leaves : String → List ResolvedItem)

def candidates (s : MemberSource) : List ResolvedItem :=
  match s.kind with
  | .manualNode =>
    match s.nodeLogicalID with
    | none => []
    | some nodeID =>
      match ctx.globalAdmittedMap nodeID with
      | none => []
      | some node =>
        if (ctx.matchesNode rt s.filterSpec nodeID node).1 then [nodeItem nodeID node.displayName] else []
  | .groupRef =>
    match s.targetGroupID with
    | none => []
    | some targetID => ((ctx.groupMap targetID).map (fun tg => groupItem tg targetID)).toList
  | .groupNodes =>
    match s.targetGroupID with
    | none => []
    | some targetID =>
      if (ctx.groupMap targetID).isSome then (leaves targetID).filter (leafPasses rt ctx s) else []
  | .regex =>
    if isBlank s.pattern then []
    else
      match compileFilterRegex rt (s.pattern.getD "") with
      | .error _ => []
      | .ok re => (ctx.sortedGlobalNodes.filter (fun n => matchOrFalse re n.displayName)).map
          (fun n => nodeItem n.logicalID n.displayName)
  | .filter =>
    match s.filterSpec with
    | none => []
    | some spec => (ctx.sortedGlobalNodes.filter
          (fun n => (ctx.matchesNode rt (some spec) n.logicalID n).1)).map
        (fun n => nodeItem n.logicalID n.displayName)
  | .typedBuiltin => (s.builtinName.map (fun given => builtinItem (builtinOf rt given))).toList
  | .other _ _ => []

def removes (s : MemberSource) (item : ResolvedItem) : Bool :=
  match s.kind with
  | .manualNode => item.kind = .node && s.nodeLogicalID = some item.targetID
  | .groupRef => item.kind = .group && s.targetGroupID = some item.targetID
  | .groupNodes => item.kind = .node &&
      s.targetGroupID.any (fun targetID => (nodeTargets (leaves targetID)).contains item.targetID)
  | .regex => item.kind = .node && s.pattern.any (fun pattern =>
      match compileFilterRegex rt pattern with
      | .ok re => matchOrFalse re item.displayName
      | .error _ => false)
  | .filter => item.kind = .node && s.filterSpec.any (fun spec =>
      (ctx.globalAdmittedMap item.targetID).any (fun node =>
        (ctx.matchesNode rt (some spec) item.targetID node).1))
  | .typedBuiltin =>
    item.kind = .builtin && s.builtinName.any (fun given => item.targetID = builtinOf rt given)
  | .other _ _ => false

def addItem (items : List ResolvedItem) (item : ResolvedItem) : List ResolvedItem :=
  if items.any (fun it => it.kind = item.kind && it.targetID = item.targetID) then items
  else items ++ [item]

def applySource (items : List ResolvedItem)
    (s : MemberSource) : List ResolvedItem :=
  match s.operation with
  | .add => (candidates rt ctx leaves s).foldl addItem items
  | .remove => items.filter (fun item => !removes rt ctx leaves s item)
  | .other _ _ => items

def specItems (sources : List MemberSource) :
    List ResolvedItem :=
  sources.foldl (applySource rt ctx leaves) []

def expandItem (g : NodeGroup) (item : ResolvedItem) :
    List ResolvedItem :=
  match item.kind with
  | .group => (leaves item.targetID).filter (leafSurvives rt ctx (srcFilter g item.targetID))
  | .node => [item]
  | .builtin => [item]

def specLeaves : ℕ → String → List ResolvedItem
  | 0, _ => []
  | depth+1, gid =>
    match ctx.groupMap gid with
    | none => []
    | some g => (specItems rt ctx (specLeaves depth) (sortSources g.sources)).flatMap
        (expandItem rt ctx (specLeaves depth) g)

variable {rt ctx leaves} in
theorem mem_expandItem {g : NodeGroup} {item leaf : ResolvedItem} (h : leaf ∈ expandItem rt ctx leaves g item) :
    leaf ∈ leaves item.targetID ∨ item.kind ≠ .group ∧ leaf = item := by
  unfold expandItem at h
  split at h
  · exact .inl (mem_filter.mp h).1
  · exact .inr ⟨by simp_all, mem_singleton.mp h⟩
  · exact .inr ⟨by simp_all, mem_singleton.mp h⟩

variable {rt ctx} in
theorem specLeaves_induction {P : ResolvedItem → Prop}
    (hit : ∀ depth, (∀ gid, ∀ leaf ∈ specLeaves rt ctx depth gid, P leaf) → ∀ gid g, ctx.groupMap gid = some g →
      ∀ item ∈ specItems rt ctx (specLeaves rt ctx depth) (sortSources g.sources), P item) :
    ∀ depth gid, ∀ leaf ∈ specLeaves rt ctx depth gid, P leaf := by
  intro depth
  induction depth with
  | zero => simp [specLeaves]
  | succ depth ih =>
    intro gid leaf hl
    rw [specLeaves] at hl
    cases hg : ctx.groupMap gid with
    | none => simp [hg] at hl
    | some g =>
      simp only [hg, mem_flatMap] at hl
      obtain ⟨item, hi, hl⟩ := hl
      rcases mem_expandItem hl with hch | ⟨-, rfl⟩
      · exact ih _ leaf hch
      · exact hit depth ih gid g hg leaf hi

def specMembers (depth : ℕ) (g : NodeGroup) : List ResolvedGroupMember :=
  membersOf (specItems rt ctx (specLeaves rt ctx depth) (sortSources g.sources))

end

def groupTargets (items : List ResolvedItem) : List String :=
  (items.filter (·.kind = .group)).map (·.targetID)

theorem ResolvedItem.id_eq_iff (a b : ResolvedItem) : a.id = b.id ↔ a.kind = b.kind ∧ a.targetID = b.targetID := by
  constructor
  · intro h
    have hl := congrArg String.toList h
    unfold ResolvedItem.id at hl
    cases ha : a.kind <;> cases hb : b.kind <;>
      simp [ha, hb, String.toList_append] at hl ⊢
    all_goals exact String.toList_inj.mp hl
  · rintro ⟨hk, ht⟩
    simp only [ResolvedItem.id, hk, ht]

structure PipelineState.Tidy (st : PipelineState) : Prop where
  seen : ∀ id, st.seenInCurrentSet id = true ↔ ∃ item ∈ st.currentItems, item.id = id
  nodup : (st.currentItems.map ResolvedItem.id).Nodup

theorem PipelineState.Tidy.push {st : PipelineState} (h : st.Tidy) (item : ResolvedItem) :
    (st.push item).Tidy ∧ (st.push item).currentItems = addItem st.currentItems item := by
  have ha : st.currentItems.any (fun it => it.kind = item.kind && it.targetID = item.targetID) =
      st.seenInCurrentSet item.id := by
    rw [Bool.eq_iff_iff, h.seen, any_eq_true]
    simp only [ResolvedItem.id_eq_iff, Bool.and_eq_true, decide_eq_true_eq]
  rw [PipelineState.push, addItem, ha]
  cases hs : st.seenInCurrentSet item.id with
  | true => exact ⟨h, rfl⟩
  | false =>
    refine ⟨⟨?_, ?_⟩, rfl⟩
    · intro id
      simp only [Bool.false_eq_true, if_false, mem_append, mem_singleton]
      by_cases hid : id = item.id
      · simp [hid, update_self]
      · rw [update_of_ne hid, h.seen]
        constructor
        · rintro ⟨it, hit, he⟩
          exact ⟨it, .inl hit, he⟩
        · rintro ⟨it, hit | rfl, he⟩
          · exact ⟨it, hit, he⟩
          · exact absurd he.symm hid
    · simp only [Bool.false_eq_true, if_false, map_append, map_cons, map_nil]
      rw [nodup_append_comm]
      refine nodup_cons.mpr ⟨?_, h.nodup⟩
      intro hm
      obtain ⟨it, hit, he⟩ := mem_map.mp hm
      have hse := (h.seen item.id).mpr ⟨it, hit, he⟩
      rw [hs] at hse
      contradiction

theorem PipelineState.Tidy.pushAll : ∀ (items : List ResolvedItem) {st : PipelineState}, st.Tidy →
    (st.pushAll items).Tidy ∧ (st.pushAll items).currentItems = items.foldl addItem st.currentItems := by
  intro items
  induction items with
  | nil => exact fun h => ⟨h, rfl⟩
  | cons item items ih =>
    intro st h
    obtain ⟨ht, hi⟩ := h.push item
    obtain ⟨ht', hi'⟩ := ih ht
    refine ⟨ht', ?_⟩
    change ((st.push item).pushAll items).currentItems = _
    rw [hi', hi, foldl_cons]

structure GroupMemo.LeavesOk (m : GroupMemo) : Prop where
  leaf : ∀ item ∈ m.leafItems, item.kind ≠ .group
  nodeSet : ∀ x, x ∈ m.leafNodeSet ↔ x ∈ nodeTargets m.leafItems

section

variable {rt : Runtime} {ctx : GroupContext} {f : String → GroupMemo}

theorem addSource_eval (g : NodeGroup) (s : MemberSource) {st : PipelineState} (h : st.Tidy) :
    ((addSource rt ctx g s st).eval f).Tidy ∧ ((addSource rt ctx g s st).eval f).currentItems =
      (candidates rt ctx (fun k => (f k).leafItems) s).foldl addItem st.currentItems := by
  have hc (n : ℕ) : (st.count n).Tidy := ⟨h.seen, h.nodup⟩
  have hs (n : ℕ) : (st.count n).Tidy ∧
      (st.count n).currentItems = ([] : List ResolvedItem).foldl addItem st.currentItems :=
    ⟨hc n, rfl⟩
  unfold addSource candidates
  cases s.kind with
  | manualNode =>
    unfold addManualNode
    cases s.nodeLogicalID with
    | none => exact hs 1
    | some nodeID =>
      dsimp only
      cases ctx.globalAdmittedMap nodeID with
      | some node =>
        dsimp only
        split_ifs with hm
        · exact (hc 1).push _
        · exact hs 1
      | none =>
        cases ctx.admittedNodeMap nodeID <;>
        · exact hs 1
  | groupRef =>
    unfold addGroupRef
    cases s.targetGroupID with
    | none => exact ⟨h, rfl⟩
    | some targetID =>
      dsimp only
      cases ctx.groupMap targetID with
      | some tg => exact h.push _
      | none =>
        exact ⟨h, rfl⟩
  | groupNodes =>
    unfold addGroupNodes
    cases s.targetGroupID with
    | none => exact ⟨h, rfl⟩
    | some targetID =>
      dsimp only
      cases ctx.groupMap targetID with
      | none => exact ⟨h, rfl⟩
      | some tg =>
        exact PipelineState.Tidy.pushAll _ (hc _)
  | regex =>
    unfold addRegex
    split_ifs with hb
    · exact hs _
    · cases compileFilterRegex rt (s.pattern.getD "") with
      | error err =>
        exact hs _
      | ok re => exact PipelineState.Tidy.pushAll _ (hc _)
  | filter =>
    unfold addFilter
    cases s.filterSpec with
    | none => exact hs _
    | some spec => exact PipelineState.Tidy.pushAll _ (hc _)
  | typedBuiltin =>
    unfold addTypedBuiltin
    cases s.builtinName with
    | none => exact ⟨h, rfl⟩
    | some given => exact h.push _
  | other t ht => exact ⟨h, rfl⟩

section

variable (hf : ∀ k, (f k).LeavesOk)
include hf

theorem shouldRemove_eval (s : MemberSource) (item : ResolvedItem) :
    (shouldRemove rt ctx s item).eval f = removes rt ctx (fun k => (f k).leafItems) s item := by
  unfold shouldRemove removes
  cases s.kind with
  | groupNodes =>
    cases s.targetGroupID with
    | none => simp
    | some targetID =>
      split_ifs with hk
      · simp [hk, (hf targetID).nodeSet]
      · simp [hk]
  | regex =>
    cases s.pattern with
    | none => simp
    | some pattern =>
      cases hc : compileFilterRegex rt pattern with
      | ok re => simp [hc]
      | error err => simp [hc]
  | filter =>
    cases s.filterSpec with
    | none => simp
    | some spec =>
      cases ctx.globalAdmittedMap item.targetID with
      | none => simp
      | some node => simp
  | manualNode | groupRef | typedBuiltin | other t ht => rfl

/-- The removal loop, started with the items `rest` still to be looked at. -/
theorem removeLoop_eval (s : MemberSource) : ∀ (rest : List ResolvedItem) (st : PipelineState),
      (∀ id, st.seenInCurrentSet id = true ↔ ∃ item ∈ st.currentItems ++ rest, item.id = id) →
      ((st.currentItems ++ rest).map ResolvedItem.id).Nodup →
      ((rest.foldlM (removeStep rt ctx s) st).eval f).Tidy ∧
      ((rest.foldlM (removeStep rt ctx s) st).eval f).currentItems = st.currentItems ++
        rest.filter (fun item => !removes rt ctx (fun k => (f k).leafItems) s item) := by
  intro rest
  induction rest with
  | nil =>
    intro st hs hnd
    simp only [append_nil] at hs hnd
    exact ⟨⟨hs, hnd⟩, by simp⟩
  | cons item rest ih =>
    intro st hs hnd
    rw [foldlM_cons, Comp.eval_bind, removeStep, Comp.eval_bind, shouldRemove_eval hf]
    cases hr : removes rt ctx (fun k => (f k).leafItems) s item with
    | true =>
      -- the marker goes with the item, and no other item carries it
      have ho : ∀ it ∈ st.currentItems ++ rest, it.id ≠ item.id := by
        have hp : ((st.currentItems ++ item :: rest).map ResolvedItem.id).Perm
            (item.id :: (st.currentItems ++ rest).map ResolvedItem.id) := by
          exact perm_middle.map _
        intro it hit he
        exact (nodup_cons.mp (hp.nodup_iff.mp hnd)).1 (mem_map.mpr ⟨it, hit, he⟩)
      simp only [if_true, Comp.eval_pure, filter_cons, hr, Bool.not_true, Bool.false_eq_true, if_false]
      refine ih _ ?_ ?_
      · intro id
        dsimp only
        by_cases hid : id = item.id
        · subst hid
          simp only [update_self, Bool.false_eq_true, false_iff]
          rintro ⟨it, hit, he⟩
          exact ho it hit he
        · rw [update_of_ne hid, hs]
          simp only [mem_append, mem_cons]
          constructor
          · rintro ⟨it, hit | rfl | hit, he⟩
            · exact ⟨it, .inl hit, he⟩
            · exact absurd he.symm hid
            · exact ⟨it, .inr hit, he⟩
          · rintro ⟨it, hit | hit, he⟩
            · exact ⟨it, .inl hit, he⟩
            · exact ⟨it, .inr (.inr hit), he⟩
      · exact hnd.sublist (((sublist_cons_self item rest).append_left _).map _)
    | false =>
      simp only [Bool.false_eq_true, if_false, Comp.eval_pure, filter_cons, hr, Bool.not_false, if_true]
      have ha : st.currentItems ++ [item] ++ rest = st.currentItems ++ item :: rest := by simp
      obtain ⟨ht, hi⟩ := ih { st with currentItems := st.currentItems ++ [item] }
        (by simpa only [ha] using hs) (by simpa only [ha] using hnd)
      exact ⟨ht, by rw [hi]; simp⟩

theorem sourceStep_eval (g : NodeGroup) (s : MemberSource) {st : PipelineState} (h : st.Tidy) :
    ((sourceStep rt ctx g st s).eval f).Tidy ∧ ((sourceStep rt ctx g st s).eval f).currentItems =
      applySource rt ctx (fun k => (f k).leafItems) st.currentItems s := by
  unfold sourceStep applySource
  cases s.operation with
  | add => exact addSource_eval g s h
  | remove => exact removeLoop_eval hf s st.currentItems { st with currentItems := [] } h.seen h.nodup
  | other t ht => exact ⟨h, rfl⟩

theorem sources_eval (g : NodeGroup) : ∀ (sources : List MemberSource) {st : PipelineState}, st.Tidy →
      ((sources.foldlM (sourceStep rt ctx g) st).eval f).Tidy ∧
      ((sources.foldlM (sourceStep rt ctx g) st).eval f).currentItems =
        sources.foldl (applySource rt ctx (fun k => (f k).leafItems)) st.currentItems := by
  intro sources
  induction sources with
  | nil => exact fun h => ⟨h, rfl⟩
  | cons s sources ih =>
    intro st h
    obtain ⟨ht, hi⟩ := sourceStep_eval hf g s h
    obtain ⟨ht', hi'⟩ := ih ht
    rw [foldlM_cons, Comp.eval_bind, foldl_cons, ← hi]
    exact ⟨ht', hi'⟩

end

theorem leafLoop_eval (g : NodeGroup) : ∀ (items : List ResolvedItem) (st : LeafState),
    (items.foldlM (leafStep rt ctx g) st).eval f =
      { childGroupIDs := st.childGroupIDs ++ groupTargets items
        nodeLogicalIDs := st.nodeLogicalIDs ++ nodeTargets items
        leafItems := st.leafItems ++ items.flatMap (expandItem rt ctx (fun k => (f k).leafItems) g)
        leafNodeSet := st.leafNodeSet ++
          nodeTargets (items.flatMap (expandItem rt ctx (fun k => (f k).leafItems) g)) } := by
  intro items
  induction items with
  | nil => intro st; simp [groupTargets, nodeTargets]
  | cons item items ih =>
    intro st
    rw [foldlM_cons, Comp.eval_bind, ih, leafStep]
    cases hk : item.kind with
    | group | node | builtin => simp [groupTargets, nodeTargets, expandItem, hk]

/-- The stored result of a group, given the leaves of the groups it calls. -/
structure GroupMemo.Meets (m : GroupMemo) (rt : Runtime) (ctx : GroupContext)
    (leaves : String → List ResolvedItem) (g : NodeGroup) : Prop where
  members : m.members = membersOf (specItems rt ctx leaves (sortSources g.sources))
  childGroupIDs : m.childGroupIDs = groupTargets (specItems rt ctx leaves (sortSources g.sources))
  nodeLogicalIDs : m.nodeLogicalIDs = nodeTargets (specItems rt ctx leaves (sortSources g.sources))
  leafItems : m.leafItems =
    (specItems rt ctx leaves (sortSources g.sources)).flatMap (expandItem rt ctx leaves g)
  leafNodeSet : m.leafNodeSet = nodeTargets m.leafItems
  expandedNodeIDs : m.expandedNodeIDs = sortedSet (nodeTargets m.leafItems)

theorem groupBody_eval (hf : ∀ k, (f k).LeavesOk) {gid : String} {g : NodeGroup}
    (hg : ctx.groupMap gid = some g) {c : GroupComp GroupMemo} (hc : groupBody rt ctx gid = some c) :
    (c.eval f).Meets rt ctx (fun k => (f k).leafItems) g := by
  have he : PipelineState.Tidy {} := ⟨by simp, by simp⟩
  obtain ⟨-, hi⟩ := @sources_eval rt ctx f hf g (sortSources g.sources) {} he
  rw [groupBody, hg, Option.map_some, Option.some.injEq] at hc
  subst hc
  simp only [Comp.eval_bind, Comp.eval_pure, leafLoop_eval, hi, finishGroup]
  constructor <;> simp [specItems]

end

end ClashSubParser
