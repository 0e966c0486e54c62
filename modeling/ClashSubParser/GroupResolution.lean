import ClashSubParser.GroupSpec

/-! The memoised recursion over the groups computes the specified members, in whatever order groups
are asked for. -/
namespace ClashSubParser

open List MemoRecursion StableSort

section

variable {rt : Runtime} {ctx : GroupContext} {leaves : String → List ResolvedItem} {it : ResolvedItem}

theorem mem_addItem {items : List ResolvedItem} {item : ResolvedItem} (h : it ∈ addItem items item) :
    it ∈ items ∨ it = item := by
  rw [addItem] at h
  split_ifs at h
  · exact .inl h
  · simpa using h

theorem mem_foldl_addItem : ∀ (cands items : List ResolvedItem),
    it ∈ cands.foldl addItem items → it ∈ items ∨ it ∈ cands := by
  intro cands
  induction cands with
  | nil => exact fun items h => .inl h
  | cons c cands ih =>
    intro items h
    rcases ih _ h with h | h
    · rcases mem_addItem h with h | rfl
      · exact .inl h
      · exact .inr mem_cons_self
    · exact .inr (mem_cons_of_mem c h)

theorem mem_specItems {srcs : List MemberSource} (h : it ∈ specItems rt ctx leaves srcs) :
    ∃ s ∈ srcs, s.operation = .add ∧ it ∈ candidates rt ctx leaves s := by
  have hf : ∀ (srcs : List MemberSource) (items : List ResolvedItem),
      it ∈ srcs.foldl (applySource rt ctx leaves) items →
      it ∈ items ∨ ∃ s ∈ srcs, s.operation = .add ∧ it ∈ candidates rt ctx leaves s := by
    intro srcs
    induction srcs with
    | nil => exact fun items h => .inl h
    | cons s srcs ih =>
      intro items h
      rcases ih _ h with h | ⟨s', hs', ha, hm⟩
      · unfold applySource at h
        cases hop : s.operation with
        | add =>
          rw [hop] at h
          rcases mem_foldl_addItem _ _ h with h | h
          · exact .inl h
          · exact .inr ⟨s, mem_cons_self, hop, h⟩
        | remove =>
          rw [hop] at h
          exact .inl (mem_filter.mp h).1
        | other t ht =>
          rw [hop] at h
          exact .inl h
      · exact .inr ⟨s', mem_cons_of_mem s hs', ha, hm⟩
  exact (hf srcs [] h).resolve_left (by simp)

inductive Proposed (rt : Runtime) (ctx : GroupContext) (leaves : String → List ResolvedItem)
    (s : MemberSource) (it : ResolvedItem) : Prop
  | listed (node : Node) (hs : s.kind = .manualNode ∧ s.nodeLogicalID = some it.targetID)
      (hn : ctx.globalAdmittedMap it.targetID = some node)
      (hit : it = nodeItem it.targetID node.displayName)
  | selected (hs : s.kind = .regex ∨ s.kind = .filter) (node : Node)
      (hn : node ∈ ctx.sortedGlobalNodes) (hit : it = nodeItem node.logicalID node.displayName)
  | referenced (tg : NodeGroup) (hs : s.kind = .groupRef ∧ s.targetGroupID = some it.targetID)
      (hg : ctx.groupMap it.targetID = some tg) (hit : it = groupItem tg it.targetID)
  | leaf (targetID : String) (hs : s.kind = .groupNodes ∧ s.targetGroupID = some targetID)
      (hl : it ∈ leaves targetID) (hp : leafPasses rt ctx s it = true)
  | named (hs : s.kind = .typedBuiltin) (hit : it.kind = .builtin)

theorem proposed_of_mem {s : MemberSource} (h : it ∈ candidates rt ctx leaves s) : Proposed rt ctx leaves s it := by
  unfold candidates at h
  cases hk : s.kind with
  | manualNode =>
    rw [hk] at h
    cases hn : s.nodeLogicalID with
    | none => simp [hn] at h
    | some nodeID =>
      cases hm : ctx.globalAdmittedMap nodeID with
      | none => simp [hn, hm] at h
      | some node =>
        simp only [hn, hm] at h
        split_ifs at h
        · obtain rfl := mem_singleton.mp h
          exact .listed node ⟨hk, hn⟩ hm rfl
        · simp at h
  | groupRef =>
    rw [hk] at h
    cases ht : s.targetGroupID with
    | none => simp [ht] at h
    | some tid =>
      simp only [ht, Option.mem_toList, Option.map_eq_some_iff] at h
      obtain ⟨tg, htg, rfl⟩ := h
      exact .referenced tg ⟨hk, ht⟩ htg rfl
  | groupNodes =>
    rw [hk] at h
    cases ht : s.targetGroupID with
    | none => simp [ht] at h
    | some tid =>
      simp only [ht] at h
      split_ifs at h
      · obtain ⟨hl, hp⟩ := mem_filter.mp h
        exact .leaf tid ⟨hk, ht⟩ hl hp
      · simp at h
  | regex =>
    rw [hk] at h
    split_ifs at h
    · simp at h
    · cases hc : compileFilterRegex rt (s.pattern.getD "") with
      | error err => simp [hc] at h
      | ok re =>
        simp only [hc] at h
        obtain ⟨node, hn, rfl⟩ := mem_map.mp h
        exact .selected (.inl hk) node (mem_filter.mp hn).1 rfl
  | filter =>
    rw [hk] at h
    cases hs : s.filterSpec with
    | none => simp [hs] at h
    | some spec =>
      simp only [hs] at h
      obtain ⟨node, hn, rfl⟩ := mem_map.mp h
      exact .selected (.inr hk) node (mem_filter.mp hn).1 rfl
  | typedBuiltin =>
    rw [hk] at h
    simp only [Option.mem_toList, Option.map_eq_some_iff] at h
    obtain ⟨-, -, rfl⟩ := h
    exact .named hk rfl
  | other t ht =>
    rw [hk] at h
    simp at h

/-- A group member comes from an add `group_ref` source for it. -/
theorem referenced_of_mem {srcs : List MemberSource} (hlv : ∀ k, ∀ leaf ∈ leaves k, leaf.kind ≠ .group)
    (h : it ∈ specItems rt ctx leaves srcs) (hk : it.kind = .group) :
    ∃ s ∈ srcs, s.operation = .add ∧ s.kind = .groupRef ∧ s.targetGroupID = some it.targetID ∧
      ∃ tg, ctx.groupMap it.targetID = some tg ∧ it = groupItem tg it.targetID := by
  obtain ⟨s, hs, ha, hm⟩ := mem_specItems h
  cases proposed_of_mem hm with
  | listed node _ _ hit | selected _ node _ hit | named _ hit => rw [hit] at hk; contradiction
  | referenced tg hs' hg hit => exact ⟨s, hs, ha, hs'.1, hs'.2, tg, hg, hit⟩
  | leaf tid _ hl _ => exact absurd hk (hlv tid it hl)

end

section

variable {rt : Runtime} {ctx : GroupContext} {f : String → GroupMemo} {s : MemberSource} {g : NodeGroup} {k : String}

theorem calls_addSource_eq_nil (g : NodeGroup) (st : PipelineState) (hk : s.kind ≠ .groupNodes) :
    (addSource rt ctx g s st).calls f = [] := by
  unfold addSource
  cases hs : s.kind with
  | groupNodes => exact absurd hs hk
  | manualNode =>
    unfold addManualNode
    cases s.nodeLogicalID with
    | none => rfl
    | some nodeID =>
      dsimp only
      cases ctx.globalAdmittedMap nodeID with
      | some node => dsimp only; split_ifs <;> rfl
      | none => cases ctx.admittedNodeMap nodeID <;> rfl
  | groupRef =>
    unfold addGroupRef
    cases s.targetGroupID with
    | none => rfl
    | some tid => dsimp only; cases ctx.groupMap tid <;> rfl
  | regex =>
    unfold addRegex
    split_ifs
    · rfl
    · cases compileFilterRegex rt (s.pattern.getD "") <;> rfl
  | filter =>
    unfold addFilter
    cases s.filterSpec <;> rfl
  | typedBuiltin =>
    unfold addTypedBuiltin
    cases s.builtinName <;> rfl
  | other t ht => rfl

theorem calls_addSource {st : PipelineState} (h : k ∈ (addSource rt ctx g s st).calls f) :
    s.kind = .groupNodes ∧ s.targetGroupID = some k := by
  by_cases hk : s.kind = .groupNodes
  · refine ⟨hk, ?_⟩
    rw [addSource, hk] at h
    unfold addGroupNodes at h
    cases ht : s.targetGroupID with
    | none => simp [ht] at h
    | some tid =>
      cases hg : ctx.groupMap tid with
      | none => simp [ht, hg] at h
      | some tg =>
        simp [ht, hg] at h
        rw [h]
  · rw [calls_addSource_eq_nil g st hk] at h
    simp at h

theorem calls_shouldRemove_eq_nil (item : ResolvedItem) (hk : s.kind ≠ .groupNodes) :
    (shouldRemove rt ctx s item).calls f = [] := by
  unfold shouldRemove
  cases hs : s.kind with
  | groupNodes => exact absurd hs hk
  | regex =>
    cases s.pattern with
    | none => rfl
    | some pattern => dsimp only; cases compileFilterRegex rt pattern <;> rfl
  | filter =>
    cases s.filterSpec with
    | none => rfl
    | some spec => cases ctx.globalAdmittedMap item.targetID <;> rfl
  | manualNode | groupRef | typedBuiltin | other t ht => rfl

theorem calls_shouldRemove {item : ResolvedItem} (h : k ∈ (shouldRemove rt ctx s item).calls f) :
    s.kind = .groupNodes ∧ s.targetGroupID = some k := by
  by_cases hk : s.kind = .groupNodes
  · refine ⟨hk, ?_⟩
    rw [shouldRemove, hk] at h
    cases ht : s.targetGroupID with
    | none => simp [ht] at h
    | some targetID =>
      simp only [ht] at h
      split_ifs at h
      · simp at h
        rw [h]
      · simp at h
  · rw [calls_shouldRemove_eq_nil item hk] at h
    simp at h

theorem calls_sourceStep {st : PipelineState} (h : k ∈ (sourceStep rt ctx g st s).calls f) :
    s.kind = .groupNodes ∧ s.targetGroupID = some k := by
  unfold sourceStep at h
  cases hop : s.operation with
  | add => rw [hop] at h; exact calls_addSource h
  | remove =>
    rw [hop] at h
    obtain ⟨pre, item, -, -, hi⟩ := mem_calls_foldlM f (removeStep rt ctx s) k _ _ h
    simp only [removeStep, Comp.calls_bind, mem_append] at hi
    rcases hi with hi | hi
    · exact calls_shouldRemove hi
    · split_ifs at hi <;> simp at hi
  | other t ht => rw [hop] at h; simp at h

theorem calls_groupBody (hf : ∀ k, (f k).LeavesOk) {gid : String}
    (hg : ctx.groupMap gid = some g) {c : GroupComp GroupMemo} (hc : groupBody rt ctx gid = some c)
    (h : k ∈ c.calls f) :
    ∃ s ∈ g.sources, (s.kind = .groupRef ∨ s.kind = .groupNodes) ∧ s.targetGroupID = some k := by
  have he : PipelineState.Tidy {} := ⟨by simp, by simp⟩
  obtain ⟨-, hit⟩ := @sources_eval rt ctx f hf g (sortSources g.sources) {} he
  have hso (s : MemberSource) (hs : s ∈ sortSources g.sources) : s ∈ g.sources :=
    (mem_stableSort _ _ _).mp hs
  rw [groupBody, hg, Option.map_some, Option.some.injEq] at hc
  subst hc
  simp only [Comp.calls_bind, Comp.calls_pure, append_nil, mem_append, hit] at h
  rcases h with h | h
  · obtain ⟨pre, s, post, hsp, hs⟩ := mem_calls_foldlM f _ k _ _ h
    obtain ⟨hki, htg⟩ := calls_sourceStep hs
    exact ⟨s, hso s (by rw [hsp]; simp), .inr hki, htg⟩
  · obtain ⟨pre, item, post, hsp, hi⟩ := mem_calls_foldlM f _ k _ _ h
    have hm : item ∈ specItems rt ctx (fun k => (f k).leafItems) (sortSources g.sources) := by
      change item ∈ List.foldl _ _ _
      rw [hsp]
      simp
    rw [leafStep] at hi
    cases hk : item.kind with
    | group =>
      simp [hk] at hi
      obtain ⟨s, hs, -, hki, htg, -⟩ := referenced_of_mem (fun k => (hf k).leaf) hm hk
      exact ⟨s, hso s hs, .inl hki, by rw [htg, hi]⟩
    | node | builtin => simp [hk] at hi

end

section

variable {rt : Runtime} {ctx : GroupContext}

theorem GroupMemo.Meets.leavesOk {m : GroupMemo} {leaves : String → List ResolvedItem}
    {g : NodeGroup} (h : m.Meets rt ctx leaves g)
    (hlv : ∀ k, ∀ leaf ∈ leaves k, leaf.kind ≠ .group) : m.LeavesOk := by
  refine ⟨?_, fun x => by rw [h.leafNodeSet]⟩
  intro it hit
  rw [h.leafItems, mem_flatMap] at hit
  obtain ⟨item, -, hit⟩ := hit
  rcases mem_expandItem hit with hch | ⟨hk, rfl⟩
  · exact hlv _ it hch
  · exact hk

def groupValue (rt : Runtime) (ctx : GroupContext) (depth : ℕ) (gid : String) : GroupMemo :=
  unmemo (groupBody rt ctx) GroupMemo.empty depth gid

variable {depth : ℕ} {rank : String → ℕ} {gid : String}

theorem exists_of_groupBody {c : GroupComp GroupMemo} (h : groupBody rt ctx gid = some c) : ∃ g, ctx.groupMap gid =
    some g := by
  rw [groupBody, Option.map_eq_some_iff] at h
  obtain ⟨g, hg, -⟩ := h
  exact ⟨g, hg⟩

theorem empty_leavesOk : GroupMemo.empty.LeavesOk :=
  ⟨by simp [GroupMemo.empty], by simp [GroupMemo.empty, nodeTargets]⟩

theorem groupValue_leavesOk : ∀ (depth : ℕ) (gid : String), (groupValue rt ctx depth gid).LeavesOk := by
  intro depth
  induction depth with
  | zero => exact fun _ => empty_leavesOk
  | succ depth ih =>
    intro gid
    rw [groupValue, unmemo]
    cases hb : groupBody rt ctx gid with
    | none => exact empty_leavesOk
    | some c =>
      obtain ⟨g, hg⟩ := exists_of_groupBody hb
      exact (groupBody_eval ih hg hb).leavesOk (fun k => (ih k).leaf)

theorem leafItems_groupValue : ∀ (depth : ℕ) (gid : String),
    (groupValue rt ctx depth gid).leafItems = specLeaves rt ctx depth gid := by
  intro depth
  induction depth with
  | zero => exact fun _ => rfl
  | succ depth ih =>
    intro gid
    rw [groupValue, unmemo, specLeaves]
    cases hb : groupBody rt ctx gid with
    | none => rw [Option.map_eq_none_iff.mp hb]; rfl
    | some c =>
      obtain ⟨g, hg⟩ := exists_of_groupBody hb
      have hm := groupBody_eval (f := groupValue rt ctx depth) (groupValue_leavesOk depth) hg hb
      have hlv : (fun k => (groupValue rt ctx depth k).leafItems) = specLeaves rt ctx depth :=
        funext ih
      rw [hlv] at hm
      rw [hg]
      exact hm.leafItems

/-- References fall along a rank below `depth`. -/
structure GroupContext.Ranked (ctx : GroupContext) (depth : ℕ) (rank : String → ℕ) : Prop where
  bound : ∀ k, rank k < depth
  falls : ∀ gid g, ctx.groupMap gid = some g → ∀ s ∈ g.sources,
    (s.kind = .groupRef ∨ s.kind = .groupNodes) → ∀ k, s.targetGroupID = some k → rank k < rank gid

theorem GroupContext.Ranked.solves (h : ctx.Ranked depth rank) :
    Solves (groupBody rt ctx) GroupMemo.empty (groupValue rt ctx depth) rank := by
  refine (solves_unmemo h.bound GroupMemo.LeavesOk empty_leavesOk ?_).1
  intro f hf gid c hb
  obtain ⟨g, hg⟩ := exists_of_groupBody hb
  refine ⟨(groupBody_eval hf hg hb).leavesOk (fun k => (hf k).leaf), fun k hk => ?_⟩
  obtain ⟨s, hs, hki, htg⟩ := calls_groupBody hf hg hb hk
  exact h.falls gid g hg s hs hki k htg

theorem groupValue_meets (h : ctx.Ranked depth rank) {g : NodeGroup} (hg : ctx.groupMap gid = some g) :
    (groupValue rt ctx depth gid).Meets rt ctx (specLeaves rt ctx depth) g := by
  obtain ⟨c, hc⟩ : ∃ c, groupBody rt ctx gid = some c := by simp [groupBody, hg]
  have hm := groupBody_eval (f := groupValue rt ctx depth) (groupValue_leavesOk depth) hg hc
  rw [funext (leafItems_groupValue depth)] at hm
  rw [h.solves.value gid c hc]
  exact hm

def resolveMany (rt : Runtime) (ctx : GroupContext) (fuel : ℕ) (order : List String)
    (st : GroupMemoState) : GroupMemoState :=
  order.foldl (fun st gid => (resolveGroupMemo rt ctx fuel gid st).2) st

/-- Between two calls: sound entries, no open group, no answer of the guard. -/
structure Settled (rt : Runtime) (ctx : GroupContext) (depth : ℕ) (st : GroupMemoState) : Prop where
  sound : st.Sound (groupValue rt ctx depth)
  closed : ∀ gid, st.resolving gid = false
  guardHits : st.guardHits = 0

theorem settled_init (depth : ℕ) : Settled rt ctx depth MemoState.init :=
  ⟨by simp [MemoState.Sound, MemoState.init], fun _ => rfl, rfl⟩

theorem Settled.resolve (h : ctx.Ranked depth rank) {fuel : ℕ}
    (hf : depth ≤ fuel) {st : GroupMemoState} (hst : Settled rt ctx depth st) (gid : String) :
    (resolveGroupMemo rt ctx fuel gid st).1 = groupValue rt ctx depth gid ∧
    Settled rt ctx depth (resolveGroupMemo rt ctx fuel gid st).2 := by
  have hs : Solves (groupBody rt ctx) GroupMemo.empty (groupValue rt ctx depth) rank := h.solves
  obtain ⟨hv, he, -⟩ := memoRec_spec hs fuel gid st
    (Nat.lt_of_lt_of_le (h.bound gid) hf) hst.sound
    (fun j hj => by rw [hst.closed j] at hj; contradiction)
  exact ⟨hv, he.sound, fun j => by rw [resolveGroupMemo, he.resolving, hst.closed],
    he.guardHits.trans hst.guardHits⟩

theorem Settled.resolveMany (h : ctx.Ranked depth rank) {fuel : ℕ} (hf : depth ≤ fuel) : ∀ (order : List String)
    {st : GroupMemoState}, Settled rt ctx depth st → Settled rt ctx depth (resolveMany rt ctx fuel order st) := by
  intro order
  induction order with
  | nil => exact fun hst => hst
  | cons gid order ih => exact fun hst => ih (hst.resolve h hf gid).2

end

end ClashSubParser
