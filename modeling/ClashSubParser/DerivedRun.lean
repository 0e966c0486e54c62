import ClashSubParser.DerivedGroups

/-! A whole run of the loop that derives groups: every reference ends where `referenceTo` says. -/
namespace ClashSubParser

open Function List MemoRecursion Reachability StableSort

structure DerivedFor (rt : Runtime) (ctx : GroupContext) (fuel : ℕ) (parentID childID : String)
    (d : ResolvedGroup) : Prop where
  derives : derives rt ctx fuel parentID childID = true
  id : d.id = deterministicDerivedUUID rt parentID childID
  members : d.members = membersOf ((survivors rt ctx fuel parentID childID).map (derivedItem ctx))
  childGroupIDs : d.childGroupIDs = []
  nodeLogicalIDs : d.nodeLogicalIDs = nodeTargets (survivors rt ctx fuel parentID childID)

section

variable {rt : Runtime} {ctx : GroupContext} {fuel : ℕ} {rank : String → ℕ} {ids : List String}

/-- What the loop over the members with these keys does besides the members. -/
structure ParentDone (rt : Runtime) (ctx : GroupContext) (fuel : ℕ) (parentID : String)
    (keys : List MemberKey) (st st' : DeriveState) : Prop where
  memo : Settled rt ctx fuel st'.memo
  others : ∀ gid, gid ≠ parentID → st'.slices gid = st.slices gid
  positions : (st'.slices parentID).members.map (·.position) =
    (st.slices parentID).members.map (·.position)
  mono : ∀ d ∈ st.derived, d ∈ st'.derived
  origin : ∀ d ∈ st'.derived, d ∈ st.derived ∨
    ∃ c, (MemberKind.group, c) ∈ keys ∧ DerivedFor rt ctx fuel parentID c d
  complete : ∀ c, (MemberKind.group, c) ∈ keys → derives rt ctx fuel parentID c = true →
    ∃ d ∈ st'.derived, d.id = deterministicDerivedUUID rt parentID c

theorem ParentDone.cons {pid : String} {k : MemberKey} {keys : List MemberKey}
    {st₀ st₁ st₂ : DeriveState} (h : ParentDone rt ctx fuel pid [k] st₀ st₁)
    (h' : ParentDone rt ctx fuel pid keys st₁ st₂) : ParentDone rt ctx fuel pid (k :: keys) st₀ st₂ := by
  refine ⟨h'.memo, fun gid hne => (h'.others gid hne).trans (h.others gid hne),
    h'.positions.trans h.positions, fun d hd => h'.mono d (h.mono d hd), ?_, ?_⟩
  · intro d hd
    rcases h'.origin d hd with hd | ⟨c, hc, hf⟩
    · rcases h.origin d hd with hd | ⟨c, hc, hf⟩
      · exact .inl hd
      · exact .inr ⟨c, by simp_all, hf⟩
    · exact .inr ⟨c, mem_cons_of_mem k hc, hf⟩
  · intro c hc hde
    rcases mem_cons.mp hc with rfl | hc
    · obtain ⟨d, hd, hid⟩ := h.complete c mem_cons_self hde
      exact ⟨d, h'.mono d hd, hid⟩
    · exact h'.complete c hc hde

/-- One step, in terms of the keys: the key of the member is replaced at its index, and the first child
entry for its target with it. -/
theorem deriveStep_done {rgs : List ResolvedGroup} {p : ResolvedGroup}
    {m : ResolvedGroupMember} {i : ℕ} {st st' : DeriveState}
    (h : DeriveStep rt ctx fuel rgs p (m, i) st st') (hm : Settled rt ctx fuel st'.memo)
    (hp : ((st.slices p.id).members.map (·.position))[i]? = some m.position) :
    ParentDone rt ctx fuel p.id [m.key] st st' ∧
    ((replaceKey rt ctx fuel p.id m.key = m.key ∧ st'.slices = st.slices) ∨
      (m.kind = .group ∧ derives rt ctx fuel p.id m.targetID = true ∧
        (st'.slices p.id).members.map (·.key) =
          ((st.slices p.id).members.map (·.key)).set i (replaceKey rt ctx fuel p.id m.key) ∧
        (st'.slices p.id).childGroupIDs = (st.slices p.id).childGroupIDs.replace m.targetID
          (deterministicDerivedUUID rt p.id m.targetID))) := by
  cases h with
  | kept hsl hde hke =>
    refine ⟨⟨hm, fun gid _ => by rw [hsl], by rw [hsl], fun d hd => by rwa [hde],
      fun d hd => .inl (by rwa [← hde]), ?_⟩, .inl ⟨replaceKey_of_not_derives hke, hsl⟩⟩
    intro c hc hdr
    obtain ⟨hk, rfl⟩ := Prod.mk.inj (mem_singleton.mp hc)
    rw [hke hk.symm] at hdr
    contradiction
  | replaced child d hki hdv hch hd hsl hde =>
    have hid : d.id = deterministicDerivedUUID rt p.id m.targetID := by
      rw [hd, ← hch.2]
      rfl
    have hf : DerivedFor rt ctx fuel p.id m.targetID d :=
      ⟨hdv, hid, by rw [hd]; rfl, by rw [hd]; rfl, by rw [hd]; rfl⟩
    have hky : m.key = (.group, m.targetID) := by rw [ResolvedGroupMember.key, hki]
    refine ⟨⟨hm, ?_, ?_, ?_, ?_, ?_⟩, .inr ⟨hki, hdv, ?_, ?_⟩⟩
    · intro gid hne
      rw [hsl, update_of_ne hne]
    · obtain ⟨hlt, hat⟩ := List.getElem?_eq_some_iff.mp hp
      have hs := set_getElem_self hlt
      rw [hat] at hs
      rw [hsl, update_self, Slices.substitute, map_set]
      exact hs
    · intro e he
      rw [hde]
      exact mem_append_left _ he
    · intro e he
      rw [hde] at he
      rcases mem_append.mp he with he | he
      · exact .inl he
      · obtain rfl := mem_singleton.mp he
        exact .inr ⟨m.targetID, by simp [hky], hf⟩
    · intro c hc _
      obtain rfl : c = m.targetID := (Prod.mk.inj (mem_singleton.mp hc)).2
      exact ⟨d, by simp [hde], hid⟩
    · have hr : replaceKey rt ctx fuel p.id m.key = (m.kind, d.id) := by
        rw [replaceKey_of_derives hki hdv, hid, hki]
        rfl
      rw [hsl, update_self, Slices.substitute, map_set, hr]
      rfl
    · rw [hsl, update_self, Slices.substitute, hid]

/-- Among the children of keys already replaced, a group of another key is missing: such a child has a made-up ID
or is the group of its own key. -/
theorem not_mem_groupKeys_replaced (hfr : DerivedFresh rt ids)
    (hi : ∀ gid, (∃ g, ctx.groupMap gid = some g) ↔ gid ∈ ids) {pid t : String} (hp : pid ∈ ids)
    (htg : t ∈ ids) {pre : List MemberKey} (ho : (MemberKind.group, t) ∉ pre) :
    t ∉ groupKeys (pre.map (replaceKey rt ctx fuel pid)) := by
  intro hm
  obtain ⟨k, hk, hfk⟩ := mem_map.mp (mem_groupKeys.mp hm)
  by_cases hd : k.1 = .group ∧ derives rt ctx fuel pid k.2 = true
  · have hn := replaceKey_of_derives hd.1 hd.2
    rw [hfk] at hn
    apply hfr.notGroup pid hp k.2 ((hi _).mp (exists_of_derives hd.2))
    rw [← (Prod.mk.inj hn).2]
    exact htg
  · have hke : replaceKey rt ctx fuel pid k = k :=
      replaceKey_of_not_derives (fun hk => by simpa using fun hd' => hd ⟨hk, hd'⟩)
    rw [hke] at hfk
    exact ho (hfk ▸ hk)

/-- The loop over the members of a parent, with the keys `pre` already replaced. -/
theorem deriveLoop_keys (h : ctx.Ranked fuel rank) (hfr : DerivedFresh rt ids)
    (hi : ∀ gid, (∃ g, ctx.groupMap gid = some g) ↔ gid ∈ ids) {rgs : List ResolvedGroup}
    (hkn : ∀ gid g, ctx.groupMap gid = some g → gid ∈ rgs.map (·.id)) {p : ResolvedGroup}
    (hp : p.id ∈ ids) : ∀ (post : List ResolvedGroupMember) (pre : List MemberKey) (st : DeriveState),
    let f := replaceKey rt ctx fuel p.id
    Settled rt ctx fuel st.memo →
    (st.slices p.id).members.map (·.key) = pre.map f ++ post.map (·.key) →
    (st.slices p.id).childGroupIDs = groupKeys (pre.map f ++ post.map (·.key)) →
    (pre ++ post.map (·.key)).Nodup →
    ((st.slices p.id).members.map (·.position)).drop pre.length = post.map (·.position) →
    let st' := (post.zipIdx pre.length).foldl (deriveMember rt ctx fuel rgs p) st
    ParentDone rt ctx fuel p.id (post.map (·.key)) st st' ∧
    (st'.slices p.id).members.map (·.key) = (pre ++ post.map (·.key)).map f ∧
    (st'.slices p.id).childGroupIDs = groupKeys ((pre ++ post.map (·.key)).map f) := by
  intro post
  induction post with
  | nil =>
    intro pre st f hst hms hch _ _
    refine ⟨⟨hst, fun _ _ => rfl, rfl, fun _ hd => hd, fun _ hd => .inl hd, by simp⟩, ?_, ?_⟩
    · simpa using hms
    · simpa using hch
  | cons m post ih =>
    intro pre st f hst hms hch hnd hpo
    obtain ⟨hs, hs'⟩ := deriveMember_step h hkn p hst (m, pre.length)
    have hat : ((st.slices p.id).members.map (·.position))[pre.length]? = some m.position := by
      have hh := congrArg List.head? hpo
      rwa [head?_drop] at hh
    obtain ⟨ho, hke⟩ := deriveStep_done hs hs' hat
    have ha : pre ++ (m :: post).map (·.key) = pre ++ [m.key] ++ post.map (·.key) := by simp
    -- the members and children with the next key replaced
    have hn : ((deriveMember rt ctx fuel rgs p st (m, pre.length)).slices
          p.id).members.map (·.key) = (pre ++ [m.key]).map f ++ post.map (·.key) ∧
        ((deriveMember rt ctx fuel rgs p st (m, pre.length)).slices p.id).childGroupIDs =
          groupKeys ((pre ++ [m.key]).map f ++ post.map (·.key)) := by
      rcases hke with ⟨hkp, hsl⟩ | ⟨hki, hde, hse, hre⟩
      · have hsa : (pre ++ [m.key]).map f ++ post.map (·.key) =
            pre.map f ++ (m :: post).map (·.key) := by
          simp [f, hkp]
        rw [hsl, hsa]
        exact ⟨hms, hch⟩
      · have hk : m.key = (.group, m.targetID) := by rw [ResolvedGroupMember.key, hki]
        have hf : f m.key = (.group, deterministicDerivedUUID rt p.id m.targetID) :=
          replaceKey_of_derives hki hde
        have htg : m.targetID ∈ ids := (hi _).mp (exists_of_derives hde)
        refine ⟨?_, ?_⟩
        · rw [hse, hms]
          simp [f]
        · -- the entry replaced is that of `m`: no earlier one has its target
          have hno : m.targetID ∉ groupKeys (pre.map f) := by
            apply not_mem_groupKeys_replaced hfr hi hp htg
            intro hm
            exact (nodup_append.mp hnd).2.2 _ hm m.key (by simp) hk.symm
          rw [hre, hch]
          rw [map_append, map_singleton, hf, map_cons, hk]
          simp only [groupKeys_append, groupKeys_cons_group, groupKeys_nil]
          rw [replace_append_right hno, replace_cons_self, List.append_assoc, singleton_append]
    have hl : (pre ++ [m.key]).length = pre.length+1 := by simp
    rw [ha] at hnd ⊢
    have hp' := congrArg List.tail hpo
    rw [tail_drop, ← ho.positions, ← hl] at hp'
    obtain ⟨hr, hfi⟩ := ih (pre ++ [m.key]) _ hs' hn.1 hn.2 hnd hp'
    rw [hl] at hr hfi
    exact ⟨ho.cons hr, hfi⟩

end

section

variable {rt : Runtime} {ctx : GroupContext} {fuel : ℕ} {rank : String → ℕ}

theorem itemsOf_eq {gid : String} {g : NodeGroup} (hg : ctx.groupMap gid = some g) :
    itemsOf rt ctx fuel gid = specItems rt ctx (specLeaves rt ctx fuel) (sortSources g.sources) := by
  rw [itemsOf, GroupContext.groupSources, hg, Option.elim_some]

theorem specLeaves_ne_group (depth : ℕ) (gid : String) :
    ∀ leaf ∈ specLeaves rt ctx depth gid, leaf.kind ≠ .group := by
  rw [← leafItems_groupValue]
  exact (groupValue_leavesOk depth gid).leaf

theorem exists_of_mem_groupTargets {gid c : String} (h : c ∈ groupTargets (itemsOf rt ctx fuel gid)) :
    ∃ g, ctx.groupMap c = some g := by
  obtain ⟨item, hi, rfl⟩ := mem_map.mp h
  obtain ⟨hm, hk⟩ := mem_filter.mp hi
  obtain ⟨-, -, -, -, -, tg, htg, -⟩ :=
    referenced_of_mem (specLeaves_ne_group fuel) hm (of_decide_eq_true hk)
  exact ⟨tg, htg⟩

theorem rank_lt_of_mem_groupTargets (h : ctx.Ranked fuel rank) {gid c : String} {g : NodeGroup}
    (hg : ctx.groupMap gid = some g) (hc : c ∈ groupTargets (itemsOf rt ctx fuel gid)) : rank c < rank gid := by
  obtain ⟨item, hi, rfl⟩ := mem_map.mp hc
  obtain ⟨hm, hk⟩ := mem_filter.mp hi
  rw [itemsOf_eq hg] at hm
  obtain ⟨s, hs, -, hsk, htg, -⟩ :=
    referenced_of_mem (specLeaves_ne_group _) hm (of_decide_eq_true hk)
  exact h.falls gid g hg s ((mem_stableSort _ _ _).mp hs) (.inl hsk) _ htg

end

structure FirstPass (rt : Runtime) (ctx : GroupContext) (fuel : ℕ) (resolved : List ResolvedGroup) :
    Prop where
  ids : ∀ gid, gid ∈ resolved.map (·.id) ↔ ∃ g, ctx.groupMap gid = some g
  members : ∀ rg ∈ resolved, rg.members = membersOf (itemsOf rt ctx fuel rg.id)
  childGroupIDs : ∀ rg ∈ resolved, rg.childGroupIDs = groupTargets (itemsOf rt ctx fuel rg.id)
  nodeLogicalIDs : ∀ rg ∈ resolved, rg.nodeLogicalIDs = nodeTargets (itemsOf rt ctx fuel rg.id)

section

variable {rt : Runtime} {ctx : GroupContext} {fuel : ℕ} {rank : String → ℕ}

variable (h : ctx.Ranked fuel rank)
include h

theorem mem_resolvedList {gs : List NodeGroup} {rg : ResolvedGroup}
    (hrg : rg ∈ resolvedList ctx (resolveEach rt ctx fuel gs MemoState.init).1) :
    ∃ g ∈ gs, ∃ i, rg = resolvedGroupOf ctx g (groupValue rt ctx fuel g.id) i := by
  rw [(resolveEach_eq h gs (settled_init fuel)).1, resolvedList, mem_mapIdx] at hrg
  obtain ⟨i, hi, rfl⟩ := hrg
  simp only [length_map] at hi
  exact ⟨gs[i], getElem_mem hi, i, by simp⟩

theorem ids_resolvedList (gs : List NodeGroup) :
    (resolvedList ctx (resolveEach rt ctx fuel gs MemoState.init).1).map (·.id) =
      gs.map (·.id) := by
  rw [(resolveEach_eq h gs (settled_init fuel)).1, resolvedList]
  apply ext_getElem
  · simp
  · intro i _ _
    simp [resolvedGroupOf]

theorem firstPass {gs : List NodeGroup} (hma : ctx.groupMap = mapOf (·.id) gs) : FirstPass rt ctx fuel
      (resolvedList ctx (resolveEach rt ctx fuel (sortGroups gs) MemoState.init).1) := by
  have he (gid : String) : (∃ g, ctx.groupMap gid = some g) ↔ ∃ g ∈ sortGroups gs, g.id = gid := by
    simp only [hma, ← Option.isSome_iff_exists, mapOf_isSome_iff, sortGroups, mem_stableSort]
  have hme (g₀ : NodeGroup) (hg₀ : g₀ ∈ sortGroups gs) : ∃ g, ctx.groupMap g₀.id = some g ∧
      (groupValue rt ctx fuel g₀.id).Meets rt ctx (specLeaves rt ctx fuel) g := by
    obtain ⟨g, hg⟩ := (he g₀.id).mpr ⟨g₀, hg₀, rfl⟩
    exact ⟨g, hg, groupValue_meets h hg⟩
  refine ⟨?_, ?_, ?_, ?_⟩
  · intro gid
    rw [he, ids_resolvedList h, mem_map]
  · intro rg hrg
    obtain ⟨g₀, hg₀, i, rfl⟩ := mem_resolvedList h hrg
    obtain ⟨g, hg, hm⟩ := hme g₀ hg₀
    exact hm.members.trans (by rw [← itemsOf_eq hg]; rfl)
  · intro rg hrg
    obtain ⟨g₀, hg₀, i, rfl⟩ := mem_resolvedList h hrg
    obtain ⟨g, hg, hm⟩ := hme g₀ hg₀
    exact hm.childGroupIDs.trans (by rw [← itemsOf_eq hg]; rfl)
  · intro rg hrg
    obtain ⟨g₀, hg₀, i, rfl⟩ := mem_resolvedList h hrg
    obtain ⟨g, hg, hm⟩ := hme g₀ hg₀
    exact hm.nodeLogicalIDs.trans (by rw [← itemsOf_eq hg]; rfl)

end

section

variable (rt : Runtime) (ctx : GroupContext) (groups : List NodeGroup)

def firstResolved : List ResolvedGroup :=
  resolvedList ctx (resolveEach rt ctx (groups.length+1) (sortGroups groups) MemoState.init).1

def derivedState : DeriveState :=
  deriveGroups rt ctx (groups.length+1) (firstResolved rt ctx groups)
    (resolveEach rt ctx (groups.length+1) (sortGroups groups) MemoState.init).2

def unitedGroups : List ResolvedGroup :=
  allGroups (firstResolved rt ctx groups) (derivedState rt ctx groups)

end

theorem exists_firstResolved {rt : Runtime} {ctx : GroupContext} {groups : List NodeGroup} {rank : String → ℕ}
    (h : ctx.Ranked (groups.length+1) rank) {g : NodeGroup} (hg : g ∈ groups) :
    ∃ i, resolvedGroupOf ctx g (groupValue rt ctx (groups.length+1) g.id) i ∈ firstResolved rt ctx groups := by
  have hso : g ∈ sortGroups groups := (mem_stableSort _ _ _).mpr hg
  obtain ⟨k, hk, rfl⟩ := mem_iff_getElem.mp hso
  refine ⟨k, ?_⟩
  rw [firstResolved, (resolveEach_eq h _ (settled_init _)).1, resolvedList, mem_mapIdx]
  exact ⟨k, by simpa using hk, by simp⟩

structure RunUpTo (rt : Runtime) (ctx : GroupContext) (fuel : ℕ) (ids done : List String)
    (st : DeriveState) : Prop where
  memo : Settled rt ctx fuel st.memo
  keys : ∀ gid ∈ ids, (st.slices gid).members.map (·.key) =
    if gid ∈ done then ((itemsOf rt ctx fuel gid).map (·.key)).map (replaceKey rt ctx fuel gid)
    else (itemsOf rt ctx fuel gid).map (·.key)
  positions : ∀ gid ∈ ids, (st.slices gid).members.map (·.position) =
    List.range (itemsOf rt ctx fuel gid).length
  childGroupIDs : ∀ gid ∈ ids,
    (st.slices gid).childGroupIDs = groupKeys ((st.slices gid).members.map (·.key))
  origin : ∀ d ∈ st.derived, ∃ p ∈ ids, ∃ c ∈ groupTargets (itemsOf rt ctx fuel p),
    DerivedFor rt ctx fuel p c d
  complete : ∀ p ∈ done, ∀ c ∈ groupTargets (itemsOf rt ctx fuel p),
    derives rt ctx fuel p c = true → ∃ d ∈ st.derived, d.id = deterministicDerivedUUID rt p c

section

variable {rt : Runtime} {ctx : GroupContext} {fuel : ℕ} {rank : String → ℕ} {resolved : List ResolvedGroup}

theorem FirstPass.slicesOf_eq (hf : FirstPass rt ctx fuel resolved) {gid : String}
    (hg : gid ∈ resolved.map (·.id)) :
    slicesOf resolved gid = ⟨membersOf (itemsOf rt ctx fuel gid), groupTargets (itemsOf rt ctx fuel gid)⟩ := by
  obtain ⟨rg, hrg, hid⟩ := mem_map.mp hg
  obtain ⟨rg', hfd⟩ := Option.isSome_iff_exists.mp
    (@mapOf_isSome_iff _ (fun g : ResolvedGroup => g.id) _ _ |>.mpr ⟨rg, hrg, hid⟩)
  obtain ⟨hm, rfl⟩ := mapOf_some hfd
  rw [slicesOf, hfd, Option.elim_some, hf.members rg' hm, hf.childGroupIDs rg' hm]

theorem FirstPass.init (hf : FirstPass rt ctx fuel resolved) {memo : GroupMemoState}
    (hme : Settled rt ctx fuel memo) :
    RunUpTo rt ctx fuel (resolved.map (·.id)) [] ⟨slicesOf resolved, [], memo⟩ := by
  refine ⟨hme, ?_, ?_, ?_, by simp, by simp⟩
  · intro gid hg
    dsimp only
    rw [hf.slicesOf_eq hg, map_key_membersOf, if_neg (by simp)]
  · intro gid hg
    dsimp only
    rw [hf.slicesOf_eq hg, map_position_membersOf]
  · intro gid hg
    dsimp only
    rw [hf.slicesOf_eq hg, map_key_membersOf, groupTargets_eq_groupKeys]

theorem replaced_nodup (hf : FirstPass rt ctx fuel resolved)
    (hfr : DerivedFresh rt (resolved.map (·.id))) {gid : String} (hg : gid ∈ resolved.map (·.id)) :
    (((itemsOf rt ctx fuel gid).map (·.key)).map (replaceKey rt ctx fuel gid)).Nodup := by
  have hin : ∀ k ∈ (itemsOf rt ctx fuel gid).map (·.key), k.1 = .group → k.2 ∈ resolved.map (·.id) := by
    intro k hk hgr
    rw [hf.ids]
    apply @exists_of_mem_groupTargets rt ctx fuel gid
    rw [groupTargets_eq_groupKeys, mem_groupKeys, ← hgr]
    exact hk
  exact (specItems_nodup _).map_on fun k hk l hl => replaceKey_injOn hfr hg (hin k hk) (hin l hl)

theorem RunUpTo.deriveParent (h : ctx.Ranked fuel rank) (hf : FirstPass rt ctx fuel resolved)
    (hfr : DerivedFresh rt (resolved.map (·.id))) {done : List String} {st : DeriveState}
    (hst : RunUpTo rt ctx fuel (resolved.map (·.id)) done st) {parent : ResolvedGroup} (hpa : parent ∈ resolved) :
    RunUpTo rt ctx fuel (resolved.map (·.id)) (parent.id :: done)
      (deriveParent rt ctx fuel resolved st parent) := by
  have hp : parent.id ∈ resolved.map (·.id) := mem_map_of_mem hpa
  have hi (gid : String) : (∃ g, ctx.groupMap gid = some g) ↔ gid ∈ resolved.map (·.id) :=
    (hf.ids gid).symm
  have hke := hst.keys parent.id hp
  have hnd : ((st.slices parent.id).members.map (·.key)).Nodup := by
    rw [hke]
    split_ifs
    · exact replaced_nodup hf hfr hp
    · exact specItems_nodup _
  obtain ⟨hdo, hms, hch⟩ := deriveLoop_keys h hfr hi
    (fun gid g hg => (hf.ids gid).mpr ⟨g, hg⟩) hp (st.slices parent.id).members [] st hst.memo
    (by simp) (by simpa using hst.childGroupIDs parent.id hp) (by simpa using hnd) (by simp)
  simp only [nil_append] at hms hch
  change ParentDone rt ctx fuel parent.id _ st (ClashSubParser.deriveParent rt ctx fuel resolved st parent)
    at hdo
  change ((ClashSubParser.deriveParent rt ctx fuel resolved st parent).slices parent.id).members.map _ = _
    at hms
  change ((ClashSubParser.deriveParent rt ctx fuel resolved st parent).slices parent.id).childGroupIDs = _
    at hch
  refine ⟨hdo.memo, ?_, ?_, ?_, ?_, ?_⟩
  · intro gid hgi
    by_cases heq : gid = parent.id
    · subst heq
      rw [hms, hke, if_pos mem_cons_self]
      split_ifs
      · rw [map_map]
        exact map_congr_left fun k _ => replaceKey_replaceKey hfr hi hp k
      · rfl
    · rw [hdo.others gid heq, hst.keys gid hgi]
      simp [heq]
  · intro gid hgi
    by_cases heq : gid = parent.id
    · rw [heq, hdo.positions, hst.positions _ hp]
    · rw [hdo.others gid heq, hst.positions gid hgi]
  · intro gid hgi
    by_cases heq : gid = parent.id
    · rw [heq, hch, hms]
    · rw [hdo.others gid heq, hst.childGroupIDs gid hgi]
  · intro d hd
    rcases hdo.origin d hd with hd | ⟨c, hc, hfo⟩
    · exact hst.origin d hd
    · refine ⟨parent.id, hp, c, ?_, hfo⟩
      rw [groupTargets_eq_groupKeys, mem_groupKeys]
      rw [hke] at hc
      split_ifs at hc
      · -- a replaced reference does not name a group, so this one is original
        obtain ⟨k, hk, hfk⟩ := mem_map.mp hc
        by_cases hde : k.1 = .group ∧ derives rt ctx fuel parent.id k.2 = true
        · rw [replaceKey_of_derives hde.1 hde.2] at hfk
          have hn := hfr.notGroup _ hp k.2 ((hi _).mp (exists_of_derives hde.2))
          rw [(Prod.mk.inj hfk).2] at hn
          exact absurd ((hi c).mp (exists_of_derives hfo.derives)) hn
        · rw [replaceKey_of_not_derives (fun hk => by simpa using fun hd' => hde ⟨hk, hd'⟩)] at hfk
          rwa [← hfk]
      · exact hc
  · intro p hpd c hc hde
    rcases mem_cons.mp hpd with rfl | hpd
    · by_cases hs : parent.id ∈ done
      · obtain ⟨d, hd, hid⟩ := hst.complete _ hs c hc hde
        exact ⟨d, hdo.mono d hd, hid⟩
      · apply hdo.complete c _ hde
        rwa [hke, if_neg hs, ← mem_groupKeys, ← groupTargets_eq_groupKeys]
    · obtain ⟨d, hd, hid⟩ := hst.complete p hpd c hc hde
      exact ⟨d, hdo.mono d hd, hid⟩

theorem FirstPass.deriveGroups (h : ctx.Ranked fuel rank) (hf : FirstPass rt ctx fuel resolved)
    (hfr : DerivedFresh rt (resolved.map (·.id))) {memo : GroupMemoState} (hm : Settled rt ctx fuel memo) :
    RunUpTo rt ctx fuel (resolved.map (·.id)) (resolved.map (·.id)).reverse
      (deriveGroups rt ctx fuel resolved memo) := by
  have hl : ∀ (ps : List ResolvedGroup) (done : List String) (st : DeriveState),
      (∀ p ∈ ps, p ∈ resolved) → RunUpTo rt ctx fuel (resolved.map (·.id)) done st →
      RunUpTo rt ctx fuel (resolved.map (·.id)) ((ps.map (·.id)).reverse ++ done)
        (ps.foldl (ClashSubParser.deriveParent rt ctx fuel resolved) st) := by
    intro ps
    induction ps with
    | nil => exact fun done st _ hst => hst
    | cons parent ps ih =>
      intro done st hs hst
      have ho := hst.deriveParent h hf hfr (hs parent mem_cons_self)
      have hr := ih _ _ (fun p hp => hs p (mem_cons_of_mem _ hp)) ho
      simpa using hr
  have hru := hl resolved [] _ (fun p hp => hp) (hf.init hm)
  rwa [append_nil] at hru

end

end ClashSubParser
