import ClashSubParser.GroupResolution
import ClashSubParser.ResolveGroups

/-! What the loop that derives groups does to one member: nothing, or the replacement of a reference. -/
namespace ClashSubParser

open List MemoRecursion Reachability StableSort

section

variable (rt : Runtime) (ctx : GroupContext) (depth : ℕ)

def survivors (parentID childID : String) : List ResolvedItem :=
  (specLeaves rt ctx depth childID).filter (leafSurvives rt ctx (pFilter ctx parentID childID))

def derives (parentID childID : String) : Bool :=
  !NodeFilterSpec.isEmpty (pFilter ctx parentID childID) &&
    !(specLeaves rt ctx depth childID).all (leafSurvives rt ctx (pFilter ctx parentID childID))

def referenceTo (parentID childID : String) : String :=
  if derives rt ctx depth parentID childID then deterministicDerivedUUID rt parentID childID else childID

def itemsOf (gid : String) : List ResolvedItem :=
  specItems rt ctx (specLeaves rt ctx depth) (ctx.groupSources gid)

end

section

variable {rt : Runtime} {ctx : GroupContext} {fuel : ℕ} {rank : String → ℕ}

theorem specLeaves_of_none {gid : String} (h : ctx.groupMap gid = none) (depth : ℕ) :
    specLeaves rt ctx depth gid = [] := by
  cases depth with
  | zero => rfl
  | succ depth => rw [specLeaves, h]

theorem exists_of_derives {pid childID : String} (h : derives rt ctx fuel pid childID = true) :
    ∃ g, ctx.groupMap childID = some g := by
  cases hg : ctx.groupMap childID with
  | some g => exact ⟨g, rfl⟩
  | none => simp [derives, specLeaves_of_none hg] at h

theorem resolveEach_eq (h : ctx.Ranked fuel rank) : ∀ (gs : List NodeGroup) {st : GroupMemoState},
    Settled rt ctx fuel st →
    (resolveEach rt ctx fuel gs st).1 = gs.map (fun g => (g, groupValue rt ctx fuel g.id)) ∧
    Settled rt ctx fuel (resolveEach rt ctx fuel gs st).2 := by
  intro gs
  induction gs with
  | nil => exact fun hst => ⟨rfl, hst⟩
  | cons g gs ih =>
    intro st hst
    obtain ⟨hv, hs'⟩ := hst.resolve h (le_rfl) g.id
    obtain ⟨hr, hs''⟩ := ih hs'
    refine ⟨?_, hs''⟩
    rw [resolveEach, hv, hr, map_cons]

inductive DeriveStep (rt : Runtime) (ctx : GroupContext) (fuel : ℕ) (resolved : List ResolvedGroup)
    (parent : ResolvedGroup) (member : ResolvedGroupMember × ℕ) (st st' : DeriveState) : Prop
  | kept (hslices : st'.slices = st.slices) (hderived : st'.derived = st.derived)
      (hkeep : member.1.kind = .group → derives rt ctx fuel parent.id member.1.targetID = false)
  | replaced (child d : ResolvedGroup) (hkind : member.1.kind = .group)
      (hderives : derives rt ctx fuel parent.id member.1.targetID = true)
      (hchild : child ∈ resolved ∧ child.id = member.1.targetID)
      (hd : d = derivedGroupOf rt ctx parent child (survivors rt ctx fuel parent.id member.1.targetID)
        (resolved.length + st.derived.length))
      (hslices : st'.slices = Function.update st.slices parent.id
        ((st.slices parent.id).substitute member.2 member.1 d))
      (hderived : st'.derived = st.derived ++ [d])

theorem exists_child_of_derives {rgs : List ResolvedGroup} {pid childID : String}
    (hkn : ∀ gid g, ctx.groupMap gid = some g → gid ∈ rgs.map (·.id))
    (h : derives rt ctx fuel pid childID = true) :
    ∃ child, mapOf (fun g : ResolvedGroup => g.id) rgs childID = some child := by
  obtain ⟨g, hg⟩ := exists_of_derives h
  obtain ⟨child, hm, hid⟩ := mem_map.mp (hkn _ g hg)
  exact Option.isSome_iff_exists.mp (mapOf_isSome_iff.mpr ⟨child, hm, hid⟩)

theorem mem_members_of_slicesOf {rgs : List ResolvedGroup} {gid : String} {m : ResolvedGroupMember}
    (hm : m ∈ (slicesOf rgs gid).members) : ∃ rg ∈ rgs, rg.id = gid ∧ m ∈ rg.members := by
  rw [slicesOf] at hm
  cases hfd : mapOf (fun g : ResolvedGroup => g.id) rgs gid with
  | none => simp [hfd] at hm
  | some rg =>
    rw [hfd] at hm
    exact ⟨rg, (mapOf_some hfd).1, (mapOf_some hfd).2, hm⟩

theorem deriveMember_step (h : ctx.Ranked fuel rank) {rgs : List ResolvedGroup}
    (hkn : ∀ gid g, ctx.groupMap gid = some g → gid ∈ rgs.map (·.id)) (p : ResolvedGroup)
    {st : DeriveState} (hst : Settled rt ctx fuel st.memo) (m : ResolvedGroupMember × ℕ) :
    DeriveStep rt ctx fuel rgs p m st (deriveMember rt ctx fuel rgs p st m) ∧
    Settled rt ctx fuel (deriveMember rt ctx fuel rgs p st m).memo := by
  obtain ⟨hv, hs'⟩ := hst.resolve h (le_rfl) m.1.targetID
  rw [deriveMember]
  dsimp only
  rw [hv, leafItems_groupValue]
  split_ifs with hs ha
  · refine ⟨.kept rfl rfl ?_, hst⟩
    intro hk
    simp [derives, hs.resolve_left (not_not_intro hk)]
  · have hke : derives rt ctx fuel p.id m.1.targetID = false := by simp [derives, ha]
    cases mapOf (fun g : ResolvedGroup => g.id) rgs m.1.targetID with
    | none => exact ⟨.kept rfl rfl (fun _ => hke), hst⟩
    | some child => exact ⟨.kept rfl rfl (fun _ => hke), hs'⟩
  · obtain ⟨hk, hsp⟩ := not_or.mp hs
    have hd : derives rt ctx fuel p.id m.1.targetID = true := by
      simp [derives, hsp, ha]
    obtain ⟨child, hch⟩ := exists_child_of_derives hkn hd
    rw [hch]
    exact ⟨.replaced child _ (not_not.mp hk) hd (mapOf_some hch) rfl rfl rfl, hs'⟩

/-- What each turn of the loop preserves holds when it ends. -/
theorem deriveGroups_induction (h : ctx.Ranked fuel rank) {rgs : List ResolvedGroup}
    (hkn : ∀ gid g, ctx.groupMap gid = some g → gid ∈ rgs.map (·.id)) {memo : GroupMemoState}
    (hm : Settled rt ctx fuel memo) (P : DeriveState → Prop) (h0 : P ⟨slicesOf rgs, [], memo⟩)
    (hsp : ∀ parent ∈ rgs, ∀ m st st', P st →
      DeriveStep rt ctx fuel rgs parent m st st' → P st') :
    P (deriveGroups rt ctx fuel rgs memo) := by
  have hms : ∀ parent ∈ rgs, ∀ (ms : List (ResolvedGroupMember × ℕ)) (st : DeriveState),
      Settled rt ctx fuel st.memo ∧ P st →
      Settled rt ctx fuel (ms.foldl (deriveMember rt ctx fuel rgs parent) st).memo ∧
        P (ms.foldl (deriveMember rt ctx fuel rgs parent) st) := by
    intro parent hpe ms
    induction ms with
    | nil => exact fun st hst => hst
    | cons m ms ih =>
      rintro st ⟨hst, hp⟩
      obtain ⟨ho, hs'⟩ := deriveMember_step h hkn parent hst m
      exact ih _ ⟨hs', hsp parent hpe m st _ hp ho⟩
  have hpa : ∀ (ps : List ResolvedGroup) (st : DeriveState), (∀ p ∈ ps, p ∈ rgs) →
      Settled rt ctx fuel st.memo ∧ P st →
      P (ps.foldl (deriveParent rt ctx fuel rgs) st) := by
    intro ps
    induction ps with
    | nil => exact fun st _ hst => hst.2
    | cons parent ps ih =>
      intro st hs hst
      exact ih _ (fun p hp => hs p (mem_cons_of_mem _ hp))
        (hms parent (hs parent mem_cons_self) _ st hst)
  exact hpa rgs _ (fun p hp => hp) ⟨hm, h0⟩

end

section

abbrev MemberKey := MemberKind × String

def ResolvedItem.key (item : ResolvedItem) : MemberKey := (item.kind, item.targetID)

def ResolvedGroupMember.key (m : ResolvedGroupMember) : MemberKey := (m.kind, m.targetID)

def groupKeys (keys : List MemberKey) : List String := (keys.filter (·.1 = .group)).map (·.2)

variable (items : List ResolvedItem)

theorem map_key_membersOf : (membersOf items).map (·.key) = items.map (·.key) := by
  apply ext_getElem
  · simp [membersOf]
  · intro i _ _
    simp [membersOf, memberOf, ResolvedItem.key, ResolvedGroupMember.key]

theorem map_position_membersOf :
    (membersOf items).map (·.position) = List.range items.length := by
  apply ext_getElem
  · simp [membersOf]
  · intro i _ _
    simp [membersOf, memberOf]

theorem groupTargets_eq_groupKeys :
    groupTargets items = groupKeys (items.map (·.key)) := by
  simp [groupTargets, groupKeys, filter_map, Function.comp_def, ResolvedItem.key]

@[simp] theorem groupKeys_append (k l : List MemberKey) : groupKeys (k ++ l) = groupKeys k ++ groupKeys l := by
  simp [groupKeys]

@[simp] theorem groupKeys_cons_group (c : String) (keys : List MemberKey) :
    groupKeys ((.group, c) :: keys) = c :: groupKeys keys := by
  simp [groupKeys]

@[simp] theorem groupKeys_nil : groupKeys [] = [] := rfl

theorem mem_groupKeys {keys : List MemberKey} {c : String} : c ∈ groupKeys keys ↔ (MemberKind.group, c) ∈ keys := by
  simp [groupKeys]

variable {rt : Runtime} {ctx : GroupContext} {leaves : String → List ResolvedItem}

theorem addItem_nodup {items : List ResolvedItem} (h : (items.map (·.key)).Nodup) (item : ResolvedItem) :
    ((addItem items item).map (·.key)).Nodup := by
  rw [addItem]
  split_ifs with ha
  · exact h
  · rw [map_append, nodup_append_comm]
    refine nodup_cons.mpr ⟨?_, h⟩
    intro hm
    obtain ⟨it, hit, hke⟩ := mem_map.mp hm
    obtain ⟨hk, ht⟩ := Prod.mk.inj hke
    exact ha (any_eq_true.mpr ⟨it, hit, by simp [hk, ht]⟩)

theorem specItems_nodup (srcs : List MemberSource) : ((specItems rt ctx leaves srcs).map (·.key)).Nodup := by
  refine List.foldlRecOn (motive := fun l : List ResolvedItem => (l.map (·.key)).Nodup) srcs _ ?_ ?_
  · exact nodup_nil
  · intro items h s _
    unfold applySource
    cases s.operation with
    | add =>
      exact List.foldlRecOn (motive := fun l : List ResolvedItem => (l.map (·.key)).Nodup) _ addItem h
        (fun items h item _ => addItem_nodup h item)
    | remove => exact h.sublist (filter_sublist.map _)
    | other t ht => exact h

end

/-- The IDs made up for references among these groups collide neither with each other nor with a group. -/
structure DerivedFresh (rt : Runtime) (ids : List String) : Prop where
  notGroup : ∀ p ∈ ids, ∀ c ∈ ids, deterministicDerivedUUID rt p c ∉ ids
  injective : ∀ p ∈ ids, ∀ c ∈ ids, ∀ p' ∈ ids, ∀ c' ∈ ids,
    deterministicDerivedUUID rt p c = deterministicDerivedUUID rt p' c' → p = p' ∧ c = c'

def replaceKey (rt : Runtime) (ctx : GroupContext) (depth : ℕ) (parentID : String) (k : MemberKey) :
    MemberKey :=
  if k.1 = .group then (.group, referenceTo rt ctx depth parentID k.2) else k

section

variable {rt : Runtime} {ctx : GroupContext} {fuel : ℕ} {ids : List String} {parentID : String} {k : MemberKey}

theorem replaceKey_of_not_derives (h : k.1 = .group → derives rt ctx fuel parentID k.2 = false) :
    replaceKey rt ctx fuel parentID k = k := by
  rw [replaceKey]
  split_ifs with hk
  · rw [referenceTo, h hk, if_neg (by simp), ← hk]
  · rfl

theorem replaceKey_of_derives (hk : k.1 = .group) (h : derives rt ctx fuel parentID k.2 = true) :
    replaceKey rt ctx fuel parentID k = (.group, deterministicDerivedUUID rt parentID k.2) := by
  rw [replaceKey, if_pos hk, referenceTo, h, if_pos rfl]

theorem groupKeys_map_replaceKey (pid : String) (keys : List MemberKey) :
    groupKeys (keys.map (replaceKey rt ctx fuel pid)) =
      (groupKeys keys).map (referenceTo rt ctx fuel pid) := by
  induction keys with
  | nil => rfl
  | cons k keys ih =>
    obtain ⟨kind, -⟩ := k
    rw [map_cons, replaceKey]
    cases kind with
    | group => simp [ih]
    | node | builtin => simpa [groupKeys] using ih

theorem replaceKey_replaceKey (hfr : DerivedFresh rt ids)
    (hi : ∀ gid, (∃ g, ctx.groupMap gid = some g) ↔ gid ∈ ids) (hp : parentID ∈ ids) (k : MemberKey) :
    replaceKey rt ctx fuel parentID (replaceKey rt ctx fuel parentID k) =
      replaceKey rt ctx fuel parentID k := by
  by_cases h : k.1 = .group ∧ derives rt ctx fuel parentID k.2 = true
  · rw [replaceKey_of_derives h.1 h.2]
    apply replaceKey_of_not_derives
    intro _
    by_contra hd
    have hgr := (hi _).mp (exists_of_derives (Bool.not_eq_false _ ▸ hd))
    exact hfr.notGroup parentID hp k.2 ((hi _).mp (exists_of_derives h.2)) hgr
  · have hke : replaceKey rt ctx fuel parentID k = k :=
      replaceKey_of_not_derives (fun hk => by simpa using fun hd => h ⟨hk, hd⟩)
    rw [hke, hke]

theorem replaceKey_injOn (hfr : DerivedFresh rt ids) (hp : parentID ∈ ids) {l : MemberKey}
    (hk : k.1 = .group → k.2 ∈ ids) (hl : l.1 = .group → l.2 ∈ ids)
    (h : replaceKey rt ctx fuel parentID k = replaceKey rt ctx fuel parentID l) : k = l := by
  have hc (m : MemberKey) : (m.1 = .group ∧ derives rt ctx fuel parentID m.2 = true) ∨
      replaceKey rt ctx fuel parentID m = m := by
    by_cases hm : m.1 = .group ∧ derives rt ctx fuel parentID m.2 = true
    · exact .inl hm
    · exact .inr (replaceKey_of_not_derives (fun hk => by simpa using fun hd => hm ⟨hk, hd⟩))
  -- a replaced and an unreplaced key differ: the one names no group
  have hmx (m n : MemberKey) (hm : m.1 = .group ∧ derives rt ctx fuel parentID m.2 = true)
      (hmi : m.1 = .group → m.2 ∈ ids) (hni : n.1 = .group → n.2 ∈ ids)
      (hmn : replaceKey rt ctx fuel parentID m = n) : False := by
    rw [replaceKey_of_derives hm.1 hm.2] at hmn
    subst hmn
    exact hfr.notGroup parentID hp m.2 (hmi hm.1) (hni rfl)
  rcases hc k with hk' | hk' <;> rcases hc l with hl' | hl'
  · rw [replaceKey_of_derives hk'.1 hk'.2, replaceKey_of_derives hl'.1 hl'.2] at h
    have heq := (hfr.injective _ hp _ (hk hk'.1) _ hp _ (hl hl'.1) (Prod.mk.inj h).2).2
    exact Prod.ext (hk'.1.trans hl'.1.symm) heq
  · exact (hmx k l hk' hk hl (h.trans hl')).elim
  · exact (hmx l k hl' hl hk (h.symm.trans hk')).elim
  · rwa [hk', hl'] at h

end

end ClashSubParser
