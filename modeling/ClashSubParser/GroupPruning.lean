import ClashSubParser.Digest
import ClashSubParser.FixpointLoop

/-! `PruneUnavailableOptionalGroups`: which empty groups a pass omits, and what the passes together
leave of a snapshot. -/
namespace ClashSubParser

open List FixpointLoop

def trimmedKey (s : String) : Option String :=
  if Strings.trimSpace s = "" then none else some (Strings.trimSpace s)

theorem trimmedKey_eq_some {s k : String} : trimmedKey s = some k ↔ Strings.trimSpace s = k ∧ k ≠ "" := by
  rw [trimmedKey]
  split_ifs with h
  · simp only [false_iff, not_and, not_not]
    exact fun hk => hk ▸ h
  · simp only [Option.some.injEq, iff_self_and]
    exact fun hk => hk ▸ h

def ResolvedGroupMember.refersTo (m : ResolvedGroupMember) (group : ResolvedGroup) : Bool :=
  trimmedKey m.targetID = some group.id || trimmedKey m.displayName = some group.name

def remainingMembers (parent group : ResolvedGroup) : ℕ :=
  (parent.members.filter (fun m => !m.refersTo group)).length

section

variable (snapshot : ResolvedPolicySnapshot)

def ruleTargetGroupIDs : List String :=
  snapshot.rules.filterMap (fun rule => trimmedKey rule.targetGroupID)

def ruleTargetGroupNames : List String :=
  snapshot.rules.filterMap (fun rule => trimmedKey rule.targetGroupName)

/-- `parentRefs[key]`: a group once for each field of a group member that holds the key. -/
def parentRefs (key : String) : List ResolvedGroup :=
  snapshot.groups.flatMap (fun group => group.members.flatMap (fun member =>
    if member.kind = .group then
      (if trimmedKey member.targetID = some key then [group] else []) ++
        (if trimmedKey member.displayName = some key then [group] else [])
    else []))

variable (group : ResolvedGroup)

def allParents : List ResolvedGroup :=
  (parentRefs snapshot group.name).foldl
    (fun parents p => if parents.any (·.id = p.id) then parents else parents ++ [p])
    (parentRefs snapshot group.id)

def canPrune : Bool :=
  (allParents snapshot group).all (fun parent =>
    parent.groupType = .select && remainingMembers parent group ≠ 0)

def prunable : Bool :=
  !(group.usesEmptyPass || !group.members.isEmpty) &&
    !((ruleTargetGroupIDs snapshot).contains group.id ||
      (ruleTargetGroupNames snapshot).contains group.name) &&
    canPrune snapshot group

def prunedGroups : List ResolvedGroup := snapshot.groups.filter (prunable snapshot)

def pruneGroupIDs : List String := ((prunedGroups snapshot).map (·.id)).filter (· ≠ "")

def pruneGroupNames : List String := ((prunedGroups snapshot).map (·.name)).filter (· ≠ "")

def prunedDiagnostic : Diagnostic :=
  let parentNames := sortedSet ((allParents snapshot group).map (·.name))
  { severity := .warning
    code := "optional_group_pruned"
    message :=
      if 0 < parentNames.length then
        "WARP暂不可用，本次备选移除，用户设置保留 (group " ++ group.name ++ " pruned from " ++
          toString parentNames.length ++ " selector references: " ++ Strings.join parentNames ", " ++
          "; reason: disabled-source)"
      else
        "group " ++ group.name ++ " is unused and has 0 active members; safely omitted from rendered " ++
          "configuration (reason: unused-empty)"
    target := group.name
    reason := "disabled-source" }

def keptMember (member : ResolvedGroupMember) : Bool :=
  !((trimmedKey member.targetID).any (pruneGroupIDs snapshot).contains ||
    (trimmedKey member.displayName).any (pruneGroupNames snapshot).contains)

def keptGroups : List ResolvedGroup :=
  (snapshot.groups.filter (fun group => !((pruneGroupIDs snapshot).contains group.id ||
    (pruneGroupNames snapshot).contains group.name))).map
    (fun group => { group with members := group.members.filter (keptMember snapshot) })

/-- The pruned snapshot and its diagnostics, or nothing where no group is pruned. -/
def pruneOnePass : Option (ResolvedPolicySnapshot × List Diagnostic) :=
  if pruneGroupIDs snapshot = [] ∧ pruneGroupNames snapshot = [] then none
  else
    let diagnostics := (prunedGroups snapshot).map (prunedDiagnostic snapshot)
    some ({ snapshot with
      groups := keptGroups snapshot
      diagnostics := snapshot.diagnostics ++ diagnostics }, diagnostics)

def pruneRound (st : ResolvedPolicySnapshot × List Diagnostic) :
    Option (ResolvedPolicySnapshot × List Diagnostic) :=
  (pruneOnePass st.1).map (fun r => (r.1, st.2 ++ r.2))

def pruneUnavailableOptionalGroups : ResolvedPolicySnapshot × List Diagnostic :=
  let r := loop pruneRound (snapshot.groups.length+1) (snapshot, [])
  if r.2.isEmpty then (snapshot, []) else r

def prunePass : Option ResolvedPolicySnapshot := (pruneOnePass snapshot).map (·.1)

def beforeRound (k : ℕ) : ResolvedPolicySnapshot := (advance prunePass)^[k] snapshot

def prunedBefore (k : ℕ) : List ResolvedGroup :=
  (List.range k).flatMap (fun i => prunedGroups (beforeRound snapshot i))

end

def ResolvedGroup.goesWith (g e : ResolvedGroup) : Bool :=
  (e.id ≠ "" && g.id = e.id) || (e.name ≠ "" && g.name = e.name)

def without (pruned : List ResolvedGroup) (groups : List ResolvedGroup) : List ResolvedGroup :=
  (groups.filter (fun g => !pruned.any g.goesWith)).map
    (fun g => { g with members := g.members.filter (fun m => !pruned.any m.refersTo) })

theorem mem_without {pruned groups : List ResolvedGroup} {g' : ResolvedGroup} :
    g' ∈ without pruned groups ↔ ∃ g ∈ groups, pruned.any g.goesWith = false ∧
      { g with members := g.members.filter (fun m => !pruned.any m.refersTo) } = g' := by
  simp [without, and_assoc]

theorem without_without (p q groups : List ResolvedGroup) :
    without q (without p groups) = without (p ++ q) groups := by
  rw [without, without, without, filter_map, filter_filter, map_map]
  congr 1
  · funext g
    simp only [Function.comp_apply, filter_filter, any_append, Bool.not_or,
      ResolvedGroup.mk.injEq, true_and, and_true]
    congr 1
    funext m
    exact Bool.and_comm _ _
  · congr 1
    funext g
    rw [any_append, Bool.not_or, Bool.and_comm]
    rfl

@[simp] theorem without_nil (groups : List ResolvedGroup) : without [] groups = groups := by
  simp [without]

theorem any_or_any {α : Type} (l : List α) (p q : α → Bool) : (l.any p || l.any q) = l.any (fun a => p a || q a) := by
  induction l with
  | nil => rfl
  | cons a l ih =>
    rw [any_cons, any_cons, any_cons, ← ih]
    ac_rfl

section

variable {snapshot : ResolvedPolicySnapshot}

theorem mem_prunedGroups {e : ResolvedGroup} :
    e ∈ prunedGroups snapshot ↔ e ∈ snapshot.groups ∧ prunable snapshot e = true :=
  mem_filter

theorem contains_prunedKeys (field : ResolvedGroup → String) (k : String) :
    (((prunedGroups snapshot).map field).filter (· ≠ "")).contains k =
      (prunedGroups snapshot).any (fun e => field e ≠ "" && k = field e) := by
  rw [Bool.eq_iff_iff]
  simp only [contains_iff_mem, mem_filter, mem_map, any_eq_true, Bool.and_eq_true, decide_eq_true_eq]
  constructor
  · rintro ⟨⟨e, he, hek⟩, hk⟩
    exact ⟨e, he, hek ▸ hk, hek.symm⟩
  · rintro ⟨e, he, hk, hek⟩
    exact ⟨⟨e, he, hek.symm⟩, hek ▸ hk⟩

theorem keptMember_eq (m : ResolvedGroupMember) :
    keptMember snapshot m = !(prunedGroups snapshot).any m.refersTo := by
  have hke (field : ResolvedGroup → String) (s : String) :
      (trimmedKey s).any (((prunedGroups snapshot).map field).filter (· ≠ "")).contains =
        (prunedGroups snapshot).any (fun e => trimmedKey s = some (field e)) := by
    cases hs : trimmedKey s with
    | none => simp
    | some k =>
      have hk : k ≠ "" := (trimmedKey_eq_some.mp hs).2
      rw [Option.any_some, contains_prunedKeys]
      refine congrArg (prunedGroups snapshot).any (funext fun e => ?_)
      by_cases he : k = field e
      · simp [← he, hk]
      · simp [he]
  rw [keptMember, pruneGroupIDs, pruneGroupNames, hke, hke, any_or_any]
  rfl

theorem keptGroups_eq : keptGroups snapshot = without (prunedGroups snapshot) snapshot.groups := by
  have hgr (g : ResolvedGroup) : (!((pruneGroupIDs snapshot).contains g.id ||
      (pruneGroupNames snapshot).contains g.name)) = !(prunedGroups snapshot).any g.goesWith := by
    rw [pruneGroupIDs, pruneGroupNames, contains_prunedKeys, contains_prunedKeys, any_or_any]
    rfl
  have hmb : keptMember snapshot = fun m => !(prunedGroups snapshot).any m.refersTo :=
    funext keptMember_eq
  rw [keptGroups, without, hmb]
  simp only [hgr]

theorem prunePass_eq_none_iff : prunePass snapshot = none ↔ ∀ e ∈ prunedGroups snapshot, e.id = "" ∧ e.name = "" := by
  rw [prunePass, Option.map_eq_none_iff, pruneOnePass]
  simp only [ite_eq_left_iff, reduceCtorEq, imp_false, not_not, pruneGroupIDs, pruneGroupNames,
    filter_eq_nil_iff, mem_map, forall_exists_index, and_imp, forall_apply_eq_imp_iff₂,
    decide_eq_true_eq]
  exact ⟨fun h e he => ⟨h.1 e he, h.2 e he⟩, fun h => ⟨fun e he => (h e he).1, fun e he => (h e he).2⟩⟩

theorem prunePass_some {s' : ResolvedPolicySnapshot} (h : prunePass snapshot = some s') :
    s'.groups = without (prunedGroups snapshot) snapshot.groups ∧
      s'.nodes = snapshot.nodes ∧ s'.rules = snapshot.rules := by
  rw [prunePass, Option.map_eq_some_iff] at h
  obtain ⟨r, hr, rfl⟩ := h
  rw [pruneOnePass] at hr
  split_ifs at hr
  rw [← Option.some.inj hr]
  exact ⟨keptGroups_eq, rfl, rfl⟩

theorem without_of_unnamed {pruned : List ResolvedGroup} (h : ∀ e ∈ pruned, e.id = "" ∧ e.name = "")
    (groups : List ResolvedGroup) : without pruned groups = groups := by
  have hgr (g : ResolvedGroup) : pruned.any g.goesWith = false := by
    rw [any_eq_false]
    intro e he
    simp [ResolvedGroup.goesWith, h e he]
  have hmb (m : ResolvedGroupMember) : pruned.any m.refersTo = false := by
    rw [any_eq_false]
    intro e he
    simp [ResolvedGroupMember.refersTo, h e he, trimmedKey_eq_some]
  simp [without, hgr, hmb]

theorem advance_groups (s : ResolvedPolicySnapshot) :
    (advance prunePass s).groups = without (prunedGroups s) s.groups := by
  cases h : prunePass s with
  | none =>
    rw [advance_of_none h, without_of_unnamed (prunePass_eq_none_iff.mp h)]
  | some s' =>
    rw [advance_of_some h]
    exact (prunePass_some h).1

theorem length_lt_of_prunePass {s' : ResolvedPolicySnapshot} (h : prunePass snapshot = some s') :
    s'.groups.length < snapshot.groups.length := by
  have hs : prunePass snapshot ≠ none := by simp [h]
  rw [ne_eq, prunePass_eq_none_iff] at hs
  push Not at hs
  obtain ⟨e, he, hk⟩ := hs
  -- the pass omits the pruned group itself
  have hg : (prunedGroups snapshot).any e.goesWith = true := by
    rw [any_eq_true]
    refine ⟨e, he, ?_⟩
    by_cases hid : e.id = ""
    · simp [ResolvedGroup.goesWith, hk hid]
    · simp [ResolvedGroup.goesWith, hid]
  rw [(prunePass_some h).1, without, length_map]
  exact length_filter_lt_length_iff_exists.mpr
    ⟨e, (mem_prunedGroups.mp he).1, by simp [hg]⟩

end

section

variable (snapshot : ResolvedPolicySnapshot)

theorem beforeRound_succ (k : ℕ) : beforeRound snapshot (k+1) = advance prunePass (beforeRound snapshot k) :=
  Function.iterate_succ_apply' _ _ _

theorem beforeRound_nodes_rules (k : ℕ) :
    (beforeRound snapshot k).nodes = snapshot.nodes ∧ (beforeRound snapshot k).rules = snapshot.rules := by
  refine iterate_induction (P := fun s : ResolvedPolicySnapshot =>
    s.nodes = snapshot.nodes ∧ s.rules = snapshot.rules) ?_ ⟨rfl, rfl⟩ k
  intro s s' hs hp
  obtain ⟨-, hn, hr⟩ := prunePass_some hp
  exact ⟨hn.trans hs.1, hr.trans hs.2⟩

theorem beforeRound_groups (k : ℕ) :
    (beforeRound snapshot k).groups = without (prunedBefore snapshot k) snapshot.groups := by
  induction k with
  | zero => exact (without_nil _).symm
  | succ k ih =>
    have hpr : prunedBefore snapshot (k+1) =
        prunedBefore snapshot k ++ prunedGroups (beforeRound snapshot k) := by
      rw [prunedBefore, range_succ, flatMap_append, flatMap_singleton]
      rfl
    rw [beforeRound_succ, advance_groups, ih, without_without, hpr]

theorem prunePass_last_round : prunePass (beforeRound snapshot (snapshot.groups.length+1)) = none :=
  pass_iterate_eq_none (μ := fun s => s.groups.length) (fun _ _ => length_lt_of_prunePass) _ _
    (Nat.le_succ _)

theorem pruneRound_fst (st : ResolvedPolicySnapshot × List Diagnostic) :
    (advance pruneRound st).1 = advance prunePass st.1 := by
  rw [advance, advance, pruneRound, prunePass]
  cases pruneOnePass st.1 with
  | none | some r => rfl

theorem diagnostics_ne_nil_of_pruneOnePass {r : ResolvedPolicySnapshot × List Diagnostic}
    (h : pruneOnePass snapshot = some r) : r.2 ≠ [] := by
  intro hn
  have hno : prunePass snapshot = none := by
    rw [prunePass_eq_none_iff]
    rw [pruneOnePass] at h
    split_ifs at h
    rw [← Option.some.inj h] at hn
    rw [map_eq_nil_iff.mp hn]
    simp
  rw [prunePass, h] at hno
  contradiction

theorem pruneUnavailableOptionalGroups_fst :
    (pruneUnavailableOptionalGroups snapshot).1 = beforeRound snapshot (snapshot.groups.length+1) := by
  have hs : ∀ n, ((advance pruneRound)^[n] (snapshot, [])).1 = beforeRound snapshot n := by
    intro n
    exact (Function.Semiconj.iterate_right (f := Prod.fst) pruneRound_fst n) (snapshot, [])
  have hq : ∀ n, ((advance pruneRound)^[n] (snapshot, [])).2 = [] →
      ((advance pruneRound)^[n] (snapshot, [])).1 = snapshot := by
    refine iterate_induction (P := fun st : ResolvedPolicySnapshot × List Diagnostic =>
      st.2 = [] → st.1 = snapshot) ?_ (fun _ => rfl)
    intro st st' _ hro hn
    rw [pruneRound, Option.map_eq_some_iff] at hro
    obtain ⟨r, hr, rfl⟩ := hro
    exact absurd (append_eq_nil_iff.mp hn).2 (diagnostics_ne_nil_of_pruneOnePass _ hr)
  rw [pruneUnavailableOptionalGroups, loop_eq_iterate]
  split_ifs with hn
  · rw [← hs, hq _ (isEmpty_iff.mp hn)]
  · exact hs _

end

/-- Where no pass changes anything, pruning returns the snapshot it is given and reports nothing. -/
theorem pruneUnavailableOptionalGroups_of_none {snapshot : ResolvedPolicySnapshot}
    (h : prunePass snapshot = none) : pruneUnavailableOptionalGroups snapshot = (snapshot, []) := by
  have hr : pruneRound (snapshot, []) = none := by
    rw [prunePass, Option.map_eq_none_iff] at h
    rw [pruneRound, h, Option.map_none]
  rw [pruneUnavailableOptionalGroups, loop_eq_iterate, iterate_of_none hr]
  rfl

end ClashSubParser
