import ClashSubParser.MemberUniqueness
import ClashSubParser.RepositionedInput

/-! Whether the order in which rules and sources are written down can be seen in the outcome of `Resolve`. -/
namespace ClashSubParser

open Function List MemoRecursion Reachability StableSort Strconv

section

variable (rt : Runtime) (ctx : GroupContext) (depth : ℕ)

/-- The nodes a group ends up with, by plain recursion: its own, and for each child those that survive
a reference that drops some, or all of the child's. -/
def finalNodes : ℕ → String → List String
  | 0, _ => []
  | n+1, gid => nodeTargets (itemsOf rt ctx depth gid) ++
      (groupTargets (itemsOf rt ctx depth gid)).flatMap (fun c =>
        if derives rt ctx depth gid c then nodeTargets (survivors rt ctx depth gid c) else finalNodes n c)

def LeftEmpty (gid : String) : Prop :=
  finalNodes rt ctx depth depth gid = [] ∧ ∀ item ∈ itemsOf rt ctx depth gid, item.kind ≠ .builtin

instance (gid : String) : Decidable (LeftEmpty rt ctx depth gid) :=
  inferInstanceAs (Decidable (_ ∧ _))

end

section

variable {rt : Runtime} {ctx : GroupContext} {groups : List NodeGroup} {rank : String → ℕ}

theorem mem_finalNodes (h : ctx.Ranked (groups.length+1) rank) (hu : UnitedFacts rt ctx groups) :
    ∀ (n : ℕ) (gid : String), rank gid < n → gid ∈ (firstResolved rt ctx groups).map (·.id) → ∀ x,
      x ∈ collectNodes (unitedGroups rt ctx groups) gid ↔ x ∈ finalNodes rt ctx (groups.length+1) n gid := by
  intro n
  induction n with
  | zero => exact fun gid hlt => absurd hlt (Nat.not_lt_zero _)
  | succ n ih =>
    intro gid hlt hgi x
    rw [hu.mem_collectNodes hgi, finalNodes, mem_append, mem_flatMap]
    refine or_congr_right (exists_congr fun c => and_congr_right fun hc => ?_)
    cases derives rt ctx (groups.length+1) gid c with
    | true => rfl
    | false =>
      obtain ⟨g, hg⟩ := (hu.first.ids gid).mp hgi
      have hl := rank_lt_of_mem_groupTargets h hg hc
      exact ih c (by omega) ((hu.first.ids c).mpr (exists_of_mem_groupTargets hc)) x

theorem kind_replaceKey (depth : ℕ) (p : String) (k : MemberKey) : (replaceKey rt ctx depth p k).1 = k.1 := by
  rw [replaceKey]
  split_ifs with hk
  · exact hk.symm
  · rfl

theorem report_iff (fallback noNodes builtin noMembers : Bool)
    (h : noMembers = true → noNodes = true ∧ builtin = false) :
    (!(fallback && (fallback && noNodes && !builtin) && noNodes) &&
      (noMembers || !(!noNodes || builtin))) = true ↔ fallback = false ∧ noNodes = true ∧ builtin = false := by
  revert fallback noNodes builtin noMembers
  decide

/-- A resolved group of the input is reported exactly when nothing is left and it may not be passed. -/
theorem reportsEmpty_iff (h : ctx.Ranked (groups.length+1) rank) (hu : UnitedFacts rt ctx groups)
    {rg : ResolvedGroup} (hrg : rg ∈ firstResolved rt ctx groups) :
    reportsEmpty (recollect (unitedGroups rt ctx groups) (withSlices (derivedState rt ctx groups).slices rg)) = true ↔
      rg.emptyFallbackPass = false ∧ LeftEmpty rt ctx (groups.length+1) rg.id := by
  have hid : rg.id ∈ (firstResolved rt ctx groups).map (·.id) := mem_map_of_mem hrg
  let members := ((derivedState rt ctx groups).slices rg.id).members
  have hk : members.map (·.key) =
      ((itemsOf rt ctx (groups.length+1) rg.id).map (·.key)).map (replaceKey rt ctx (groups.length+1) rg.id) := by
    have hr := hu.run.keys rg.id hid
    rwa [if_pos (mem_reverse.mpr hid)] at hr
  have hns : (sortedSet (collectNodes (unitedGroups rt ctx groups) rg.id)).isEmpty = true ↔
      finalNodes rt ctx (groups.length+1) (groups.length+1) rg.id = [] := by
    rw [List.isEmpty_iff]
    simp only [eq_nil_iff_forall_not_mem, mem_sortedSet, mem_finalNodes h hu _ rg.id (h.bound rg.id) hid]
  have hks : members.map (·.kind) = (itemsOf rt ctx (groups.length+1) rg.id).map (·.kind) := by
    have hf := congrArg (List.map Prod.fst) hk
    simpa only [map_map, comp_def, kind_replaceKey, ResolvedItem.key, ResolvedGroupMember.key] using hf
  have hbi : members.any (·.kind = .builtin) = false ↔
      ∀ item ∈ itemsOf rt ctx (groups.length+1) rg.id, item.kind ≠ .builtin := by
    have ha : members.any (·.kind = .builtin) =
        (itemsOf rt ctx (groups.length+1) rg.id).any (·.kind = .builtin) := by
      have hm := congrArg (List.any · (· = MemberKind.builtin)) hks
      simpa only [any_map, comp_def] using hm
    rw [ha, any_eq_false]
    simp only [decide_eq_true_eq, ne_eq]
  -- a group without members has no nodes and no builtin
  have hn : members.isEmpty = true →
      (sortedSet (collectNodes (unitedGroups rt ctx groups) rg.id)).isEmpty = true ∧
      members.any (·.kind = .builtin) = false := by
    intro he
    rw [List.isEmpty_iff] at he
    have hi : itemsOf rt ctx (groups.length+1) rg.id = [] := by
      rw [he, map_nil] at hks
      exact map_eq_nil_iff.mp hks.symm
    refine ⟨hns.mpr ?_, by rw [he]; rfl⟩
    rw [finalNodes, hi]
    rfl
  rw [LeftEmpty, ← hns, ← hbi]
  exact report_iff _ _ _ _ hn

end

section

variable {rt : Runtime}

/-- How the diagnostic of an empty group quotes the rule that leads to it. -/
def routedExpression (rt : Runtime) (rules : List PolicyRule) (gid : String) : Option String :=
  (routedRule rules gid).map (fun rule => Strconv.quote rt rule.expression)

theorem exists_emptyRoutedMessage (rt : Runtime) (noNodes filtered : Bool) :
    ∃ (front : ResolvedGroup → List Char) (back : List Char), ∀ g rule,
      (emptyRoutedMessage rt noNodes filtered g rule).toList =
        front g ++ ((quote rt rule.expression).toList ++ back) := by
  let about (g : ResolvedGroup) : List Char :=
    ("routed group " ++ quote rt g.name ++ " (" ++ g.id ++ ") referenced by rule ").toList
  have ha (g : ResolvedGroup) (rule : PolicyRule) (tail : List Char) :
      ("routed group " ++ quote rt g.name ++ " (" ++ g.id ++ ") referenced by rule " ++
        quote rt rule.expression ++ " has 0 available nodes").toList ++ tail =
      about g ++ ((quote rt rule.expression).toList ++ (" has 0 available nodes".toList ++ tail)) := by
    simp only [about, String.toList_append, List.append_assoc]
  cases noNodes with
  | true =>
    refine ⟨fun g => "current effective inventory is empty; ".toList ++ about g, " has 0 available nodes".toList, ?_⟩
    intro g rule
    have ht := ha g rule []
    simp only [append_nil] at ht
    rw [emptyRoutedMessage, if_pos rfl, String.toList_append, ht, List.append_assoc]
  | false =>
    cases filtered with
    | true =>
      refine ⟨about, " has 0 available nodes".toList ++ " after filtering".toList, fun g rule => ?_⟩
      rw [emptyRoutedMessage, if_neg (by simp), if_pos rfl, String.toList_append, ha]
    | false =>
      refine ⟨about, " has 0 available nodes".toList, fun g rule => ?_⟩
      have ht := ha g rule []
      simp only [append_nil] at ht
      rw [emptyRoutedMessage, if_neg (by simp), if_neg (by simp), ht]

theorem routedRule_isSome_perm {rules rules' : List PolicyRule} (h : rules.Perm rules') (gid : String) :
    (routedRule rules gid).isSome = (routedRule rules' gid).isSome := by
  rw [Bool.eq_iff_iff, routedRule, routedRule, mapOf_isSome_iff, mapOf_isSome_iff]
  simp only [h.mem_iff]

theorem sum_map_add_const {α : Type} (f : α → ℕ) (c : ℕ) (l : List α) :
    (l.map (fun x => f x + c)).sum = (l.map f).sum + l.length * c := by
  induction l with
  | nil => simp
  | cons x l ih =>
    simp only [map_cons, sum_cons, length_cons, ih, Nat.succ_mul]
    omega

/-- Where the diagnostics of the empty groups are the same up to order, they quote the same rules. -/
theorem routedExpression_eq_of_perm {rules rules' : List PolicyRule} {noNodes filtered : Bool}
    (hrl : rules.Perm rules') {empty : List ResolvedGroup}
    (h : (empty.map (emptyDiagnostic rt noNodes filtered rules)).Perm
      (empty.map (emptyDiagnostic rt noNodes filtered rules'))) {g : ResolvedGroup} (hg : g ∈ empty) :
    routedExpression rt rules g.id = routedExpression rt rules' g.id := by
  have hs := routedRule_isSome_perm hrl g.id
  cases hr : routedRule rules g.id with
  | none =>
    have hn : routedRule rules' g.id = none := by
      rw [hr] at hs
      exact Option.not_isSome_iff_eq_none.mp (by simp [← hs])
    rw [routedExpression, routedExpression, hr, hn]
  | some r =>
    obtain ⟨r', hr'⟩ : ∃ r', routedRule rules' g.id = some r' := by
      rw [hr] at hs
      exact Option.isSome_iff_exists.mp hs.symm
    rw [routedExpression, routedExpression, hr, hr', Option.map_some, Option.map_some]
    obtain ⟨front, back, hms⟩ := exists_emptyRoutedMessage rt noNodes filtered
    let q := (quote rt r.expression).toList
    let q' := (quote rt r'.expression).toList
    -- the messages about this ID
    let same := empty.filter (·.id = g.id)
    have hm (rs : List PolicyRule) (rule : PolicyRule) (hru : routedRule rs g.id = some rule) :
        ((empty.map (emptyDiagnostic rt noNodes filtered rs)).filter (·.target = g.id)).map
          (·.message.toList) = same.map (fun x => front x ++ ((quote rt rule.expression).toList ++ back)) := by
      have htg (x : ResolvedGroup) : (emptyDiagnostic rt noNodes filtered rs x).target = x.id := by
        unfold emptyDiagnostic
        cases routedRule rs x.id <;> rfl
      rw [filter_map, map_map]
      simp only [comp_def, htg]
      apply map_congr_left
      intro x hx
      have hxi : x.id = g.id := by simpa using (mem_filter.mp hx).2
      rw [emptyDiagnostic, hxi, hru, ← hms]
    have hp : (same.map (fun x => front x ++ (q ++ back))).Perm (same.map (fun x => front x ++ (q' ++ back))) := by
      rw [← hm rules r hr, ← hm rules' r' hr']
      exact (h.filter _).map _
    have hme : g ∈ same := mem_filter.mpr ⟨hg, by simp⟩
    -- their total lengths agree, so the two quotations are equally long
    have hl : q.length = q'.length := by
      have hsu := (hp.map List.length).sum_nat
      simp only [map_map, comp_def, length_append, sum_map_add_const] at hsu
      have hpo : 0 < same.length := List.length_pos_of_mem hme
      have hmu : same.length * (q.length + back.length) = same.length * (q'.length + back.length) := by omega
      have ha := Nat.eq_of_mul_eq_mul_left hpo hmu
      omega
    obtain ⟨x, -, hx⟩ := mem_map.mp (hp.mem_iff.mp (mem_map_of_mem hme))
    have hb : q' ++ back = q ++ back := by
      refine (append_inj' hx ?_).2
      rw [length_append, length_append, hl]
    have hq : q = q' := (append_cancel_right hb).symm
    rw [String.toList_inj.mp hq]

end

section

variable {rt : Runtime} {ctx : GroupContext} {groups : List NodeGroup} {rank : String → ℕ}

theorem emptyDiagnostic_eq {rules rules' : List PolicyRule} {g : ResolvedGroup}
    (h : routedExpression rt rules g.id = routedExpression rt rules' g.id) (noNodes filtered : Bool) :
    emptyDiagnostic rt noNodes filtered rules g = emptyDiagnostic rt noNodes filtered rules' g := by
  unfold routedExpression at h
  rw [emptyDiagnostic, emptyDiagnostic]
  cases hr : routedRule rules g.id with
  | none =>
    rw [hr] at h
    rw [Option.map_eq_none_iff.mp h.symm]
  | some r =>
    rw [hr, Option.map_some] at h
    obtain ⟨r', hr', hq⟩ := Option.map_eq_some_iff.mp h.symm
    rw [hr']
    simp only [emptyRoutedMessage, hq]

/-- The diagnostics of the empty groups are the same exactly when those groups have rules with the same
expressions: a derived group has none. -/
theorem emptyDiagnostics_perm_iff (h : ctx.Ranked (groups.length+1) rank) (hu : UnitedFacts rt ctx groups)
    {rules rules' : List PolicyRule} (hpe : rules.Perm rules')
    (htg : ∀ rule ∈ rules, groups ≠ [] → rule.targetGroupID ∈ groupIDs groups)
    (noNodes anyFilterDefined : Bool) :
    let final := (unitedGroups rt ctx groups).map (recollect (unitedGroups rt ctx groups))
    let diagnostics := emptyDiagnostics rt noNodes anyFilterDefined
    ((diagnostics rules final).Perm (diagnostics rules' final) → ∀ g ∈ groups, g.emptyFallbackPass = false →
      LeftEmpty rt ctx (groups.length+1) g.id → routedExpression rt rules g.id = routedExpression rt rules' g.id) ∧
    ((∀ g ∈ groups, g.emptyFallbackPass = false → LeftEmpty rt ctx (groups.length+1) g.id →
      routedExpression rt rules g.id = routedExpression rt rules' g.id) →
      diagnostics rules final = diagnostics rules' final) := by
  intro final diagnostics
  constructor
  · intro hd g hg hf hl
    obtain ⟨i, hrg⟩ := @exists_firstResolved rt ctx groups rank h g hg
    have hr := (reportsEmpty_iff h hu hrg).mpr ⟨hf, hl⟩
    have hm : withSlices (derivedState rt ctx groups).slices _ ∈ unitedGroups rt ctx groups :=
      mem_append_left _ (mem_map_of_mem hrg)
    have hem := mem_filter.mpr
      ⟨mem_map_of_mem (f := recollect (unitedGroups rt ctx groups)) hm, hr⟩
    exact routedExpression_eq_of_perm hpe hd hem
  · intro he
    apply map_congr_left
    intro x hx
    obtain ⟨hfi, hr⟩ := mem_filter.mp hx
    obtain ⟨x₀, hx₀, rfl⟩ := mem_map.mp hfi
    apply emptyDiagnostic_eq
    rcases mem_append.mp hx₀ with hx₀ | hx₀
    · obtain ⟨rg, hrg, rfl⟩ := mem_map.mp hx₀
      obtain ⟨hf, hl⟩ := (reportsEmpty_iff h hu hrg).mp hr
      obtain ⟨g, hg, k, rfl⟩ := mem_resolvedList h hrg
      exact he g ((mem_stableSort _ _ _).mp hg) hf hl
    · -- no rule leads to a derived group
      obtain ⟨p, hp, c, hc, hfo⟩ := hu.run.origin x₀ hx₀
      have hci := (hu.first.ids c).mpr (exists_of_mem_groupTargets hc)
      have hfr := hu.fresh.notGroup p hp c hci
      rw [← hfo.id, firstResolved_ids h] at hfr
      have hgs : groups ≠ [] := by
        rintro rfl
        rw [firstResolved_ids h] at hp
        simp [groupIDs] at hp
      have hn : routedRule rules x₀.id = none := by
        rw [← Option.not_isSome_iff_eq_none, routedRule, mapOf_isSome_iff]
        rintro ⟨rule, hru, ht⟩
        exact hfr (ht ▸ htg rule hru hgs)
      have hn' : routedRule rules' x₀.id = none := by
        rw [← Option.not_isSome_iff_eq_none, ← routedRule_isSome_perm hpe, hn]
        simp
      change routedExpression rt rules x₀.id = routedExpression rt rules' x₀.id
      rw [routedExpression, routedExpression, hn, hn']

end

/-- The groups left empty are named with the same rule in both inputs. -/
def SameRoutedExpressions (rt : Runtime) (clock : Clock) (i j : ResolveInput) : Prop :=
  ∀ g ∈ (normalizeInput i).groups, g.emptyFallbackPass = false →
    LeftEmpty rt (resolveContext rt clock (normalizeInput i)) ((normalizeInput i).groups.length+1) g.id →
    routedExpression rt i.policyRules g.id = routedExpression rt j.policyRules g.id

/-- Both calls fail, or both return the same groups, counts, rules, diagnostics and input digest. -/
def SamePolicy (r s : Except GoError ResolvedPolicySnapshot) : Prop :=
  match r, s with
  | .error _, .error _ => True
  | .ok a, .ok b => a.groups = b.groups ∧ a.filterCounts = b.filterCounts ∧ a.rules = b.rules ∧
      a.diagnostics = b.diagnostics ∧ a.inputDigest = b.inputDigest
  | _, _ => False

section

variable {rt : Runtime} {enc : Encoder} {clock clock' : Clock} {i j : ResolveInput}

theorem Repositioned.allDiagnostics_eq_iff (h : Repositioned i j) (hc : i.asOf.IsZero → clock' = clock)
    (ho : SameSourceOrder i j) (hv : validateInput rt (normalizeInput i) = .ok ())
    (hfr : DerivedFresh rt (groupIDs i.groups)) :
    allDiagnostics rt clock (normalizeInput i) = allDiagnostics rt clock' (normalizeInput j) ↔
      SameRoutedExpressions rt clock i j := by
  let ctx := resolveContext rt clock (normalizeInput i)
  let groups := (normalizeInput i).groups
  obtain ⟨rank, hr⟩ := @exists_ranked_fuel rt clock i hv
  rw [← groupIDs_normalizeInput] at hfr
  have hu : UnitedFacts rt ctx groups := unitedFacts hr rfl hfr
  obtain ⟨ht, -⟩ := validateInput_ok_iff.mp hv
  obtain ⟨-, -, hrl⟩ := validatePolicyTopology_ok_iff.mp ht
  have htg : ∀ rule ∈ i.policyRules, groups ≠ [] → rule.targetGroupID ∈ groupIDs groups := by
    intro rule hru hne
    exact targetGroupID_mem hrl hru (fun hn => hne (map_eq_nil_iff.mp hn))
  have he := emptyDiagnostics_perm_iff hr hu h.policyRules.perm htg
    ctx.sortedGlobalNodes.isEmpty (anyFilterDefined (normalizeInput i))
  -- everything before the diagnostics of the empty groups is the same
  let front := (admission rt (normalizeInput i)).diagnostics ++ (riskAdmission (normalizeInput i)).2 ++
    (globalExcludedNodes rt clock (normalizeInput i)).map (globalFilterDiagnostic rt clock (normalizeInput i))
  let final := (unitedGroups rt ctx groups).map (recollect (unitedGroups rt ctx groups))
  let empty (rules : List PolicyRule) :=
    emptyDiagnostics rt ctx.sortedGlobalNodes.isEmpty (anyFilterDefined (normalizeInput i)) rules final
  have hi : allDiagnostics rt clock (normalizeInput i) =
      stableSort diagnosticLess (front ++ ((derivedState rt ctx groups).memo.log ++ empty i.policyRules)) := rfl
  have hj : allDiagnostics rt clock' (normalizeInput j) =
      stableSort diagnosticLess (front ++ ((derivedState rt ctx groups).memo.log ++ empty j.policyRules)) := by
    have hri : riskAdmission (normalizeInput j) = riskAdmission (normalizeInput i) := by
      rw [h.rest]
      rfl
    have hgl : globalFilterDiagnostic rt clock' (normalizeInput j) =
        globalFilterDiagnostic rt clock (normalizeInput i) := by
      funext n
      rw [globalFilterDiagnostic, globalFilterDiagnostic, h.globalVerdict_eq hc]
    rw [allDiagnostics, h.admission_eq, hri, hgl, globalExcludedNodes, h.admission_eq,
      h.globalVerdict_eq hc, h.groupResults_eq hc ho]
    rfl
  rw [hi, hj]
  constructor
  · intro heq
    apply he.1
    have hp := (stableSort_perm diagnosticLess _).symm.trans (heq ▸ stableSort_perm diagnosticLess _)
    rw [perm_append_left_iff, perm_append_left_iff] at hp
    exact hp.symm
  · intro hs
    have hd : empty i.policyRules = empty j.policyRules := he.2 hs
    rw [hd]

end

/-- For two accepted inputs that differ only in the order of rules and sources: the outcome is the same
exactly when every group has its sources in the same order and every group that is left empty has the
same expression in the last rule written down for it. -/
theorem repositioned_samePolicy_iff {rt : Runtime} {enc : Encoder} {clock clock' : Clock}
    {ctxErr : Option GoError} {i j : ResolveInput} (h : Repositioned i j)
    (hclock : i.asOf.IsZero → clock' = clock) (hfresh : DerivedFresh rt (groupIDs i.groups))
    (hdigest : computeInputDigest rt enc (normalizeInput j) clock'.digestAsOf =
        computeInputDigest rt enc (normalizeInput i) clock.digestAsOf →
      canonicalInput rt (normalizeInput j) clock'.digestAsOf = canonicalInput rt (normalizeInput i) clock.digestAsOf) :
    SamePolicy (resolve rt enc clock ctxErr i) (resolve rt enc clock' ctxErr j) ↔
      (ctxErr = none → validateInput rt (normalizeInput i) = .ok () →
        SameSourceOrder i j ∧ SameRoutedExpressions rt clock i j) := by
  cases ctxErr with
  | some err => simp [resolve, SamePolicy]
  | none =>
    cases hvi : validateInput rt (normalizeInput i) with
    | error err =>
      cases hvj : validateInput rt (normalizeInput j) with
      | error err' => simp [resolve, hvi, hvj, SamePolicy]
      | ok u =>
        have hb := h.symm.validateInput_ok hvj
        rw [hvi] at hb
        contradiction
    | ok u =>
      have hvj := h.validateInput_ok hvi
      simp only [resolve, hvi, hvj, SamePolicy, true_implies]
      constructor
      · rintro ⟨-, -, -, hdi, hd⟩
        have ho := h.sameSourceOrder (hdigest hd.symm)
        exact ⟨ho, (h.allDiagnostics_eq_iff hclock ho hvi hfresh).mp hdi⟩
      · rintro ⟨ho, hs⟩
        refine ⟨?_, (h.filterCountsOf_eq hclock ho).symm, (h.resolveRules_eq ho).symm,
          (h.allDiagnostics_eq_iff hclock ho hvi hfresh).mpr hs, ?_⟩
        · change (groupResults rt clock (normalizeInput i)).groups = (groupResults rt clock' (normalizeInput j)).groups
          rw [h.groupResults_eq hclock ho]
          rfl
        · change computeInputDigest rt enc (normalizeInput i) clock.digestAsOf =
            computeInputDigest rt enc (normalizeInput j) clock'.digestAsOf
          rw [computeInputDigest, computeInputDigest, h.canonicalInput_eq ho (h.asOf_eq hclock (·.digestAsOf))]

def ruleTo (target expression : String) (position : Int) : PolicyRule := ⟨"", "", target, expression, position⟩

/-- `B` refers to `A`; the given rules lead to them. -/
def routedInput (rules : List PolicyRule) : ResolveInput :=
  { referringInput [groupRefTo idA 0] with policyRules := rules }

/-- Two rules for one group that has nodes, written down in either order. -/
theorem ruleOrder_samePolicy :
    let first := ruleTo idA "DOMAIN,a.example" 0
    let second := ruleTo idA "DOMAIN,b.example" 1
    SamePolicy (resolve asciiRuntime jsonEncoder sampleClock none (routedInput [first, second]))
      (resolve asciiRuntime jsonEncoder sampleClock none (routedInput [second, first])) := by
  intro first second
  have hs : ∀ g ∈ (routedInput [first, second]).groups, Resourced g g := by
    intro g hg
    refine ⟨⟨List.Perm.refl _, ?_⟩, rfl⟩
    revert g
    decide
  have hr : Repositioned (routedInput [first, second]) (routedInput [second, first]) :=
    ⟨⟨List.Perm.swap _ _ _, by decide⟩, ⟨List.Perm.refl _, by decide⟩, List.forall₂_same.mpr hs, rfl,
      fun gid => ⟨List.Perm.refl _, nodup_nil⟩, rfl⟩
  refine (repositioned_samePolicy_iff hr (fun _ => rfl) sample_fresh
    (fun _ => hr.canonicalInput_eq rfl rfl)).mpr (fun _ _ => ⟨rfl, ?_⟩)
  unfold SameRoutedExpressions
  decide

/-- `C` takes the nodes of `B`, which refers to `A` through the given sources. -/
def nestedInput (sources : List MemberSource) : ResolveInput where
  nodes := [nodeHK, nodeUS]
  groups := [sampleGroup idC "C" [groupNodesOf idB 0], sampleGroup idB "B" sources,
    sampleGroup idA "A" [manualSource nodeHK 0, manualSource nodeUS 1]]
  asOf := 63000000000000000000

/-- Two filtered references to one child: the leaves of `B`, and with them the members of `C`, go through
the filter that is written down first, whatever the positions. -/
theorem sourceOrder_visible :
    let first := matchingName "US" (groupRefTo idA 0)
    let second := matchingName "HK" (groupRefTo idA 1)
    let members (input : ResolveInput) :=
      ((groupResults asciiRuntime sampleClock (normalizeInput input)).groups.filter (·.id = idC)).map
        (fun rg => rg.members.map (·.displayName))
    Repositioned (nestedInput [first, second]) (nestedInput [second, first]) ∧
    validateInput asciiRuntime (normalizeInput (nestedInput [first, second])) = .ok () ∧
    members (nestedInput [first, second]) = [["US-1"]] ∧ members (nestedInput [second, first]) = [["HK-1"]] := by
  intro first second members
  have hC : Resourced (sampleGroup idC "C" [groupNodesOf idB 0]) (sampleGroup idC "C" [groupNodesOf idB 0]) :=
    ⟨⟨List.Perm.refl _, by decide⟩, rfl⟩
  have hB : Resourced (sampleGroup idB "B" [first, second]) (sampleGroup idB "B" [second, first]) :=
    ⟨⟨List.Perm.swap _ _ _, by decide⟩, rfl⟩
  have hA : Resourced (sampleGroup idA "A" [manualSource nodeHK 0, manualSource nodeUS 1])
      (sampleGroup idA "A" [manualSource nodeHK 0, manualSource nodeUS 1]) :=
    ⟨⟨List.Perm.refl _, by decide⟩, rfl⟩
  refine ⟨⟨⟨List.Perm.refl _, by decide⟩, ⟨List.Perm.refl _, by decide⟩, .cons hC (.cons hB (.cons hA .nil)), rfl,
    fun gid => ⟨List.Perm.refl _, nodup_nil⟩, rfl⟩, by decide, by decide +kernel, by decide +kernel⟩

end ClashSubParser
