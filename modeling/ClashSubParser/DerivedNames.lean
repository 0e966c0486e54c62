import ClashSubParser.MihomoClosure

/-! The names in a Mihomo document. Nothing keeps those of derived groups apart from the others. -/
namespace ClashSubParser

open List FirstError MemoRecursion StableSort ResolvedGroup

section

variable (rt : Runtime) (ctx : GroupContext) (fuel : ℕ)

def nameUnder (stored : List (String × String)) (gid : String) : String := (mapOf (·.1) stored gid).elim "" (·.2)

def derivedName (stored : List (String × String)) (parentName childID : String) : String :=
  nameUnder stored childID ++ " [" ++ parentName ++ "]"

/-- The names made up for the references of one group, given by its ID and name, to the groups of which
the filter on the reference drops a leaf. -/
def derivedNamesOf (stored : List (String × String)) (parent : String × String) : List String :=
  ((groupTargets (itemsOf rt ctx fuel parent.1)).filter (derives rt ctx fuel parent.1)).map
    (derivedName stored parent.2)

def derivedNames (stored : List (String × String)) : List String → List (String × String) → List String
  | _, [] => []
  | seen, parent :: parents =>
    (if parent.1 ∈ seen then [] else derivedNamesOf rt ctx fuel stored parent) ++
      derivedNames stored (parent.1 :: seen) parents

end

def ResolvedGroup.entry (g : ResolvedGroup) : String × String := (g.id, g.name)

theorem nameUnder_map_entry (rgs : List ResolvedGroup) (gid : String) :
    nameUnder (rgs.map entry) gid =
      (mapOf (fun g : ResolvedGroup => g.id) rgs gid).elim "" (·.name) := by
  rw [nameUnder, mapOf, mapOf, ← map_reverse, find?_map]
  change ((rgs.reverse.find? fun g => g.id == gid).map entry).elim "" (·.2) = _
  cases rgs.reverse.find? fun g => g.id == gid with
  | none | some g => rfl

section

variable {rt : Runtime} {ctx : GroupContext} {fuel : ℕ} {rank : String → ℕ} {resolved : List ResolvedGroup}

variable (h : ctx.Ranked fuel rank)
include h

theorem names_deriveMember
    (hkn : ∀ gid g, ctx.groupMap gid = some g → gid ∈ resolved.map (·.id)) (p : ResolvedGroup)
    {st : DeriveState} (hst : Settled rt ctx fuel st.memo) (m : ResolvedGroupMember × ℕ) :
    (deriveMember rt ctx fuel resolved p st m).derived.map (·.name) =
      st.derived.map (·.name) ++
        if m.1.kind = .group ∧ derives rt ctx fuel p.id m.1.targetID = true then
          [derivedName (resolved.map entry) p.name m.1.targetID]
        else [] := by
  by_cases hde : m.1.kind = .group ∧ derives rt ctx fuel p.id m.1.targetID = true
  · obtain ⟨child, hch⟩ := exists_child_of_derives hkn hde.2
    obtain ⟨hv, -⟩ := hst.resolve h (le_rfl) m.1.targetID
    have hlv := hde.2
    simp only [derives, Bool.and_eq_true, Bool.not_eq_true'] at hlv
    rw [if_pos hde, derivedName, nameUnder_map_entry, deriveMember]
    simp [hde.1, hlv.1, hv, leafItems_groupValue, hlv.2, hch, derivedGroupOf]
  · rw [if_neg hde, append_nil]
    cases (deriveMember_step h hkn p hst m).1 with
    | kept _ hd _ => rw [hd]
    | replaced _ _ hk hd _ _ _ _ => exact absurd ⟨hk, hd⟩ hde

theorem names_deriveLoop
    (hkn : ∀ gid g, ctx.groupMap gid = some g → gid ∈ resolved.map (·.id)) (p : ResolvedGroup)
    (ms : List (ResolvedGroupMember × ℕ)) {st : DeriveState} (hst : Settled rt ctx fuel st.memo) :
    (ms.foldl (deriveMember rt ctx fuel resolved p) st).derived.map (·.name) =
      st.derived.map (·.name) ++
        ((groupKeys (ms.map (·.1.key))).filter (derives rt ctx fuel p.id)).map
          (derivedName (resolved.map entry) p.name) := by
  induction ms generalizing st with
  | nil => simp [groupKeys]
  | cons m ms ih =>
    have hs' := (deriveMember_step h hkn p hst m).2
    rw [foldl_cons, ih hs', names_deriveMember h hkn p hst m, append_assoc, map_cons]
    congr 1
    by_cases hk : m.1.kind = .group
    · have hke (rest : List MemberKey) : groupKeys (m.1.key :: rest) = m.1.targetID :: groupKeys rest := by
        simp [groupKeys, ResolvedGroupMember.key, hk]
      rw [hke]
      by_cases hd : derives rt ctx fuel p.id m.1.targetID = true
      · simp [hk, hd]
      · simp [hd]
    · have hke (rest : List MemberKey) : groupKeys (m.1.key :: rest) = groupKeys rest := by
        simp [groupKeys, ResolvedGroupMember.key, hk]
      simp [hk, hke]

theorem names_deriveParent (hf : FirstPass rt ctx fuel resolved)
    (hfr : DerivedFresh rt (resolved.map (·.id))) {done : List String} {st : DeriveState}
    (hst : RunUpTo rt ctx fuel (resolved.map (·.id)) done st) {p : ResolvedGroup} (hpa : p ∈ resolved) :
    (deriveParent rt ctx fuel resolved st p).derived.map (·.name) = st.derived.map (·.name) ++
      if p.id ∈ done then []
      else derivedNamesOf rt ctx fuel (resolved.map entry) p.entry := by
  have hp : p.id ∈ resolved.map (·.id) := mem_map_of_mem hpa
  have hk := hst.keys p.id hp
  have hl := names_deriveLoop h (fun gid g hg => (hf.ids gid).mpr ⟨g, hg⟩) p
    (st.slices p.id).members.zipIdx hst.memo
  have hm : (st.slices p.id).members.zipIdx.map (·.1.key) = (st.slices p.id).members.map (·.key) := by
    conv_rhs => rw [← zipIdx_map_fst 0 (st.slices p.id).members, map_map]
    rfl
  rw [deriveParent, hl, hm, hk]
  congr 1
  split_ifs with hs
  · -- what the replaced references point to is no group
    rw [groupKeys_map_replaceKey, map_eq_nil_iff, filter_eq_nil_iff]
    intro c hc hd
    obtain ⟨k, -, rfl⟩ := mem_map.mp hc
    rw [referenceTo] at hd
    split_ifs at hd with hde
    · have hkn := (hf.ids _).mpr (exists_of_derives hd)
      exact hfr.notGroup _ hp k ((hf.ids k).mpr (exists_of_derives hde)) hkn
    · exact hde hd
  · rw [← groupTargets_eq_groupKeys]
    rfl

theorem names_deriveGroups (hf : FirstPass rt ctx fuel resolved)
    (hfr : DerivedFresh rt (resolved.map (·.id))) {memo : GroupMemoState} (hm : Settled rt ctx fuel memo) :
    (deriveGroups rt ctx fuel resolved memo).derived.map (·.name) =
      derivedNames rt ctx fuel (resolved.map entry) [] (resolved.map entry) := by
  have hl : ∀ (ps : List ResolvedGroup) (done : List String) (st : DeriveState),
      (∀ p ∈ ps, p ∈ resolved) → RunUpTo rt ctx fuel (resolved.map (·.id)) done st →
      (ps.foldl (deriveParent rt ctx fuel resolved) st).derived.map (·.name) = st.derived.map (·.name) ++
        derivedNames rt ctx fuel (resolved.map entry) done (ps.map entry) := by
    intro ps
    induction ps with
    | nil =>
      intro done st _ _
      simp [derivedNames]
    | cons parent ps ih =>
      intro done st hs hst
      have hpa := hs parent mem_cons_self
      rw [foldl_cons, ih _ _ (fun p hp => hs p (mem_cons_of_mem _ hp)) (hst.deriveParent h hf hfr hpa),
        names_deriveParent h hf hfr hst hpa, append_assoc]
      rfl
  exact hl resolved [] _ (fun p hp => hp) (hf.init hm)

end

def MihomoConfig.names (config : MihomoConfig) : List String :=
  config.proxies.map (·.name) ++ config.proxyGroups.map (·.name)

def storedNames (input : ResolveInput) : List (String × String) :=
  (sortGroups (normalizeInput input).groups).map (fun g => (g.id, g.name))

def madeUpNames (rt : Runtime) (clock : Clock) (input : ResolveInput) : List String :=
  derivedNames rt (resolveContext rt clock (normalizeInput input)) ((normalizeInput input).groups.length+1)
    (storedNames input) [] (storedNames input)

section

variable {rt : Runtime} {enc : Encoder} {clock : Clock} {input : ResolveInput}

theorem entries_firstResolved {ctx : GroupContext} {gs : List NodeGroup} {rank : String → ℕ}
    (h : ctx.Ranked (gs.length+1) rank) :
    (firstResolved rt ctx gs).map entry = (sortGroups gs).map (fun g => (g.id, g.name)) := by
  rw [firstResolved, (resolveEach_eq h _ (settled_init _)).1, resolvedList]
  apply ext_getElem
  · simp
  · intro i _ _
    simp [resolvedGroupOf, entry]

theorem names_allGroups (rgs all : List ResolvedGroup) (d : DeriveState) :
    ((allGroups rgs d).map (recollect all)).map (·.name) = rgs.map (·.name) ++ d.derived.map (·.name) := by
  rw [allGroups, map_append, map_append, map_map, map_map, map_map]
  rfl

theorem groupNames_snapshotOf (hv : validateInput rt (normalizeInput input) = .ok ())
    (hfr : DerivedFresh rt (groupIDs input.groups)) :
    (snapshotOf rt enc clock (normalizeInput input)).groups.map (·.name) =
      (storedNames input).map (·.2) ++ madeUpNames rt clock input := by
  obtain ⟨rank, hf⟩ := @exists_ranked_fuel rt clock input hv
  rw [← groupIDs_normalizeInput] at hfr
  have hu := unitedFacts hf rfl hfr
  have he := @entries_firstResolved rt _ _ rank hf
  have hd := names_deriveGroups hf hu.first hu.fresh
    (resolveEach_eq hf (sortGroups (normalizeInput input).groups) (settled_init _)).2
  have hs : (firstResolved rt (resolveContext rt clock (normalizeInput input)) (normalizeInput input).groups).map
      (·.name) = (storedNames input).map (·.2) := by
    rw [storedNames, ← he, map_map]
    rfl
  rw [he] at hd
  change ((allGroups (firstResolved rt _ _) (derivedState rt _ _)).map (recollect _)).map
    (fun g : ResolvedGroup => g.name) = _
  rw [names_allGroups, hs]
  exact congrArg _ hd

theorem nodeNames_snapshotOf : (snapshotOf rt enc clock (normalizeInput input)).nodes.map (·.displayName) =
    (sortNodes (globalAdmittedNodes rt clock (normalizeInput input))).map (·.displayName) := by
  change (sortedAdmittedNodes _).map (fun n : ResolvedNode => n.displayName) = _
  rw [sortedAdmittedNodes]
  apply ext_getElem
  · simp
  · intro i _ _
    simp [resolvedNodeOf]

end

/-- A document that was compiled from an input without repeated names has no repeated names exactly when the
names made up for filtered references are distinct and not in use already. -/
theorem document_names_distinct_iff {lib : Libraries} {enc : Encoder} {encs : Encoders} {clock : Clock}
    {ctxErr ctxErr' : Option GoError} {input : ResolveInput} {snap : ResolvedPolicySnapshot} {result : Result}
    (hres : resolve lib.toRuntime enc clock ctxErr input = .ok snap)
    (hgroups : (input.groups.map (·.name)).Nodup) (hnodes : (input.nodes.map (·.displayName)).Nodup)
    (hapart : ∀ n ∈ input.nodes, n.displayName ∉ input.groups.map (·.name) ∧
      isBuiltInPolicyTarget lib.toRuntime n.displayName = false)
    (hfresh : DerivedFresh lib.toRuntime (groupIDs input.groups))
    (hcompile : compile lib encs ctxErr' snap .mihomo = .ok result) :
    ∃ config, renderMihomo lib snap = .ok config ∧ encs.marshalYAML config = .ok result.content ∧
      (config.names.Nodup ↔ (madeUpNames lib.toRuntime clock input).Nodup ∧
        ∀ name ∈ madeUpNames lib.toRuntime clock input, name ∉ input.groups.map (·.name) ∧
          ∀ n ∈ globalAdmittedNodes lib.toRuntime clock (normalizeInput input), n.displayName ≠ name) := by
  obtain ⟨-, config, hc, hco⟩ := config_of_compile hcompile
  have hr := renders_of_renderMihomo hc
  obtain ⟨-, hv, rfl⟩ := resolve_eq_ok_iff.mp hres
  refine ⟨config, hc, hco, ?_⟩
  have had : (globalAdmittedNodes lib.toRuntime clock (normalizeInput input)).Sublist input.nodes :=
    filter_sublist.trans filter_sublist
  have hnm : (storedNames input).map (·.2) = (sortGroups (normalizeInput input).groups).map (·.name) := by
    rw [storedNames, map_map]
    rfl
  have hi : (normalizeInput input).groups.map (·.name) = input.groups.map (·.name) := by
    simp [normalizeInput]
  have hpe : ((storedNames input).map (·.2)).Perm (input.groups.map (·.name)) := by
    rw [hnm, ← hi]
    exact (stableSort_perm _ _).map _
  have hp : ((sortNodes (globalAdmittedNodes lib.toRuntime clock (normalizeInput input))).map
      (·.displayName)).Perm ((globalAdmittedNodes lib.toRuntime clock (normalizeInput input)).map (·.displayName)) :=
    (stableSort_perm _ _).map _
  rw [MihomoConfig.names, hr.proxies, hr.groupNames, groupNames_snapshotOf hv hfresh,
    nodeNames_snapshotOf, (hp.append (hpe.append_right _)).nodup_iff]
  have hno : ((globalAdmittedNodes lib.toRuntime clock (normalizeInput input)).map (·.displayName)).Nodup :=
    hnodes.sublist (had.map _)
  simp only [nodup_append, hgroups, hno, true_and]
  constructor
  · rintro ⟨⟨hm, ho⟩, hne⟩
    refine ⟨hm, ?_⟩
    intro name hna
    refine ⟨fun hin => ho name hin name hna rfl, ?_⟩
    intro n hn heq
    exact hne n.displayName (mem_map_of_mem hn) name (mem_append_right _ hna) heq
  · rintro ⟨hm, ho⟩
    refine ⟨⟨hm, ?_⟩, ?_⟩
    · rintro a ha b hb rfl
      exact (ho a hb).1 ha
    · rintro a ha b hb rfl
      obtain ⟨n, hn, rfl⟩ := mem_map.mp ha
      rcases mem_append.mp hb with hb | hb
      · exact (hapart n (had.subset hn)).1 hb
      · exact (ho _ hb).2 n hn rfl

theorem referringInput_names_distinct :
    let input := referringInput [matchingName "HK" (groupRefTo idA 0)]
    ∃ snap result config, resolve asciiRuntime jsonEncoder sampleClock none input = .ok snap ∧
      compile asciiLibraries blankEncoders none snap .mihomo = .ok result ∧
      renderMihomo asciiLibraries snap = .ok config ∧ config.names.Nodup := by
  intro input
  have hr := resolve_sample input (by decide)
  obtain ⟨result, hc⟩ := exists_of_isOk (x := compile asciiLibraries blankEncoders none
    (snapshotOf asciiRuntime jsonEncoder sampleClock (normalizeInput input)) .mihomo) (by decide +kernel)
  obtain ⟨config, hcf, -, hi⟩ := @document_names_distinct_iff asciiLibraries _ _ _ _ _ _ _ _ hr (by decide)
    (by decide) (by decide) sample_fresh hc
  refine ⟨_, result, config, hr, hc, hcf, hi.mpr ?_⟩
  have hm : madeUpNames asciiRuntime sampleClock input = ["A [B]"] := by decide +kernel
  change (madeUpNames asciiRuntime sampleClock input).Nodup ∧ ∀ name ∈ madeUpNames asciiRuntime sampleClock input, _
  decide +kernel

/-- `B` refers to the nodes of `A` with this name only, beside a third group. -/
def filteredInput (third : String) : ResolveInput :=
  { referringInput [matchingName "HK" (groupRefTo idA 0)] with
    groups := [sampleGroup idB "B" [matchingName "HK" (groupRefTo idA 0)],
      sampleGroup idA "A" [manualSource nodeHK 0, manualSource nodeUS 1],
      sampleGroup idC third [manualSource nodeHK 0]] }

/-- A group that has the name of the derived one already. -/
theorem derived_name_repeated :
    let input := filteredInput "A [B]"
    let snap := snapshotOf asciiRuntime jsonEncoder sampleClock (normalizeInput input)
    resolve asciiRuntime jsonEncoder sampleClock none input = .ok snap ∧
    (input.groups.map (·.name)).Nodup ∧ (input.nodes.map (·.displayName)).Nodup ∧
    (∀ n ∈ input.nodes, n.displayName ∉ input.groups.map (·.name) ∧
      isBuiltInPolicyTarget asciiRuntime n.displayName = false) ∧
    (compile asciiLibraries blankEncoders none snap .mihomo).isOk = true ∧
    (renderMihomo asciiLibraries snap).toOption.map MihomoConfig.names =
      some ["HK-1", "US-1", "A", "A [B]", "B", "A [B]"] := by
  intro input snap
  exact ⟨resolve_sample _ (by decide), by decide, by decide, by decide, by decide +kernel,
    by decide +kernel⟩

end ClashSubParser
