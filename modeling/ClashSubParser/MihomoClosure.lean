import ClashSubParser.Compiler
import ClashSubParser.NodeSets
import ClashSubParser.ResolvedReferences

/-! A Mihomo document of a resolved snapshot is closed under its names, and from every group something is
reached. -/
namespace ClashSubParser

open Function List FirstError MemoRecursion StableSort Strings

section

variable {lib : Libraries} {snap : ResolvedPolicySnapshot} {config : MihomoConfig}

structure RendersGroup (g : ResolvedGroup) (r : MihomoGroup) : Prop where
  name : r.name = g.name
  proxies : r.proxies = proxyNames g
  nonempty : g.usesEmptyPass = true ∨ g.members ≠ []

variable {i : ℕ}

theorem rendersGroup_of_render {g : ResolvedGroup} {r : MihomoGroup} (h : renderMihomoGroup lib snap i g = .ok r) :
    RendersGroup g r := by
  simp only [renderMihomoGroup, mihomoError, ite_reject_eq_ok, bind_eq_ok_iff, Except.ok.injEq] at h
  obtain ⟨he, -, -, built, hb, rfl⟩ := h
  have hn : g.usesEmptyPass = true ∨ g.members ≠ [] := by
    by_contra hnone
    obtain ⟨hp, hms⟩ := not_or.mp hnone
    exact he ⟨by simpa using hp, .inl (not_not.mp hms)⟩
  have hfs : built.name = g.name ∧ built.proxies = proxyNames g := by
    rw [buildMihomoGroup.eq_def] at hb
    split at hb
    case h_5 => simp [mihomoError] at hb
    all_goals
      obtain rfl := Except.ok.inj hb
      exact ⟨rfl, rfl⟩
  exact ⟨hfs.1, hfs.2, hn⟩

theorem name_of_renderMihomoProxy {node : ResolvedNode} {p : Option MihomoProxy}
    (h : renderMihomoProxy lib i node = .ok p) (hv : node.protocol.isValid = true) :
    p.map MihomoProxy.name = some node.displayName := by
  rw [renderMihomoProxy.eq_def] at h
  split at h
  case h_6 =>
    obtain ⟨-, -, rfl⟩ := map_eq_ok_iff.mp h
    rfl
  case h_11 hother => simp [hother, Protocol.isValid] at hv
  all_goals
    obtain rfl := Except.ok.inj h
    rfl

structure MihomoConfig.Renders (config : MihomoConfig) (snap : ResolvedPolicySnapshot) : Prop where
  proxies : config.proxies.map (·.name) = snap.nodes.map (·.displayName)
  groups : List.Forall₂ RendersGroup snap.groups config.proxyGroups
  rules : config.rules.map (·.target) = snap.rules.map (fun r => trimSpace r.targetGroupName)

theorem isValid_of_envelope {t : CompilerTarget} {node : ResolvedNode}
    (h : validateCredentialEnvelope lib t i node = .ok ()) : node.protocol.isValid = true := by
  simp only [validateCredentialEnvelope, ite_reject_eq_ok] at h
  simpa using h.2.1

theorem names_of_proxies {nodes : List ResolvedNode} {proxies : List (Option MihomoProxy)}
    (hv : ∀ n ∈ nodes, n.protocol.isValid = true) (h : nodes.mapIdx (renderMihomoProxy lib) = proxies.map .ok) :
    proxies.reduceOption.map (·.name) = nodes.map (·.displayName) := by
  have hn : proxies.map (Option.map MihomoProxy.name) = nodes.map (fun n => some n.displayName) := by
    have hl : nodes.length = proxies.length := by simpa using congrArg List.length h
    apply ext_getElem
    · simp [hl]
    · intro i hi hi'
      rw [length_map] at hi hi'
      have hg := getElem_of_eq h (by simpa using hi')
      rw [getElem_mapIdx, getElem_map] at hg
      rw [getElem_map, getElem_map, name_of_renderMihomoProxy hg (hv _ (getElem_mem hi'))]
  have hr := congrArg List.reduceOption hn
  simp only [List.reduceOption, filterMap_map, id_comp] at hr
  rw [List.reduceOption, map_filterMap]
  rw [← comp_def some, filterMap_eq_map] at hr
  exact hr

theorem renders_of_renderMihomo (h : renderMihomo lib snap = .ok config) : config.Renders snap := by
  simp only [renderMihomo, bind_eq_ok_iff, Except.ok.injEq] at h
  obtain ⟨_, hc, proxies, hp, gs, hgs, _, -, ⟨rules, providers⟩, hrl, rfl⟩ := h
  have hv : ∀ n ∈ snap.nodes, n.protocol.isValid = true := by
    intro n hn
    obtain ⟨i, hi, rfl⟩ := mem_iff_getElem.mp hn
    have hno := checks_eq_ok_iff.mp hc (validateMihomoNode lib i snap.nodes[i])
      (mem_mapIdx.mpr ⟨i, hi, rfl⟩)
    rw [validateMihomoNode, bind_unit_eq_ok_iff] at hno
    exact isValid_of_envelope hno.1
  refine ⟨names_of_proxies hv (allOk_eq_ok_iff.mp hp), ?_, targets_of_renderMihomoRules hrl⟩
  have hm := allOk_eq_ok_iff.mp hgs
  have hl : snap.groups.length = gs.length := by simpa using congrArg List.length hm
  rw [List.forall₂_iff_get]
  refine ⟨hl, ?_⟩
  intro i hi hi'
  have hg := getElem_of_eq hm (by simpa using hi)
  rw [getElem_mapIdx, getElem_map] at hg
  exact rendersGroup_of_render hg

theorem MihomoConfig.Renders.groupNames (h : config.Renders snap) :
    config.proxyGroups.map (·.name) = snap.groups.map (·.name) := by
  have heq : List.Forall₂ (fun g r => MihomoGroup.name r = ResolvedGroup.name g) snap.groups config.proxyGroups :=
    h.groups.imp fun g r hr => hr.name
  rw [eq_comm, ← List.forall₂_eq_eq_eq, List.forall₂_map_left_iff, List.forall₂_map_right_iff]
  exact heq.imp fun g r hr => hr.symm

end

/-- A name of a proxy, of a builtin policy, or of a group with such a name among its entries or behind them. -/
inductive MihomoConfig.Live (config : MihomoConfig) : String → Prop
  | proxy {p : MihomoProxy} (hp : p ∈ config.proxies) : config.Live p.name
  | builtin {name : String} (h : name ∈ sourceBuiltins) : config.Live name
  | group {g : MihomoGroup} (hg : g ∈ config.proxyGroups) {entry : String} (hentry : entry ∈ g.proxies)
      (hlive : config.Live entry) : config.Live g.name

/-- Every name in the document means something in it, and every group leads somewhere. -/
structure MihomoConfig.ClosedAndLive (lib : Libraries) (config : MihomoConfig) : Prop where
  entries : ∀ g ∈ config.proxyGroups, ∀ entry ∈ g.proxies, (∃ p ∈ config.proxies, p.name = entry) ∨
    (∃ h ∈ config.proxyGroups, h.name = entry) ∨ entry ∈ sourceBuiltins
  rules : ∀ r ∈ config.rules, (∃ h ∈ config.proxyGroups, h.name = r.target) ∨
    isBuiltInPolicyTarget lib.toRuntime r.target = true
  live : ∀ g ∈ config.proxyGroups, ∃ entry ∈ g.proxies, config.Live entry

/-- The loop that derives groups leaves every reference either at a derived group or at a group of lower rank. -/
def DeriveState.Falls (ctx : GroupContext) (rank : String → ℕ) (st : DeriveState) : Prop :=
  ∀ gid, ∀ m ∈ (st.slices gid).members, m.kind = .group →
    (∃ d ∈ st.derived, d.name = m.displayName) ∨
    ∃ g, ctx.groupMap m.targetID = some g ∧ g.name = m.displayName ∧ rank m.targetID < rank gid

section

variable {rt : Runtime} {ctx : GroupContext} {fuel : ℕ} {rank : String → ℕ} {resolved : List ResolvedGroup}

theorem DeriveState.Falls.step {p : ResolvedGroup} {member : ResolvedGroupMember × ℕ} {st st' : DeriveState}
    (h : st.Falls ctx rank) (hst : DeriveStep rt ctx fuel resolved p member st st') : st'.Falls ctx rank := by
  cases hst with
  | kept hs hd _ =>
    intro gid m hm hk
    rw [hs] at hm
    rw [hd]
    exact h gid m hm hk
  | replaced child d _ _ _ _ hs hds =>
    have hmo (gid : String) (m : ResolvedGroupMember) (hm : m ∈ (st.slices gid).members) (hk : m.kind = .group) :
        (∃ d ∈ st'.derived, d.name = m.displayName) ∨
        ∃ g, ctx.groupMap m.targetID = some g ∧ g.name = m.displayName ∧ rank m.targetID < rank gid := by
      refine (h gid m hm hk).imp_left ?_
      rintro ⟨e, he, hn⟩
      exact ⟨e, by rw [hds]; exact mem_append_left _ he, hn⟩
    intro gid m hm hk
    rw [hs] at hm
    by_cases hg : gid = p.id
    · rw [hg, update_self] at hm
      rcases mem_or_eq_of_mem_set hm with hm | rfl
      · exact hg ▸ hmo _ m hm hk
      · exact .inl ⟨d, by simp [hds], rfl⟩
    · rw [update_of_ne hg] at hm
      exact hmo gid m hm hk

theorem falls_deriveGroups (h : ctx.Ranked fuel rank) (hc : ctx.Checked rt)
    (hf : FirstPass rt ctx fuel resolved) {memo : GroupMemoState} (hmo : Settled rt ctx fuel memo) :
    (deriveGroups rt ctx fuel resolved memo).Falls ctx rank := by
  apply deriveGroups_induction h (fun gid g hg => (hf.ids gid).mpr ⟨g, hg⟩) hmo (fun st => st.Falls ctx rank)
  · intro gid m hm hk
    obtain ⟨rg, hme, rfl, hmb⟩ := mem_members_of_slicesOf hm
    rw [hf.members rg hme] at hmb
    have hi := item_mem_of_mem_membersOf hmb
    obtain ⟨g, hg, hn⟩ := (names_of_mem_itemsOf hc hi).group hk
    obtain ⟨own, ho⟩ := (hf.ids rg.id).mp (mem_map_of_mem hme)
    have htg : m.targetID ∈ groupTargets (itemsOf rt ctx fuel rg.id) :=
      mem_map.mpr ⟨m.item, mem_filter.mpr ⟨hi, decide_eq_true hk⟩, rfl⟩
    exact .inr ⟨g, hg, hn, rank_lt_of_mem_groupTargets h ho htg⟩
  · intro parent _ member st st' hst hs
    exact hst.step hs

end

section

variable {lib : Libraries} {snap : ResolvedPolicySnapshot} {config : MihomoConfig}

theorem MihomoConfig.Renders.exists_proxy (h : config.Renders snap) {n : ResolvedNode} (hn : n ∈ snap.nodes) :
    ∃ p ∈ config.proxies, p.name = n.displayName := by
  have hna : n.displayName ∈ config.proxies.map (·.name) := by
    rw [h.proxies]
    exact mem_map_of_mem hn
  exact mem_map.mp hna

variable {g : ResolvedGroup}

variable (h : config.Renders snap)
include h

theorem MihomoConfig.Renders.exists_rendered (hg : g ∈ snap.groups) : ∃ r ∈ config.proxyGroups, RendersGroup g r := by
  obtain ⟨i, hi, rfl⟩ := mem_iff_getElem.mp hg
  obtain ⟨hl, ha⟩ := List.forall₂_iff_get.mp h.groups
  exact ⟨config.proxyGroups[i], getElem_mem _, ha i hi (by omega)⟩

theorem MihomoConfig.Renders.exists_source {r : MihomoGroup} (hr : r ∈ config.proxyGroups) :
    ∃ g ∈ snap.groups, RendersGroup g r := by
  obtain ⟨i, hi, rfl⟩ := mem_iff_getElem.mp hr
  obtain ⟨hl, ha⟩ := List.forall₂_iff_get.mp h.groups
  exact ⟨snap.groups[i], getElem_mem _, ha i (by omega) hi⟩

theorem entry_cases (hrf : snap.Referential) (hg : g ∈ snap.groups)
    {entry : String} (hen : entry ∈ proxyNames g) : (∃ p ∈ config.proxies, p.name = entry) ∨
      (∃ r ∈ config.proxyGroups, r.name = entry) ∨ entry ∈ sourceBuiltins := by
  rw [proxyNames] at hen
  split_ifs at hen
  · rw [mem_singleton] at hen
    rw [hen]
    exact .inr (.inr (by decide))
  · obtain ⟨m, hm, rfl⟩ := mem_map.mp hen
    have hf := hrf.members g hg m hm
    cases hk : m.kind with
    | node =>
      obtain ⟨n, hn, -, hna⟩ := hf.node hk
      rw [← hna]
      exact .inl (h.exists_proxy hn)
    | group =>
      obtain ⟨g', hg', -, hna⟩ := hf.group hk
      obtain ⟨r, hr, hre⟩ := h.exists_rendered hg'
      exact .inr (.inl ⟨r, hr, hre.name.trans hna⟩)
    | builtin =>
      obtain ⟨hna, hbi⟩ := hf.builtin hk
      rw [hna]
      exact .inr (.inr hbi)

theorem live_of_member (hg : g ∈ snap.groups)
    (hmb : ∀ m ∈ g.members, config.Live m.displayName) : ∃ entry ∈ proxyNames g, config.Live entry := by
  obtain ⟨r, -, hr⟩ := h.exists_rendered hg
  rw [proxyNames]
  split_ifs with hp
  · exact ⟨"PASS", mem_singleton_self _, .builtin (by decide)⟩
  · have hne := hr.nonempty.resolve_left hp
    obtain ⟨m, hm⟩ := exists_mem_of_ne_nil _ hne
    exact ⟨m.displayName, mem_map_of_mem hm, hmb m hm⟩

theorem live_name (hg : g ∈ snap.groups)
    (hl : ∃ entry ∈ proxyNames g, config.Live entry) : config.Live g.name := by
  obtain ⟨r, hr, hre⟩ := h.exists_rendered hg
  obtain ⟨entry, hen, hl⟩ := hl
  rw [← hre.name]
  exact .group hr (hre.proxies ▸ hen) hl

theorem live_leaf (hr : snap.Referential) (hg : g ∈ snap.groups)
    {m : ResolvedGroupMember} (hm : m ∈ g.members) (hk : m.kind ≠ .group) : config.Live m.displayName := by
  have hf := hr.members g hg m hm
  cases hkind : m.kind with
  | node =>
    obtain ⟨n, hn, -, hna⟩ := hf.node hkind
    obtain ⟨p, hp, hpn⟩ := h.exists_proxy hn
    rw [← hna, ← hpn]
    exact .proxy hp
  | group => contradiction
  | builtin =>
    obtain ⟨hna, hbi⟩ := hf.builtin hkind
    rw [hna]
    exact .builtin hbi

end

section

variable {rt : Runtime} {enc : Encoder} {clock : Clock} {input : ResolveInput} {config : MihomoConfig}

/-- From every group of a resolved snapshot. Derived groups have no groups as members, and the stored groups are
taken by their rank. -/
theorem live_of_resolved (hv : validateInput rt (normalizeInput input) = .ok ())
    (hre : (snapshotOf rt enc clock (normalizeInput input)).Referential)
    (h : config.Renders (snapshotOf rt enc clock (normalizeInput input))) :
    ∀ g ∈ (snapshotOf rt enc clock (normalizeInput input)).groups, ∃ entry ∈ proxyNames g, config.Live entry := by
  obtain ⟨rank, hf⟩ := @exists_ranked_fuel rt clock input hv
  have hnm := @named_derivedState rt clock input hv
  have hfa : (derivedState rt (resolveContext rt clock (normalizeInput input)) (normalizeInput input).groups).Falls
      (resolveContext rt clock (normalizeInput input)) rank :=
    falls_deriveGroups hf (checked_resolveContext hv) (firstPass hf rfl)
      (resolveEach_eq hf _ (settled_init _)).2
  -- the groups of the snapshot, before their node sets are recomputed
  set ctx := resolveContext rt clock (normalizeInput input)
  set gs := (normalizeInput input).groups
  set snap := snapshotOf rt enc clock (normalizeInput input)
  have hme (u : ResolvedGroup) (hu : u ∈ unitedGroups rt ctx gs) :
      recollect (unitedGroups rt ctx gs) u ∈ snap.groups := mem_map_of_mem hu
  have hde : ∀ d ∈ (derivedState rt ctx gs).derived,
      ∃ entry ∈ proxyNames (recollect (unitedGroups rt ctx gs) d), config.Live entry := by
    intro d hd
    have hin := hme d (mem_append_right _ hd)
    apply live_of_member h hin
    intro m hm
    exact live_leaf h hre hin hm (hnm.derived d hd m hm).2
  have hs : ∀ n, ∀ rg ∈ firstResolved rt ctx gs, rank rg.id < n →
      ∃ entry ∈ proxyNames (recollect (unitedGroups rt ctx gs)
        (withSlices (derivedState rt ctx gs).slices rg)), config.Live entry := by
    intro n
    induction n with
    | zero =>
      intro rg _ hr
      omega
    | succ n ih =>
      intro rg hrg hr
      have hin := hme _ (mem_append_left _ (mem_map_of_mem hrg))
      apply live_of_member h hin
      intro m hm
      by_cases hk : m.kind = .group
      · rcases hfa rg.id m hm hk with ⟨d, hd, hn⟩ | ⟨g, hg, hn, hlo⟩
        · have hl := live_name h (hme d (mem_append_right _ hd)) (hde d hd)
          rw [← hn]
          exact hl
        · obtain ⟨hgm, hgi⟩ := mapOf_some hg
          obtain ⟨i, hi⟩ := @exists_firstResolved rt ctx gs rank hf g hgm
          rw [← hgi] at hlo
          have hl := live_name h (hme _ (mem_append_left _ (mem_map_of_mem hi)))
            (ih _ hi (lt_of_lt_of_le hlo (Nat.le_of_lt_succ hr)))
          rw [← hn]
          exact hl
      · exact live_leaf h hre hin hm hk
  intro g hg
  obtain ⟨u, hu, rfl⟩ := mem_map.mp hg
  rcases mem_append.mp hu with hu | hu
  · obtain ⟨rg, hrg, rfl⟩ := mem_map.mp hu
    exact hs _ rg hrg (Nat.lt_succ_self _)
  · exact hde u hu

end

/-- A rule that passes the check of a target leads to a group under its trimmed name, or to a builtin policy. -/
theorem target_of_validateRule {lib : Libraries} {snap : ResolvedPolicySnapshot} {t : CompilerTarget}
    {cap : Capability} {i : ℕ} {r : ResolvedRule} (h : validateRule lib snap t cap i r = .ok ()) :
    isBuiltInPolicyTarget lib.toRuntime (trimSpace r.targetGroupName) = true ∨
      trimSpace r.targetGroupName ∈ snap.groupNames := by
  simp only [validateRule, ite_reject_eq_ok] at h
  obtain ⟨-, -, -, -, h⟩ := h
  by_cases hbi : isBuiltInPolicyTarget lib.toRuntime (trimSpace r.targetGroupName) = true
  · exact .inl hbi
  · rw [if_neg hbi, ite_reject_eq_ok] at h
    exact .inr (not_not.mp (not_or.mp h.1).2)

/-- Every Mihomo document compiled from a resolved snapshot is closed and live. -/
theorem compiled_mihomo_closed_and_live {lib : Libraries} {enc : Encoder} {encs : Encoders} {clock : Clock}
    {ctxErr ctxErr' : Option GoError} {input : ResolveInput} {snap : ResolvedPolicySnapshot} {result : Result}
    (hres : resolve lib.toRuntime enc clock ctxErr input = .ok snap)
    (hcompile : compile lib encs ctxErr' snap .mihomo = .ok result) :
    ∃ config, renderMihomo lib snap = .ok config ∧ encs.marshalYAML config = .ok result.content ∧
      config.ClosedAndLive lib := by
  obtain ⟨hv, config, hc, hco⟩ := config_of_compile hcompile
  have hrd := renders_of_renderMihomo hc
  have hrf := referential_of_resolve hres
  obtain ⟨-, hva, rfl⟩ := resolve_eq_ok_iff.mp hres
  have hl := live_of_resolved hva hrf hrd
  refine ⟨config, hc, hco, ?_, ?_, ?_⟩
  · intro r hr entry hen
    obtain ⟨g, hg, hre⟩ := hrd.exists_source hr
    exact entry_cases hrd hrf hg (hre.proxies ▸ hen)
  · intro r hr
    have htg : r.target ∈ (snapshotOf lib.toRuntime enc clock (normalizeInput input)).rules.map
        (fun r => trimSpace r.targetGroupName) := by
      rw [← hrd.rules]
      exact mem_map_of_mem hr
    obtain ⟨rule, hru, hn⟩ := mem_map.mp htg
    obtain ⟨i, hi, rfl⟩ := mem_iff_getElem.mp hru
    simp only [validate, bind_unit_eq_ok_iff, ne_eq, not_true_eq_false, if_false] at hv
    have hch := checks_eq_ok_iff.mp hv.2.2.2 _ (mem_mapIdx.mpr ⟨i, hi, rfl⟩)
    rw [← hn]
    rcases target_of_validateRule hch with hbi | hgr
    · exact .inr hbi
    · rw [ResolvedPolicySnapshot.groupNames, ← hrd.groupNames] at hgr
      exact .inl (mem_map.mp hgr)
  · intro r hr
    obtain ⟨g, hg, hre⟩ := hrd.exists_source hr
    rw [hre.proxies]
    exact hl g hg

/-- `B` refers to `A`, and a rule leads to `B`. -/
def linkedInput : ResolveInput :=
  { referringInput [groupRefTo idA 0] with policyRules := [⟨"", "", idB, "MATCH", 0⟩] }

theorem linkedInput_closed_and_live :
    ∃ snap result config, resolve asciiRuntime jsonEncoder sampleClock none linkedInput = .ok snap ∧
      compile asciiLibraries blankEncoders none snap .mihomo = .ok result ∧
      renderMihomo asciiLibraries snap = .ok config ∧ config.ClosedAndLive asciiLibraries := by
  have hr := resolve_sample linkedInput (by decide)
  obtain ⟨result, hc⟩ := exists_of_isOk (x := compile asciiLibraries blankEncoders none
    (snapshotOf asciiRuntime jsonEncoder sampleClock (normalizeInput linkedInput)) .mihomo) (by decide)
  obtain ⟨config, hcf, -, hcl⟩ := @compiled_mihomo_closed_and_live asciiLibraries _ _ _ _ _ _ _ _ hr hc
  exact ⟨_, result, config, hr, hc, hcf, hcl⟩

end ClashSubParser
