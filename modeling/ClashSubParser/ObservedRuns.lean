import ClashSubParser.RunCoverage

/-! Whole calls of `Run`: what is stored when it returns, over every interleaving with the scheduler. -/
namespace ClashSubParser

open List KeyedTable RunnerState StableSort SchedulerSystem

namespace RunnerSystem

section

variable {cfg : DefaultRunner} {req : RunRequest} {s s' : RunnerSystem}

def TurnedAway (s : RunnerSystem) : Prop := s.runner.targets = [] ∧ ∃ result, s.runner.phase = .returned result

variable {action : RunnerAction} {r : RunnerState}

theorem TaskMoves.frame (hm : TaskMoves s action s') :
    s'.runner.phase = s.runner.phase ∧ s'.runner.run = s.runner.run ∧ s'.runner.targets = s.runner.targets := by
  cases hm with
  | @scheduler a sched hp hs =>
    cases a with
    | execute execID =>
      rw [called]
      split <;> exact ⟨rfl, rfl, rfl⟩
    | _ => exact ⟨rfl, rfl, rfl⟩
  | _ => exact ⟨rfl, rfl, rfl⟩

theorem RunMoves.phase_ne_returned (hm : RunMoves cfg req s action s') (result : Option RunError) :
    s.runner.phase ≠ .returned result := by
  intro hr
  cases hm with
  | turnsAway hea | prepares hea =>
    rw [hr] at hea
    contradiction
  | ends hac hph =>
    rcases hph with hph | hph
    · rw [hr] at hph
      contradiction
    · rw [hr] at hph
      contradiction
  | _ => simp_all

theorem Moves.turnedAway (hm : Moves cfg req s action s') (h : s.TurnedAway) : s'.TurnedAway := by
  obtain ⟨ht, r, hph⟩ := h
  cases hm with
  | beside hm =>
    obtain ⟨hp', -, ht'⟩ := hm.frame
    exact ⟨ht'.trans ht, r, hp'.trans hph⟩
  | own hm => exact absurd hph (hm.phase_ne_returned r)

theorem Moves.turnedAway_of_failure (hm : Moves cfg req s action s')
    (h : Accounted (Chosen cfg req) (· = ·) s) (hf : action.prepares = false) : s'.TurnedAway := by
  cases hm with
  | beside hm =>
    cases hm with
    | environment _ _ hac => rcases hac with ⟨_, rfl⟩ | ⟨_, rfl⟩ | ⟨_, rfl⟩ <;> contradiction
    | advances _ _ hc => rcases hc with ⟨rfl, -⟩ | ⟨_, rfl, -⟩ <;> contradiction
    | returns ht hc => rcases hc with ⟨rfl, -⟩ | ⟨rfl, -⟩ <;> contradiction
    | _ => contradiction
  | own hm =>
    cases hm with
    | turnsAway hea => exact ⟨(h.untouched hea).targets, _, rfl⟩
    | prepares hea hid hn hps hac =>
      rw [hac] at hf
      contradiction
    | submitsLast _ hac => rcases hac with rfl | rfl <;> contradiction
    | ends hac => rcases hac with rfl | ⟨_, rfl⟩ <;> contradiction
    | _ => contradiction

theorem phase_onward {r' : RunnerState} {n : ℕ} (h : r.Onward n r') :
    r'.phase ≠ .entered ∧ ∀ result, r'.phase ≠ .returned result := by
  cases h with
  | finish state result => exact ⟨by simp [finish], by simp [finish]⟩
  | start stage => exact ⟨by simp [startStage], by simp [startStage]⟩

theorem phase_expand {kinds : List ProbeKind} {ts : List Node} : (r.expand cfg kinds ts).phase ≠ .entered ∧
      (ts ≠ [] → (ts.length * (validKinds kinds).length : ℕ) ≤ cfg.budget.maxTasks →
        ∀ result, (r.expand cfg kinds ts).phase ≠ .returned result) := by
  rw [expand]
  dsimp only
  split_ifs with he hc
  · exact ⟨by simp [RunnerState.reject], fun hne => absurd he hne⟩
  · refine ⟨by simp [RunnerState.reject], fun _ hle => ?_⟩
    omega
  · have hon := phase_onward (onward_beginStages (r := { r with targets := ts, kinds := validKinds kinds }))
    exact ⟨hon.1, fun _ _ => hon.2⟩

structure Admitted (cfg : DefaultRunner) (req : RunRequest) (s : RunnerSystem) : Prop where
  state : s.runner.phase = .entered → s.runner.run.state = req.run.state
  passed : s.runner.phase ≠ .entered →
    s.TurnedAway ∨ (req.run.state.isTerminal = false ∧ cfg.budget.isValid = true)

theorem RunMoves.phase_ne_entered (hm : RunMoves cfg req s action s') : s'.runner.phase ≠ .entered := by
  intro he
  cases hm with
  | lists | listsLast => exact absurd he phase_expand.1
  | ends hac hph ho hon => exact absurd he (phase_onward hon).1
  | prepares hea hid hn => rcases hn with rfl | ⟨page, found, rfl, -⟩ <;> contradiction
  | _ => contradiction

theorem RunMoves.passed (hm : RunMoves cfg req s action s') (he : s.runner.phase = .entered)
    (ha : Accounted (Chosen cfg req) (· = ·) s) (hs : s.runner.run.state = req.run.state) :
    s'.TurnedAway ∨ (req.run.state.isTerminal = false ∧ cfg.budget.isValid = true) := by
  rw [Accounted, he] at ha
  cases hm with
  | turnsAway => exact .inl ⟨ha.targets, _, rfl⟩
  | prepares hea hid hn hps => exact .inr (hs ▸ hps he)
  | ends hac hph =>
    rcases hph with hph | hph
    · rw [he] at hph
      contradiction
    · rw [he] at hph
      contradiction
  | _ => simp_all

theorem Moves.admitted (hm : Moves cfg req s action s') (ha : Accounted (Chosen cfg req) (· = ·) s)
    (h : Admitted cfg req s) : Admitted cfg req s' := by
  have hl (hne : s.runner.phase ≠ .entered) :
      s'.TurnedAway ∨ (req.run.state.isTerminal = false ∧ cfg.budget.isValid = true) :=
    (h.passed hne).imp_left hm.turnedAway
  cases hm with
  | beside hm =>
    obtain ⟨hph, hr, -⟩ := hm.frame
    refine ⟨fun he => ?_, fun hne => hl (hph ▸ hne)⟩
    rw [hr]
    exact h.state (hph.symm.trans he)
  | own hm =>
    refine ⟨fun he => absurd he hm.phase_ne_entered, fun _ => ?_⟩
    by_cases he : s.runner.phase = .entered
    · exact hm.passed he ha (h.state he)
    · exact hl he

theorem Moves.reaches (hm : Moves cfg req s action s') (hids : req.nodeIDs ≠ [])
    (hdistinct : req.nodeIDs.Nodup) (hl : req.run.state.isTerminal = false) (hv : cfg.budget.isValid = true)
    (hb : (req.nodeIDs.length * (validKinds req.kinds).length : ℕ) ≤ cfg.budget.maxTasks)
    (hregular : action.isRegular cfg req = true) (hp : action.prepares = true)
    (ha : Accounted (Chosen cfg req) (· = ·) s) (had : Admitted cfg req s) (h : ¬ s.TurnedAway) :
    ¬ s'.TurnedAway := by
  intro ⟨ht, result, hr⟩
  cases hm with
  | beside hm =>
    obtain ⟨hph, -, ht'⟩ := hm.frame
    exact h ⟨ht'.symm.trans ht, result, hph.symm.trans hr⟩
  | own hm =>
    cases hm with
    | turnsAway hea hid hw =>
      rcases hw with hf | ⟨hph, hte | hi⟩
      · rw [hp] at hf
        contradiction
      · rw [had.state hph, hl] at hte
        contradiction
      · rw [hv] at hi
        contradiction
    | prepares hea hid hn =>
      rcases hn with rfl | ⟨page, found, rfl, -⟩ <;> contradiction
    | @lists db page found hph =>
      have hln := length_targets hids hdistinct (all_eq_true.mp hregular)
      have hpo := length_pos_iff.mpr hids
      refine phase_expand.2 ?_ ?_ result hr
      · apply length_pos_iff.mp
        omega
      · have hle : (targetsOf req.nodeIDs (db.list (cfg.targetQuery req.nodeIDs)).1).length *
            (validKinds req.kinds).length ≤ req.nodeIDs.length * (validKinds req.kinds).length := by
          apply Nat.mul_le_mul_right
          omega
        omega
    | listsLast hph hno => exact absurd hno hids
    | leaves hph =>
      rw [Accounted, hph] at ha
      exact ha.chosen.nonempty ht
    | ends hac hph ho hon => exact (phase_onward hon).2 result hr
    | _ => contradiction

structure Labelled (req : RunRequest) (s : RunnerSystem) : Prop where
  id : s.runner.run.id = req.run.id
  observations : ∀ o ∈ s.runner.observations, o.probeRunID = req.run.id

theorem Labelled.congr (h : Labelled req s) (hid : s'.runner.run.id = s.runner.run.id)
    (ho : s'.runner.observations = s.runner.observations) : Labelled req s' :=
  ⟨hid.trans h.id, ho ▸ h.observations⟩

theorem Labelled.stores (h : Labelled req s) {o : RunObservation} (ho : o.probeRunID = s.runner.run.id)
    (hid : s'.runner.run.id = s.runner.run.id)
    (hob : s'.runner.observations = s.runner.observations ++ [o]) : Labelled req s' := by
  refine ⟨hid.trans h.id, fun o' ho' => ?_⟩
  rw [hob, mem_append, mem_singleton] at ho'
  rcases ho' with hol | rfl
  · exact h.observations o' hol
  · exact ho.trans h.id

theorem labelled_onward {sched : SchedulerSystem} {r' : RunnerState} {n : ℕ} (h : Labelled req ⟨sched, r⟩)
    (hon : r.Onward n r') : Labelled req ⟨sched, r'⟩ := by
  cases hon with
  | finish state result => exact h.congr (ProbeRun.id_transitionTo r.run state) rfl
  | start stage => exact h.congr rfl rfl

theorem labelled_expand {sched : SchedulerSystem} {kinds : List ProbeKind} {ts : List Node}
    (h : Labelled req ⟨sched, r⟩) : Labelled req ⟨sched, r.expand cfg kinds ts⟩ := by
  rw [expand]
  dsimp only
  split_ifs
  · exact h.congr (ProbeRun.id_transitionTo r.run .failed) rfl
  · exact h.congr (ProbeRun.id_transitionTo r.run .failed) rfl
  · have hr : Labelled req ⟨sched, { r with targets := ts, kinds := validKinds kinds }⟩ := h.congr rfl rfl
    exact labelled_onward hr onward_beginStages

theorem Moves.labelled (hm : Moves cfg req s action s') (h : Labelled req s) : Labelled req s' := by
  cases hm with
  | beside hm =>
    have hid : s'.runner.run.id = s.runner.run.id := by rw [hm.frame.2.1]
    cases hm with
    | @scheduler a sched hp hs =>
      refine h.congr hid ?_
      cases a with
      | execute execID =>
        rw [called]
        split <;> rfl
      | _ => rfl
    | stores => exact h.stores rfl rfl rfl
    | _ => exact h.congr hid rfl
  | own hm =>
    cases hm with
    | turnsAway hea hid | prepares hea hid => exact h.congr hid rfl
    | lists | listsLast => exact labelled_expand h
    | ends hac hph ho hon => exact labelled_onward h hon
    | @records ok result meter n k rest hph =>
      cases ok with
      | true => exact h.stores rfl rfl rfl
      | false => exact h.congr rfl rfl
    | _ => exact h.congr rfl rfl

end

/-! ### One observation of every pair -/

def observationCount (s : RunnerSystem) (runID logicalID : String) (kind : ProbeKind) : ℕ :=
  s.runner.observations.countP fun o => o.probeRunID = runID && o.nodeLogicalID = logicalID && o.kind = kind

section

variable {cfg : DefaultRunner} {req : RunRequest} {s s' : RunnerSystem} {actions : List RunnerAction}

structure Covered (cfg : DefaultRunner) (req : RunRequest) (s : RunnerSystem) : Prop where
  linked : s.Linked
  accounted : Accounted (Chosen cfg req) (· = ·) s
  admitted : Admitted cfg req s
  labelled : Labelled req s

theorem Moves.covered {a : RunnerAction} (hm : Moves cfg req s a s') (hids : req.nodeIDs ≠ [])
    (hdistinct : req.nodeIDs.Nodup) (hkinds : req.kinds.Nodup) (hregular : a.isRegular cfg req = true)
    (h : Covered cfg req s) : Covered cfg req s' :=
  ⟨hm.linked h.linked, hm.accounted (allows_of_isRegular hids hdistinct hkinds hregular) h.linked h.accounted,
    hm.admitted h.accounted h.admitted, hm.labelled h.labelled⟩

theorem covered_start {schedCfg : SchedulerConfig} {sched : SchedulerSystem}
    (hsched : SchedulerSystem.Reachable schedCfg sched) : Covered cfg req (start cfg req sched) := by
  have hts (call : ℕ) (t : RunnerTask) : (start cfg req sched).runner.tasks.lookup call ≠ some t := by
    simp [start]
  refine ⟨⟨hsched.ledger.1, hsched.ledger.2.1, ?_, ?_, ?_⟩, ⟨rfl, rfl, rfl, rfl⟩, ⟨fun _ => rfl, fun hne => ?_⟩,
    ⟨rfl, ?_⟩⟩
  · exact fun call t ht => absurd ht (hts call t)
  · exact fun call t ht => absurd ht (hts call t)
  · exact fun call t ht => absurd ht (hts call t)
  · exact absurd rfl hne
  · exact fun o ho => absurd ho not_mem_nil

theorem Settled.observationCount (h : Settled (Chosen cfg req) (· = ·) s []) (hl : Labelled req s)
    (hdistinct : req.nodeIDs.Nodup) (hkinds : req.kinds.Nodup) (id : String) (kind : ProbeKind) :
    s.observationCount req.run.id id kind =
      if id ∈ s.runner.targets.map Node.logicalID ∧ kind ∈ validKinds req.kinds then 1 else 0 := by
  have hob : s.runner.observedPairs = s.runner.plannedPairs := by
    have hr := h.recorded
    rw [map_nil, Multiset.coe_nil, add_zero] at hr
    exact hr
  have hc : s.observationCount req.run.id id kind = s.runner.observedPairs.count (id, kind) := by
    rw [RunnerSystem.observationCount, observedPairs, Multiset.count, Multiset.coe_countP, countP_map]
    apply countP_congr
    intro o ho
    simp only [hl.observations o ho, RunObservation.pair, decide_true, Bool.true_and, Bool.and_eq_true,
      decide_eq_true_eq, Function.comp_apply, Prod.mk.injEq]
    exact and_congr eq_comm eq_comm
  have hnd := (h.chosen.planned hdistinct hkinds).nodup
  rw [hc, hob, Multiset.count_eq_of_nodup hnd]
  simp only [mem_plannedPairs, h.chosen.kinds]

theorem exec_append (pre after : List RunnerAction) :
    s.exec cfg req (pre ++ after) = (s.exec cfg req pre).bind fun s => s.exec cfg req after :=
  foldlM_append

section

variable {schedCfg : SchedulerConfig} {sched : SchedulerSystem}

section

variable (hsched : SchedulerSystem.Reachable schedCfg sched)
  (hexec : (start cfg req sched).exec cfg req actions = some s) (hids : req.nodeIDs ≠ [])
  (hdistinct : req.nodeIDs.Nodup) (hkinds : req.kinds.Nodup)
  (hregular : ∀ action ∈ actions, action.isRegular cfg req = true)
include hsched hexec hids hdistinct hkinds hregular

theorem covered_exec : Covered cfg req s := by
  refine exec_induction ?_ hregular (covered_start hsched) hexec
  intro s action s' hc hac hm
  exact hm.covered hids hdistinct hkinds hac hc

theorem prepares_of_exec (hst : ¬ s.TurnedAway) : ∀ action ∈ actions, action.prepares = true := by
  intro action hac
  by_contra hfails
  obtain ⟨before, after, rfl⟩ := append_of_mem hac
  rw [exec_append] at hexec
  obtain ⟨s₁, hb, hr⟩ := Option.bind_eq_some_iff.mp hexec
  obtain ⟨s₂, hs, haf⟩ := Option.bind_eq_some_iff.mp hr
  have hc : Covered cfg req s₁ := by
    apply covered_exec hsched hb hids hdistinct hkinds
    exact fun a ha => hregular a (mem_append_left _ ha)
  have haw : s₂.TurnedAway :=
    (moves_of_step hs).turnedAway_of_failure hc.accounted (Bool.eq_false_iff.mpr hfails)
  refine hst (exec_induction (P := fun _ => True) ?_ (fun _ _ => trivial) haw haf)
  intro s action s' haw _ hm
  exact hm.turnedAway haw

theorem not_turnedAway_of_exec
    (hb : (req.nodeIDs.length * (validKinds req.kinds).length : ℕ) ≤ cfg.budget.maxTasks)
    (hl : req.run.state.isTerminal = false)
    (hv : cfg.budget.isValid = true) (hp : ∀ action ∈ actions, action.prepares = true) :
    ¬ s.TurnedAway := by
  have hs : ¬ (start cfg req sched).TurnedAway := by
    intro ⟨_, result, hph⟩
    contradiction
  refine (exec_induction (P := fun action => action.isRegular cfg req = true ∧ action.prepares = true)
    (I := fun s => Covered cfg req s ∧ ¬ s.TurnedAway) ?_ (fun a ha => ⟨hregular a ha, hp a ha⟩)
    ⟨covered_start hsched, hs⟩ hexec).2
  intro s action s' ⟨hc, haw⟩ ⟨hac, hp⟩ hm
  refine ⟨hm.covered hids hdistinct hkinds hac hc, ?_⟩
  exact hm.reaches hids hdistinct hl hv hb hac hp hc.accounted hc.admitted haw

end

/-- When `Run` returns, exactly one observation of the run is stored for every listed node and every valid kind
(the baseline if there is none), and none for another pair, if and only if it was called for a run that is not
terminal, with a valid budget, the statements before its stages succeeded, and no more nodes are listed than the
repository puts on a page. -/
theorem run_observes_iff {result : Option RunError} (hsched : SchedulerSystem.Reachable schedCfg sched)
    (hexec : (start cfg req sched).exec cfg req actions = some s) (hreturned : s.runner.phase = .returned result)
    (hids : req.nodeIDs ≠ []) (hdistinct : req.nodeIDs.Nodup) (hkinds : req.kinds.Nodup)
    (hbudget : (req.nodeIDs.length * (validKinds req.kinds).length : ℕ) ≤ cfg.budget.maxTasks)
    (hregular : ∀ action ∈ actions, action.isRegular cfg req = true) :
    (∀ id kind, s.observationCount req.run.id id kind =
      if id ∈ req.nodeIDs ∧ kind ∈ validKinds req.kinds then 1 else 0) ↔
    req.run.state.isTerminal = false ∧ cfg.budget.isValid = true ∧
      (∀ action ∈ actions, action.prepares = true) ∧ req.nodeIDs.length ≤ 100 := by
  have hc := covered_exec hsched hexec hids hdistinct hkinds hregular
  have he := hc.accounted
  rw [Accounted, hreturned] at he
  have hst (ha : ¬ s.TurnedAway) : Settled (Chosen cfg req) (· = ·) s [] :=
    he.resolve_left fun hr => ha ⟨hr.targets, result, hreturned⟩
  have hse (h : Settled (Chosen cfg req) (· = ·) s []) := h.observationCount hc.labelled hdistinct hkinds
  constructor
  · intro hal
    obtain ⟨id, hid⟩ := exists_mem_of_ne_nil _ hids
    obtain ⟨kind, hk⟩ := exists_mem_of_ne_nil _ (validKinds_ne_nil req.kinds)
    -- there is an observation, so the call got to its stages
    have hs : Settled (Chosen cfg req) (· = ·) s [] := by
      refine he.resolve_left fun hr => ?_
      have ho := hal id kind
      rw [if_pos ⟨hid, hk⟩, observationCount, hr.observations] at ho
      contradiction
    have ha : ¬ s.TurnedAway := fun ha => hs.chosen.nonempty ha.1
    obtain ⟨db, hp, ht⟩ := hs.chosen.targets
    have hps := (hc.admitted.passed (by simp [hreturned])).resolve_left ha
    refine ⟨hps.1, hps.2, prepares_of_exec hsched hexec hids hdistinct hkinds hregular ha, ?_⟩
    rw [← targets_eq_iff hids hdistinct hp, ← ht]
    intro id' hi'
    have ho := hal id' kind
    rw [if_pos ⟨hi', hk⟩, hse hs id' kind] at ho
    by_contra hm
    rw [if_neg fun hb => hm hb.1] at ho
    contradiction
  · rintro ⟨hl, hv, hpr, hpa⟩ id kind
    have ha := not_turnedAway_of_exec hsched hexec hids hdistinct hkinds hregular hbudget hl hv hpr
    have hs := hst ha
    obtain ⟨db, hp, ht⟩ := hs.chosen.targets
    have hsa : id ∈ s.runner.targets.map Node.logicalID ↔ id ∈ req.nodeIDs := by
      constructor
      · intro hid
        rw [ht, map_targetsOf] at hid
        exact (mem_filter.mp hid).1
      · intro hid
        rw [ht]
        exact (targets_eq_iff hids hdistinct hp).mpr hpa id hid
    rw [hse hs id kind]
    simp only [hsa]

end

end

/-! ### A call that observes its node, and one that does not -/

def probeNode (id : String) : Node where
  logicalID := id
  protocol := .trojan
  displayName := id
  server := "a.example"
  port := 443
  credentials := {}
  active := true
  connectionRevision := 1

theorem map_probeNode (ids : List String) : (ids.map probeNode).map Node.logicalID = ids := by
  rw [map_map]
  exact map_id ids

def loneNodes (ids : List String) (h : ids.Nodup) : NodeTables where
  toInventory := { Inventory.empty with nodes := ⟨ids.map probeNode, (map_probeNode ids).symm ▸ h⟩ }
  enabledIDs := []
  fetches := []
  confirmedIDs := []
  nodeCreatedAt := fun _ => 0

variable {ids : List String}

theorem isProbeable_loneNodes (h : ids.Nodup) (scope : NodeScope) {id : String} (hid : id ∈ ids) :
    (loneNodes ids h).isProbeable scope id = true := by
  have hr : (loneNodes ids h).nodes.rows.any (fun n => n.logicalID = id && n.active) = true :=
    any_eq_true.mpr ⟨probeNode id, mem_map_of_mem hid, by simp [probeNode]⟩
  have ha : (loneNodes ids h).inEnabledInventory id = true := by
    rw [NodeTables.inEnabledInventory, NodeTables.standsAlone, hr]
    rfl
  rw [NodeTables.isProbeable, hr, ha]
  cases scope <;> rfl

theorem list_loneNodes (h : ids.Nodup) (hids : ids ≠ []) (cfg : DefaultRunner) :
    ((loneNodes ids h).list (cfg.targetQuery ids)).1 = (ids.take 100).map probeNode := by
  have hm : (loneNodes ids h).matching (cfg.targetQuery ids) = ids.map probeNode := by
    have hp : (((loneNodes ids h).matching (cfg.targetQuery ids)).map Node.logicalID).Perm ids :=
      map_matching_perm hids h fun id hid => isProbeable_loneNodes h cfg.targetScope hid
    have hsu : ((loneNodes ids h).matching (cfg.targetQuery ids)).Sublist (ids.map probeNode) := filter_sublist
    apply hsu.eq_of_length
    rw [length_map, ← hp.length_eq, length_map]
  have hso : stableSort (fun a b : Node => decide ((loneNodes ids h).nodeCreatedAt b.logicalID <
      (loneNodes ids h).nodeCreatedAt a.logicalID)) (ids.map probeNode) = ids.map probeNode := by
    apply List.Pairwise.insertionSort_eq
    exact pairwise_of_forall fun _ _ => rfl
  have hpa : (cfg.targetQuery ids).effectivePage = 1 := rfl
  have hs : (cfg.targetQuery ids).effectivePageSize = _ := effectivePageSize_targetQuery hids
  have hc : (loneNodes ids h).withConnection = id := by
    funext n
    rfl
  rw [NodeTables.list]
  rw [hm, hso, hs, hc, map_id, hpa, Nat.sub_self, Nat.zero_mul, drop_zero,
    ← map_take, ← take_eq_take_min]

theorem targetsOf_take (h : ids.Nodup) (n : ℕ) :
    targetsOf ids ((ids.take n).map probeNode) = (ids.take n).map probeNode := by
  have hp : (((ids.take n).map probeNode).map Node.logicalID).Nodup := by
    rw [map_probeNode]
    exact h.sublist (take_sublist n ids)
  have hfd (id : String) (hid : id ∈ ids.take n) :
      ((ids.take n).map probeNode).find? (fun m => m.logicalID = id) = some (probeNode id) :=
    (Table.find?_key hp).mpr ⟨mem_map_of_mem hid, rfl⟩
  have hmi (id : String) (hid : id ∈ ids.drop n) :
      ((ids.take n).map probeNode).find? (fun m => m.logicalID = id) = none := by
    apply find?_eq_none.mpr
    intro m hm
    obtain ⟨id', hi', rfl⟩ := mem_map.mp hm
    have hne : id' ≠ id := fun heq => disjoint_take_drop h le_rfl hi' (heq ▸ hid)
    rw [decide_eq_true_eq]
    exact hne
  have hs : targetsOf ids ((ids.take n).map probeNode) =
      targetsOf (ids.take n) ((ids.take n).map probeNode) ++ targetsOf (ids.drop n) ((ids.take n).map probeNode) := by
    rw [targetsOf, targetsOf, targetsOf, ← filterMap_append, take_append_drop]
  have hd : targetsOf (ids.drop n) ((ids.take n).map probeNode) = [] := filterMap_eq_nil_iff.mpr hmi
  rw [hs, hd, append_nil, targetsOf, filterMap_congr hfd, filterMap_eq_map']

def sampleRequest (ids : List String) : RunRequest :=
  ⟨{ id := "r", state := .queued, deadlineAt := 0 }, ids, [.baseline]⟩

def availableOutcome : ProbeOutcome := ⟨.available, "contract_matched", true, false, false, none⟩

def failedOutcome : ProbeOutcome := ⟨.error, "timeout", true, true, false, none⟩

/-- Two nodes, to be probed on if they are alive. -/
def stagedRequest : RunRequest := ⟨{ id := "r", state := .queued, deadlineAt := 0 }, ["n", "m"], [.baseline, .geo]⟩

/-- The task of a call is started, probes, stores its observation and is over. -/
def executing (execID call : ℕ) (outcome : ProbeOutcome) : List RunnerAction :=
  [.scheduler .dispatch, .scheduler (.startTask execID 0), .scheduler (.execute execID), .acquire call,
    .probe call outcome, .store call true, .conclude call, .scheduler (.finishTask execID 0),
    .scheduler (.callback 0), .scheduler (.finishCallback 0)]

def submitting (call : ℕ) : List RunnerAction := [.submit, .scheduler (.attempt call 0), .submitReturns]

/-- `n` is available and gets its second probe, `m` is not and is skipped. -/
def stagedRun : List RunnerAction :=
  [.enter, .markRunning true, .list (loneNodes ["n", "m"] (by decide)) true] ++ submitting 0 ++ submitting 1 ++
    [.submitDone] ++ executing 1 0 availableOutcome ++ executing 2 1 failedOutcome ++ [.stageDone] ++ submitting 2 ++
    [.submitDone] ++ executing 3 2 availableOutcome ++ [.stageDone, .record true, .leave]

theorem exec_stagedRun : ∃ s, (start {} stagedRequest { sched := SchedulerSystem.defaultScheduler }).exec {}
    stagedRequest stagedRun = some s ∧ s.runner.phase = .returned none ∧
    s.runner.observations.map (fun o => (o.pair, o.verdict, o.executed)) =
      [(("n", .baseline), .available, true), (("m", .baseline), .error, true), (("n", .geo), .available, true),
        (("m", .geo), .unknown, false)] := ⟨_, rfl, rfl, rfl⟩

/-- Every pair of two nodes and two stages gets its observation. -/
theorem run_observes_staged : ∃ s,
    (start {} stagedRequest { sched := SchedulerSystem.defaultScheduler }).exec {} stagedRequest stagedRun = some s ∧
    ∀ id kind, s.observationCount stagedRequest.run.id id kind =
      if id ∈ stagedRequest.nodeIDs ∧ kind ∈ validKinds stagedRequest.kinds then 1 else 0 := by
  obtain ⟨s, hexec, hre, -⟩ := exec_stagedRun
  have hsched : SchedulerSystem.Reachable {} { sched := defaultScheduler } :=
    ⟨_, newScheduler_default, [], rfl⟩
  have hi := run_observes_iff hsched hexec hre (cons_ne_nil _ _) (by decide) (by decide) (by decide)
    (by decide +kernel)
  exact ⟨s, hexec, hi.mpr ⟨rfl, rfl, by decide, by decide⟩⟩

def manyIDs : List String := (List.range 101).map fun i => String.ofList (List.replicate i 'n')

theorem manyIDs_ne_nil : manyIDs ≠ [] := by
  rw [manyIDs, Ne, map_eq_nil_iff, range_eq_nil]
  omega

theorem nodup_manyIDs : manyIDs.Nodup := by
  apply nodup_range.map
  intro i j h
  have hl := String.ofList_injective h
  simpa using congrArg List.length hl

def listing (ids : List String) (h : ids.Nodup) : List RunnerAction :=
  [.enter, .markRunning true, .list (loneNodes ids h) true]

/-- The context ends, the first submission is given up and the call records what was not executed. -/
def cancelling : List RunnerAction :=
  [.contextEnds .canceled, .submit, .scheduler (.abandon 0), .submitReturns, .cancelStage 0, .drained true] ++
    List.replicate 100 (.record true) ++ [.leave]

def selectingState : RunnerState :=
  { run := { id := "r", state := .running, deadlineAt := 0 }, phase := .selecting 1 [], bodyBudget := ⟨134217728, 0⟩ }

theorem exec_listing (h : ids.Nodup) (hids : ids ≠ []) (sched : SchedulerSystem) :
    (start {} (sampleRequest ids) sched).exec {} (sampleRequest ids) (listing ids h) =
      some ⟨sched, selectingState.expand {} [.baseline] ((ids.take 100).map probeNode)⟩ := by
  rw [← targetsOf_take h 100, ← list_loneNodes h hids {}]
  obtain ⟨-, -, rfl⟩ := exists_cons_of_ne_nil hids
  rfl

theorem exec_cancelling : ((⟨{ sched := defaultScheduler },
      selectingState.expand {} [.baseline] ((manyIDs.take 100).map probeNode)⟩ : RunnerSystem).exec {}
      (sampleRequest manyIDs) cancelling).any (fun s =>
        (match s.runner.phase with | .returned _ => true | _ => false) &&
          s.observationCount "r" (String.ofList (List.replicate 100 'n')) .baseline = 0) = true := by
  decide +kernel

/-- `List` gives a hundred nodes at most: the last one listed gets no observation. -/
theorem exists_unobserved_node : ∃ s result,
    (start {} (sampleRequest manyIDs) { sched := SchedulerSystem.defaultScheduler }).exec {} (sampleRequest manyIDs)
      (listing manyIDs nodup_manyIDs ++ cancelling) = some s ∧ s.runner.phase = .returned result ∧
    (∀ action ∈ listing manyIDs nodup_manyIDs ++ cancelling,
      action.isRegular {} (sampleRequest manyIDs) = true ∧ action.prepares = true) ∧
    ∃ id ∈ manyIDs, s.observationCount "r" id .baseline = 0 := by
  obtain ⟨s, hexec, hs⟩ := (Option.any_eq_true _ _).mp exec_cancelling
  rw [Bool.and_eq_true, decide_eq_true_eq] at hs
  have hr : ∃ result, s.runner.phase = .returned result := by
    cases hph : s.runner.phase with
    | returned result => exact ⟨result, rfl⟩
    | _ =>
      rw [hph] at hs
      exact absurd hs.1 Bool.false_ne_true
  obtain ⟨result, hph⟩ := hr
  refine ⟨s, result, ?_, hph, ?_, _, ?_, hs.2⟩
  · rw [exec_append, exec_listing nodup_manyIDs manyIDs_ne_nil, Option.bind_some]
    exact hexec
  · intro action hac
    rcases mem_append.mp hac with hli | hc
    · have hl : (RunnerAction.list (loneNodes manyIDs nodup_manyIDs) true).isRegular {}
          (sampleRequest manyIDs) = true :=
        all_eq_true.mpr fun id hid => isProbeable_loneNodes nodup_manyIDs _ hid
      simp only [listing, mem_cons, not_mem_nil, or_false] at hli
      rcases hli with rfl | rfl | rfl
      · exact ⟨rfl, rfl⟩
      · exact ⟨rfl, rfl⟩
      · exact ⟨hl, rfl⟩
    · simp only [cancelling, mem_append, mem_cons, not_mem_nil, or_false, mem_replicate] at hc
      rcases hc with ((rfl | rfl | rfl | rfl | rfl | rfl) | ⟨-, rfl⟩) | rfl <;> exact ⟨rfl, rfl⟩
  · exact mem_map.mpr ⟨100, mem_range.mpr (by omega), rfl⟩

end RunnerSystem

end ClashSubParser
