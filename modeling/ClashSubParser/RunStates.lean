import ClashSubParser.Lifecycle
import ClashSubParser.ProbeRuns
import Mathlib.Data.Fintype.Basic

/-! The stored state of a probe run under concurrent calls, whose writes do not look at what the row holds
by then. -/
namespace ClashSubParser

open Function KeyedTable ActionRuns ProbeRunTable ProbeRunState

/-- The write a call is about to make: the row, the state the call knows it in, and the state it writes. -/
def RunCall.pendingWrite : RunCall → Option (String × ProbeRunState × ProbeRunState)
  | .marking run => some (run.id, run.state, .running)
  | .settling exec known state => some (exec.id, known, state)
  | .cancelling run => some (run.id, run.state, .cancelled)
  | .expiring now (run :: _) => if now > run.deadlineAt then some (run.id, run.state, .expired) else none
  | _ => none

/-- The run that an `Execute` has marked and not settled yet. -/
def RunCall.held : RunCall → Option String
  | .starting run => some run.id
  | .working exec | .rechecking exec _ | .deciding exec _ _ | .settling exec _ _ => some exec.id
  | _ => none

def RunCall.isExpiring : RunCall → Bool
  | .expiring _ _ => true
  | _ => false

/-- A call that writes finds its row in the state it knows, and `ExpireStaleRuns` expires no run that is being
executed. -/
def RunAction.Undisturbed {G : Type} (st : RunService G) : RunAction G → Prop
  | .proceed g true =>
    ∀ w ∈ (st.calls g).pendingWrite, ProbeRunTable.state? st.rows w.1 = some w.2.1 ∧
      ((st.calls g).isExpiring = true → ∀ g', (st.calls g').held ≠ some w.1)
  | _ => True

instance {G : Type} [Fintype G] (st : RunService G) : ∀ a : RunAction G, Decidable (a.Undisturbed st)
  | .proceed _ true => inferInstanceAs (Decidable (∀ w ∈ _, _))
  | .proceed _ false | .execute _ _ | .cancel _ _ | .expireStaleRuns _ _ | .workReturns _ _ | .callerDone _
  | .deadlinePasses _ => isTrue trivial

section

variable {G : Type}

def RunCall.Sound : RunCall → Prop
  | .marking run => run.state = .queued
  | .deciding _ _ known => known = .running
  | .settling _ known state => known = .running ∧ ProbeRunState.running.canTransitionTo state = true
  | .cancelling run => run.state.isTerminal = false
  | .expiring _ pending | .releasing _ _ pending => ∀ run ∈ pending, run.state.isTerminal = false
  | _ => True

theorem RunCall.Sound.permits {call : RunCall} (h : call.Sound) {w : String × ProbeRunState × ProbeRunState}
    (hw : call.pendingWrite = some w) : w.2.1.canTransitionTo w.2.2 = true := by
  cases call with
  | marking run =>
    cases hw
    rw [show run.state = .queued from h]
    rfl
  | settling exec known state =>
    cases hw
    rw [h.1]
    exact h.2
  | cancelling run =>
    cases hw
    exact canTransitionTo_ending h (.inl rfl)
  | expiring now pending =>
    cases pending with
    | nil => cases hw
    | cons run pending =>
      rw [pendingWrite] at hw
      split_ifs at hw
      cases hw
      exact canTransitionTo_ending (h run List.mem_cons_self) (.inr rfl)
  | _ => cases hw

theorem RunExecution.canTransitionTo_finalState (exec : RunExecution) (execErr : Option WorkError) :
    running.canTransitionTo (exec.finalState execErr) = true := by
  cases execErr with
  | none => rfl
  | some err =>
    rw [finalState]
    split_ifs <;> rfl

/-- A run that is held is running or cancelled, and held by one call. -/
structure RunService.Consistent (st : RunService G) : Prop where
  sound : ∀ g, (st.calls g).Sound
  held : ∀ g id, (st.calls g).held = some id →
    ProbeRunTable.state? st.rows id = some .running ∨ ProbeRunTable.state? st.rows id = some .cancelled
  exclusive : ∀ g g' id, (st.calls g).held = some id → (st.calls g').held = some id → g = g'

namespace RunService

variable {st : RunService G}

theorem consistent_start (rows : ProbeRunTable) (controllers : List RunController) (active : String → Option ℕ) :
    (start G rows controllers active).Consistent where
  sound _ := trivial
  held _ _ h := by cases h
  exclusive _ _ _ h := by cases h

theorem Consistent.of_calls {st' : RunService G} (h : st.Consistent) (hr : st'.rows = st.rows)
    (hsd : ∀ g, (st'.calls g).Sound)
    (hh : ∀ g id, (st'.calls g).held = some id → (st.calls g).held = some id) : st'.Consistent where
  sound := hsd
  held g id hg := by
    rw [hr]
    exact h.held g id (hh g id hg)
  exclusive g g' id hg hg' := h.exclusive g g' id (hh g id hg) (hh g' id hg')

theorem sound_propagate {call : RunCall} (ctrl : ℕ) (err : ContextError) (h : call.Sound) :
    (call.propagate ctrl err).Sound := by
  cases call <;> exact h

theorem held_propagate (call : RunCall) (ctrl : ℕ) (err : ContextError) :
    (call.propagate ctrl err).held = call.held := by
  have hid (exec : RunExecution) : (RunCall.propagate.inherit ctrl err exec).id = exec.id := by
    rw [RunCall.propagate.inherit]
    split_ifs <;> rfl
  cases call <;> first | rfl | exact congrArg some (hid _)

theorem Consistent.cancelController (h : st.Consistent) (ctrl : ℕ) (err : ContextError) :
    (st.cancelController ctrl err).Consistent := by
  apply h.of_calls (by rfl)
  · exact fun g => sound_propagate ctrl err (h.sound g)
  · intro g id hid
    rw [← held_propagate (st.calls g) ctrl err]
    exact hid

theorem Consistent.withMaps (h : st.Consistent) (controllers : List RunController) (active : String → Option ℕ) :
    ({ st with controllers := controllers, active := active } : RunService G).Consistent :=
  h.of_calls rfl h.sound fun _ _ hid => hid

theorem Consistent.dropController (h : st.Consistent) (id : String) (delete : Bool) :
    (st.dropController id delete).Consistent := by
  rw [RunService.dropController]
  split
  · exact h
  · next ctrl _ =>
    have hc := h.cancelController ctrl .canceled
    split_ifs
    · exact hc.withMaps _ _
    · exact hc

theorem rows_dropController (st : RunService G) (id : String) (delete : Bool) :
    (st.dropController id delete).rows = st.rows := by
  rw [dropController]
  split
  · rfl
  · split_ifs <;> rfl

theorem state?_of_undisturbed {g : G} (hu : (RunAction.proceed g true).Undisturbed st) {id : String}
    {known state : ProbeRunState} (hw : (st.calls g).pendingWrite = some (id, known, state)) :
    state? st.rows id = some known :=
  (hu _ (Option.mem_def.mpr hw)).1

variable [DecidableEq G]

theorem calls_setCall_self (st : RunService G) (g : G) (call : RunCall) : (st.setCall g call).calls g = call :=
  update_self (β := fun _ => RunCall) g call st.calls

theorem calls_setCall_of_ne (st : RunService G) {g g' : G} (h : g' ≠ g) (call : RunCall) :
    (st.setCall g call).calls g' = st.calls g' :=
  update_of_ne (β := fun _ => RunCall) h call st.calls

theorem Consistent.setCall (h : st.Consistent) {g : G} {call : RunCall} (hsd : call.Sound)
    (hh : ∀ id, call.held = some id → (st.calls g).held = some id) : (st.setCall g call).Consistent := by
  apply h.of_calls (by rfl)
  · intro g'
    by_cases hg : g' = g
    · rw [hg, calls_setCall_self]
      exact hsd
    · rw [calls_setCall_of_ne _ hg]
      exact h.sound g'
  · intro g' id hid
    by_cases hg : g' = g
    · rw [hg, calls_setCall_self] at hid
      rw [hg]
      exact hh id hid
    · rw [calls_setCall_of_ne _ hg] at hid
      exact hid

/-- A write keeps the service consistent if the row's holders, its writer apart, find it cancelled. -/
theorem Consistent.writeState (h : st.Consistent) {g : G} (ok : Bool) {id : String} {state : ProbeRunState}
    {next failed : RunCall} (hne : next.Sound) (hfe : failed.Sound) (hf : failed.held = none)
    (hot : ok = true → ∀ g', g' ≠ g → (st.calls g').held = some id → state = .cancelled)
    (hh : ok = true → ∀ id', next.held = some id' →
      id' = id ∧ state = .running ∧ ∀ g', g' ≠ g → (st.calls g').held ≠ some id) :
    (st.writeState g ok id state next failed).Consistent := by
  have hfa : (st.setCall g failed).Consistent := by
    apply h.setCall hfe
    intro id' hi'
    rw [hf] at hi'
    cases hi'
  unfold RunService.writeState
  split
  · next rows hr =>
    have hst := updateState_eq_some hr
    have hs : state? rows id = some state := by
      rw [hst, update_self]
    -- a holder other than the writer holds another row, or finds this one cancelled
    have ho (g' : G) (id' : String) (hg' : g' ≠ g) (hi' : (st.calls g').held = some id') :
        state? rows id' = some .running ∨ state? rows id' = some .cancelled := by
      by_cases heq : id' = id
      · rw [heq] at hi' ⊢
        rw [hs, hot rfl g' hg' hi']
        exact .inr rfl
      · rw [hst, update_of_ne heq]
        exact h.held g' id' hi'
    constructor
    · intro g'
      by_cases hg : g' = g
      · rw [hg, calls_setCall_self]
        exact hne
      · rw [calls_setCall_of_ne _ hg]
        exact h.sound g'
    · intro g' id' hi'
      by_cases hg : g' = g
      · rw [hg, calls_setCall_self] at hi'
        obtain ⟨heq, hru, _⟩ := hh rfl id' hi'
        rw [heq]
        exact .inl (hs.trans (congrArg some hru))
      · rw [calls_setCall_of_ne _ hg] at hi'
        exact ho g' id' hg hi'
    · intro g₁ g₂ id' h₁ h₂
      by_cases hg₁ : g₁ = g
      · by_cases hg₂ : g₂ = g
        · exact hg₁.trans hg₂.symm
        · rw [hg₁, calls_setCall_self] at h₁
          rw [calls_setCall_of_ne _ hg₂] at h₂
          obtain ⟨heq, _, hn⟩ := hh rfl id' h₁
          exact absurd (heq ▸ h₂) (hn g₂ hg₂)
      · rw [calls_setCall_of_ne _ hg₁] at h₁
        by_cases hg₂ : g₂ = g
        · rw [hg₂, calls_setCall_self] at h₂
          obtain ⟨heq, _, hn⟩ := hh rfl id' h₂
          exact absurd (heq ▸ h₁) (hn g₁ hg₁)
        · rw [calls_setCall_of_ne _ hg₂] at h₂
          exact h.exclusive g₁ g₂ id' h₁ h₂
  · exact hfa

theorem Consistent.takeController (h : st.Consistent) {g : G} {run : ProbeRun} (hc : st.calls g = .starting run) :
    (st.takeController g run).Consistent := by
  have hh : (st.calls g).held = some run.id := by
    rw [hc]
    rfl
  rw [RunService.takeController]
  split
  · exact h.setCall trivial fun id hid => hh.trans hid
  · exact (h.withMaps _ _).setCall trivial fun id hid => hh.trans hid

theorem Consistent.proceed (h : st.Consistent) (g : G) (ok : Bool)
    (hu : (RunAction.proceed g ok).Undisturbed st) : (st.proceed g ok).Consistent := by
  have hsd := h.sound g
  rw [RunService.proceed]
  cases hca : st.calls g with
  | idle | working exec => exact h
  | marking run =>
    -- a queued run is held by no call
    have hf (hok : ok = true) (g' : G) : (st.calls g').held ≠ some run.id := by
      intro hid
      rw [hok] at hu
      rw [hca] at hsd
      have hs := state?_of_undisturbed hu (congrArg RunCall.pendingWrite hca)
      rw [show run.state = .queued from hsd] at hs
      have hh := h.held g' run.id hid
      rw [hs] at hh
      rcases hh with hc | hc <;> cases hc
    refine h.writeState ok trivial trivial rfl ?_ ?_
    · exact fun hok g' _ hid => absurd hid (hf hok g')
    · exact fun hok id hid => ⟨(Option.some.inj hid).symm, rfl, fun g' _ => hf hok g'⟩
  | starting run => exact h.takeController hca
  | rechecking exec execErr =>
    have hh : (st.calls g).held = some exec.id := by
      rw [hca]
      rfl
    dsimp only
    split
    · next current hcu =>
      have hs := h.held g exec.id hh
      rw [state?, hcu] at hs
      split_ifs with hcn
      · exact h.setCall trivial fun _ hid => by cases hid
      · -- a held run that is not cancelled is running
        have hru : current.state = .running :=
          Option.some.inj (hs.resolve_right fun hc => hcn (Option.some.inj hc))
        exact h.setCall hru fun id hid => hh.trans hid
    · exact h.setCall rfl fun id hid => hh.trans hid
  | deciding exec execErr known =>
    rw [hca] at hsd
    have hn : (RunCall.settling exec known (exec.finalState execErr)).Sound :=
      ⟨hsd, exec.canTransitionTo_finalState execErr⟩
    refine h.setCall hn ?_
    intro id hid
    rw [hca]
    exact hid
  | settling exec known state =>
    have hh : (st.calls g).held = some exec.id := by
      rw [hca]
      rfl
    refine h.writeState ok trivial trivial rfl ?_ ?_
    · exact fun _ g' hg' hid => absurd (h.exclusive g' g exec.id hid hh) hg'
    · exact fun _ _ hid => by cases hid
  | leaving id => exact (h.withMaps _ _).setCall trivial fun _ hid => by cases hid
  | cancelling run =>
    refine h.writeState ok trivial trivial rfl ?_ ?_
    · exact fun _ _ _ _ => rfl
    · exact fun _ _ hid => by cases hid
  | broadcasting run => exact (h.dropController run.id _).setCall trivial fun _ hid => by cases hid
  | expiring now pending =>
    rw [hca] at hsd
    cases pending with
    | nil => exact h.setCall trivial fun _ hid => by cases hid
    | cons run pending =>
      have hp : ∀ r ∈ pending, r.state.isTerminal = false := fun r hr => hsd r (List.mem_cons_of_mem run hr)
      dsimp only
      split_ifs with hno
      · refine h.writeState ok hp hp rfl ?_ ?_
        · intro hok g' _ hid
          rw [hok] at hu
          have hw : (st.calls g).pendingWrite = some (run.id, run.state, .expired) := by
            rw [hca]
            exact if_pos hno
          have he : (st.calls g).isExpiring = true := by
            rw [hca]
            rfl
          exact absurd hid ((hu _ (Option.mem_def.mpr hw)).2 he g')
        · exact fun _ _ hid => by cases hid
      · exact h.setCall hp fun _ hid => by cases hid
  | releasing id now pending =>
    rw [hca] at hsd
    have hn : (RunCall.expiring now pending).Sound := hsd
    exact (h.dropController id true).setCall hn fun _ hid => by cases hid

theorem Consistent.step (h : st.Consistent) (a : RunAction G) (hu : a.Undisturbed st) :
    (st.step a).Consistent := by
  cases a with
  | execute g id =>
    rw [RunService.step]
    split
    · next run hc hru =>
      split_ifs with hca
      · have hq : run.state = .queued := canTransitionTo_running hca
        exact h.setCall hq fun _ hid => by cases hid
      · exact h
    · exact h
  | cancel g id =>
    rw [RunService.step]
    split
    · next run hc hru =>
      split_ifs with ht
      · exact h
      · have hn : (RunCall.cancelling run).Sound := Bool.eq_false_iff.mpr ht
        exact h.setCall hn fun _ hid => by cases hid
    · exact h
  | expireStaleRuns g now =>
    rw [RunService.step]
    split
    · have hn : (RunCall.expiring now (listActive st.rows)).Sound := fun r hr => not_isTerminal_of_mem_listActive hr
      exact h.setCall hn fun _ hid => by cases hid
    · exact h
  | workReturns g execErr =>
    rw [RunService.step]
    split
    · next exec hc =>
      refine h.setCall trivial ?_
      intro id hid
      rw [hc]
      exact hid
    · exact h
  | proceed g ok => exact h.proceed g ok hu
  | callerDone g =>
    have hsd := h.sound g
    rw [RunService.step]
    split
    · next exec hc =>
      refine h.setCall trivial ?_
      intro id hid
      rw [hc]
      exact hid
    · next exec execErr hc =>
      refine h.setCall trivial ?_
      intro id hid
      rw [hc]
      exact hid
    · next exec execErr known hc =>
      rw [hc] at hsd
      have hkn : known = .running := hsd
      refine h.setCall hkn ?_
      intro id hid
      rw [hc]
      exact hid
    · exact h
  | deadlinePasses ctrl => exact h.cancelController ctrl .deadlineExceeded

theorem rows_takeController (st : RunService G) (g : G) (run : ProbeRun) :
    (st.takeController g run).rows = st.rows := by
  rw [takeController]
  split <;> rfl

theorem rows_writeState (st : RunService G) (g : G) (ok : Bool) (id : String) (state : ProbeRunState)
    (next failed : RunCall) : (st.writeState g ok id state next failed).rows = st.rows ∨
      ok = true ∧ updateState st.rows id state = some (st.writeState g ok id state next failed).rows := by
  unfold writeState
  split
  · next rows hr => exact .inr ⟨rfl, hr⟩
  · exact .inl rfl

theorem rows_proceed (st : RunService G) (g : G) (ok : Bool) :
    (st.proceed g ok).rows = st.rows ∨ ok = true ∧ ∃ w, (st.calls g).pendingWrite = some w ∧
      updateState st.rows w.1 w.2.2 = some (st.proceed g ok).rows := by
  rw [proceed]
  cases hcall : st.calls g with
  | idle | working exec | deciding exec execErr known | leaving id => exact .inl rfl
  | marking run | settling exec known state | cancelling run =>
    exact (rows_writeState st g ok _ _ _ _).imp_right fun h => ⟨h.1, _, rfl, h.2⟩
  | starting run => exact .inl (rows_takeController st g run)
  | rechecking exec execErr =>
    dsimp only
    split
    · split_ifs <;> exact .inl rfl
    · exact .inl rfl
  | broadcasting run => exact .inl (rows_dropController st run.id _)
  | expiring now pending =>
    cases pending with
    | nil => exact .inl rfl
    | cons run pending =>
      dsimp only
      split_ifs with hn
      · exact (rows_writeState st g ok _ _ _ _).imp_right fun h => ⟨h.1, _, if_pos hn, h.2⟩
      · exact .inl rfl
  | releasing id now pending => exact .inl (rows_dropController st id true)

theorem rows_step (st : RunService G) (a : RunAction G) : (st.step a).rows = st.rows ∨
    ∃ g, a = .proceed g true ∧ ∃ w, (st.calls g).pendingWrite = some w ∧
      updateState st.rows w.1 w.2.2 = some (st.step a).rows := by
  cases a with
  | proceed g ok =>
    refine (rows_proceed st g ok).imp_right fun h => ?_
    obtain ⟨hok, hw⟩ := h
    rw [hok] at hw ⊢
    exact ⟨g, rfl, hw⟩
  | deadlinePasses ctrl => exact .inl rfl
  | _ =>
    left
    rw [step]
    repeat' split
    all_goals rfl

theorem Consistent.follows (h : st.Consistent) (a : RunAction G) (hu : a.Undisturbed st) :
    Lifecycle.Follows (fun s s' => s.canTransitionTo s' = true) (state? st.rows)
      (state? (st.step a).rows) := by
  rcases rows_step st a with hr | ⟨g, ha, w, hw, hr⟩
  · apply Lifecycle.Follows.of_keeps
    intro id s hs
    rw [hr]
    exact hs
  · rw [ha] at hu
    exact .of_update (state?_of_undisturbed hu hw) ((h.sound g).permits hw) (updateState_eq_some hr)

/-- A run in a terminal state stays in it as long as every call that writes finds its row in the state it knows
and `ExpireStaleRuns` leaves the runs alone that are being executed. -/
theorem terminal_runs_final (rows : ProbeRunTable) (controllers : List RunController) (active : String → Option ℕ)
    (before later : List (RunAction G))
    (halong : Along step RunAction.Undisturbed (start G rows controllers active) (before ++ later))
    {id : String} {s : ProbeRunState} (hterminal : s.isTerminal = true)
    (hs : ProbeRunTable.state? (run step (start G rows controllers active) before).rows id = some s) :
    ProbeRunTable.state? (run step (start G rows controllers active) (before ++ later)).rows id = some s := by
  have hf := halong.imp (fun st a (h : st.Consistent) hu => h.step a hu) (fun st a h hu => h.follows a hu)
    (consistent_start rows controllers active)
  rw [run_append]
  exact Lifecycle.final_run hf.of_append (not_canTransitionTo hterminal) hs

end RunService

end

section

def sampleRuns : ProbeRunTable := ⟨[{ id := "r", state := .queued, deadlineAt := 10 }], by decide⟩

def oneRun : RunService (Fin 2) := .start (Fin 2) sampleRuns [] fun _ => none

/-- The statements of an `Execute` whose workload succeeds. -/
def succeeding : List (RunAction (Fin 2)) :=
  [.execute 0 "r", .proceed 0 true, .proceed 0 true, .workReturns 0 none, .proceed 0 true, .proceed 0 true, .proceed 0 true]

/-- A `Cancel` and an `ExpireStaleRuns` afterwards. -/
theorem terminal_runs_final_succeeded : ProbeRunTable.state? (run RunService.step oneRun
      (succeeding ++ [.cancel 1 "r", .proceed 0 true, .expireStaleRuns 1 20, .proceed 1 true])).rows "r" =
        some .succeeded :=
  RunService.terminal_runs_final sampleRuns [] (fun _ => none) succeeding _ (by decide) rfl (by decide +kernel)

/-- `ExpireStaleRuns` expires a run whose workload is about to succeed; `Execute` then checks for `cancelled`
only and writes `succeeded` over it. -/
theorem exists_rewritten_terminal_run : ∃ before later : List (RunAction (Fin 2)),
    ProbeRunTable.state? (run RunService.step oneRun before).rows "r" = some .expired ∧
      ProbeRunTable.state? (run RunService.step oneRun (before ++ later)).rows "r" = some .succeeded :=
  ⟨[.execute 0 "r", .proceed 0 true, .proceed 0 true, .expireStaleRuns 1 20, .proceed 1 true],
    [.workReturns 0 none, .proceed 0 true, .proceed 0 true, .proceed 0 true], by decide⟩

end

end ClashSubParser
