import ClashSubParser.BatchEffects
import ClashSubParser.Lifecycle

/-! The stored state of a probe batch under concurrent executions, cancellations and recoveries, each of
which writes the state of a copy. -/
namespace ClashSubParser

open Function KeyedTable ActionRuns

theorem ProbeBatchState.not_canTransitionTo {s : ProbeBatchState} (h : s.isTerminal = true) (t : ProbeBatchState) :
    ¬ s.canTransitionTo t = true := by
  revert h
  cases s <;> cases t <;> decide

theorem ProbeBatchState.canTransitionTo_expired {s : ProbeBatchState} : s.isTerminal = false →
    s.canTransitionTo .expired = true := by
  cases s <;> decide

theorem ProbeBatch.state_moveTo (b : ProbeBatch) (t : ProbeBatchState) :
    (b.moveTo t).state = b.state ∨ b.state.canTransitionTo (b.moveTo t).state = true := by
  rw [moveTo]
  split_ifs with h
  · exact .inr h
  · exact .inl rfl

/-! ### The state column -/

section

variable {rows rows' : ProbeBatchTable} {batch : ProbeBatch} {id owner : String} {now : Time} {duration : Int}

theorem state?_createBatch (h : createBatch rows batch = some rows') {k : String} {s : ProbeBatchState}
    (hs : rows.state? k = some s) : rows'.state? k = some s := by
  obtain ⟨hf, hr⟩ := createBatch_eq_some h
  rw [hr]
  exact rows.map_get?_insert ProbeBatch.state hf hs

theorem state?_updateBatch (h : updateBatch rows batch now = some rows') :
    rows'.state? = update rows.state? batch.id (some batch.state) := by
  obtain ⟨b, hb, hr⟩ := updateBatch_eq_some h
  rw [hr]
  exact rows.map_get?_put ProbeBatch.state (Table.get?_eq_some.mp hb).2

theorem state?_acquireLease (h : acquireLease rows id owner duration now = some rows') :
    rows'.state? = rows.state? := by
  obtain ⟨b, hb, _, _, hr⟩ := acquireLease_eq_some h
  rw [hr]
  exact rows.map_get?_put_of_eq ProbeBatch.state hb rfl rfl

theorem state?_heartbeatLease (h : heartbeatLease rows id owner duration now = some rows') :
    rows'.state? = rows.state? := by
  obtain ⟨b, hb, _, hr⟩ := heartbeatLease_eq_some h
  rw [hr]
  exact rows.map_get?_put_of_eq ProbeBatch.state hb rfl rfl

theorem state?_releaseLease : (releaseLease rows id owner now).state? = rows.state? := by
  rcases releaseLease_cases rows id owner now with hr | ⟨b, hb, _, hr⟩
  · rw [hr]
  · rw [hr]
    exact rows.map_get?_put_of_eq ProbeBatch.state hb rfl rfl

end

/-! ### Undisturbed runs -/

section

variable {C G : Type}

/-- A call that writes finds its row in the state it has last read or written. -/
def BatchAction.Undisturbed (st : BatchSystem C G) : BatchAction C G → Prop
  | .proceed g reply =>
    ∀ w ∈ (st.calls g).pendingWrite, reply.ok = true → ProbeBatchTable.state? st.batches w.1.id = some w.2
  | _ => True

instance BatchAction.decidableUndisturbed (st : BatchSystem C G) : ∀ a : BatchAction C G, Decidable (a.Undisturbed st)
  | .proceed _ _ => inferInstanceAs (Decidable (∀ w ∈ _, _))
  | .create _ _ _ _ _ _ | .execute _ _ _ _ | .cancelBatch _ _ _ | .recover _ _ | .heartbeat _ _ | .ctxDone _
  | .writeRuns _ => isTrue trivial

theorem BatchCall.Sound.permits {call : BatchCall C} (h : call.Sound) {w : ProbeBatch × ProbeBatchState}
    (hw : call.pendingWrite = some w) : w.1.state = w.2 ∨ w.2.canTransitionTo w.1.state = true := by
  cases call with
  | executing x phase =>
    obtain ⟨b, hb, rfl⟩ := Option.map_eq_some_iff.mp hw
    have hkn : x.batch.state = x.known := by
      rcases h with hph | hph | hkn
      · rw [hph] at hb
        cases hb
      · rw [hph] at hb
        cases hb
      · exact hkn
    rw [← hkn]
    cases phase with
    | marking =>
      rw [BatchPhase.written] at hb
      split_ifs at hb
      rw [← Option.some.inj hb]
      exact x.batch.state_moveTo .running
    | checked next =>
      cases next with
      | recording chunks runs | reporting todo ha =>
        rw [BatchPhase.written] at hb
        split_ifs at hb
        rw [← Option.some.inj hb]
        exact .inl rfl
      | closing t =>
        rw [← Option.some.inj hb]
        exact x.batch.state_moveTo t
      | _ => cases hb
    | _ => cases hb
  | cancelling coordinator batch =>
    rw [← Option.some.inj hw]
    exact batch.state_moveTo .cancelled
  | recovering now page total pending =>
    cases pending with
    | nil => cases hw
    | cons b pending =>
      rw [pendingWrite] at hw
      split_ifs at hw with he
      rw [← Option.some.inj hw]
      right
      have ho : b.state.isTerminal = false := by
        rw [Bool.and_eq_true, Bool.not_eq_true'] at he
        exact he.1
      exact ProbeBatchState.canTransitionTo_expired ho
  | _ => cases hw

def BatchSystem.Sound (st : BatchSystem C G) : Prop := ∀ g, (st.calls g).Sound

theorem BatchSystem.sound_start (bs : ProbeBatchTable) (runs : ProbeRunTable) : (start C G bs runs).Sound :=
    fun _ => trivial

end

section

variable {C G : Type} [DecidableEq G]

namespace BatchSystem

variable {st : BatchSystem C G}

theorem Sound.of_update {st' : BatchSystem C G} (h : st.Sound) {g : G} {call : BatchCall C}
    (hcs : st'.calls = update st.calls g call) (hc : call.Sound) : st'.Sound := by
  intro g'
  rw [hcs]
  by_cases hg : g' = g
  · rw [hg, update_self]
    exact hc
  · rw [update_of_ne hg]
    exact h g'

theorem Sound.writeBatch (h : st.Sound) (g : G) (ok : Bool) (now : Time) (batch : ProbeBatch)
    {next failed : BatchCall C} (hn : next.Sound) (hf : failed.Sound) :
    (st.writeBatch g ok now batch next failed).Sound := by
  rcases st.writeBatch_cases g ok now batch next failed with ⟨batches, _, _, heq⟩ | heq
  · exact h.of_update (congrArg calls heq) hn
  · exact h.of_update (congrArg calls heq) hf

theorem Sound.interrupt (h : st.Sound) (c : Option C) (bid : String) :
    (st.interrupt c bid).Sound := by
  rw [BatchSystem.interrupt]
  split
  · exact h
  · next g _ =>
    split
    · next x phase hc =>
      have hg := h g
      rw [hc] at hg
      exact h.of_update rfl hg
    · exact h

variable [DecidableEq C] {rt : Runtime} {cfg : C → Coordinator}

theorem Sound.step (h : st.Sound) (a : BatchAction C G) : (st.step rt cfg a).Sound := by
  cases a with
  | create g c sched bid windowAt now =>
    rw [BatchSystem.step]
    split
    · exact h.of_update rfl (.inr (.inr rfl))
    · exact h
  | execute g c sched bid =>
    rw [BatchSystem.step]
    split
    · split_ifs
      · exact h
      · exact h.of_update rfl (.inr (.inr rfl))
    · exact h
  | cancelBatch g c bid =>
    rw [BatchSystem.step]
    split
    · split_ifs
      · exact h
      · exact h.of_update rfl trivial
    · exact h
  | recover g now =>
    rw [BatchSystem.step]
    split
    · exact h.of_update rfl trivial
    · exact h
  | proceed g reply =>
    rw [BatchSystem.step, proceed]
    have hg := h g
    cases hc : st.calls g with
    | idle => exact h
    | executing x phase =>
      rw [hc] at hg
      obtain ⟨call, hcs, hco⟩ := st.calls_advance g x reply phase hg
      exact h.of_update hcs hco.sound
    | cancelling c batch => exact h.writeBatch g _ _ _ trivial trivial
    | interrupting c bid => exact (h.interrupt c bid).of_update rfl trivial
    | paging now page =>
      dsimp only
      split_ifs <;> exact h.of_update rfl trivial
    | recovering now page total pending =>
      cases pending with
      | nil =>
        refine h.of_update rfl ?_
        split_ifs <;> trivial
      | cons b pending =>
        dsimp only
        split_ifs
        · exact h.writeBatch g _ _ _ trivial trivial
        · exact h.of_update rfl trivial
  | heartbeat g reply =>
    rw [BatchSystem.step, beat]
    split
    · exact h
    · exact h
    · next x phase _ _ hc =>
      dsimp only
      split
      · exact h
      · have hg := h g
        rw [hc] at hg
        exact h.of_update rfl hg
    · exact h
  | ctxDone g =>
    rw [BatchSystem.step]
    split
    · next x phase hc =>
      have hg := h g
      rw [hc] at hg
      exact h.of_update rfl hg
    · exact h
  | writeRuns runs => exact h

/-- Each batch stays, and its state changes only as `CanTransitionTo` permits. -/
def Lawful (rt : Runtime) (cfg : C → Coordinator) (st : BatchSystem C G) (a : BatchAction C G) : Prop :=
  Lifecycle.Follows (fun s s' => s.canTransitionTo s' = true) (ProbeBatchTable.state? st.batches)
    (ProbeBatchTable.state? (st.step rt cfg a).batches)

theorem Sound.lawful (h : st.Sound) (a : BatchAction C G) (hu : a.Undisturbed st) : st.Lawful rt cfg a := by
  have he : RowsEffect cfg st a (st.step rt cfg a).batches := st.rowsEffect_step a
  rw [Lawful]
  generalize (st.step rt cfg a).batches = rows at he ⊢
  cases he with
  | kept => exact .of_keeps fun _ _ hs => hs
  | created g coordinator sched batchID windowAt now hc hr => exact .of_keeps fun _ _ hs => state?_createBatch hr hs
  | acquired g reply hc hok hr => exact .of_keeps fun id s hs => (congrFun (state?_acquireLease hr) id).trans hs
  | renewed g reply hc ha hre hok hr =>
    exact .of_keeps fun id s hs => (congrFun (state?_heartbeatLease hr) id).trans hs
  | released g reply hc => exact .of_keeps fun id s hs => (congrFun state?_releaseLease id).trans hs
  | updated g reply w hw hok hr =>
    have hst := hu w (Option.mem_def.mpr hw) hok
    rcases (h g).permits hw with hsa | hp
    · -- the copy is written with the state the row has
      have heq : rows.state? = ProbeBatchTable.state? st.batches := by
        rw [state?_updateBatch hr, hsa]
        exact update_eq_self_iff.mpr hst.symm
      exact .of_keeps fun id s hs => (congrFun heq id).trans hs
    · exact .of_update hst hp (state?_updateBatch hr)

/-- As long as every call that writes finds its row in the state it has last read or written, states change only
as the lifecycle permits, and a terminal state stays. -/
theorem batch_states_lawful (rt : Runtime) (cfg : C → Coordinator) (batches : ProbeBatchTable) (runs : ProbeRunTable)
    (before later : List (BatchAction C G))
    (halong : Along (step rt cfg) BatchAction.Undisturbed (start C G batches runs) (before ++ later)) :
    Along (step rt cfg) (Lawful rt cfg) (start C G batches runs) (before ++ later) ∧ ∀ id s, s.isTerminal = true →
      ProbeBatchTable.state? (run (step rt cfg) (start C G batches runs) before).batches id = some s →
      ProbeBatchTable.state? (run (step rt cfg) (start C G batches runs) (before ++ later)).batches id = some s := by
  have hl : Along (step rt cfg) (Lawful rt cfg) (start C G batches runs) (before ++ later) :=
    halong.imp (fun st a (h : st.Sound) _ => h.step a) (fun st a h hu => h.lawful a hu) (sound_start batches runs)
  refine ⟨hl, fun id s ht hs => ?_⟩
  rw [run_append]
  exact Lifecycle.final_run hl.of_append (ProbeBatchState.not_canTransitionTo ht) hs

/-- For samples with two callers. -/
scoped instance neZero_two : NeZero 2 := ⟨by decide⟩

end BatchSystem

end

section

open scoped BatchSystem

def sampleCoordinator (c : Fin 2) : Coordinator :=
  { ownerID := if c = 0 then "a" else "b", leaseDuration := 60000000000 }

def sampleSchedule : ProbeSchedule := { intervalSeconds := 3600, kinds := [.baseline], generation := 1 }

def noBatches : BatchSystem (Fin 2) (Fin 2) := .start (Fin 2) (Fin 2) .empty .empty

abbrev sampleStep : BatchSystem (Fin 2) (Fin 2) → BatchAction (Fin 2) (Fin 2) → BatchSystem (Fin 2) (Fin 2) :=
  BatchSystem.step asciiRuntime sampleCoordinator

def marked : List (BatchAction (Fin 2) (Fin 2)) :=
  [.create 0 0 sampleSchedule "b" 0 0, .proceed 0 { now := 0 }, .proceed 0 { now := 0 }, .proceed 0 { now := 0 }]

def closed : List (BatchAction (Fin 2) (Fin 2)) :=
  [.proceed 0 { now := 0 }, .proceed 0 { now := 0 }, .proceed 0 { now := 0 }]

/-- A batch that has succeeded can be neither cancelled nor recovered. -/
theorem batch_states_lawful_succeeded : ProbeBatchTable.state? (run sampleStep noBatches ((marked ++ closed) ++
      [.cancelBatch 1 none "b", .recover 1 100, .proceed 1 { now := 100 }, .proceed 1 { now := 100 }])).batches "b" =
        some .succeeded :=
  (BatchSystem.batch_states_lawful asciiRuntime sampleCoordinator .empty .empty (marked ++ closed) _
    (by decide)).2 "b" .succeeded rfl (by decide +kernel)

/-- `CancelBatch` writes `cancelled` while an execution lists the nodes; its copy is `running`, and it closes the
batch as succeeded. -/
theorem exists_rewritten_terminal_batch : ∃ before later : List (BatchAction (Fin 2) (Fin 2)),
    ProbeBatchTable.state? (run sampleStep noBatches before).batches "b" = some .cancelled ∧
      ProbeBatchTable.state? (run sampleStep noBatches (before ++ later)).batches "b" = some .succeeded :=
  ⟨marked ++ [.cancelBatch 1 none "b", .proceed 1 { now := 0 }], closed, by decide⟩

end

end ClashSubParser
