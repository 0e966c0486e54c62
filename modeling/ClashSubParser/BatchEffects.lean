import ClashSubParser.ProbeBatches

/-! What the statements of probe batches do to a row, and what each step of the system does to the calls and to
the rows. -/
namespace ClashSubParser

open KeyedTable

/-! ### The statements -/

section

variable {rows rows' : ProbeBatchTable} {batch : ProbeBatch} {id owner : String} {now : Time} {duration : Int}

theorem createBatch_eq_some (h : createBatch rows batch = some rows') :
    ∃ hf : batch.id ∉ rows.keys, rows' = rows.insert batch hf := by
  rw [createBatch] at h
  split_ifs at h with hf
  exact ⟨hf.1, (Option.some.inj h).symm⟩

theorem updateBatch_eq_some (h : updateBatch rows batch now = some rows') : ∃ b, rows.get? batch.id = some b ∧ rows' =
    rows.put
      { b with
        state := batch.state
        runIDs := batch.runIDs
        counts := batch.counts
        redactedError := batch.redactedError
        updatedAt := now.truncate } := by
  rw [updateBatch, Option.map_eq_some_iff] at h
  obtain ⟨b, hb, hr⟩ := h
  exact ⟨b, hb, hr.symm⟩

theorem acquireLease_eq_some (h : acquireLease rows id owner duration now = some rows') :
    ∃ b, rows.get? id = some b ∧ owner ≠ "" ∧
      (b.owner = "" ∨ b.owner = owner ∨ ∀ t ∈ b.leaseUntil, t < now.truncate) ∧
      rows' = rows.put
        { b with owner := owner, leaseUntil := some (now + duration).truncate, updatedAt := now.truncate } := by
  rw [acquireLease] at h
  split_ifs at h with hbl
  have ho : owner ≠ "" := by
    intro he
    rw [he] at hbl
    exact hbl (.inr rfl)
  split at h
  · cases h
  · next b hb =>
    split_ifs at h with hf
    refine ⟨b, hb, ho, ?_, (Option.some.inj h).symm⟩
    rw [Bool.and_eq_true, Bool.or_eq_true, Bool.or_eq_true, decide_eq_true_eq, decide_eq_true_eq, or_assoc] at hf
    refine hf.2.imp_right (Or.imp_right fun ha t ht => ?_)
    rw [Option.mem_def.mp ht] at ha
    exact of_decide_eq_true ha

theorem heartbeatLease_eq_some (h : heartbeatLease rows id owner duration now = some rows') :
    ∃ b, rows.get? id = some b ∧ b.owner = owner ∧
      rows' = rows.put { b with leaseUntil := some (now + duration).truncate, updatedAt := now.truncate } := by
  rw [heartbeatLease] at h
  split at h
  · cases h
  · next b hb =>
    split_ifs at h with hh
    exact ⟨b, hb, hh.1, (Option.some.inj h).symm⟩

theorem releaseLease_cases (rows : ProbeBatchTable) (id owner : String) (now : Time) :
    releaseLease rows id owner now = rows ∨ ∃ b, rows.get? id = some b ∧ b.owner = owner ∧
      releaseLease rows id owner now =
        rows.put { b with owner := "", leaseUntil := none, updatedAt := now.truncate } := by
  rw [releaseLease]
  split
  · exact .inl rfl
  · next b hb =>
    split_ifs with ho
    · exact .inr ⟨b, hb, ho, rfl⟩
    · exact .inl rfl

end

/-! ### Pending writes -/

section

variable {C G : Type}

def BatchPhase.written (x : BatchExecution C) : BatchPhase → Option ProbeBatch
  | .marking => if !x.done && x.batch.state.canTransitionTo .running then some (x.batch.moveTo .running) else none
  | .checked (.recording _ _) | .checked (.reporting _ _) => if x.done then none else some x.batch
  | .checked (.closing target) => some (x.batch.moveTo target)
  | _ => none

/-- The copy that a call is about to write, and the state it has last read or written. -/
def BatchCall.pendingWrite : BatchCall C → Option (ProbeBatch × ProbeBatchState)
  | .executing x phase => (phase.written x).map fun b => (b, x.known)
  | .cancelling _ batch => some (batch.moveTo .cancelled, batch.state)
  | .recovering now _ _ (b :: _) =>
    if !b.state.isTerminal && b.leaseUntil.all (· < now) then
      some ({ b with state := .expired, redactedError := "batch lease expired during startup recovery" }, b.state)
    else none
  | _ => none

theorem ProbeBatch.id_moveTo (b : ProbeBatch) (t : ProbeBatchState) : (b.moveTo t).id = b.id := by
  rw [moveTo]
  split_ifs <;> rfl

/-- An execution that may still write has a copy in the state it knows. -/
def BatchCall.Sound : BatchCall C → Prop
  | .executing x phase => phase = .checked .releasing ∨ phase = .leaving ∨ x.batch.state = x.known
  | _ => True

end

/-! ### What a step does -/

inductive RowsEffect {C G : Type} (cfg : C → Coordinator) (st : BatchSystem C G) :
    BatchAction C G → ProbeBatchTable → Prop
  | kept (a : BatchAction C G) : RowsEffect cfg st a st.batches
  | created (g : G) (coordinator : C) (sched : ProbeSchedule) (batchID : String) (windowAt now : Time)
      {batch : ProbeBatch} {rows : ProbeBatchTable} (hcall : st.calls g = .idle)
      (hrows : createBatch st.batches batch = some rows) :
      RowsEffect cfg st (.create g coordinator sched batchID windowAt now) rows
  | acquired (g : G) (reply : BatchReply) {x : BatchExecution C} {rows : ProbeBatchTable}
      (hcall : st.calls g = .executing x .acquiring) (hok : reply.ok = true)
      (hrows : acquireLease st.batches x.batch.id (cfg x.coordinator).ownerID (cfg x.coordinator).leaseDuration
        reply.now = some rows) : RowsEffect cfg st (.proceed g reply) rows
  | renewed (g : G) (reply : BatchReply) {x : BatchExecution C} {phase : BatchPhase} {rows : ProbeBatchTable}
      (hcall : st.calls g = .executing x phase) (hacquiring : phase ≠ .acquiring) (hregistering : phase ≠ .registering)
      (hok : (reply.ok && !x.done) = true)
      (hrows : heartbeatLease st.batches x.batch.id (cfg x.coordinator).ownerID (cfg x.coordinator).leaseDuration
        reply.now = some rows) : RowsEffect cfg st (.heartbeat g reply) rows
  | released (g : G) (reply : BatchReply) {x : BatchExecution C}
      (hcall : st.calls g = .executing x (.checked .releasing)) :
      RowsEffect cfg st (.proceed g reply) (releaseLease st.batches x.batch.id (cfg x.coordinator).ownerID reply.now)
  | updated (g : G) (reply : BatchReply) (w : ProbeBatch × ProbeBatchState) {rows : ProbeBatchTable}
      (hw : (st.calls g).pendingWrite = some w) (hok : reply.ok = true)
      (hrows : updateBatch st.batches w.1 reply.now = some rows) : RowsEffect cfg st (.proceed g reply) rows

section

variable {C G : Type} [DecidableEq G]

namespace BatchSystem

theorem writeBatch_cases (st : BatchSystem C G) (g : G) (ok : Bool) (now : Time) (batch : ProbeBatch)
    (next failed : BatchCall C) : (∃ bs, ok = true ∧ updateBatch st.batches batch now = some bs ∧
      st.writeBatch g ok now batch next failed = setCall { st with batches := bs } g next) ∨
    st.writeBatch g ok now batch next failed = st.setCall g failed := by
  unfold writeBatch
  split
  · next bs hb => exact .inl ⟨bs, rfl, hb, rfl⟩
  · exact .inr rfl

/-- An execution goes on or returns: it keeps its coordinator and batch, and a copy in the state it knows until
it only has to release its lease. -/
def Continues (x : BatchExecution C) : BatchCall C → Prop
  | .idle => True
  | .executing x' phase => x'.coordinator = x.coordinator ∧ x'.batch.id = x.batch.id ∧ phase ≠ .acquiring ∧
      (phase = .checked .releasing ∨ phase = .leaving ∨ x'.batch.state = x'.known)
  | _ => False

theorem Continues.sound {x : BatchExecution C} {call : BatchCall C} (h : Continues x call) : call.Sound := by
  cases call with
  | executing x' phase => exact h.2.2.2
  | _ => trivial

theorem calls_writeBatch (st : BatchSystem C G) (g : G) (ok : Bool) (now : Time) {x : BatchExecution C}
    (batch : ProbeBatch) {next failed : BatchCall C} (hn : Continues x next) (hf : Continues x failed) :
    ∃ call, (st.writeBatch g ok now batch next failed).calls = Function.update st.calls g call ∧ Continues x call := by
  rcases st.writeBatch_cases g ok now batch next failed with ⟨batches, _, _, heq⟩ | heq
  · exact ⟨next, congrArg calls heq, hn⟩
  · exact ⟨failed, congrArg calls heq, hf⟩

theorem batches_writeBatch (st : BatchSystem C G) (g : G) (ok : Bool) (now : Time) (batch : ProbeBatch)
    (next failed : BatchCall C) : (st.writeBatch g ok now batch next failed).batches = st.batches ∨
      ok = true ∧ updateBatch st.batches batch now = some (st.writeBatch g ok now batch next failed).batches := by
  rcases st.writeBatch_cases g ok now batch next failed with ⟨batches, hok, hb, heq⟩ | heq
  · rw [heq]
    exact .inr ⟨hok, hb⟩
  · rw [heq]
    exact .inl rfl

variable [DecidableEq C] {rt : Runtime} {cfg : C → Coordinator}

variable (st : BatchSystem C G)
include st

theorem calls_advance (g : G) (x : BatchExecution C) (reply : BatchReply) (phase : BatchPhase)
    (h : (BatchCall.executing x phase).Sound) :
    ∃ call, (st.advance rt cfg g x reply phase).calls = Function.update st.calls g call ∧ Continues x call := by
  -- the phases after which the copy no longer matters
  by_cases hr : phase = .checked .releasing
  · rw [hr]
    exact ⟨_, rfl, rfl, rfl, nofun, .inr (.inl rfl)⟩
  by_cases hl : phase = .leaving
  · rw [hl]
    exact ⟨.idle, rfl, trivial⟩
  have hkn : x.batch.state = x.known := (h.resolve_left hr).resolve_left hl
  have hs (phase' : BatchPhase) (hp' : phase' ≠ .acquiring) : Continues x (.executing x phase') :=
    ⟨rfl, rfl, hp', .inr (.inr hkn)⟩
  cases phase with
  | acquiring =>
    rw [advance]
    split
    · exact ⟨_, rfl, rfl, rfl, nofun, .inr (.inr hkn)⟩
    · exact ⟨.idle, rfl, trivial⟩
  | registering =>
    rw [advance]
    split
    · exact ⟨.idle, rfl, trivial⟩
    · exact ⟨_, rfl, hs _ nofun⟩
  | marking =>
    rw [advance]
    split_ifs
    · exact st.calls_writeBatch g _ _ _ ⟨rfl, x.batch.id_moveTo .running, nofun, .inr (.inr rfl)⟩
        ⟨rfl, x.batch.id_moveTo .running, nofun, .inl rfl⟩
    · exact ⟨_, rfl, hs _ nofun⟩
  | listing fetched =>
    rw [advance]
    dsimp only
    split_ifs
    · exact ⟨_, rfl, rfl, rfl, nofun, .inr (.inr hkn)⟩
    · exact ⟨_, rfl, rfl, rfl, nofun, .inr (.inr hkn)⟩
    · exact ⟨_, rfl, hs _ nofun⟩
    · exact ⟨_, rfl, rfl, rfl, nofun, .inr (.inr hkn)⟩
  | observing nodes candidates =>
    rw [advance]
    dsimp only
    split_ifs <;> exact ⟨_, rfl, rfl, rfl, nofun, .inr (.inr hkn)⟩
  | finding chunks runs =>
    rw [advance]
    split_ifs
    · split <;> exact ⟨_, rfl, hs _ nofun⟩
    · exact ⟨_, rfl, rfl, rfl, nofun, .inr (.inr hkn)⟩
  | inserting chunks runs =>
    rw [advance]
    split <;> exact ⟨_, rfl, hs _ nofun⟩
  | dispatching todo ha =>
    cases todo with
    | nil => exact ⟨_, rfl, hs _ nofun⟩
    | cons head todo =>
      rw [advance]
      split_ifs <;> exact ⟨_, rfl, hs _ nofun⟩
  | awaiting run chunk todo ha =>
    rw [advance]
    split <;> exact ⟨_, rfl, rfl, rfl, nofun, .inr (.inr hkn)⟩
  | checking next =>
    refine ⟨_, rfl, hs _ ?_⟩
    split_ifs <;> nofun
  | checked next =>
    cases next with
    | releasing => exact absurd rfl hr
    | refinding chunks runs =>
      rw [advance]
      split
      · exact ⟨_, rfl, hs _ nofun⟩
      · exact ⟨_, rfl, rfl, rfl, nofun, .inr (Or.inr hkn)⟩
    | recording chunks runs | reporting todo ha =>
      exact st.calls_writeBatch g _ _ _ ⟨rfl, rfl, nofun, Or.inr (Or.inr rfl)⟩ (hs _ nofun)
    | closing t =>
      exact st.calls_writeBatch g _ _ _ ⟨rfl, x.batch.id_moveTo t, nofun, Or.inl rfl⟩
        ⟨rfl, x.batch.id_moveTo t, nofun, Or.inl rfl⟩
  | leaving => exact absurd rfl hl

theorem rowsEffect_advance {g : G} {x : BatchExecution C} (reply : BatchReply) {phase : BatchPhase}
    (hc : st.calls g = .executing x phase) :
    RowsEffect cfg st (.proceed g reply) (st.advance rt cfg g x reply phase).batches := by
  have hw {b : ProbeBatch} (ok : Bool) (hb : ok = true → phase.written x = some b ∧ reply.ok = true)
      (next failed : BatchCall C) :
      RowsEffect cfg st (.proceed g reply) (st.writeBatch g ok reply.now b next failed).batches := by
    rcases st.batches_writeBatch g ok reply.now b next failed with heq | ⟨hok, hu⟩
    · rw [heq]
      exact .kept _
    · refine .updated g reply (b, x.known) ?_ (hb hok).2 hu
      rw [hc, BatchCall.pendingWrite, (hb hok).1]
      rfl
  -- a statement under `batchCtx` that succeeds finds the context alive
  have hl (h : (reply.ok && !x.done) = true) : x.done = false ∧ reply.ok = true := by
    rw [Bool.and_eq_true, Bool.not_eq_true'] at h
    exact h.symm
  cases phase with
  | acquiring =>
    rw [advance]
    split
    · next batches hok ha => exact .acquired g reply hc hok ha
    · exact .kept _
  | marking =>
    rw [advance]
    split_ifs with hca
    · refine hw _ (fun hok => ⟨?_, (hl hok).2⟩) _ _
      rw [BatchPhase.written, (hl hok).1]
      exact if_pos hca
    · exact .kept _
  | checked next =>
    cases next with
    | releasing =>
      change RowsEffect cfg st _ (if reply.ok = true then _ else st.batches)
      split_ifs
      · exact .released g reply hc
      · exact .kept _
    | recording chunks runs =>
      refine hw _ (fun hok => ⟨?_, (hl hok).2⟩) _ _
      rw [BatchPhase.written, (hl hok).1]
      rfl
    | reporting todo has =>
      refine hw _ (fun hok => ⟨?_, (hl hok).2⟩) _ _
      rw [BatchPhase.written, (hl hok).1]
      rfl
    | closing target => exact hw _ (fun hok => ⟨rfl, hok⟩) _ _
    | refinding chunks runs =>
      rw [advance]
      split <;> exact .kept _
  | dispatching todo has =>
    cases todo with
    | nil => exact .kept _
    | cons head todo =>
      rw [advance]
      split_ifs <;> exact .kept _
  | checking next | leaving => exact .kept _
  | listing fetched | observing nodes candidates =>
    rw [advance]
    dsimp only
    split_ifs <;> exact .kept _
  | _ =>
    rw [advance]
    repeat' split
    all_goals exact .kept _

theorem rowsEffect_proceed (g : G) (reply : BatchReply) :
    RowsEffect cfg st (.proceed g reply) (st.proceed rt cfg g reply).batches := by
  have hwr {w : ProbeBatch × ProbeBatchState} (hw : (st.calls g).pendingWrite = some w) (next failed : BatchCall C) :
      RowsEffect cfg st (.proceed g reply) (st.writeBatch g reply.ok reply.now w.1 next failed).batches := by
    rcases st.batches_writeBatch g reply.ok reply.now w.1 next failed with heq | ⟨hok, hu⟩
    · rw [heq]
      exact .kept _
    · exact .updated g reply w hw hok hu
  rw [proceed]
  cases hc : st.calls g with
  | idle => exact .kept _
  | executing x phase => exact st.rowsEffect_advance reply hc
  | cancelling c batch => exact hwr (congrArg BatchCall.pendingWrite hc) _ _
  | interrupting c bid =>
    have heq : (st.interrupt c bid).batches = st.batches := by
      rw [interrupt]
      repeat' split
      all_goals rfl
    rw [show ((st.interrupt c bid).setCall g .idle).batches = st.batches from heq]
    exact .kept _
  | paging now page =>
    dsimp only
    split_ifs <;> exact .kept _
  | recovering now page total pending =>
    cases pending with
    | nil => exact .kept _
    | cons b pending =>
      dsimp only
      split_ifs with he
      · have hw : (st.calls g).pendingWrite = some
            ({ b with state := .expired, redactedError := "batch lease expired during startup recovery" },
              b.state) := by
          rw [hc]
          exact if_pos he
        exact hwr hw _ _
      · exact .kept _

/-- What a step does to the rows of batches, whichever call takes it. -/
theorem rowsEffect_step (a : BatchAction C G) : RowsEffect cfg st a (st.step rt cfg a).batches := by
  cases a with
  | create g c sched bid windowAt now =>
    rw [step]
    split
    · next bs hc hcr => exact .created g c sched bid windowAt now hc hcr
    · exact .kept _
  | proceed g reply => exact st.rowsEffect_proceed g reply
  | heartbeat g reply =>
    rw [step, beat]
    split
    · exact .kept _
    · exact .kept _
    · next x phase ha hr hc =>
      dsimp only
      split
      · next bs hok hre => exact .renewed g reply hc ha hr hok hre
      · exact .kept _
    · exact .kept _
  | writeRuns runs => exact .kept _
  | _ =>
    rw [step]
    repeat' split
    all_goals exact .kept _

end BatchSystem

end

end ClashSubParser
