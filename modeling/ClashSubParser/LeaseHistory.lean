import ClashSubParser.BatchStates
import ClashSubParser.Leases
import Mathlib.Data.Fintype.Basic

/-! Which executions of probe batches work under a lease, and histories of the leases granted and taken
over. -/
namespace ClashSubParser

open Function KeyedTable ActionRuns BatchSystem

/-! ### The lease columns -/

/-- The columns `owner` and `lease_until`. -/
def ProbeBatchTable.lease? (rows : ProbeBatchTable) (id : String) : Option (String × Option Time) :=
  (rows.get? id).map fun b => (b.owner, b.leaseUntil)

def leaseOwner : Option (String × Option Time) → Option String
  | some (owner, _) => if owner = "" then none else some owner
  | none => none

def leaseEnd : Option (String × Option Time) → Option Time
  | some (_, leaseUntil) => leaseUntil
  | none => none

section

variable {rows rows' : ProbeBatchTable} {batch : ProbeBatch} {id owner : String} {now : Time} {duration : Int}

theorem lease?_createBatch (h : createBatch rows batch = some rows') {k : String} {v : String × Option Time}
    (hk : rows.lease? k = some v) : rows'.lease? k = some v := by
  obtain ⟨hf, hr⟩ := createBatch_eq_some h
  rw [hr]
  exact rows.map_get?_insert _ hf hk

theorem lease?_updateBatch (h : updateBatch rows batch now = some rows') : rows'.lease? = rows.lease? := by
  obtain ⟨b, hb, hr⟩ := updateBatch_eq_some h
  rw [hr]
  exact rows.map_get?_put_of_eq _ hb rfl rfl

theorem lease?_acquireLease (h : acquireLease rows id owner duration now = some rows') :
    owner ≠ "" ∧ (∃ v, rows.lease? id = some v ∧ (v.1 = "" ∨ v.1 = owner ∨ ∀ t ∈ v.2, t < now.truncate)) ∧
      rows'.lease? = update rows.lease? id (some (owner, some (now + duration).truncate)) := by
  obtain ⟨b, hb, ho, hf, hr⟩ := acquireLease_eq_some h
  refine ⟨ho, ⟨(b.owner, b.leaseUntil), ?_, hf⟩, ?_⟩
  · rw [ProbeBatchTable.lease?, hb]
    rfl
  · rw [hr]
    exact rows.map_get?_put _ (Table.get?_eq_some.mp hb).2

theorem lease?_heartbeatLease (h : heartbeatLease rows id owner duration now = some rows') :
    (∃ t, rows.lease? id = some (owner, t)) ∧
      rows'.lease? = update rows.lease? id (some (owner, some (now + duration).truncate)) := by
  obtain ⟨b, hb, ho, hr⟩ := heartbeatLease_eq_some h
  refine ⟨⟨b.leaseUntil, ?_⟩, ?_⟩
  · rw [ProbeBatchTable.lease?, hb, ← ho]
    rfl
  · rw [hr, ← ho]
    exact rows.map_get?_put _ (Table.get?_eq_some.mp hb).2

theorem lease?_releaseLease (rows : ProbeBatchTable) (id owner : String) (now : Time) :
    releaseLease rows id owner now = rows ∨ (∃ t, rows.lease? id = some (owner, t)) ∧
      (releaseLease rows id owner now).lease? = update rows.lease? id (some ("", none)) := by
  rcases releaseLease_cases rows id owner now with hr | ⟨b, hb, ho, hr⟩
  · exact .inl hr
  · refine .inr ⟨⟨b.leaseUntil, ?_⟩, ?_⟩
    · rw [ProbeBatchTable.lease?, hb, ← ho]
      rfl
    · rw [hr]
      exact rows.map_get?_put _ (Table.get?_eq_some.mp hb).2

end

/-! ### Histories -/

section

variable {C G : Type} (cfg : C → Coordinator)

/-- An execution that has acquired its lease; on its way out it writes no more. -/
def BatchCall.activity : BatchCall C → Option (Leases.Activity String String)
  | .executing _ .acquiring => none
  | .executing x .leaving => some ⟨x.batch.id, (cfg x.coordinator).ownerID, true⟩
  | .executing x _ => some ⟨x.batch.id, (cfg x.coordinator).ownerID, false⟩
  | _ => none

def BatchAction.acquires (st : BatchSystem C G) :
    BatchAction C G → Option (G × BatchExecution C × Time)
  | .proceed g reply =>
    match st.calls g with
    | .executing x .acquiring =>
      let c := cfg x.coordinator
      if reply.ok && (acquireLease st.batches x.batch.id c.ownerID c.leaseDuration reply.now).isSome then
        some (g, x, (reply.now + c.leaseDuration).truncate)
      else none
    | _ => none
  | _ => none

def BatchAction.renews (st : BatchSystem C G) : BatchAction C G → Option (G × Time)
  | .heartbeat g reply =>
    match st.calls g with
    | .executing _ .acquiring | .executing _ .registering => none
    | .executing x _ =>
      let c := cfg x.coordinator
      if (reply.ok && !x.done) &&
          (heartbeatLease st.batches x.batch.id c.ownerID c.leaseDuration reply.now).isSome then
        some (g, (reply.now + c.leaseDuration).truncate)
      else none
    | _ => none
  | _ => none

section

variable {cfg : C → Coordinator} {st : BatchSystem C G} {g : G} {reply : BatchReply} {x : BatchExecution C}
  {phase : BatchPhase} {batches : ProbeBatchTable}

theorem BatchAction.acquires_of_acquireLease (hc : st.calls g = .executing x .acquiring) (hok : reply.ok = true)
    (hb : acquireLease st.batches x.batch.id (cfg x.coordinator).ownerID (cfg x.coordinator).leaseDuration
      reply.now = some batches) :
    (BatchAction.proceed g reply).acquires cfg st =
      some (g, x, (reply.now + (cfg x.coordinator).leaseDuration).truncate) := by
  simp only [acquires, hc, hok, hb, Option.isSome_some, Bool.and_self, if_true]

theorem BatchAction.acquires_eq_some {a : BatchAction C G} {p : G × BatchExecution C × Time}
    (h : a.acquires cfg st = some p) : ∃ g reply x batches, a = .proceed g reply ∧
      st.calls g = .executing x .acquiring ∧ reply.ok = true ∧
      acquireLease st.batches x.batch.id (cfg x.coordinator).ownerID (cfg x.coordinator).leaseDuration reply.now =
        some batches := by
  cases a with
  | proceed g reply =>
    rw [acquires] at h
    split at h
    · next x hc =>
      dsimp only at h
      split_ifs at h with hgr
      rw [Bool.and_eq_true, Option.isSome_iff_exists] at hgr
      obtain ⟨hok, batches, hb⟩ := hgr
      exact ⟨g, reply, x, batches, rfl, hc, hok, hb⟩
    · cases h
  | _ => cases h

theorem BatchAction.renews_of_heartbeatLease (hc : st.calls g = .executing x phase) (ha : phase ≠ .acquiring)
    (hr : phase ≠ .registering) (hok : (reply.ok && !x.done) = true)
    (hb : heartbeatLease st.batches x.batch.id (cfg x.coordinator).ownerID (cfg x.coordinator).leaseDuration
      reply.now = some batches) :
    (BatchAction.heartbeat g reply).renews cfg st =
      some (g, (reply.now + (cfg x.coordinator).leaseDuration).truncate) := by
  rw [renews, hc]
  cases phase with
  | acquiring => exact absurd rfl ha
  | registering => exact absurd rfl hr
  | _ => simp only [hok, hb, Option.isSome_some, Bool.and_self, if_true]

theorem BatchAction.renews_eq_some {a : BatchAction C G} {p : G × Time} (h : a.renews cfg st = some p) :
    ∃ g reply x phase batches, a = .heartbeat g reply ∧ st.calls g = .executing x phase ∧ phase ≠ .acquiring ∧
      phase ≠ .registering ∧ (reply.ok && !x.done) = true ∧
      heartbeatLease st.batches x.batch.id (cfg x.coordinator).ownerID (cfg x.coordinator).leaseDuration reply.now =
        some batches := by
  cases a with
  | heartbeat g reply =>
    rw [renews] at h
    split at h
    · cases h
    · cases h
    · next x phase ha hr hc =>
      dsimp only at h
      split_ifs at h with hgr
      rw [Bool.and_eq_true, Option.isSome_iff_exists] at hgr
      obtain ⟨hok, batches, hb⟩ := hgr
      exact ⟨g, reply, x, phase, batches, rfl, hc, ha, hr, hok, hb⟩
    · cases h
  | _ => cases h

end

def BatchAction.time? : BatchAction C G → Option Time
  | .proceed _ reply | .heartbeat _ reply => some reply.now
  | _ => none

structure LeaseHistory (C G : Type) where
  sys : BatchSystem C G
  /-- the end of the lease that an execution has acquired or renewed last -/
  granted : G → Time
  /-- whether another owner has acquired the lease of an execution since -/
  displaced : G → Bool
  /-- the latest clock of a statement -/
  clock : Time

namespace LeaseHistory

def start (C G : Type) (batches : ProbeBatchTable) (runs : ProbeRunTable) (clock : Time) : LeaseHistory C G :=
  ⟨.start C G batches runs, fun _ => 0, fun _ => false, clock⟩

variable [DecidableEq C] [DecidableEq G] (rt : Runtime) (cfg : C → Coordinator)

def step (h : LeaseHistory C G) (a : BatchAction C G) : LeaseHistory C G where
  sys := h.sys.step rt cfg a
  granted :=
    match a.acquires cfg h.sys, a.renews cfg h.sys with
    | some (g, _, t), _ => update h.granted g t
    | none, some (g, t) => update h.granted g t
    | none, none => h.granted
  displaced g :=
    (((h.sys.step rt cfg a).calls g).activity cfg).isSome &&
      (h.displaced g || (a.acquires cfg h.sys).any fun p =>
        ((h.sys.calls g).activity cfg).any fun b =>
          b.resource = p.2.1.batch.id && b.owner ≠ (cfg p.2.1.coordinator).ownerID)
  clock := max h.clock (a.time?.getD h.clock)

end LeaseHistory

def BatchCall.requesting : BatchCall C → Option (BatchExecution C)
  | .executing x .acquiring => some x
  | _ => none

def BatchCall.writesCopy : BatchCall C → Bool
  | .executing x phase => (phase.written x).isSome
  | _ => false

/-- The clocks of the statements do not go back, an execution writes within the lease it was granted, and no
owner acquires a lease under which another of its executions is in progress. -/
def BatchAction.Timely (h : LeaseHistory C G) : BatchAction C G → Prop
  | .proceed g reply => h.clock ≤ reply.now ∧
    (reply.ok = true → (h.sys.calls g).writesCopy = true → reply.now ≤ h.granted g) ∧
    ∀ x ∈ (h.sys.calls g).requesting, ∀ g', ∀ b ∈ (h.sys.calls g').activity cfg, b.resource = x.batch.id →
      b.owner ≠ (cfg x.coordinator).ownerID
  | .heartbeat _ reply => h.clock ≤ reply.now
  | _ => True

instance BatchAction.decidableTimely [Fintype G] (cfg : C → Coordinator) (h : LeaseHistory C G) :
    ∀ a : BatchAction C G, Decidable (a.Timely cfg h)
  | .proceed _ _ => inferInstanceAs (Decidable (_ ∧ _ ∧ ∀ x ∈ _, _))
  | .heartbeat _ reply => inferInstanceAs (Decidable (h.clock ≤ reply.now))
  | .create _ _ _ _ _ _ | .execute _ _ _ _ | .cancelBatch _ _ _ | .recover _ _ | .ctxDone _ | .writeRuns _ =>
    isTrue trivial

def BatchAction.actor : BatchAction C G → Option G
  | .create g _ _ _ _ _ | .execute g _ _ _ | .cancelBatch g _ _ | .recover g _ | .proceed g _ | .heartbeat g _ => some g
  | .ctxDone _ | .writeRuns _ => none

end

/-! ### What a step does to the activities -/

section

variable {C G : Type} {cfg : C → Coordinator}

def Shrinks (cfg : C → Coordinator) (call call' : BatchCall C) : Prop :=
  ∀ b', call'.activity cfg = some b' → ∃ b, call.activity cfg = some b ∧ b.resource = b'.resource ∧
    b.owner = b'.owner ∧ (b'.retired = false → b.retired = false)

variable {call' call : BatchCall C} {g : G} {phase : BatchPhase}

theorem Shrinks.of_eq (h : call'.activity cfg = call.activity cfg) : Shrinks cfg call call' := by
  intro b' hb'
  exact ⟨b', h.symm.trans hb', rfl, rfl, id⟩

theorem Shrinks.of_none (h : call'.activity cfg = none) : Shrinks cfg call call' := by
  intro b' hb'
  rw [h] at hb'
  cases hb'

theorem Shrinks.trans {call'' : BatchCall C} (h : Shrinks cfg call call') (h' : Shrinks cfg call' call'') :
    Shrinks cfg call call'' := by
  intro b'' hb''
  obtain ⟨b', hb', hr', ho', hre'⟩ := h' b'' hb''
  obtain ⟨b, hb, hr, ho, hre⟩ := h b' hb'
  exact ⟨b, hb, hr.trans hr', ho.trans ho', hre ∘ hre'⟩

theorem activity_executing (cfg : C → Coordinator) (x : BatchExecution C) (h : phase ≠ .acquiring) :
    ∃ r, (BatchCall.executing x phase).activity cfg = some ⟨x.batch.id, (cfg x.coordinator).ownerID, r⟩ ∧
      (phase ≠ .leaving → r = false) := by
  cases phase with
  | acquiring => exact absurd rfl h
  | leaving => exact ⟨true, rfl, fun hne => absurd rfl hne⟩
  | _ => exact ⟨false, rfl, fun _ => rfl⟩

theorem BatchSystem.Continues.shrinks {x : BatchExecution C}
    (h : BatchSystem.Continues x call) (ha : phase ≠ .acquiring) (hl : phase ≠ .leaving) :
    Shrinks cfg (.executing x phase) call := by
  cases call with
  | idle => exact .of_none rfl
  | executing x' phase' =>
    obtain ⟨hc, hid, hp', _⟩ := h
    obtain ⟨r', hr', _⟩ := activity_executing cfg x' hp'
    obtain ⟨r, hr, hre⟩ := activity_executing cfg x ha
    intro b' hb'
    rw [hr'] at hb'
    rw [← Option.some.inj hb', hc, hid]
    exact ⟨_, hr, rfl, rfl, fun _ => hre hl⟩
  | _ => exact absurd h id

variable [DecidableEq G]

theorem shrinks_update {calls calls' : G → BatchCall C}
    (hcs : calls' = update calls g call) (h : Shrinks cfg (calls g) call) (g' : G) :
    Shrinks cfg (calls g') (calls' g') := by
  rw [hcs]
  by_cases hg : g' = g
  · rw [hg, update_self]
    exact h
  · rw [update_of_ne hg]
    exact .of_eq rfl

variable {st : BatchSystem C G}

theorem shrinks_flags {x : BatchExecution C} (hc : st.calls g = .executing x phase)
    (leaseLost done : Bool) (g' : G) : Shrinks cfg (st.calls g')
      ((st.setCall g (.executing { x with leaseLost := leaseLost, done := done } phase)).calls g') := by
  refine shrinks_update rfl ?_ g'
  rw [hc]
  exact .of_eq (by cases phase <;> rfl)

theorem activity_update {calls calls' : G → BatchCall C} (hcs : calls' = update calls g call) :
    (fun y => (calls' y).activity cfg) =
      update (fun y => (calls y).activity cfg) g (call.activity cfg) := by
  ext1 y
  rw [hcs]
  by_cases hy : y = g
  · rw [hy, update_self, update_self]
  · rw [update_of_ne hy, update_of_ne hy]

theorem shrinks_writeBatch (g : G) (ok : Bool) (now : Time) (batch : ProbeBatch) {next failed : BatchCall C}
    (hn : next.activity cfg = none) (hf : failed.activity cfg = none) (g' : G) :
    Shrinks cfg (st.calls g') ((st.writeBatch g ok now batch next failed).calls g') := by
  rcases st.writeBatch_cases g ok now batch next failed with ⟨batches, _, _, heq⟩ | heq
  · exact shrinks_update (congrArg calls heq) (.of_none hn) g'
  · exact shrinks_update (congrArg calls heq) (.of_none hf) g'

variable [DecidableEq C] {rt : Runtime}

theorem shrinks_proceed (hsd : st.Sound) (g : G) (reply : BatchReply)
    (ha : (BatchAction.proceed g reply).acquires cfg st = none) (g' : G) :
    Shrinks cfg (st.calls g') ((st.proceed rt cfg g reply).calls g') := by
  rw [proceed]
  cases hc : st.calls g with
  | idle => exact .of_eq rfl
  | executing x phase =>
    have hg := hsd g
    rw [hc] at hg
    by_cases hac : phase = .acquiring
    · -- a call that does not acquire its lease returns
      rw [hac] at hc ⊢
      rw [BatchAction.acquires, hc] at ha
      dsimp only [advance] at ha ⊢
      split
      · next batches hok hb =>
        rw [hok, hb] at ha
        cases ha
      · exact shrinks_update rfl (.of_none rfl) g'
    · by_cases hl : phase = .leaving
      · rw [hl]
        exact shrinks_update rfl (.of_none rfl) g'
      · have had : ∃ call, (st.advance rt cfg g x reply phase).calls = update st.calls g call ∧
            BatchSystem.Continues x call := st.calls_advance g x reply phase hg
        obtain ⟨call, hcs, hco⟩ := had
        refine shrinks_update hcs ?_ g'
        rw [hc]
        exact hco.shrinks hac hl
  | cancelling c batch => exact shrinks_writeBatch g _ _ _ rfl rfl g'
  | interrupting c bid =>
    have hi : Shrinks cfg (st.calls g') ((st.interrupt c bid).calls g') := by
      rw [interrupt]
      split
      · exact .of_eq rfl
      · split
        · next g₁ _ _ x phase hc₁ => exact shrinks_flags hc₁ x.leaseLost true g'
        · exact .of_eq rfl
    exact hi.trans (shrinks_update rfl (.of_none rfl) g')
  | paging now page =>
    dsimp only
    split_ifs <;> exact shrinks_update rfl (.of_none rfl) g'
  | recovering now page total pending =>
    cases pending with
    | nil =>
      refine shrinks_update rfl (.of_none ?_) g'
      split_ifs <;> rfl
    | cons b pending =>
      dsimp only
      split_ifs
      · exact shrinks_writeBatch g _ _ _ rfl rfl g'
      · exact shrinks_update rfl (.of_none rfl) g'

/-- A step that acquires nothing starts no activity. -/
theorem shrinks_step (hsd : st.Sound) (a : BatchAction C G) (ha : a.acquires cfg st = none) (g' : G) :
    Shrinks cfg (st.calls g') ((st.step rt cfg a).calls g') := by
  cases a with
  | create g c sched bid windowAt now =>
    rw [step]
    split
    · exact shrinks_update rfl (.of_none rfl) g'
    · exact .of_eq rfl
  | execute g c sched bid | cancelBatch g c bid =>
    rw [step]
    split
    · split_ifs
      · exact .of_eq rfl
      · exact shrinks_update rfl (.of_none rfl) g'
    · exact .of_eq rfl
  | recover g now =>
    rw [step]
    split
    · exact shrinks_update rfl (.of_none rfl) g'
    · exact .of_eq rfl
  | proceed g reply => exact shrinks_proceed hsd g reply ha g'
  | heartbeat g reply =>
    rw [step, beat]
    split
    · exact .of_eq rfl
    · exact .of_eq rfl
    · next x phase _ _ hc =>
      dsimp only
      split
      · exact .of_eq rfl
      · exact shrinks_flags hc true true g'
    · exact .of_eq rfl
  | ctxDone g =>
    rw [step]
    split
    · next x phase hc => exact shrinks_flags hc x.leaseLost true g'
    · exact .of_eq rfl
  | writeRuns runs => exact .of_eq rfl

end

end ClashSubParser
