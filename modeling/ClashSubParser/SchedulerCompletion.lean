import ClashSubParser.SchedulerAccounting
import Mathlib.Data.Multiset.OrderedMonoid
import Mathlib.Tactic.Abel

/-! Completion callbacks: where the obligation to call `OnComplete` is at any time, and that it is met once. -/
namespace ClashSubParser

open List AssocTotals ProbeScheduler SchedulerEvent

namespace SchedulerEvent

def enqueuedCall : SchedulerEvent → Option ℕ
  | .enqueued task => some task.call
  | _ => none

def refusedCall : SchedulerEvent → Option ℕ
  | .refused call _ => some call
  | _ => none

def skipAcceptedCall : SchedulerEvent → Option ℕ
  | .skipAccepted call => some call
  | _ => none

def calledCall : SchedulerEvent → Option ℕ
  | .called call => some call
  | _ => none

def finishedCall : SchedulerEvent → Option ℕ
  | .finished call => some call
  | _ => none

def isQuiet : SchedulerEvent → Bool
  | .dispatched _ | .executed _ _ | .drained => true
  | _ => false

end SchedulerEvent

def callsOf (select : SchedulerEvent → Option ℕ) (history : List SchedulerEvent) : Multiset ℕ :=
  (history.filterMap select : List ℕ)

section

variable {select : SchedulerEvent → Option ℕ}

theorem callsOf_append (history events : List SchedulerEvent) :
    callsOf select (history ++ events) = callsOf select history + callsOf select events := by
  rw [callsOf, filterMap_append, ← Multiset.coe_add, callsOf, callsOf]

theorem callsOf_quiet {events : List SchedulerEvent} (h : ∀ e ∈ events, e.isQuiet = true)
    (hs : ∀ e, e.isQuiet = true → select e = none) : callsOf select events = 0 := by
  rw [callsOf, filterMap_eq_nil_iff.mpr fun e he => hs e (h e he)]
  rfl

theorem mem_callsOf {history : List SchedulerEvent} {call : ℕ} :
    call ∈ callsOf select history ↔ ∃ e ∈ history, select e = some call :=
  mem_filterMap

theorem callsOf_subset {history hi' events : List SchedulerEvent} (h : hi' = history ++ events) :
    callsOf select history ⊆ callsOf select hi' := by
  rw [h, callsOf_append]
  exact Multiset.subset_of_le (Multiset.le_add_right _ _)

theorem count_callsOf_called (history : List SchedulerEvent) (call : ℕ) :
    (callsOf calledCall history).count call = history.count (.called call) := by
  rw [callsOf, Multiset.coe_count]
  induction history with
  | nil => rfl
  | cons e history ih =>
    cases e with
    | called call' =>
      have hc : (called call' :: history).filterMap calledCall =
          call' :: history.filterMap calledCall := rfl
      rw [hc, count_cons, count_cons, ih]
      simp
    | _ =>
      rw [filterMap_cons_none rfl, ih, count_cons_of_ne]
      simp

end

namespace SchedulerSystem

open SchedulerEvent

variable (σ : SchedulerSystem)

def openCalls : Multiset ℕ := total (fun sub => {sub.task.call}) σ.submissions

def skipCalls : Multiset ℕ :=
  total (fun sub => if sub.phase = .skipCalled then {sub.task.call} else 0) σ.submissions

def owed : Multiset ℕ :=
  σ.sched.content.map (·.call) + total (fun worker => {worker.task.call}) σ.workers +
    (σ.toCall : Multiset ProbeTask).map (·.call) + (σ.calling : Multiset ProbeTask).map (·.call)

def allCalls : Multiset ℕ :=
  σ.openCalls + callsOf enqueuedCall σ.history + callsOf refusedCall σ.history + callsOf skipAcceptedCall σ.history

structure Ledger (σ : SchedulerSystem) : Prop where
  handed : callsOf enqueuedCall σ.history = σ.owed + callsOf finishedCall σ.history
  called : callsOf calledCall σ.history = (σ.calling : Multiset ProbeTask).map (·.call) +
    callsOf finishedCall σ.history + σ.skipCalls + callsOf skipAcceptedCall σ.history
  callbacks : σ.sched.callbacks = σ.owed.card
  once : σ.allCalls.Nodup
  numbered : ∀ call ∈ σ.allCalls, call < σ.nextCall
  keyed : ∀ call sub, σ.submissions.lookup call = some sub → sub.task.call = call

variable {σ σ' : SchedulerSystem}

section

variable {call : ℕ} {sub : Submission} (hsub : σ.submissions.lookup call = some sub)
include hsub

theorem openCalls_setSubmission (phase : SubmitPhase) :
    (σ.setSubmission call { sub with phase := phase }).openCalls = σ.openCalls := by
  have h := total_replace (f := fun sub : Submission => ({sub.task.call} : Multiset ℕ)) hsub { sub with phase := phase }
  exact add_right_cancel h

theorem openCalls_dropSubmission : σ.openCalls = (σ.dropSubmission call).openCalls + {sub.task.call} :=
  (total_erase hsub).trans (add_comm _ _)

/-- The share of a call in `skipCalls` is that of its phase. -/
theorem skipCalls_setSubmission (phase : SubmitPhase) : (σ.setSubmission call { sub with phase := phase }).skipCalls +
        (if sub.phase = .skipCalled then {sub.task.call} else 0) =
      σ.skipCalls + if phase = .skipCalled then {sub.task.call} else 0 :=
  total_replace hsub { sub with phase := phase }

theorem skipCalls_dropSubmission :
    σ.skipCalls = (σ.dropSubmission call).skipCalls + if sub.phase = .skipCalled then {sub.task.call} else 0 :=
  (total_erase hsub).trans (add_comm _ _)

end

section

variable {execID i : ℕ} {task : ProbeTask} {sched : ProbeScheduler}

theorem owed_submitted {attempt : Attempt} {old : List ProbeTask}
    (h : σ.Sound) (hsub : Submitted σ.sched task attempt sched old) :
    ({ σ with sched := sched, toCall := σ.toCall ++ old } : SchedulerSystem).owed =
      σ.owed + if attempt = .enqueued then {task.call} else 0 := by
  have hc := hsub.content h.first (f := fun t => t.call) fun _ => rfl
  have hmv : sched.content.map (·.call) + (old : Multiset ProbeTask).map (·.call) =
      σ.sched.content.map (·.call) + if attempt = .enqueued then {task.call} else 0 := by
    rw [hc]
    split_ifs
    · rw [← Multiset.singleton_add, add_comm]
    · rw [add_zero]
  rw [owed, owed, ← Multiset.coe_add, Multiset.map_add]
  calc
    _ = sched.content.map (·.call) + (old : Multiset ProbeTask).map (·.call) +
        (total (fun w => {w.task.call}) σ.workers + (σ.toCall : Multiset ProbeTask).map (·.call) +
          (σ.calling : Multiset ProbeTask).map (·.call)) := by abel
    _ = _ := by
      rw [hmv]
      abel

theorem owed_dispatched (h : σ.Sound) (hd : σ.sched.dispatchLocked = some (task, execID, sched)) :
    ({ σ with sched := sched }.setWorker execID ⟨task, .started⟩).owed = σ.owed := by
  have hn : σ.workers.lookup execID = none := h.lookup_nextExecID hd
  have hw : total (fun w : ProbeWorker => ({w.task.call} : Multiset ℕ))
      (σ.workers.insert execID ⟨task, .started⟩) = {task.call} + total (fun w => {w.task.call}) σ.workers :=
    total_insert_new hn _
  rw [owed, owed, content_dispatchLocked hd, Multiset.map_cons, ← Multiset.singleton_add]
  change sched.content.map (·.call) + total _ (σ.workers.insert execID _) + _ + _ = _
  rw [hw]
  abel

theorem owed_setWorker {w w' : ProbeWorker} (hwk : σ.workers.lookup execID = some w)
    (ht : w'.task = w.task) : (σ.setWorker execID w').owed = σ.owed := by
  have hr := total_replace (f := fun w : ProbeWorker => ({w.task.call} : Multiset ℕ)) hwk w'
  rw [ht] at hr
  change _ + total _ (σ.workers.insert execID w') + _ + _ = _
  rw [add_right_cancel hr]
  rfl

theorem owed_dropWorker {phase : WorkerPhase}
    (hwk : σ.workers.lookup execID = some ⟨task, phase⟩) (hc : sched.content = σ.sched.content) :
    ({ σ with sched := sched, toCall := σ.toCall ++ [task] }.dropWorker execID).owed = σ.owed := by
  have he : total (fun w : ProbeWorker => ({w.task.call} : Multiset ℕ)) σ.workers =
      {task.call} + total (fun w => {w.task.call}) (σ.workers.erase execID) := total_erase hwk
  rw [owed, owed, he]
  change sched.content.map _ + total _ (σ.workers.erase execID) +
    ((σ.toCall ++ [task] : List ProbeTask) : Multiset ProbeTask).map _ + _ = _
  rw [hc, ← Multiset.coe_add, Multiset.map_add, Multiset.coe_singleton, Multiset.map_singleton]
  abel

theorem owed_taken {q : List ProbeTask} (hc : sched.content + q = σ.sched.content) :
    ({ σ with sched := sched, toCall := σ.toCall ++ q } : SchedulerSystem).owed = σ.owed := by
  rw [owed, owed, ← hc, ← Multiset.coe_add, Multiset.map_add, Multiset.map_add]
  abel

theorem coe_eq_cons_eraseIdx {tasks : List ProbeTask} (h : tasks[i]? = some task) :
    (tasks : Multiset ProbeTask) = task ::ₘ (tasks.eraseIdx i : List ProbeTask) := by
  obtain ⟨hi, rfl⟩ := List.getElem?_eq_some_iff.mp h
  rw [Multiset.cons_coe, Multiset.coe_eq_coe]
  exact (getElem_cons_eraseIdx_perm hi).symm

theorem owed_calls (ht : σ.toCall[i]? = some task) :
    ({ σ with toCall := σ.toCall.eraseIdx i, calling := σ.calling ++ [task] } : SchedulerSystem).owed = σ.owed := by
  rw [owed, owed, coe_eq_cons_eraseIdx ht, ← Multiset.coe_add, Multiset.map_add, Multiset.coe_singleton,
    Multiset.map_singleton, Multiset.map_cons, ← Multiset.singleton_add]
  abel

theorem owed_callReturns (ht : σ.calling[i]? = some task) :
    ({ σ with calling := σ.calling.eraseIdx i, sched := σ.sched.finishCallback } : SchedulerSystem).owed + {task.call} =
      σ.owed := by
  rw [owed, owed, coe_eq_cons_eraseIdx ht, Multiset.map_cons, ← Multiset.singleton_add]
  change σ.sched.content.map _ + _ + _ + _ + _ = _
  abel

end

section

/-- A step that logs `events`, where no call of `submit` begins. -/
structure Carries (σ σ' : SchedulerSystem) (events : List SchedulerEvent) : Prop where
  history : σ'.history = σ.history ++ events
  owed : σ'.owed + callsOf finishedCall events = σ.owed + callsOf enqueuedCall events
  callbacks : σ'.sched.callbacks + (callsOf finishedCall events).card =
    σ.sched.callbacks + (callsOf enqueuedCall events).card
  called : (σ'.calling : Multiset ProbeTask).map (·.call) + σ'.skipCalls + callsOf finishedCall events +
      callsOf skipAcceptedCall events =
    (σ.calling : Multiset ProbeTask).map (·.call) + σ.skipCalls + callsOf calledCall events
  calls : σ'.openCalls + callsOf enqueuedCall events + callsOf refusedCall events + callsOf skipAcceptedCall events =
    σ.openCalls
  next : σ'.nextCall = σ.nextCall
  keyed : ∀ call sub, σ'.submissions.lookup call = some sub → sub.task.call = call

variable {events : List SchedulerEvent}

theorem Carries.allCalls_eq (hm : Carries σ σ' events) : σ'.allCalls = σ.allCalls := by
  rw [allCalls, allCalls, hm.history, callsOf_append, callsOf_append, callsOf_append, ← hm.calls]
  abel

theorem Carries.ledger (hm : Carries σ σ' events) (h : σ.Ledger) : σ'.Ledger where
  handed := by
    rw [hm.history, callsOf_append, callsOf_append, h.handed, add_right_comm, ← hm.owed]
    abel
  called := by
    rw [hm.history, callsOf_append, callsOf_append, callsOf_append, h.called]
    calc
      _ = (σ.calling : Multiset ProbeTask).map (·.call) + σ.skipCalls + callsOf calledCall events +
          (callsOf finishedCall σ.history + callsOf skipAcceptedCall σ.history) := by abel
      _ = _ := by
        rw [← hm.called]
        abel
  callbacks := by
    have ho := congrArg Multiset.card hm.owed
    rw [Multiset.card_add, Multiset.card_add] at ho
    have hc := hm.callbacks
    have hb := h.callbacks
    omega
  once := by
    rw [hm.allCalls_eq]
    exact h.once
  numbered := by
    rw [hm.allCalls_eq, hm.next]
    exact h.numbered
  keyed := hm.keyed

theorem Ledger.quiet (h : σ.Ledger) (ho : σ'.owed = σ.owed)
    (hc : σ'.sched.callbacks = σ.sched.callbacks) (hca : σ'.calling = σ.calling)
    (hs : σ'.submissions = σ.submissions) (hn : σ'.nextCall = σ.nextCall)
    (hh : σ'.history = σ.history ++ events) (hq : ∀ e ∈ events, e.isQuiet = true) : σ'.Ledger := by
  have hen : callsOf enqueuedCall events = 0 := callsOf_quiet hq fun e he => by cases e <;> trivial
  have hr : callsOf refusedCall events = 0 := callsOf_quiet hq fun e he => by cases e <;> trivial
  have ha : callsOf skipAcceptedCall events = 0 := callsOf_quiet hq fun e he => by cases e <;> trivial
  have hcd : callsOf calledCall events = 0 := callsOf_quiet hq fun e he => by cases e <;> trivial
  have hf : callsOf finishedCall events = 0 := callsOf_quiet hq fun e he => by cases e <;> trivial
  refine Carries.ledger ⟨hh, ?_, ?_, ?_, ?_, hn, ?_⟩ h
  · rw [hf, hen, ho]
  · rw [hf, hen, hc]
  · rw [hf, ha, hcd, hca, skipCalls, skipCalls, hs, add_zero]
  · rw [hen, hr, ha, openCalls, openCalls, hs, add_zero, add_zero, add_zero]
  · rw [hs]
    exact h.keyed

theorem carries_calls {i : ℕ} {task : ProbeTask} (h : σ.Ledger) (ht : σ.toCall[i]? = some task) :
    Carries σ ({ σ with toCall := σ.toCall.eraseIdx i, calling := σ.calling ++ [task] }.log (.called task.call))
      [.called task.call] := by
  refine ⟨rfl, congrArg (· + 0) (owed_calls ht), rfl, ?_, ?_, rfl, h.keyed⟩
  · change ((σ.calling ++ [task] : List ProbeTask) : Multiset ProbeTask).map _ + σ.skipCalls + 0 + 0 = _
    rw [← Multiset.coe_add, Multiset.map_add, Multiset.coe_singleton, Multiset.map_singleton, add_zero, add_zero,
      add_right_comm]
    rfl
  · exact (add_zero _).trans ((add_zero _).trans (add_zero _))

theorem carries_callReturns {i : ℕ} {task : ProbeTask} (h : σ.Ledger) (ht : σ.calling[i]? = some task) :
    Carries σ ({ σ with calling := σ.calling.eraseIdx i, sched := σ.sched.finishCallback }.log (.finished task.call))
      [.finished task.call] := by
  refine ⟨rfl, (owed_callReturns ht).trans (add_zero _).symm, ?_, ?_, ?_, rfl, h.keyed⟩
  · change σ.sched.callbacks - 1 + 1 = σ.sched.callbacks + 0
    rw [sub_add_cancel, add_zero]
  · change ((σ.calling.eraseIdx i : List ProbeTask) : Multiset ProbeTask).map _ + σ.skipCalls + {task.call} + 0 = _ + 0
    rw [coe_eq_cons_eraseIdx ht, Multiset.map_cons, ← Multiset.singleton_add]
    abel
  · exact (add_zero _).trans ((add_zero _).trans (add_zero _))

section

variable {call : ℕ} {sub : Submission} {sched : ProbeScheduler} {old : List ProbeTask} (h : σ.Ledger)
  (hsub : σ.submissions.lookup call = some sub)
include h hsub

theorem carries_enqueued (hsd : σ.Sound) (hph : sub.phase ≠ .skipCalled)
    (hs : Submitted σ.sched sub.task .enqueued sched old) :
    Carries σ (({ σ with sched := sched, toCall := σ.toCall ++ old }.dropSubmission call).log (.enqueued sub.task))
      [.enqueued sub.task] := by
  have ho := owed_submitted hsd hs
  have hsk := skipCalls_dropSubmission hsub
  rw [if_neg hph, add_zero] at hsk
  refine ⟨rfl, (add_zero _).trans ho, ?_, ?_, ?_, rfl, forall_erase h.keyed call⟩
  · change sched.callbacks + 0 = _
    rw [hs.callbacks hsd.first, if_pos rfl, add_zero]
    rfl
  · rw [hsk]
    exact add_zero _
  · rw [openCalls_dropSubmission hsub]
    exact (add_zero _).trans (add_zero _)

/-- A round of a submit loop after which the call of `submit` goes on. -/
theorem carries_phase {attempt : Attempt} (hsd : σ.Sound) (hph : sub.phase ≠ .skipCalled)
    (hs : Submitted σ.sched sub.task attempt sched old) (ha : attempt ≠ .enqueued) {phase : SubmitPhase}
    (hn : phase ≠ .skipCalled) :
    Carries σ ({ σ with sched := sched, toCall := σ.toCall ++ old }.setSubmission call { sub with phase := phase })
      [] := by
  have ho := owed_submitted hsd hs
  rw [if_neg ha] at ho
  have hsk := skipCalls_setSubmission hsub phase
  rw [if_neg hph, if_neg hn, add_zero, add_zero] at hsk
  refine ⟨(append_nil _).symm, (add_zero _).trans ho, ?_, ?_, ?_, rfl,
    forall_insert h.keyed (h.keyed call sub hsub)⟩
  · change sched.callbacks + 0 = _
    rw [hs.callbacks hsd.first, if_neg ha]
    rfl
  · rw [← hsk]
    exact add_zero _
  · rw [← openCalls_setSubmission hsub phase]
    exact (add_zero _).trans ((add_zero _).trans (add_zero _))

theorem Ledger.refused {e : SubmitError} (hph : sub.phase ≠ .skipCalled) (ho : σ'.owed = σ.owed)
    (hc : σ'.sched.callbacks = σ.sched.callbacks) (hca : σ'.calling = σ.calling)
    (hs : σ'.submissions = σ.submissions.erase call) (hn : σ'.nextCall = σ.nextCall)
    (hh : σ'.history = σ.history ++ [.refused call e]) : σ'.Ledger := by
  have hsk := skipCalls_dropSubmission hsub
  rw [if_neg hph, add_zero] at hsk
  refine Carries.ledger ⟨hh, congrArg (· + 0) ho, congrArg (· + 0) hc, ?_, ?_, hn, ?_⟩ h
  · rw [hca, hsk, skipCalls, hs]
    exact add_zero _
  · rw [openCalls_dropSubmission hsub, h.keyed call sub hsub, openCalls, hs]
    exact (add_zero _).trans (congrArg (· + _) (add_zero _))
  · rw [hs]
    exact forall_erase h.keyed call

/-- A task that is in the pool already: its callback is called, then the call of `submit` returns. -/
theorem carries_skipCalls (hph : sub.phase = .skipping) :
    Carries σ ((σ.setSubmission call { sub with phase := .skipCalled }).log (.called call)) [.called call] := by
  have hc := h.keyed call sub hsub
  have hs := skipCalls_setSubmission hsub .skipCalled
  rw [if_neg (by simp [hph]), if_pos rfl, add_zero, hc] at hs
  refine ⟨rfl, rfl, rfl, ?_, ?_, rfl, forall_insert h.keyed hc⟩
  · rw [add_assoc _ σ.skipCalls]
    exact (add_zero _).trans ((add_zero _).trans (congrArg (_ + ·) hs))
  · rw [← openCalls_setSubmission hsub .skipCalled]
    exact (add_zero _).trans ((add_zero _).trans (add_zero _))

theorem carries_skipReturns (hph : sub.phase = .skipCalled) :
    Carries σ ((σ.dropSubmission call).log (.skipAccepted call)) [.skipAccepted call] := by
  have hc := h.keyed call sub hsub
  have hs := skipCalls_dropSubmission hsub
  rw [if_pos hph, hc] at hs
  refine ⟨rfl, rfl, rfl, ?_, ?_, rfl, forall_erase h.keyed call⟩
  · rw [hs, ← add_assoc]
    exact (congrArg (· + _) (add_zero _)).trans (add_zero _).symm
  · rw [openCalls_dropSubmission hsub, hc]
    exact congrArg (· + _) ((add_zero _).trans (add_zero _))

theorem carries_wakes {wake : ℕ} (hph : sub.phase = .waiting wake) : Carries σ
    (σ.setSubmission call { sub with phase := .trying }) [] := by
  have hs := skipCalls_setSubmission hsub .trying
  rw [if_neg (by simp [hph]), if_neg (by simp), add_zero, add_zero] at hs
  refine ⟨(append_nil _).symm, rfl, rfl, ?_, ?_, rfl, forall_insert h.keyed (h.keyed call sub hsub)⟩
  · rw [hs]
    exact add_zero _
  · rw [openCalls_setSubmission hsub]
    exact (add_zero _).trans ((add_zero _).trans (add_zero _))

/-- The open calls of `submit` have numbers below the next one. -/
theorem Ledger.lt_nextCall : call < σ.nextCall := by
  rw [← h.keyed call sub hsub]
  apply h.numbered
  rw [allCalls, openCalls_dropSubmission hsub]
  simp

end

theorem Ledger.submit (h : σ.Ledger) {runID logicalID kind : String} {mode : EnqueueMode} {wait : Bool} :
    ({ σ with nextCall := σ.nextCall + 1 }.setSubmission σ.nextCall
      ⟨⟨runID, logicalID, kind, mode, σ.nextCall⟩, wait, .trying⟩).Ledger := by
  have hn : σ.submissions.lookup σ.nextCall = none :=
    Option.eq_none_iff_forall_ne_some.mpr fun sub hlk => lt_irrefl _ (h.lt_nextCall hlk)
  have hcs : ({ σ with nextCall := σ.nextCall + 1 }.setSubmission σ.nextCall
      ⟨⟨runID, logicalID, kind, mode, σ.nextCall⟩, wait, .trying⟩).allCalls = {σ.nextCall} + σ.allCalls := by
    change total _ (σ.submissions.insert σ.nextCall _) + callsOf enqueuedCall σ.history + callsOf refusedCall σ.history +
      callsOf skipAcceptedCall σ.history = _
    rw [total_insert_new hn, allCalls, openCalls]
    abel
  refine ⟨h.handed, ?_, h.callbacks, ?_, ?_, forall_insert h.keyed rfl⟩
  · change callsOf calledCall σ.history = _ + _ + total _ (σ.submissions.insert σ.nextCall _) + _
    rw [total_insert_new hn, if_neg (by simp), zero_add]
    exact h.called
  · rw [hcs, Multiset.singleton_add, Multiset.nodup_cons]
    exact ⟨fun hm => absurd (h.numbered _ hm) (lt_irrefl _), h.once⟩
  · intro call hc
    rw [hcs, Multiset.singleton_add, Multiset.mem_cons] at hc
    change call < σ.nextCall + 1
    rcases hc with rfl | hc
    · omega
    · have hlt := h.numbered call hc
      omega

theorem Moves.ledger {a : SchedulerAction} (hm : Moves σ a σ') (hsd : σ.Sound) (h : σ.Ledger) :
    σ'.Ledger := by
  have hsa : σ.history = σ.history ++ [] := (append_nil _).symm
  cases hm with
  | submit => exact h.submit
  | enqueued hsub hph hs => exact (carries_enqueued h hsub hsd (by simp [hph]) hs).ledger h
  | skipped hsub hph hs | waits hsub hph hs =>
    exact (carries_phase h hsub hsd (by simp [hph]) hs (by simp) (by simp)).ledger h
  | refused hsub hph hs ha =>
    have ho := owed_submitted hsd hs
    rw [if_neg ha, add_zero] at ho
    have hc := hs.callbacks hsd.first
    rw [if_neg ha] at hc
    exact h.refused hsub (by simp [hph]) ho hc rfl rfl rfl rfl
  | wakes hsub hph => exact (carries_wakes h hsub hph).ledger h
  | @abandons call sub hsub hph =>
    have hn : sub.phase ≠ .skipCalled := by
      rcases hph with hph | ⟨wake, hph⟩ <;> simp [hph]
    exact h.refused hsub hn rfl rfl rfl rfl rfl rfl
  | skipCalls hsub hph => exact (carries_skipCalls h hsub hph).ledger h
  | skipReturns hsub hph => exact (carries_skipReturns h hsub hph).ledger h
  | dispatcher | contextEnds | taskEnds | drains => exact h.quiet rfl rfl rfl rfl rfl hsa nofun
  | @dispatched task execID sched hop hd =>
    have hc : sched.callbacks = σ.sched.callbacks := by
      obtain ⟨-, i, -, -, -, -, -, -, -, rfl⟩ := dispatchLocked_eq_some hd
      rfl
    exact h.quiet (owed_dispatched hsd hd) hc rfl rfl rfl rfl (by simp [isQuiet])
  | registers hwk hop => exact h.quiet (owed_setWorker hwk rfl) rfl rfl rfl rfl hsa nofun
  | stops hwk | finishes hwk => exact h.quiet (owed_dropWorker hwk rfl) rfl rfl rfl rfl hsa nofun
  | executes hwk =>
    exact h.quiet (owed_setWorker hwk rfl) rfl rfl rfl rfl rfl (by simp [isQuiet])
  | calls ht => exact (carries_calls h ht).ledger h
  | callReturns ht => exact (carries_callReturns h ht).ledger h
  | @cancels runID now =>
    have hc : (σ.sched.cancelRun now runID).1.callbacks = σ.sched.callbacks := by rw [cancelRun_eq]
    exact h.quiet (owed_taken (content_cancelRun σ.sched now runID)) hc rfl rfl rfl hsa nofun
  | @closes now =>
    exact h.quiet (owed_taken (content_close σ.sched now)) (callbacks_close σ.sched now) rfl rfl rfl hsa nofun
  | drainReturns => exact h.quiet rfl rfl rfl rfl rfl rfl (by simp [isQuiet])
  | @reorders queues nodes hqs hns =>
    have hco : ({ σ.sched with queues := queues, activeNodes := nodes } : ProbeScheduler).content =
        σ.sched.content := total_perm _ hqs
    refine h.quiet ?_ rfl rfl rfl rfl hsa nofun
    rw [owed, hco]
    rfl

end

section

/-- What a `Drain` that found nothing outstanding found. -/
def DrainSafe (σ : SchedulerSystem) : Prop :=
  σ.drainPassed = true → σ.sched.closed = true ∧ σ.sched.callbacks = 0

theorem Moves.drainSafe {action : SchedulerAction} (hm : Moves σ action σ') (h : σ.Ledger)
    (hdr : σ.DrainSafe) : σ'.DrainSafe := by
  have hs {task : ProbeTask} {attempt : Attempt} {sched : ProbeScheduler} {old : List ProbeTask}
      (hsub : Submitted σ.sched task attempt sched old) (hps : σ.drainPassed = true) :
      sched.closed = true ∧ sched.callbacks = 0 := by
    obtain ⟨hcl, hc⟩ := hdr hps
    obtain ⟨⟨-, rfl⟩, -⟩ := submitted_of_closed hsub hcl
    exact ⟨hcl, hc⟩
  cases hm with
  | enqueued _ _ hsub | skipped _ _ hsub | waits _ _ hsub | refused _ _ hsub => exact hs hsub
  | dispatched ho =>
    intro hps
    exact absurd ((hdr hps).1.symm.trans ho) (by decide)
  | callReturns ht =>
    intro hps
    -- a callback that is running is still owed
    have hc := h.callbacks
    rw [(hdr hps).2, owed, coe_eq_cons_eraseIdx ht, Multiset.map_cons, Multiset.card_add,
      Multiset.card_cons] at hc
    omega
  | @cancels runID now =>
    intro hps
    rw [cancelRun_eq]
    exact hdr hps
  | @closes now =>
    intro hps
    rw [ProbeScheduler.close, if_pos (hdr hps).1]
    exact hdr hps
  | drains hcl hc => exact fun _ => ⟨hcl, hc⟩
  | _ => exact hdr

theorem ledger_newScheduler {cfg : SchedulerConfig} {s : ProbeScheduler} (h : newScheduler cfg = .ok s) :
    ({ sched := s } : SchedulerSystem).Ledger := by
  obtain ⟨-, -, rfl, -, -⟩ := newScheduler_eq_ok h
  exact ⟨rfl, rfl, rfl, Multiset.nodup_zero, fun call hc => absurd hc (Multiset.notMem_zero call),
    fun call sub hsub => by simp at hsub⟩

theorem Reachable.ledger {cfg : SchedulerConfig} (h : Reachable cfg σ) : σ.Sound ∧ σ.Ledger ∧ σ.DrainSafe := by
  obtain ⟨s, hn, actions, he⟩ := h
  refine exec_induction (P := fun σ => σ.Sound ∧ σ.Ledger ∧ σ.DrainSafe) ?_
    ⟨sound_newScheduler hn, ledger_newScheduler hn, fun hps => absurd hps (by simp)⟩ he
  intro σ action σ' ⟨hsd, hle, hdr⟩ hm
  exact ⟨hm.sound hsd, hm.ledger hsd hle, hm.drainSafe hle hdr⟩

/-- A callback that was called belongs to a call of `submit` that returned nil or will do so. -/
theorem Ledger.called_le (h : σ.Ledger) :
    callsOf calledCall σ.history + callsOf refusedCall σ.history ≤ σ.allCalls := by
  have hs : σ.skipCalls ≤ σ.openCalls := by
    apply total_le_total
    intro sub
    split_ifs
    · exact le_rfl
    · exact Multiset.zero_le _
  have hh : (σ.calling : Multiset ProbeTask).map (·.call) + callsOf finishedCall σ.history ≤
      callsOf enqueuedCall σ.history := by
    rw [h.handed, owed]
    exact add_le_add_left (Multiset.le_add_left _ _) _
  rw [h.called, allCalls]
  calc
    _ = (σ.calling : Multiset ProbeTask).map (·.call) + callsOf finishedCall σ.history + σ.skipCalls +
        (callsOf refusedCall σ.history + callsOf skipAcceptedCall σ.history) := by abel
    _ ≤ callsOf enqueuedCall σ.history + σ.openCalls +
        (callsOf refusedCall σ.history + callsOf skipAcceptedCall σ.history) := by gcongr
    _ = _ := by abel

/-- The call of `submit` returned nil. -/
def Accepted (σ : SchedulerSystem) (call : ℕ) : Prop :=
  (∃ task, .enqueued task ∈ σ.history ∧ task.call = call) ∨ .skipAccepted call ∈ σ.history

theorem Ledger.mem_called_of_accepted {call : ℕ} (h : σ.Ledger) (hc : σ.sched.callbacks = 0)
    (ha : σ.Accepted call) : call ∈ callsOf calledCall σ.history := by
  have ho : σ.owed = 0 := by
    rw [h.callbacks] at hc
    exact Multiset.card_eq_zero.mp (by omega)
  rw [h.called, Multiset.mem_add, Multiset.mem_add, Multiset.mem_add]
  rcases ha with ⟨task, he, rfl⟩ | hs
  · have hm : task.call ∈ callsOf enqueuedCall σ.history := mem_callsOf.mpr ⟨_, he, rfl⟩
    rw [h.handed, ho, zero_add] at hm
    exact .inl (.inl (.inr hm))
  · exact .inr (mem_callsOf.mpr ⟨_, hs, rfl⟩)

theorem Ledger.nodup_enqueued (h : σ.Ledger) : (callsOf enqueuedCall σ.history).Nodup := by
  apply Multiset.nodup_of_le _ h.once
  rw [allCalls, add_assoc, add_right_comm]
  exact Multiset.le_add_left _ _

theorem Ledger.callbacks_eq (h : σ.Ledger) :
    σ.sched.callbacks = (σ.history.filterMap enqueuedCall).countP (fun call => .finished call ∉ σ.history) := by
  have hen := h.nodup_enqueued
  have hu (call : ℕ) : .finished call ∉ σ.history ↔ call ∉ callsOf finishedCall σ.history := by
    rw [mem_callsOf]
    constructor
    · rintro hn ⟨e, he, hs⟩
      cases e with
      | finished call' =>
        cases hs
        exact hn he
      | _ => contradiction
    · exact fun hn he => hn ⟨_, he, rfl⟩
  have hcn : (σ.history.filterMap enqueuedCall).countP (fun call => .finished call ∉ σ.history) =
      (callsOf enqueuedCall σ.history).countP fun call => call ∉ callsOf finishedCall σ.history := by
    simp only [hu]
    exact (Multiset.coe_countP _ _).symm
  rw [hcn, h.handed, Multiset.countP_add, h.callbacks]
  rw [h.handed, Multiset.nodup_add] at hen
  have ho : σ.owed.countP (fun call => call ∉ callsOf finishedCall σ.history) = σ.owed.card :=
    Multiset.countP_eq_card.mpr fun call hc => Multiset.disjoint_left.mp hen.2.2 hc
  have hf : (callsOf finishedCall σ.history).countP (fun call => call ∉ callsOf finishedCall σ.history) = 0 :=
    Multiset.countP_eq_zero.mpr fun call hc => not_not.mpr hc
  rw [ho, hf, add_zero]

/-- No callback is called twice or after an error, `callbacks` counts the tasks whose callback is not over, and
when `Drain` returns every accepted task had its callback called once. -/
theorem callbacks_exactly_once {cfg : SchedulerConfig} (h : Reachable cfg σ) :
    (∀ call, σ.history.count (.called call) ≤ 1) ∧
    (∀ call err, .refused call err ∈ σ.history → .called call ∉ σ.history) ∧
    σ.sched.callbacks = (σ.history.filterMap enqueuedCall).countP (fun call => .finished call ∉ σ.history) ∧
    ∀ σ', σ.step .drainReturn = some σ' → ∀ call, σ.Accepted call → σ.history.count (.called call) = 1 := by
  obtain ⟨-, hl, hdr⟩ := h.ledger
  have hnd := Multiset.nodup_of_le hl.called_le hl.once
  rw [Multiset.nodup_add] at hnd
  obtain ⟨hcd, -, hd⟩ := hnd
  have ho (call : ℕ) : σ.history.count (.called call) ≤ 1 := by
    rw [← count_callsOf_called]
    exact Multiset.nodup_iff_count_le_one.mp hcd call
  refine ⟨ho, ?_, hl.callbacks_eq, ?_⟩
  · intro call err hr hc
    have hlt : call ∈ callsOf calledCall σ.history := mem_callsOf.mpr ⟨_, hc, rfl⟩
    exact Multiset.disjoint_left.mp hd hlt (mem_callsOf.mpr ⟨_, hr, rfl⟩)
  · intro σ' hs call ha
    have hps : σ.drainPassed = true := by
      cases moves_of_step hs with
      | drainReturns hps => exact hps
      | dispatcher _ hac => simp at hac
    have hm := hl.mem_called_of_accepted (hdr hps).2 ha
    rw [← Multiset.count_pos, count_callsOf_called] at hm
    have hle := ho call
    omega

/-- A task from its submission to a `Drain` that waits for it. -/
theorem callbacks_exactly_once_drained : ∃ σ σ', Reachable {} σ ∧ σ.step .drainReturn = some σ' ∧ σ.Accepted 0 ∧
    σ.history.count (.called 0) = 1 := by
  have hru : ∃ σ σ', exec { sched := defaultScheduler }
      [.submit "a" "n1" "speed" .manualPreemptFront false, .attempt 0 0, .dispatch, .startTask 1 0, .execute 1, .close 0,
        .finishTask 1 0, .callback 0, .finishCallback 0, .dispatch, .drainCheck] = some σ ∧
      σ.step .drainReturn = some σ' ∧ enqueued ⟨"a", "n1", "speed", .manualPreemptFront, 0⟩ ∈ σ.history :=
    ⟨_, _, rfl, rfl, mem_cons_self⟩
  obtain ⟨σ, σ', he, hdr, hen⟩ := hru
  have ha : σ.Accepted 0 := .inl ⟨_, hen, rfl⟩
  have hr : Reachable {} σ := ⟨_, newScheduler_default, _, he⟩
  exact ⟨σ, σ', hr, hdr, ha, (callbacks_exactly_once hr).2.2.2 σ' hdr 0 ha⟩

end

end SchedulerSystem

end ClashSubParser
