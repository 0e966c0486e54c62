import ClashSubParser.RunnerSteps

/-! The tasks of a run against the scheduler: `Execute` begins once, and is over when the wait group says
so. -/
namespace ClashSubParser

open AssocTotals

namespace SchedulerSystem

variable {σ σ' : SchedulerSystem} {call : ℕ}

theorem isOver_iff : σ.isOver call = true ↔ .called call ∈ σ.history ∨ ∃ err, .refused call err ∈ σ.history := by
  rw [isOver, List.any_eq_true]
  constructor
  · intro ⟨e, he, ht⟩
    cases e with
    | called call' =>
      obtain rfl : call' = call := of_decide_eq_true ht
      exact .inl he
    | refused call' err =>
      obtain rfl : call' = call := of_decide_eq_true ht
      exact .inr ⟨err, he⟩
    | _ => contradiction
  · rintro (hcd | ⟨err, hr⟩)
    · exact ⟨_, hcd, decide_eq_true rfl⟩
    · exact ⟨_, hr, decide_eq_true rfl⟩

theorem isOver_mono (h : σ.history ⊆ σ'.history) (ho : σ.isOver call = true) : σ'.isOver call = true := by
  rw [isOver_iff] at ho ⊢
  rcases ho with hcd | ⟨err, hr⟩
  · exact .inl (h hcd)
  · exact .inr ⟨err, h hr⟩

theorem Ledger.not_executing_of_isOver (h : σ.Ledger) (ho : σ.isOver call = true) : call ∉ σ.executing := by
  rcases isOver_iff.mp ho with hcd | ⟨err, hr⟩
  · exact h.not_executing_of_called hcd
  · exact h.not_executing_of_refused hr

/-- After its callback or its refusal a task is never in `Execute`. -/
theorem over_never_executes {cfg : SchedulerConfig} {after : List SchedulerAction} (h : Reachable cfg σ)
    (ho : σ.isOver call = true) (hexec : σ.exec after = some σ') : call ∉ σ'.executing := by
  obtain ⟨s, hn, before, he⟩ := h
  have hr : Reachable cfg σ' := ⟨s, hn, before ++ after, by rw [exec_append, he, Option.bind_some, hexec]⟩
  have ho' : σ'.isOver call = true := exec_induction (P := fun τ => τ.isOver call = true)
    (fun _ _ _ ho hm => isOver_mono hm.history_subset ho) ho hexec
  exact hr.ledger.2.1.not_executing_of_isOver ho'

theorem over_never_executes_called : ∃ σ σ' : SchedulerSystem, σ.isOver 0 = true ∧
    σ.exec [.finishCallback 0] = some σ' ∧ 0 ∉ σ'.executing := by
  have hru : ∃ σ σ', exec { sched := defaultScheduler } [.submit "a" "n" "speed" .manualPreemptFront false,
      .attempt 0 0, .dispatch, .startTask 1 0, .execute 1, .finishTask 1 0, .callback 0] = some σ ∧
      σ.isOver 0 = true ∧ σ.exec [.finishCallback 0] = some σ' := ⟨_, _, rfl, rfl, rfl⟩
  obtain ⟨σ, σ', he, ho, ha⟩ := hru
  exact ⟨σ, σ', ho, ha, over_never_executes ⟨_, newScheduler_default, _, he⟩ ho ha⟩

end SchedulerSystem

namespace RunnerSystem

structure Linked (s : RunnerSystem) : Prop where
  sound : s.sched.Sound
  ledger : s.sched.Ledger
  numbered : ∀ call t, s.runner.tasks.lookup call = some t → call < s.sched.nextCall
  begun : ∀ call t, s.runner.tasks.lookup call = some t → t.phase ≠ .submitted → call ∉ s.sched.unbegun
  running : ∀ call t, s.runner.tasks.lookup call = some t → t.phase ≠ .submitted → t.phase ≠ .returned →
    call ∈ s.sched.executing

variable {s s' : RunnerSystem} {call : ℕ} {t t' : RunnerTask}

theorem Linked.phase_of_isOver (h : s.Linked) (ht : s.runner.tasks.lookup call = some t)
    (ho : s.sched.isOver call = true) : t.phase = .submitted ∨ t.phase = .returned := by
  by_contra hphase
  rw [not_or] at hphase
  exact h.ledger.not_executing_of_isOver ho (h.running call t ht hphase.1 hphase.2)

theorem Linked.congr (h : s.Linked) (hs : s'.sched = s.sched) (hts : s'.runner.tasks = s.runner.tasks) :
    s'.Linked := by
  refine ⟨hs ▸ h.sound, hs ▸ h.ledger, ?_, ?_, ?_⟩
  · rw [hs, hts]
    exact h.numbered
  · rw [hs, hts]
    exact h.begun
  · rw [hs, hts]
    exact h.running

theorem Linked.writes (h : s.Linked) (hs : s'.sched = s.sched)
    (hts : s'.runner.tasks = s.runner.tasks.insert call t') (hc : call < s.sched.nextCall)
    (he : call ∈ s.sched.executing) : s'.Linked := by
  refine ⟨hs ▸ h.sound, hs ▸ h.ledger, ?_, ?_, ?_⟩
  · rw [hs, hts]
    exact forall_insert h.numbered hc
  · rw [hs, hts]
    exact forall_insert h.begun fun _ => h.ledger.not_unbegun_of_executing he
  · rw [hs, hts]
    exact forall_insert h.running fun _ _ => he

theorem Linked.writes_task (h : s.Linked) (hs : s'.sched = s.sched)
    (hts : s'.runner.tasks = s.runner.tasks.insert call t') (ht : s.runner.tasks.lookup call = some t)
    (hb : t.phase ≠ .submitted) (hl : t.phase ≠ .returned) : s'.Linked :=
  h.writes hs hts (h.numbered call t ht) (h.running call t ht hb hl)

variable {cfg : DefaultRunner} {a : SchedulerAction} {action : RunnerAction} {sched : SchedulerSystem}

theorem Linked.moves (h : s.Linked) (hm : SchedulerSystem.Moves s.sched a sched)
    (hr : ∀ eid now w, a = .finishTask eid now → s.sched.workers.lookup eid = some w →
      ∀ t, s.runner.tasks.lookup w.task.call = some t → t.phase = .returned) :
    (⟨sched, s.runner⟩ : RunnerSystem).Linked := by
  refine ⟨hm.sound h.sound, hm.ledger h.sound h.ledger, ?_, ?_, ?_⟩
  · intro c t hc
    exact (h.numbered c t hc).trans_le hm.nextCall_le
  · intro c t hc hph hu
    rcases hm.unbegun h.sound hu with ho | hn
    · exact h.begun c t hc hph ho
    · have hlt := h.numbered c t hc
      omega
  · intro c t hc hph hp'
    rcases hm.executing h.sound (h.running c t hc hph hp') with hk | ⟨eid, now, w, ha, hwk, hca⟩
    · exact hk
    · exact absurd (hr eid now w ha hwk t (hca ▸ hc)) hp'

theorem taskOf_eq_some {eid : ℕ} {p : ℕ × RunnerTask} : s.taskOf eid = some p ↔
    ∃ w, s.sched.workers.lookup eid = some w ∧ w.task.call = p.1 ∧
      s.runner.tasks.lookup w.task.call = some p.2 := by
  rw [taskOf, Option.bind_eq_some_iff]
  constructor
  · intro ⟨w, hwk, hm⟩
    obtain ⟨t, ht, rfl⟩ := Option.map_eq_some_iff.mp hm
    exact ⟨w, hwk, rfl, ht⟩
  · intro ⟨w, hwk, hc, ht⟩
    refine ⟨w, hwk, ?_⟩
    rw [ht, Option.map_some, hc]

/-- What a step of the scheduler does to the tasks: nothing, or the `Execute` of one begins. -/
theorem called_cases (h : s.Linked) (hs : s.sched.step a = some sched) :
    s.called a = s.runner ∨ ∃ call t, s.runner.tasks.lookup call = some t ∧ t.phase = .submitted ∧
      call ∈ sched.executing ∧ s.called a = s.runner.setPhase call t .acquiring := by
  cases a with
  | execute eid =>
    rw [called]
    cases htask : s.taskOf eid with
    | none => exact .inl rfl
    | some p =>
      obtain ⟨call, t⟩ := p
      obtain ⟨worker, hwk, hc, ht⟩ := taskOf_eq_some.mp htask
      obtain ⟨worker', hw', hu, he⟩ := SchedulerSystem.mem_unbegun_of_execute hs
      rw [hwk] at hw'
      cases hw'
      rw [hc] at ht hu he
      refine .inr ⟨call, t, ht, ?_, he, rfl⟩
      by_contra hphase
      exact h.begun call t ht hphase hu
  | _ => exact .inl rfl

theorem Linked.scheduler (h : s.Linked) (hp : s.permits a = true) (hs : s.sched.step a = some sched) :
    (⟨sched, s.called a⟩ : RunnerSystem).Linked := by
  have hmv : (⟨sched, s.runner⟩ : RunnerSystem).Linked := by
    apply h.moves (SchedulerSystem.moves_of_step hs)
    intro eid now w ha hwk t ht
    have hta : s.taskOf eid = some (w.task.call, t) := taskOf_eq_some.mpr ⟨w, hwk, rfl, ht⟩
    rw [ha, permits, hta] at hp
    exact of_decide_eq_true hp
  rcases called_cases h hs with hsa | ⟨call, t, ht, -, he, hcd⟩
  · rw [hsa]
    exact hmv
  · rw [hcd]
    exact hmv.writes rfl rfl (hmv.numbered call t ht) he

theorem Linked.submits (h : s.Linked)
    (hst : s.sched.step a = some sched) (hn : sched.nextCall = s.sched.nextCall + 1)
    (ha : ∀ eid now, a ≠ .finishTask eid now) (ht : t.phase = .submitted)
    (hs : s'.sched = sched) (hts : s'.runner.tasks = s.runner.tasks.insert s.sched.nextCall t) : s'.Linked := by
  have hmv : (⟨sched, s.runner⟩ : RunnerSystem).Linked :=
    h.moves (SchedulerSystem.moves_of_step hst) fun eid now _ ha' => absurd ha' (ha eid now)
  refine ⟨hs ▸ hmv.sound, hs ▸ hmv.ledger, ?_, ?_, ?_⟩
  · rw [hs, hts]
    exact forall_insert hmv.numbered (by omega)
  · rw [hs, hts]
    exact forall_insert hmv.begun fun hph => absurd ht hph
  · rw [hs, hts]
    exact forall_insert hmv.running fun hph => absurd ht hph

theorem tasks_expand {r : RunnerState} {kinds : List ProbeKind} {ts : List Node} :
    (r.expand cfg kinds ts).tasks = r.tasks := by
  rw [RunnerState.expand]
  dsimp only
  split_ifs
  · rfl
  · rfl
  · generalize hr : ({ r with targets := ts, kinds := validKinds kinds } : RunnerState) = r'
    have hts : r'.tasks = r.tasks := by rw [← hr]
    have hon := r'.onward_beginStages
    generalize r'.beginStages = r'' at hon
    cases hon with
    | finish | start => exact hts

theorem TaskMoves.linked (hm : TaskMoves s action s') (h : s.Linked) : s'.Linked := by
  cases hm with
  | scheduler hp hs => exact h.scheduler hp hs
  | environment => exact h.congr rfl rfl
  | advances ht hb hc =>
    refine h.writes_task rfl rfl ht ?_ ?_ <;> rcases hb with hph | hph <;> simp [hph]
  | givesUp ht hph | stores ht hph =>
    exact h.writes_task rfl rfl ht (by simp [hph]) (by simp [hph])
  | returns ht hc =>
    refine h.writes_task rfl rfl ht ?_ ?_ <;> rcases hc with ⟨-, hph, -⟩ | ⟨-, hph, -⟩ <;> simp [hph]

theorem RunMoves.linked {req : RunRequest} (hm : RunMoves cfg req s action s') (h : s.Linked) : s'.Linked := by
  cases hm with
  | lists | listsLast => exact h.congr rfl tasks_expand
  | submits hph hs =>
    have hn := Option.some.inj hs
    refine h.submits hs ?_ (by simp) rfl rfl rfl
    rw [← hn]
    rfl
  | cancels hph hs =>
    have hmv := h.moves (SchedulerSystem.moves_of_step hs) (by simp)
    exact hmv.congr rfl rfl
  | ends hac hph ho hon =>
    cases hon with
    | finish => exact h.congr rfl rfl
    | start => exact h.congr rfl rfl
  | _ => exact h.congr rfl rfl

theorem Moves.linked {req : RunRequest} (hm : Moves cfg req s action s') (h : s.Linked) : s'.Linked := by
  cases hm with
  | beside hm | own hm => exact hm.linked h

end RunnerSystem

end ClashSubParser
