import ClashSubParser.ObservedRuns

/-! What a run has stored of a pair when it returns, whichever of its statements failed. -/
namespace ClashSubParser

open List AssocTotals RunnerState

namespace RunnerSystem

section

variable {cfg : DefaultRunner} {req : RunRequest} {s s' : RunnerSystem} {action : RunnerAction}
  {actions : List RunnerAction}

/-! ### At most one observation of a pair -/

/-- The function of a task of the pair returned what the observation says. -/
def Answered (actions : List RunnerAction) (s : RunnerSystem) (o : RunObservation) : Prop :=
  ∃ call t outcome, s.runner.tasks.lookup call = some t ∧ t.pair = o.pair ∧ .probe call outcome ∈ actions ∧
    outcome.executed = o.executed ∧ outcome.verdict = o.verdict

structure Traced (actions : List RunnerAction) (s : RunnerSystem) : Prop where
  probed : ∀ call t, s.runner.tasks.lookup call = some t → ∀ o, t.phase = .probed o → .probe call o ∈ actions
  stored : ∀ o ∈ s.runner.observations, (o.executed = false ∧ o.verdict = .unknown) ∨ Answered actions s o

/-- The tasks stay those of their pairs. -/
def KeepsTasks (s s' : RunnerSystem) : Prop :=
  ∀ call t, s.runner.tasks.lookup call = some t → ∃ t', s'.runner.tasks.lookup call = some t' ∧ t'.pair = t.pair

theorem keepsTasks_of_eq (h : s'.runner.tasks = s.runner.tasks) : KeepsTasks s s' :=
  fun _ t ht => ⟨t, h ▸ ht, rfl⟩

theorem Answered.mono {o : RunObservation} (h : Answered actions s o) (hk : KeepsTasks s s') :
    Answered actions s' o := by
  obtain ⟨call, t, outcome, ht, hp, ho⟩ := h
  obtain ⟨t', ht', hp'⟩ := hk call t ht
  exact ⟨call, t', outcome, ht', hp'.trans hp, ho⟩

theorem Traced.congr (h : Traced actions s) (ht : s'.runner.tasks = s.runner.tasks)
    (ho : s'.runner.observations = s.runner.observations) : Traced actions s' where
  probed := by
    rw [ht]
    exact h.probed
  stored o hm := (h.stored o (ho ▸ hm)).imp_right (·.mono (keepsTasks_of_eq ht))

theorem Traced.writes (h : Traced actions s) {call : ℕ} {t' : RunnerTask} (hk : KeepsTasks s s')
    (ht : s'.runner.tasks = s.runner.tasks.insert call t')
    (hp : ∀ o, t'.phase = .probed o → .probe call o ∈ actions)
    (ho : ∀ o ∈ s'.runner.observations, o ∈ s.runner.observations ∨ Answered actions s' o) :
    Traced actions s' where
  probed := by
    rw [ht]
    exact forall_insert h.probed hp
  stored o hm := (ho o hm).elim (fun hm => (h.stored o hm).imp_right (·.mono hk)) .inr

variable {schedCfg : SchedulerConfig} {sched : SchedulerSystem}

end

end RunnerSystem

end ClashSubParser
