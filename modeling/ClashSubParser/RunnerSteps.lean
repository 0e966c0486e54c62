import ClashSubParser.ProbeRunner
import ClashSubParser.SchedulerExecutions

/-! The steps of a call of `Run`: one case for each thing that can happen. -/
namespace ClashSubParser

open AssocTotals

def ProbeStage.index : ProbeStage → ℕ
  | .alive => 0
  | .media => 1
  | .speed => 2

def RunnerPhase.isEarly : RunnerPhase → Bool
  | .entered | .marking | .selecting _ _ => true
  | _ => false

def RunnerAction.prepares : RunnerAction → Bool
  | .markRunning ok => ok
  | .list _ ok => ok
  | _ => true

namespace RunnerState

/-- How `Run` goes on when the stages before the `n`-th are over. -/
inductive Onward (r : RunnerState) (n : ℕ) : RunnerState → Prop
  | finish (state : ProbeRunState) (result : Option RunError) : Onward r n (r.finish state result)
  | start (stage : ProbeStage) (hnext : n ≤ stage.index) (hkinds : r.stageKinds stage ≠ []) :
      Onward r n (r.startStage stage)

variable {r : RunnerState}

theorem onward_afterMedia : Onward r 2 r.afterMedia := by
  rw [afterMedia]
  split_ifs with hs
  · exact .finish _ _
  · exact .start .speed le_rfl hs

theorem Onward.mono {r' : RunnerState} {m n : ℕ} (h : Onward r n r') (hmn : m ≤ n) : Onward r m r' := by
  cases h with
  | finish state result => exact .finish state result
  | start stage hn hks => exact .start stage (hmn.trans hn) hks

theorem onward_afterAlive : Onward r 1 r.afterAlive := by
  rw [afterAlive]
  split_ifs with he hm
  · exact .finish _ _
  · exact onward_afterMedia.mono (by omega)
  · exact .start .media le_rfl hm

theorem onward_beginStages : Onward r 0 r.beginStages := by
  rw [beginStages]
  split_ifs with ha
  · exact onward_afterAlive.mono (by omega)
  · exact .start .alive le_rfl ha

theorem onward_afterStage (stage : ProbeStage) : Onward r (stage.index + 1) (r.afterStage stage) := by
  cases stage with
  | alive => exact onward_afterAlive
  | media => exact onward_afterMedia
  | speed => exact .finish _ _

theorem conclude_eq (r : RunnerState) (call : ℕ) (t : RunnerTask) (verdict : ProbeVerdict) (err : Option TaskError) :
    ∃ fatalErr systemic nodes available, r.conclude call t verdict err =
      { r with
        tasks := r.tasks.insert call { t with phase := .returned }
        taskFatalErr := fatalErr
        hasSystemicDialErr := systemic
        fatalDialNodes := nodes
        available := available } := by
  cases err with
  | none | some err => exact ⟨_, _, _, _, rfl⟩

end RunnerState

theorem ProbeRun.id_transitionTo (run : ProbeRun) (state : ProbeRunState) : (run.transitionTo state).id = run.id := by
  rw [ProbeRun.transitionTo]
  split_ifs <;> rfl

namespace RunnerSystem

/-- What happens beside `Run`: in the scheduler, in the tasks, to the contexts and to the budget. -/
inductive TaskMoves (s : RunnerSystem) : RunnerAction → RunnerSystem → Prop
  | scheduler {a : SchedulerAction} {sched : SchedulerSystem} (hpermits : s.permits a = true)
      (hstep : s.sched.step a = some sched) : TaskMoves s (.scheduler a) ⟨sched, s.called a⟩
  /-- contexts and the budget -/
  | environment {action : RunnerAction} (ctxErr : Option ContextError) (bodyBudget : BodyBudget)
      (haction : (∃ err, action = .contextEnds err) ∨ (∃ bytes, action = .spend bytes) ∨
        ∃ call, action = .exhaust call) :
      TaskMoves s action { s with runner := { s.runner with ctxErr := ctxErr, bodyBudget := bodyBudget } }
  /-- a task gets its slot, or its probe is over -/
  | advances {action : RunnerAction} {call : ℕ} {t : RunnerTask} {phase : TaskPhase}
      (htask : s.runner.tasks.lookup call = some t) (hbefore : t.phase = .acquiring ∨ t.phase = .probing)
      (hcase : action = .acquire call ∧ phase = .probing ∨
        ∃ outcome, action = .probe call outcome ∧ phase = .probed outcome) :
      TaskMoves s action { s with runner := s.runner.setPhase call t phase }
  | givesUp {execID call : ℕ} {t : RunnerTask} (htask : s.runner.tasks.lookup call = some t)
      (hphase : t.phase = .acquiring) :
      TaskMoves s (.giveUp execID) { s with runner := s.runner.setPhase call t .returned }
  | stores {call : ℕ} {t : RunnerTask} {o : ProbeOutcome} (htask : s.runner.tasks.lookup call = some t)
      (hphase : t.phase = .probed o) :
      TaskMoves s (.store call true) { s with
        runner := { s.runner with observations := s.runner.observations ++ [s.runner.observe t o] }.setPhase call t
          (.stored o) }
  /-- `Execute` returns: the write failed, or the pair is marked as seen -/
  | returns {action : RunnerAction} {call : ℕ} {t : RunnerTask} {o : ProbeOutcome} {seen nodes available : List String}
      {fatalErr : Option TaskError} {systemic : Bool} {baseline : FiniteMap String ProbeVerdict}
      (htask : s.runner.tasks.lookup call = some t)
      (hcase : action = .store call false ∧ t.phase = .probed o ∧ seen = s.runner.seen ∨
        action = .conclude call ∧ t.phase = .stored o ∧ seen = s.runner.seen ++ [seenKey t.node.logicalID t.kind]) :
      TaskMoves s action { s with runner := { s.runner with
        tasks := s.runner.tasks.insert call { t with phase := .returned }
        taskFatalErr := fatalErr
        hasSystemicDialErr := systemic
        fatalDialNodes := nodes
        available := available
        seen := seen
        baseline := baseline } }

/-- What `Run` itself does, case by case. -/
inductive RunMoves (cfg : DefaultRunner) (req : RunRequest) (s : RunnerSystem) : RunnerAction → RunnerSystem → Prop
  /-- `Run` returns before it has targets -/
  | turnsAway {action : RunnerAction} {run : ProbeRun} {result : Option RunError}
      (hearly : s.runner.phase.isEarly = true) (hid : run.id = s.runner.run.id)
      (hwhy : action.prepares = false ∨ s.runner.phase = .entered ∧
        (s.runner.run.state.isTerminal = true ∨ cfg.budget.isValid = false)) :
      RunMoves cfg req s action { s with runner := { s.runner with run := run, phase := .returned result } }
  /-- it goes on to the next statement before the stages -/
  | prepares {action : RunnerAction} {run : ProbeRun} {phase : RunnerPhase} (hearly : s.runner.phase.isEarly = true)
      (hid : run.id = s.runner.run.id) (hnext : phase = .marking ∨ ∃ page found, phase = .selecting page found ∧
        (found = [] ∨ ∃ page' before chunk, s.runner.phase = .selecting page' before ∧ found = addUnseen before chunk))
      (hpassed : s.runner.phase = .entered → s.runner.run.state.isTerminal = false ∧ cfg.budget.isValid = true)
      (haction : action.prepares = true) :
      RunMoves cfg req s action { s with runner := { s.runner with run := run, phase := phase } }
  | lists {db : NodeTables} {page : ℕ} {found : List Node} (hphase : s.runner.phase = .selecting page found)
      (hids : req.nodeIDs ≠ []) :
      RunMoves cfg req s (.list db true) { s with
        runner := s.runner.expand cfg req.kinds (targetsOf req.nodeIDs (db.list (cfg.targetQuery req.nodeIDs)).1) }
  | listsLast {db : NodeTables} {page : ℕ} {found chunk : List Node}
      (hphase : s.runner.phase = .selecting page found) (hids : req.nodeIDs = []) :
      RunMoves cfg req s (.list db true) { s with
        runner := s.runner.expand cfg req.kinds (addUnseen found chunk) }
  | submits {stage : ProbeStage} {n : Node} {k : ProbeKind} {rest : List (Node × ProbeKind)} {sched : SchedulerSystem}
      (hphase : s.runner.phase = .submitting stage ((n, k) :: rest) none)
      (hstep : s.sched.step (.submit s.runner.run.id n.logicalID k.text s.runner.enqueueMode true) = some sched) :
      RunMoves cfg req s .submit ⟨sched, { s.runner with
        tasks := s.runner.tasks.insert s.sched.nextCall ⟨n, k, .submitted⟩
        stageCalls := s.runner.stageCalls ++ [s.sched.nextCall]
        phase := .submitting stage rest (some s.sched.nextCall) }⟩
  | submitted {stage : ProbeStage} {rest : List (Node × ProbeKind)} {call : ℕ}
      (hphase : s.runner.phase = .submitting stage rest (some call)) :
      RunMoves cfg req s .submitReturns { s with runner := { s.runner with phase := .submitting stage rest none } }
  /-- the loops of a stage end, with or without an error -/
  | submitsLast {action : RunnerAction} {stage : ProbeStage} {rest : List (Node × ProbeKind)} {current : Option ℕ}
      (submitErr : Option SubmitError) (haction : action = .submitReturns ∨ action = .submitDone)
      (hphase : s.runner.phase = .submitting stage rest current) :
      RunMoves cfg req s action { s with runner := { s.runner with phase := .waiting stage, submitErr := submitErr } }
  | cancels {now : Time} {stage : ProbeStage} {sched : SchedulerSystem} (hphase : s.runner.phase = .waiting stage)
      (hstep : s.sched.step (.cancelRun s.runner.run.id now) = some sched) :
      RunMoves cfg req s (.cancelStage now) ⟨sched, { s.runner with phase := .draining stage }⟩
  | ends {action : RunnerAction} {stage : ProbeStage} {runner : RunnerState}
      (haction : action = .stageDone ∨ ∃ ok, action = .drained ok)
      (hphase : s.runner.phase = .waiting stage ∨ s.runner.phase = .draining stage) (hover : s.stageOver = true)
      (honward : s.runner.Onward (stage.index + 1) runner) : RunMoves cfg req s action { s with runner := runner }
  | records {ok : Bool} {result : Option RunError} {meter : MeterSnapshot} {n : Node} {k : ProbeKind}
      {rest : List (Node × ProbeKind)} (hphase : s.runner.phase = .recording result meter ((n, k) :: rest)) :
      RunMoves cfg req s (.record ok) { s with runner := { s.runner with
        phase := .recording result meter rest
        observations :=
          if ok then s.runner.observations ++ [s.runner.observeMissing meter n k] else s.runner.observations } }
  | leaves {result : Option RunError} {meter : MeterSnapshot} (hphase : s.runner.phase = .recording result meter []) :
      RunMoves cfg req s .leave { s with runner := { s.runner with phase := .returned result } }

inductive Moves (cfg : DefaultRunner) (req : RunRequest) (s : RunnerSystem) (action : RunnerAction)
    (s' : RunnerSystem) : Prop
  | beside (h : TaskMoves s action s')
  | own (h : RunMoves cfg req s action s')

variable {cfg : DefaultRunner} {req : RunRequest} {s s' : RunnerSystem} {action : RunnerAction}

theorem moves_of_taskStep {runner : RunnerState} (h : s.taskStep cfg action = some runner) :
    TaskMoves s action { s with runner := runner } := by
  cases action with
  | contextEnds err =>
    cases h
    exact .environment _ _ (.inl ⟨err, rfl⟩)
  | spend bytes =>
    rw [taskStep] at h
    split_ifs at h
    cases h
    exact .environment _ _ (.inr (.inl ⟨bytes, rfl⟩))
  | exhaust call =>
    rw [taskStep] at h
    split at h
    · split_ifs at h
      cases h
      exact .environment _ _ (.inr (.inr ⟨call, rfl⟩))
    · contradiction
  | acquire call =>
    rw [taskStep] at h
    split at h
    · rename_i htask
      split_ifs at h
      cases h
      exact .advances htask (.inl rfl) (.inl ⟨rfl, rfl⟩)
    · contradiction
  | giveUp execID =>
    rw [taskStep] at h
    split at h
    · split at h
      · rename_i htask
        split_ifs at h
        cases h
        exact .givesUp htask rfl
      · contradiction
    · contradiction
  | probe call outcome =>
    rw [taskStep] at h
    split at h
    · rename_i htask
      cases h
      exact .advances htask (.inr rfl) (.inr ⟨outcome, rfl, rfl⟩)
    · contradiction
  | store call ok =>
    rw [taskStep] at h
    split at h
    · rename_i htask
      cases ok with
      | true =>
        cases h
        exact .stores htask rfl
      | false =>
        cases h
        obtain ⟨_, _, _, _, hc⟩ := RunnerState.conclude_eq s.runner call _ _ (some .createFailed)
        rw [hc]
        exact .returns htask (.inl ⟨rfl, rfl, rfl⟩)
    · contradiction
  | conclude call =>
    rw [taskStep] at h
    split at h
    · rename_i htask
      cases h
      obtain ⟨_, _, _, _, hc⟩ := RunnerState.conclude_eq (s.runner.mark _ _) call _ _ _
      rw [hc]
      exact .returns htask (.inr ⟨rfl, rfl, rfl⟩)
    · contradiction
  | _ => contradiction

theorem moves_enter (h : s.runStep cfg req .enter = some s') : RunMoves cfg req s .enter s' := by
  rw [runStep] at h
  split at h
  · rename_i hph
    have hea : s.runner.phase.isEarly = true := by rw [hph]; rfl
    split_ifs at h with ht hi hq
    · cases h
      exact .turnsAway hea rfl (.inr ⟨hph, .inl ht⟩)
    · cases h
      exact .turnsAway hea rfl (.inr ⟨hph, .inr (by simpa using hi)⟩)
    · cases h
      exact .prepares hea (ProbeRun.id_transitionTo _ _) (.inl rfl)
        (fun _ => ⟨by simpa using ht, by simpa using hi⟩) rfl
    · cases h
      exact .prepares hea rfl (.inr ⟨1, [], rfl, .inl rfl⟩)
        (fun _ => ⟨by simpa using ht, by simpa using hi⟩) rfl
  · contradiction

theorem moves_list {db : NodeTables} {ok : Bool} (h : s.runStep cfg req (.list db ok) = some s') :
    RunMoves cfg req s (.list db ok) s' := by
  rw [runStep] at h
  split at h
  · rename_i page found hphase
    cases ok with
    | false =>
      cases h
      exact .turnsAway (by rw [hphase]; rfl) (ProbeRun.id_transitionTo _ _) (.inl rfl)
    | true =>
      rw [Bool.not_true, if_neg Bool.false_ne_true] at h
      by_cases hi : req.nodeIDs = []
      · rw [if_neg (not_not.mpr hi)] at h
        dsimp only at h
        split_ifs at h
        · cases h
          exact .listsLast hphase hi
        · cases h
          exact .prepares (by rw [hphase]; rfl) rfl (.inr ⟨_, _, rfl, .inr ⟨_, _, _, hphase, rfl⟩⟩)
            (by simp [hphase]) rfl
      · rw [if_pos hi] at h
        cases h
        exact .lists hphase hi
  · contradiction

theorem moves_stageDone (h : s.runStep cfg req .stageDone = some s') : RunMoves cfg req s .stageDone s' := by
  rw [runStep] at h
  split at h
  · rename_i stage hphase
    by_cases ho : s.stageOver = true ∧ s.runner.ctxErr = none
    · rw [if_pos ho] at h
      split at h
      · cases h
        exact .ends (.inl rfl) (.inl hphase) ho.1 (.finish _ _)
      · split_ifs at h
        · cases h
          exact .ends (.inl rfl) (.inl hphase) ho.1 (.finish _ _)
        · cases h
          exact .ends (.inl rfl) (.inl hphase) ho.1 (RunnerState.onward_afterStage stage)
    · rw [if_neg ho] at h
      contradiction
  · contradiction

theorem moves_of_runStep (h : s.runStep cfg req action = some s') : RunMoves cfg req s action s' := by
  cases action with
  | enter => exact moves_enter h
  | markRunning ok =>
    rw [runStep] at h
    split at h
    · rename_i hphase
      cases ok with
      | true =>
        cases h
        exact .prepares (by rw [hphase]; rfl) rfl (.inr ⟨1, [], rfl, .inl rfl⟩) (by simp [hphase]) rfl
      | false =>
        cases h
        exact .turnsAway (by rw [hphase]; rfl) rfl (.inl rfl)
    · contradiction
  | list db ok => exact moves_list h
  | submit =>
    rw [runStep] at h
    split at h
    · rename_i hphase
      obtain ⟨sched, hs, rfl⟩ := Option.map_eq_some_iff.mp h
      exact .submits hphase hs
    · contradiction
  | submitReturns =>
    rw [runStep] at h
    split at h
    · rename_i hphase
      split at h
      · cases h
        exact .submitted hphase
      · cases h
        exact .submitsLast _ (.inl rfl) hphase
      · contradiction
    · contradiction
  | submitDone =>
    rw [runStep] at h
    split at h
    · rename_i hphase
      cases h
      exact .submitsLast s.runner.submitErr (.inr rfl) hphase
    · contradiction
  | cancelStage now =>
    rw [runStep] at h
    split at h
    · rename_i hphase
      split_ifs at h
      obtain ⟨sched, hs, rfl⟩ := Option.map_eq_some_iff.mp h
      exact .cancels hphase hs
    · contradiction
  | stageDone => exact moves_stageDone h
  | drained ok =>
    rw [runStep] at h
    split at h
    · rename_i hphase
      split_ifs at h with ho
      obtain ⟨-, -, rfl⟩ := Option.map_eq_some_iff.mp h
      exact .ends (.inr ⟨ok, rfl⟩) (.inr hphase) ho (.finish _ _)
    · contradiction
  | record ok =>
    rw [runStep] at h
    split at h
    · rename_i hphase
      obtain rfl := Option.some.inj h
      exact .records hphase
    · contradiction
  | leave =>
    rw [runStep] at h
    split at h
    · rename_i hphase
      obtain rfl := Option.some.inj h
      exact .leaves hphase
    · contradiction
  | _ => contradiction

/-- The cases are all that can happen in a step. -/
theorem moves_of_step (h : s.step cfg req action = some s') : Moves cfg req s action s' := by
  cases action with
  | scheduler a =>
    rw [step] at h
    split_ifs at h with hp
    obtain ⟨sched, hs, rfl⟩ := Option.map_eq_some_iff.mp h
    exact .beside (.scheduler hp hs)
  | _ =>
    rw [step] at h
    · split at h
      · rename_i hs
        cases h
        exact .beside (moves_of_taskStep hs)
      · exact .own (moves_of_runStep h)
    · simp

theorem exec_induction {P : RunnerAction → Prop} {I : RunnerSystem → Prop}
    (hs : ∀ s action s', I s → P action → Moves cfg req s action s' → I s') {actions : List RunnerAction}
    (hac : ∀ action ∈ actions, P action) (h : I s) (he : s.exec cfg req actions = some s') : I s' := by
  induction actions generalizing s with
  | nil =>
    cases he
    exact h
  | cons action actions ih =>
    obtain ⟨s₁, hf, hr⟩ := Option.bind_eq_some_iff.mp he
    have hk := hs s action s₁ h (hac action List.mem_cons_self) (moves_of_step hf)
    exact ih (fun a ha => hac a (List.mem_cons_of_mem action ha)) hk hr

end RunnerSystem

end ClashSubParser
