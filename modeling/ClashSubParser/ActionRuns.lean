import Mathlib.Data.List.Basic

/-! Runs of a machine over lists of actions, and conditions that every action of a run meets in the state it
is taken in. -/
namespace ActionRuns

variable {σ α : Type*} (step : σ → α → σ)

def run (s : σ) (actions : List α) : σ := actions.foldl step s

/-- Every action of the run meets `P` in the state before it. -/
def Along (P : σ → α → Prop) : σ → List α → Prop
  | _, [] => True
  | s, a :: rest => P s a ∧ Along P (step s a) rest

instance Along.decidable (P : σ → α → Prop) [∀ s a, Decidable (P s a)] : ∀ s actions, Decidable (Along step P s actions)
  | _, [] => isTrue trivial
  | s, a :: rest =>
    have := Along.decidable P (step s a) rest
    inferInstanceAs (Decidable (P s a ∧ Along step P (step s a) rest))

variable {step} {P Q : σ → α → Prop} {I : σ → Prop}

theorem run_append (s : σ) (before later : List α) :
    run step s (before ++ later) = run step (run step s before) later := List.foldl_append

theorem along_append {later : List α} : ∀ {before : List α} {s : σ}, Along step P s (before ++ later) ↔
    Along step P s before ∧ Along step P (run step s before) later := by
  intro before
  induction before with
  | nil => exact fun {_} => (and_iff_right trivial).symm
  | cons a rest ih =>
    intro s
    exact (and_congr_right' ih).trans and_assoc.symm

theorem Along.of_append {before later : List α} {s : σ} (h : Along step P s (before ++ later)) :
    Along step P (run step s before) later := (along_append.mp h).2

variable (hstep : ∀ s a, I s → P s a → I (step s a))
include hstep

theorem Along.invariant {actions : List α} : ∀ {s : σ}, I s → Along step P s actions → I (run step s actions) := by
  induction actions with
  | nil =>
    intro s hs _
    exact hs
  | cons a rest ih =>
    intro s hs ha
    exact ih (hstep s a hs ha.1) ha.2

/-- What every action that meets the condition does in a state of the invariant, every action of the run
does. -/
theorem Along.imp (h : ∀ s a, I s → P s a → Q s a) {actions : List α} :
    ∀ {s : σ}, I s → Along step P s actions → Along step Q s actions := by
  induction actions with
  | nil => exact fun _ _ => trivial
  | cons a rest ih =>
    intro s hs ha
    exact ⟨h s a hs ha.1, ih (hstep s a hs ha.1) ha.2⟩

end ActionRuns
