import Mathlib.Data.Nat.Init
import Mathlib.Logic.Function.Iterate

/-! Loops that repeat a pass until it changes nothing, under a bound on the number of rounds. -/
namespace FixpointLoop

variable {σ : Type*} (pass : σ → Option σ)

def advance (s : σ) : σ := (pass s).getD s

/-- At most `n` rounds, stopped by the first pass that changes nothing. -/
def loop : ℕ → σ → σ
  | 0, s => s
  | n+1, s =>
    match pass s with
    | none => s
    | some s' => loop n s'

variable {pass}

theorem advance_of_none {s : σ} (h : pass s = none) : advance pass s = s := by
  rw [advance, h, Option.getD_none]

theorem advance_of_some {s s' : σ} (h : pass s = some s') : advance pass s = s' := by
  rw [advance, h, Option.getD_some]

theorem iterate_of_none {s : σ} (h : pass s = none) (n : ℕ) : (advance pass)^[n] s = s :=
  Function.iterate_fixed (advance_of_none h) n

/-- The loop with its early exit is the plain iteration. -/
theorem loop_eq_iterate (n : ℕ) (s : σ) : loop pass n s = (advance pass)^[n] s := by
  induction n generalizing s with
  | zero => rfl
  | succ n ih =>
    rw [loop]
    cases h : pass s with
    | none => exact (iterate_of_none h (n+1)).symm
    | some s' => rw [Function.iterate_succ_apply, advance_of_some h, ← ih]

theorem pass_iterate_eq_none {μ : σ → ℕ} (hμ : ∀ s s', pass s = some s' → μ s' < μ s) :
    ∀ (n : ℕ) (s : σ), μ s ≤ n → pass ((advance pass)^[n] s) = none := by
  intro n
  induction n with
  | zero =>
    intro s hs
    cases h : pass s with
    | none => exact h
    | some s' =>
      have hlt := hμ s s' h
      omega
  | succ n ih =>
    intro s hs
    cases h : pass s with
    | none => rw [iterate_of_none h]; exact h
    | some s' =>
      have hlt := hμ s s' h
      rw [Function.iterate_succ_apply, advance_of_some h]
      exact ih s' (by omega)

theorem iterate_induction {P : σ → Prop} (hs : ∀ s s', P s → pass s = some s' → P s') {s : σ}
    (h0 : P s) (n : ℕ) : P ((advance pass)^[n] s) := by
  refine Function.Iterate.rec P h0 ?_ n
  intro t ht
  cases h : pass t with
  | none => rwa [advance_of_none h]
  | some t' => rw [advance_of_some h]; exact hs t t' ht h

end FixpointLoop
