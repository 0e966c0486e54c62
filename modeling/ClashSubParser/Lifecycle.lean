import ClashSubParser.ActionRuns
import Mathlib.Algebra.Ring.Nat

/-! Records that go through a lifecycle in which some states are final. -/
namespace Lifecycle

variable {κ σ τ α : Type*}

/-- Each record is there after the step, in its old state or in one that is permitted from there. -/
def Follows (permits : τ → τ → Prop) (states states' : κ → Option τ) : Prop :=
  ∀ k s, states k = some s → ∃ s', states' k = some s' ∧ (s' = s ∨ permits s s')

section

variable {permits : τ → τ → Prop} {states states' : κ → Option τ}

theorem Follows.of_keeps (h : ∀ k s, states k = some s → states' k = some s) : Follows permits states states' :=
  fun k s hs => ⟨s, h k s hs, Or.inl rfl⟩

theorem Follows.of_update [DecidableEq κ] {k : κ} {s s' : τ} (hs : states k = some s) (hp : permits s s')
    (h : states' = Function.update states k (some s')) : Follows permits states states' := by
  intro k' r hr
  rw [h]
  by_cases hk : k' = k
  · rw [hk] at hr ⊢
    have hrs : s = r := Option.some.inj (hs.symm.trans hr)
    refine ⟨s', Function.update_self k _ states, Or.inr ?_⟩
    rw [← hrs]
    exact hp
  · exact ⟨r, (Function.update_of_ne hk _ states).trans hr, Or.inl rfl⟩

theorem Follows.final {k : κ} {s : τ} (h : Follows permits states states') (hf : ∀ s', ¬ permits s s')
    (hs : states k = some s) : states' k = some s := by
  obtain ⟨s', hs', heq | hp⟩ := h k s hs
  · rw [hs', heq]
  · exact absurd hp (hf s')

end

/-- A record in a final state keeps it through every run. -/
theorem final_run {permits : τ → τ → Prop} {step : σ → α → σ} {states : σ → κ → Option τ} {st : σ} {actions : List α}
    (ha : ActionRuns.Along step (fun st a => Follows permits (states st) (states (step st a))) st actions)
    {k : κ} {s : τ} (hf : ∀ s', ¬ permits s s') (hs : states st k = some s) :
    states (ActionRuns.run step st actions) k = some s :=
  ha.invariant (I := fun st => states st k = some s) (fun _ _ hk hfo => hfo.final hf hk) hs

end Lifecycle
