import Mathlib.Logic.Function.Basic
import Mathlib.Order.Lattice

/-! Leases that expire. An activity that is displaced by another owner finds itself past the end of the
lease it was granted, as long as the times of the statements do not go back. -/
namespace Leases

open Function Option

structure Activity (κ ω : Type*) where
  resource : κ
  owner : ω
  /-- it makes no more writes -/
  retired : Bool

structure State (κ ω η τ : Type*) where
  owner : κ → Option ω
  ends : κ → Option τ
  activity : η → Option (Activity κ ω)
  /-- the end of the lease that the activity was granted last -/
  granted : η → τ
  /-- another owner has taken the lease since -/
  displaced : η → Prop
  clock : τ

variable {κ ω η τ : Type*} [LinearOrder τ]

structure Fenced (s : State κ ω η τ) : Prop where
  alone : ∀ h h' a a', s.activity h = some a → s.activity h' = some a' → a.resource = a'.resource →
    a.owner = a'.owner → h = h'
  holds : ∀ h a, s.activity h = some a → a.retired = false → ¬ s.displaced h →
    s.owner a.resource = some a.owner ∧ s.ends a.resource = some (s.granted h)
  late : ∀ h a, s.activity h = some a → a.retired = false → s.displaced h → s.granted h < s.clock
  lost : ∀ h a, s.activity h = some a → s.displaced h → s.owner a.resource ≠ some a.owner
  idle : ∀ h, s.activity h = none → ¬ s.displaced h

namespace Fenced

variable {s s' : State κ ω η τ}

/-- Activities go on, retire or end; who holds a lease keeps it, and who has been displaced gets none back. -/
theorem shrink (h : Fenced s)
    (hac : ∀ x a', s'.activity x = some a' → ∃ a, s.activity x = some a ∧ a.resource = a'.resource ∧
      a.owner = a'.owner ∧ (a'.retired = false → a.retired = false))
    (hhe : ∀ x a, s'.activity x = some a → a.retired = false → ¬ s.displaced x → s.owner a.resource = some a.owner →
      s.ends a.resource = some (s.granted x) →
      s'.owner a.resource = some a.owner ∧ s'.ends a.resource = some (s'.granted x))
    (hl : ∀ x a, s'.activity x = some a → s.displaced x →
      (s'.owner a.resource = s.owner a.resource ∨ s'.owner a.resource = none) ∧ s'.granted x = s.granted x)
    (hdi : ∀ x, s'.displaced x ↔ s.displaced x ∧ s'.activity x ≠ none) (hc : s.clock ≤ s'.clock) :
    Fenced s' := by
  constructor
  · intro x y a' b' hx hy hr ho
    obtain ⟨a, ha, hra, hoa, _⟩ := hac x a' hx
    obtain ⟨b, hb, hrb, hob, _⟩ := hac y b' hy
    exact h.alone x y a b ha hb (hra.trans (hr.trans hrb.symm)) (hoa.trans (ho.trans hob.symm))
  · intro x a' hx hre hn
    obtain ⟨a, ha, hr, ho, hra⟩ := hac x a' hx
    have hn' : ¬ s.displaced x := fun hd => hn ((hdi x).mpr ⟨hd, by rw [hx]; exact some_ne_none a'⟩)
    have hh := h.holds x a ha (hra hre) hn'
    rw [hr, ho] at hh
    exact hhe x a' hx hre hn' hh.1 hh.2
  · intro x a' hx hre hd
    obtain ⟨a, ha, _, _, hra⟩ := hac x a' hx
    have hbe := ((hdi x).mp hd).1
    rw [(hl x a' hx hbe).2]
    exact (h.late x a ha (hra hre) hbe).trans_le hc
  · intro x a' hx hd
    obtain ⟨a, ha, hr, ho, _⟩ := hac x a' hx
    have hbe := ((hdi x).mp hd).1
    rcases (hl x a' hx hbe).1 with hs | hno
    · rw [hs, ← hr, ← ho]
      exact h.lost x a ha hbe
    · rw [hno]
      exact nofun
  · exact fun x hx hd => ((hdi x).mp hd).2 hx

theorem resource_ne (h : Fenced s) {x y : η} {a b : Activity κ ω} (ha : s.activity x = some a)
    (hb : s.activity y = some b) (hyx : y ≠ x) (hh : s.owner a.resource = some a.owner)
    (ho : s.owner b.resource = some b.owner) : b.resource ≠ a.resource := by
  intro heq
  rw [heq, hh] at ho
  exact hyx (h.alone y x b a hb ha heq (some.inj ho).symm)

variable [DecidableEq κ] [DecidableEq η]

theorem grant (h : Fenced s) {x : η} {k : κ} {o : ω} {e : τ}
    (ha : ∀ y a, s.activity y = some a → a.resource = k → a.owner ≠ o)
    (hf : s.owner k = none ∨ s.owner k = some o ∨ ∀ t ∈ s.ends k, t < s'.clock)
    (how : s'.owner = update s.owner k (some o)) (hen : s'.ends = update s.ends k (some e))
    (hac : s'.activity = update s.activity x (some ⟨k, o, false⟩))
    (hgr : s'.granted = update s.granted x e) (hdi : ∀ y, s'.displaced y ↔ y ≠ x ∧
      (s.displaced y ∨ ∃ a, s.activity y = some a ∧ a.resource = k ∧ a.owner ≠ o))
    (hc : s.clock ≤ s'.clock) : Fenced s' := by
  have hs : s'.activity x = some ⟨k, o, false⟩ := by rw [hac, update_self]
  have hot {y : η} (hy : y ≠ x) : s'.activity y = s.activity y := by rw [hac, update_of_ne hy]
  constructor
  · intro y z a b hy hz hr ho
    by_cases hyx : y = x
    · by_cases hzx : z = x
      · exact hyx.trans hzx.symm
      · rw [hyx, hs] at hy
        rw [hot hzx] at hz
        rw [← some.inj hy] at hr ho
        exact absurd ho.symm (ha z b hz hr.symm)
    · rw [hot hyx] at hy
      by_cases hzx : z = x
      · rw [hzx, hs] at hz
        rw [← some.inj hz] at hr ho
        exact absurd ho (ha y a hy hr)
      · rw [hot hzx] at hz
        exact h.alone y z a b hy hz hr ho
  · intro y a hy hre hn
    by_cases hyx : y = x
    · rw [hyx, hs] at hy
      rw [← some.inj hy, hyx, how, hen, hgr, update_self, update_self, update_self]
      exact ⟨rfl, rfl⟩
    · rw [hot hyx] at hy
      -- an activity on this resource is displaced by the grant
      have hr : a.resource ≠ k := fun hk =>
        hn ((hdi y).mpr ⟨hyx, Or.inr ⟨a, hy, hk, ha y a hy hk⟩⟩)
      have hn' : ¬ s.displaced y := fun hd => hn ((hdi y).mpr ⟨hyx, Or.inl hd⟩)
      rw [how, hen, hgr, update_of_ne hr, update_of_ne hr, update_of_ne hyx]
      exact h.holds y a hy hre hn'
  · intro y a hy hre hd
    have hyx : y ≠ x := ((hdi y).mp hd).1
    rw [hot hyx] at hy
    rw [hgr, update_of_ne hyx]
    by_cases hbe : s.displaced y
    · exact (h.late y a hy hre hbe).trans_le hc
    · obtain ⟨b, hb, hr, ho⟩ := ((hdi y).mp hd).2.resolve_left hbe
      rw [hy] at hb
      rw [← some.inj hb] at hr ho
      obtain ⟨hh, he⟩ := h.holds y a hy hre hbe
      rw [hr] at hh he
      -- a lease that another owner holds is granted only after its end
      rcases hf with hno | hsa | hex
      · rw [hh] at hno
        cases hno
      · rw [hh] at hsa
        exact absurd (some.inj hsa) ho
      · exact hex _ he
  · intro y a hy hd
    have hyx : y ≠ x := ((hdi y).mp hd).1
    rw [hot hyx] at hy
    rw [how]
    by_cases hr : a.resource = k
    · rw [hr, update_self]
      exact fun heq => ha y a hy hr (some.inj heq).symm
    · rw [update_of_ne hr]
      rcases ((hdi y).mp hd).2 with hbe | ⟨b, hb, hk, _⟩
      · exact h.lost y a hy hbe
      · rw [hy] at hb
        rw [← some.inj hb] at hk
        exact absurd hk hr
  · intro y hy hd
    have hyx : y ≠ x := ((hdi y).mp hd).1
    rw [hot hyx] at hy
    rcases ((hdi y).mp hd).2 with hbe | ⟨b, hb, _⟩
    · exact h.idle y hy hbe
    · rw [hy] at hb
      cases hb

theorem renew (h : Fenced s) {x : η} {a : Activity κ ω} {e : τ} (ha : s.activity x = some a)
    (hh : s.owner a.resource = some a.owner) (how : s'.owner = s.owner)
    (hen : s'.ends = update s.ends a.resource (some e)) (hac : s'.activity = s.activity)
    (hgr : s'.granted = update s.granted x e)
    (hdi : ∀ x, s'.displaced x ↔ s.displaced x ∧ s'.activity x ≠ none) (hc : s.clock ≤ s'.clock) :
    Fenced s' := by
  apply h.shrink _ _ _ hdi hc
  · intro y b hb
    rw [hac] at hb
    exact ⟨b, hb, rfl, rfl, id⟩
  · intro y b hb _ _ ho he
    rw [hac] at hb
    rw [how, hen, hgr]
    refine ⟨ho, ?_⟩
    by_cases hyx : y = x
    · rw [hyx] at hb ⊢
      rw [← some.inj (ha.symm.trans hb), update_self, update_self]
    · rw [update_of_ne (h.resource_ne ha hb hyx hh ho), update_of_ne hyx]
      exact he
  · intro y b _ hd
    have hyx : y ≠ x := fun heq => h.lost x a ha (heq ▸ hd) hh
    rw [how, hgr, update_of_ne hyx]
    exact ⟨Or.inl rfl, rfl⟩

theorem release (h : Fenced s) {x : η} {a : Activity κ ω} {e : Option τ} (ha : s.activity x = some a)
    (hh : s.owner a.resource = some a.owner) (how : s'.owner = update s.owner a.resource none)
    (hen : s'.ends = update s.ends a.resource e)
    (hac : s'.activity = update s.activity x (some { a with retired := true }))
    (hgr : s'.granted = s.granted)
    (hd : ∀ x, s'.displaced x ↔ s.displaced x ∧ s'.activity x ≠ none) (hc : s.clock ≤ s'.clock) :
    Fenced s' := by
  have hs : s'.activity x = some { a with retired := true } := by rw [hac, update_self]
  have hot {y : η} (hy : y ≠ x) : s'.activity y = s.activity y := by rw [hac, update_of_ne hy]
  apply h.shrink _ _ _ hd hc
  · intro y b hb
    by_cases hyx : y = x
    · rw [hyx, hs] at hb
      rw [hyx, ← some.inj hb]
      exact ⟨a, ha, rfl, rfl, nofun⟩
    · rw [hot hyx] at hb
      exact ⟨b, hb, rfl, rfl, id⟩
  · intro y b hb hre _ ho he
    by_cases hyx : y = x
    · rw [hyx, hs] at hb
      rw [← some.inj hb] at hre
      cases hre
    · rw [hot hyx] at hb
      have hr := h.resource_ne ha hb hyx hh ho
      rw [how, hen, hgr, update_of_ne hr, update_of_ne hr]
      exact ⟨ho, he⟩
  · intro y b _ _
    rw [how, hgr]
    refine ⟨?_, rfl⟩
    by_cases hr : b.resource = a.resource
    · rw [hr, update_self]
      exact Or.inr rfl
    · rw [update_of_ne hr]
      exact Or.inl rfl

end Fenced

end Leases
