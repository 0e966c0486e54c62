import Mathlib.Order.Basic

/-! Histories in which a key and a version determine the content for good. -/
namespace VersionedHistory

open List

/-- One moment: the version and the content under every key that is present. -/
abbrev Moment (κ ν γ : Type) := κ → Option (ν × γ)

variable {κ ν γ : Type} [Preorder ν]

/-- Every version of `k` in these moments is below `v`. -/
def Below (moments : List (Moment κ ν γ)) (k : κ) (v : ν) : Prop :=
  ∀ m ∈ moments, ∀ u c, m k = some (u, c) → u < v

/-- What a step may do at one key, from `now` to `next` after the moments of `past`. -/
inductive Step (past : List (Moment κ ν γ)) (now next : Moment κ ν γ) (k : κ) : Prop
  | keep (h : next k = now k)
  | drop (h : next k = none)
  /-- a present entry is overwritten above its own version -/
  | bump {u v : ν} {c d : γ} (hnow : now k = some (u, c)) (hnext : next k = some (v, d)) (h : u < v)
  /-- an absent entry comes back above every version it had -/
  | insert {v : ν} {d : γ} (hnow : now k = none) (hnext : next k = some (v, d)) (h : Below past k v)

inductive History : List (Moment κ ν γ) → Prop
  | start (m : Moment κ ν γ) : History [m]
  | step {past : List (Moment κ ν γ)} {now next : Moment κ ν γ} (h : History (now :: past))
      (hstep : ∀ k, Step past now next k) : History (next :: now :: past)

variable {past : List (Moment κ ν γ)} {now next : Moment κ ν γ} {k : κ}

/-- A present entry of `now` has the highest version its key ever had. -/
def Leads (past : List (Moment κ ν γ)) (now : Moment κ ν γ) (k : κ) : Prop :=
  ∀ v c, now k = some (v, c) → ∀ m ∈ past, ∀ u d, m k = some (u, d) → u ≤ v

theorem Step.keep_or_below (h : Step past now next k) (hl : Leads past now k) {v : ν} {c : γ}
    (hn : next k = some (v, c)) : next k = now k ∨ Below (now :: past) k v := by
  cases h with
  | keep hk => exact Or.inl hk
  | drop hd =>
    rw [hd] at hn
    contradiction
  | @bump w _ _ _ hno hw hlt =>
    obtain ⟨rfl, rfl⟩ := Prod.mk.inj (Option.some.inj (hw.symm.trans hn))
    right
    intro m hm u d hmk
    rcases mem_cons.mp hm with rfl | hm
    · obtain ⟨rfl, rfl⟩ := Prod.mk.inj (Option.some.inj (hno.symm.trans hmk))
      exact hlt
    · have hle : u ≤ w := hl w _ hno m hm u d hmk
      exact hle.trans_lt hlt
  | insert hno hw hb =>
    obtain ⟨rfl, rfl⟩ := Prod.mk.inj (Option.some.inj (hw.symm.trans hn))
    right
    intro m hm u d hmk
    rcases mem_cons.mp hm with rfl | hm
    · rw [hno] at hmk
      contradiction
    · exact hb m hm u d hmk

theorem Step.leads (h : Step past now next k) (hl : Leads past now k) : Leads (now :: past) next k := by
  intro v c hn m hm u d hmk
  rcases h.keep_or_below hl hn with hk | hb
  · have hno : now k = some (v, c) := hk.symm.trans hn
    rcases mem_cons.mp hm with rfl | hm
    · obtain ⟨rfl, -⟩ := Prod.mk.inj (Option.some.inj (hno.symm.trans hmk))
      exact le_rfl
    · exact hl v c hno m hm u d hmk
  · exact (hb m hm u d hmk).le

theorem History.leads (h : History (now :: past)) : Leads past now k := by
  generalize hl : now :: past = moments at h
  induction h generalizing now past with
  | start m =>
    obtain ⟨-, rfl⟩ := List.cons.inj hl
    intro v c _ m hm
    exact absurd hm not_mem_nil
  | step h hs ih =>
    obtain ⟨rfl, rfl⟩ := List.cons.inj hl
    exact (hs k).leads (ih rfl)

/-- At any two moments, one version of a key has one content. -/
theorem History.content_eq {moments : List (Moment κ ν γ)} (h : History moments) {m m' : Moment κ ν γ}
    (hm : m ∈ moments) (hm' : m' ∈ moments) {v : ν} {c d : γ} (hc : m k = some (v, c))
    (hd : m' k = some (v, d)) : c = d := by
  induction h generalizing m m' c d with
  | start m₀ =>
    obtain rfl := mem_singleton.mp hm
    obtain rfl := mem_singleton.mp hm'
    exact (Prod.mk.inj (Option.some.inj (hc.symm.trans hd))).2
  | @step past now next h hs ih =>
    -- the latest moment agrees with any earlier one
    have hl {a : Moment κ ν γ} (ha : a ∈ now :: past) {c d : γ} (hn : next k = some (v, c))
        (hak : a k = some (v, d)) : c = d := by
      rcases (hs k).keep_or_below h.leads hn with hk | hb
      · exact ih mem_cons_self ha (hk.symm.trans hn) hak
      · exact absurd (hb a ha v d hak) (lt_irrefl v)
    rcases mem_cons.mp hm with rfl | he
    · rcases mem_cons.mp hm' with rfl | he'
      · exact (Prod.mk.inj (Option.some.inj (hc.symm.trans hd))).2
      · exact hl he' hc hd
    · rcases mem_cons.mp hm' with rfl | he'
      · exact (hl he hd hc).symm
      · exact ih he he' hc hd

end VersionedHistory
