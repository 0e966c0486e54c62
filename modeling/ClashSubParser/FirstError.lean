import Mathlib.Data.List.Basic

/-! Steps that may fail, in a row: the first error ends it, else all results are there. -/
namespace FirstError

open List

universe u

variable {ε : Type*} {α β : Type u}

def allOk : List (Except ε α) → Except ε (List α)
  | [] => .ok []
  | .error e :: _ => .error e
  | .ok a :: l => (allOk l).map (a :: ·)

def checks (l : List (Except ε Unit)) : Except ε Unit := (allOk l).map (fun _ => ())

variable {x : Except ε α} {l : List (Except ε α)} {f : α → β} {e : ε}

theorem exists_of_isOk (h : x.isOk = true) : ∃ a, x = .ok a := by
  cases x with
  | error e => contradiction
  | ok a => exact ⟨a, rfl⟩

theorem map_eq_ok_iff {b : β} : x.map f = .ok b ↔ ∃ a, x = .ok a ∧ f a = b := by
  cases x with
  | error e | ok a => simp [Except.map]

theorem map_eq_error_iff : x.map f = .error e ↔ x = .error e := by
  cases x with
  | error e' | ok a => simp [Except.map]

theorem bind_eq_ok_iff {f : α → Except ε β} {b : β} : (x >>= f) = .ok b ↔ ∃ a, x = .ok a ∧ f a = .ok b := by
  cases x with
  | error e | ok a => simp [bind, Except.bind]

theorem bind_unit_eq_ok_iff {β : Type} {x : Except ε Unit} {f : Unit → Except ε β} {b : β} :
    (x >>= f) = .ok b ↔ x = .ok () ∧ f () = .ok b := by
  rw [bind_eq_ok_iff]
  constructor
  · rintro ⟨_, hx, hf⟩
    exact ⟨hx, hf⟩
  · rintro ⟨hx, hf⟩
    exact ⟨(), hx, hf⟩

theorem exists_map_iff : (∃ b, x.map f = .ok b) ↔ ∃ a, x = .ok a := by
  cases x with
  | error e | ok a => simp [Except.map]

theorem exists_unit_iff {x : Except ε Unit} : (∃ a, x = .ok a) ↔ x = .ok () :=
  ⟨fun ⟨_, h⟩ => h, fun h => ⟨(), h⟩⟩

theorem exists_bind_iff {f : α → Except ε β} : (∃ b, (x >>= f) = .ok b) ↔ ∃ a, x = .ok a ∧ ∃ b, f a = .ok b := by
  cases x with
  | error e | ok a => simp [bind, Except.bind]

theorem allOk_eq_ok_iff {as : List α} : allOk l = .ok as ↔ l = as.map .ok := by
  induction l generalizing as with
  | nil => cases as <;> simp [allOk]
  | cons r l ih =>
    cases r with
    | error e => cases as <;> simp [allOk]
    | ok a =>
      rw [allOk, map_eq_ok_iff]
      constructor
      · rintro ⟨bs, hbs, rfl⟩
        rw [ih.mp hbs, map_cons]
      · intro h
        cases as with
        | nil => simp at h
        | cons b bs =>
          rw [map_cons, List.cons.injEq, Except.ok.injEq] at h
          exact ⟨bs, ih.mpr h.2, by rw [h.1]⟩

theorem exists_allOk_iff : (∃ as, allOk l = .ok as) ↔ ∀ r ∈ l, ∃ a, r = .ok a := by
  induction l with
  | nil => simp [allOk]
  | cons r l ih =>
    cases r with
    | error e => simp [allOk]
    | ok a =>
      rw [allOk, exists_map_iff, ih]
      simp

theorem exists_allOk_mapIdx_iff {κ : Type*} {f : ℕ → κ → Except ε α} {l : List κ} {Q : κ → Prop}
    (h : ∀ i, ∀ a ∈ l, ((∃ b, f i a = .ok b) ↔ Q a)) : (∃ bs, allOk (l.mapIdx f) = .ok bs) ↔ ∀ a ∈ l, Q a := by
  rw [exists_allOk_iff]
  constructor
  · intro hok a ha
    obtain ⟨i, hi, rfl⟩ := mem_iff_getElem.mp ha
    exact (h i _ ha).mp (hok _ (mem_mapIdx.mpr ⟨i, hi, rfl⟩))
  · intro hQ r hr
    obtain ⟨i, hi, rfl⟩ := mem_mapIdx.mp hr
    exact (h i _ (getElem_mem hi)).mpr (hQ _ (getElem_mem hi))

theorem allOk_eq_error_iff :
    allOk l = .error e ↔ ∃ (as : List α) (post : List (Except ε α)), l = as.map .ok ++ .error e :: post := by
  induction l with
  | nil => simp [allOk]
  | cons r l ih =>
    cases r with
    | error e' =>
      rw [allOk, Except.error.injEq]
      constructor
      · rintro rfl
        exact ⟨[], l, rfl⟩
      · rintro ⟨as, post, h⟩
        cases as with
        | nil => simpa using (List.cons.inj h).1
        | cons a as => simp at h
    | ok a =>
      rw [allOk, map_eq_error_iff, ih]
      constructor
      · rintro ⟨as, post, rfl⟩
        exact ⟨a :: as, post, rfl⟩
      · rintro ⟨as, post, h⟩
        cases as with
        | nil => simp at h
        | cons b as => exact ⟨as, post, (List.cons.inj h).2⟩

theorem checks_eq_ok_iff {l : List (Except ε Unit)} : checks l = .ok () ↔ ∀ r ∈ l, r = .ok () := by
  rw [checks, map_eq_ok_iff]
  constructor
  · rintro ⟨as, has, -⟩ r hr
    rw [allOk_eq_ok_iff.mp has] at hr
    obtain ⟨a, -, rfl⟩ := mem_map.mp hr
    rfl
  · intro h
    refine ⟨l.map (fun _ => ()), allOk_eq_ok_iff.mpr ?_, rfl⟩
    rw [map_map]
    conv_lhs => rw [← map_id l]
    exact map_congr_left h

theorem checks_mapIdx_eq_ok_iff {κ : Type*} {f : ℕ → κ → Except ε Unit} {l : List κ} {Q : κ → Prop}
    (h : ∀ i, ∀ a ∈ l, (f i a = .ok () ↔ Q a)) : checks (l.mapIdx f) = .ok () ↔ ∀ a ∈ l, Q a := by
  rw [← exists_unit_iff, checks, exists_map_iff]
  exact exists_allOk_mapIdx_iff fun i a ha => exists_unit_iff.trans (h i a ha)

theorem checks_eq_error_iff {l : List (Except ε Unit)} :
    checks l = .error e ↔ ∃ pre post, l = pre ++ .error e :: post ∧ ∀ r ∈ pre, r = .ok () := by
  rw [checks, map_eq_error_iff, allOk_eq_error_iff]
  constructor
  · rintro ⟨as, post, rfl⟩
    exact ⟨as.map .ok, post, rfl, by simp⟩
  · rintro ⟨pre, post, rfl, hp⟩
    refine ⟨pre.map (fun _ => ()), post, ?_⟩
    rw [map_map]
    congr 1
    conv_lhs => rw [← map_id pre]
    exact map_congr_left hp

section

variable {P Q : ε → Prop}

def OnlyErrors (P : ε → Prop) (x : Except ε α) : Prop := ∀ e, x = .error e → P e

@[simp] theorem onlyErrors_ok (a : α) : OnlyErrors P (.ok a : Except ε α) := by simp [OnlyErrors]

@[simp] theorem onlyErrors_error (e : ε) : OnlyErrors P (.error e : Except ε α) ↔ P e := by simp [OnlyErrors]

theorem OnlyErrors.mono {x : Except ε α} (h : OnlyErrors P x) (hPQ : ∀ e, P e → Q e) : OnlyErrors Q x :=
  fun e he => hPQ e (h e he)

@[simp] theorem onlyErrors_ite (p : Prop) [Decidable p] (x y : Except ε α) :
    OnlyErrors P (if p then x else y) ↔ (p → OnlyErrors P x) ∧ (¬p → OnlyErrors P y) := by
  by_cases h : p <;> simp [h]

@[simp] theorem onlyErrors_map (x : Except ε α) (f : α → β) : OnlyErrors P (x.map f) ↔ OnlyErrors P x := by
  simp [OnlyErrors, map_eq_error_iff]

@[simp] theorem onlyErrors_bind (x : Except ε α) (f : α → Except ε β) :
    OnlyErrors P (x >>= f) ↔ OnlyErrors P x ∧ ∀ a, x = .ok a → OnlyErrors P (f a) := by
  cases x with
  | error e | ok a => simp [bind, Except.bind]

theorem onlyErrors_bind_unit {β : Type} (x : Except ε Unit) (f : Unit → Except ε β) :
    OnlyErrors P (x >>= f) ↔ OnlyErrors P x ∧ (x = .ok () → OnlyErrors P (f ())) := by
  rw [onlyErrors_bind]
  exact and_congr_right fun _ => ⟨fun h => h (), fun h _ => h⟩

theorem onlyErrors_allOk {l : List (Except ε α)} (h : ∀ r ∈ l, OnlyErrors P r) : OnlyErrors P (allOk l) := by
  intro e he
  obtain ⟨as, post, rfl⟩ := allOk_eq_error_iff.mp he
  exact h (.error e) (by simp) e rfl

theorem onlyErrors_checks {l : List (Except ε Unit)} (h : ∀ r ∈ l, OnlyErrors P r) : OnlyErrors P (checks l) :=
  (onlyErrors_map _ _).mpr (onlyErrors_allOk h)

/-- A step that fails with the property exactly under `B`, and without it exactly under `A`. -/
theorem onlyErrors_cases {x : Except ε Unit} {A B : Prop} (hok : x = .ok () → ¬A ∧ ¬B)
    (he : ∀ e, x = .error e → (A ∧ ¬P e) ∨ (B ∧ P e)) (hAB : A → ¬B) :
    (¬OnlyErrors P x ↔ A) ∧ (x ≠ .ok () ∧ OnlyErrors P x ↔ B) := by
  cases x with
  | ok u =>
    obtain ⟨hA, hB⟩ := hok rfl
    simp [hA, hB]
  | error e =>
    rcases he e rfl with ⟨hA, hP⟩ | ⟨hB, hP⟩
    · simp [hA, hP, hAB hA]
    · have hA : ¬A := fun hA => hAB hA hB
      simp [hA, hB, hP]

/-- Every element with `bad` comes after one with `cover`. -/
def Covered {κ : Type*} (bad cover : κ → Prop) (l : List κ) : Prop :=
  ∀ pre a post, l = pre ++ a :: post → bad a → ∃ b ∈ pre, cover b

variable {κ : Type*}

theorem covered_map {μ : Type*} {bad cover : μ → Prop} {g : κ → μ} {l : List κ} :
    Covered bad cover (l.map g) ↔ Covered (fun a => bad (g a)) (fun a => cover (g a)) l := by
  constructor
  · rintro h pre a post rfl ha
    obtain ⟨b, hb, hc⟩ := h (pre.map g) (g a) (post.map g) (by simp) ha
    obtain ⟨b', hb', rfl⟩ := mem_map.mp hb
    exact ⟨b', hb', hc⟩
  · intro h pre a post hl ha
    obtain ⟨pre', rest, rfl, rfl, hr⟩ := map_eq_append_iff.mp hl
    obtain ⟨a', post', rfl, rfl, -⟩ := map_eq_cons_iff.mp hr
    obtain ⟨b, hb, hc⟩ := h pre' a' post' rfl ha
    exact ⟨g b, mem_map_of_mem hb, hc⟩

theorem covered_congr {bad bad' cover cover' : κ → Prop} {l : List κ}
    (hba : ∀ a ∈ l, (bad a ↔ bad' a)) (hco : ∀ a ∈ l, (cover a ↔ cover' a)) :
    Covered bad cover l ↔ Covered bad' cover' l := by
  have hi {bad bad' cover cover' : κ → Prop} (hba : ∀ a ∈ l, (bad a ↔ bad' a))
      (hco : ∀ a ∈ l, (cover a ↔ cover' a)) (h : Covered bad cover l) : Covered bad' cover' l := by
    rintro pre a post rfl ha
    obtain ⟨b, hb, hc⟩ := h pre a post rfl ((hba a (by simp)).mpr ha)
    exact ⟨b, hb, (hco b (mem_append_left _ hb)).mp hc⟩
  exact ⟨hi hba hco, hi (fun a ha => (hba a ha).symm) (fun a ha => (hco a ha).symm)⟩

theorem onlyErrors_checks_iff {l : List (Except ε Unit)} :
    OnlyErrors P (checks l) ↔ Covered (fun x => ¬OnlyErrors P x) (fun x => x ≠ .ok () ∧ OnlyErrors P x) l := by
  constructor
  · rintro h pre x post rfl hx
    -- what the steps before `x` return is what all steps return
    cases hp : checks pre with
    | error e =>
      obtain ⟨as, bs, rfl, has⟩ := checks_eq_error_iff.mp hp
      have he : checks (as ++ .error e :: bs ++ x :: post) = .error e :=
        checks_eq_error_iff.mpr ⟨as, bs ++ x :: post, by simp, has⟩
      exact ⟨.error e, by simp, by simp, (onlyErrors_error e).mpr (h e he)⟩
    | ok u =>
      exfalso
      apply hx
      rintro e rfl
      exact h e (checks_eq_error_iff.mpr ⟨pre, post, rfl, checks_eq_ok_iff.mp hp⟩)
  · intro h e he
    obtain ⟨pre, post, rfl, hp⟩ := checks_eq_error_iff.mp he
    by_contra hP
    obtain ⟨y, hy, hne, -⟩ := h pre (.error e) post rfl (by simpa using hP)
    exact hne (hp y hy)

theorem onlyErrors_checks_mapIdx_iff {f : ℕ → κ → Except ε Unit} {l : List κ} {bad cover : κ → Prop}
    (h : ∀ i, ∀ a ∈ l, (¬OnlyErrors P (f i a) ↔ bad a) ∧ (f i a ≠ .ok () ∧ OnlyErrors P (f i a) ↔ cover a)) :
    OnlyErrors P (checks (l.mapIdx f)) ↔ Covered bad cover l := by
  have hm (t : κ × ℕ) (ht : t ∈ l.zipIdx) := h t.2 t.1 (fst_mem_of_mem_zipIdx ht)
  have hf : l.zipIdx.map Prod.fst = l := by simp
  rw [mapIdx_eq_zipIdx_map, onlyErrors_checks_iff, covered_map]
  conv_rhs => rw [← hf, covered_map]
  exact covered_congr (fun t ht => (hm t ht).1) (fun t ht => (hm t ht).2)

end

end FirstError
