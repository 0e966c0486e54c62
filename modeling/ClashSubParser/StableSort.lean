import Mathlib.Data.List.Sort
import Mathlib.Data.Prod.Lex

/-! Stable sorting by a strict "less" test. Two lists with the same tie classes sort to the same list. -/
namespace StableSort

open List

variable {α β κ : Type*}

/-- A test that a comparison sort can use: asymmetric, and "not less" is transitive. -/
structure WeakLess (less : α → α → Bool) : Prop where
  asymm : ∀ a b, less a b = true → less b a = false
  negTrans : ∀ a b c, less a b = false → less b c = false → less a c = false

variable (less : α → α → Bool)

def tied (a b : α) : Bool := !less a b && !less b a

def stableSort (l : List α) : List α :=
  l.insertionSort (fun a b => less b a = false)

def keyLess [LinearOrder κ] (k : α → κ) (a b : α) : Bool := decide (k a < k b)

def thenLess [LinearOrder κ] (k : α → κ) (rest : α → α → Bool) (a b : α) : Bool :=
  if k a = k b then rest a b else decide (k a < k b)

theorem tied_iff (a b : α) : tied less a b = true ↔ less a b = false ∧ less b a = false := by
  simp [tied]

variable {less : α → α → Bool}

theorem WeakLess.irrefl (h : WeakLess less) (a : α) : less a a = false := by
  by_contra hn
  have ht : less a a = true := by simpa using hn
  exact hn (h.asymm a a ht)

theorem WeakLess.tied_refl (h : WeakLess less) (a : α) :
    tied less a a = true := (tied_iff less a a).mpr ⟨h.irrefl a, h.irrefl a⟩

theorem WeakLess.total (h : WeakLess less) (a b : α) : less b a = false ∨ less a b = false := by
  cases hb : less b a with
  | false => exact .inl rfl
  | true => exact .inr (h.asymm b a hb)

section

variable (k : α → κ)
include k

theorem keyLess_weakLess [LinearOrder κ] : WeakLess (keyLess k) := by
  constructor
  · intro a b hab
    simp only [keyLess, decide_eq_true_eq, decide_eq_false_iff_not, not_lt] at hab ⊢
    exact hab.le
  · intro a b c hab hbc
    simp only [keyLess, decide_eq_false_iff_not, not_lt] at hab hbc ⊢
    exact hbc.trans hab

theorem keyLess_tied [LinearOrder κ] (a b : α) : tied (keyLess k) a b = true ↔ k a = k b := by
  simp only [tied_iff, keyLess, decide_eq_false_iff_not, not_lt]
  exact ⟨fun h => le_antisymm h.2 h.1, fun h => ⟨h.ge, h.le⟩⟩

theorem thenLess_false_iff [LinearOrder κ] (rest : α → α → Bool) (a b : α) :
    thenLess k rest a b = false ↔ k b < k a ∨ (k a = k b ∧ rest a b = false) := by
  unfold thenLess
  split_ifs with h
  · simp [h]
  · simp only [decide_eq_false_iff_not, not_lt]
    exact ⟨fun hle => .inl (lt_of_le_of_ne hle (Ne.symm h)), fun hor => hor.elim le_of_lt (fun hk => absurd hk.1 h)⟩

theorem thenLess_weakLess [LinearOrder κ] {rest : α → α → Bool}
    (hr : WeakLess rest) : WeakLess (thenLess k rest) := by
  constructor
  · intro a b hab
    rw [thenLess_false_iff]
    unfold thenLess at hab
    split_ifs at hab with hk
    · exact .inr ⟨hk.symm, hr.asymm a b hab⟩
    · exact .inl (of_decide_eq_true hab)
  · intro a b c hab hbc
    rw [thenLess_false_iff] at hab hbc ⊢
    rcases hab with hab | ⟨hab, hra⟩ <;> rcases hbc with hbc | ⟨hbc, hrb⟩
    · exact .inl (hbc.trans hab)
    · exact .inl (hbc ▸ hab)
    · exact .inl (hab ▸ hbc)
    · exact .inr ⟨hab.trans hbc, hr.negTrans a b c hra hrb⟩

theorem thenLess_tied [LinearOrder κ] (rest : α → α → Bool) (a b : α) :
    tied (thenLess k rest) a b = true ↔ k a = k b ∧ tied rest a b = true := by
  simp only [tied_iff, thenLess_false_iff]
  constructor
  · rintro ⟨h1 | ⟨h1, h1'⟩, h2 | ⟨h2, h2'⟩⟩
    · exact absurd (h1.trans h2) (lt_irrefl _)
    · exact absurd h2 h1.ne
    · exact absurd h1 h2.ne
    · exact ⟨h1, h1', h2'⟩
  · rintro ⟨h, h1, h2⟩
    exact ⟨.inr ⟨h, h1⟩, .inr ⟨h.symm, h2⟩⟩

end

theorem stableSort_perm (less : α → α → Bool) (l : List α) : (stableSort less l).Perm l :=
  perm_insertionSort _ l

@[simp] theorem mem_stableSort (less : α → α → Bool) (l : List α) (a : α) :
    a ∈ stableSort less l ↔ a ∈ l := (stableSort_perm less l).mem_iff

theorem stableSort_pairwise (h : WeakLess less) (l : List α) :
    (stableSort less l).Pairwise (fun a b => less b a = false) := by
  have : Std.Total (fun a b => less b a = false) := ⟨fun a b => h.total a b⟩
  have : IsTrans α (fun a b => less b a = false) := ⟨fun a b c hab hbc => h.negTrans c b a hbc hab⟩
  exact pairwise_insertionSort _ l

theorem map_stableSort (f : α → β) (lessA : α → α → Bool) (lessB : β → β → Bool) (l : List α)
    (h : ∀ a ∈ l, ∀ b ∈ l, lessA a b = lessB (f a) (f b)) :
    (stableSort lessA l).map f = stableSort lessB (l.map f) := by
  apply map_insertionSort
  intro a ha b hb
  rw [h b hb a ha]

theorem filter_orderedInsert (less : α → α → Bool) (p : α → Bool)
    (hp : ∀ a b, p a = true → p b = true → less b a = false) (a : α) (l : List α) :
    (l.orderedInsert (fun a b => less b a = false) a).filter p = (a :: l).filter p := by
  induction l with
  | nil => rfl
  | cons b l ih =>
    rw [orderedInsert_cons]
    split_ifs with hab
    · rfl
    · have hn : ¬(p a = true ∧ p b = true) := fun hpq => hab (hp a b hpq.1 hpq.2)
      rw [filter_cons, ih]
      by_cases hb : p b = true
      · have ha : ¬p a = true := fun ha => hn ⟨ha, hb⟩
        simp only [filter_cons, hb, ha, ↓reduceIte, Bool.false_eq_true]
      · by_cases ha : p a = true <;> simp only [filter_cons, hb, ha, ↓reduceIte, Bool.false_eq_true]

theorem filter_stableSort (less : α → α → Bool) (p : α → Bool)
    (hp : ∀ a b, p a = true → p b = true → less b a = false) (l : List α) :
    (stableSort less l).filter p = l.filter p := by
  induction l with
  | nil => rfl
  | cons a l ih =>
    change ((stableSort less l).orderedInsert _ a).filter p = _
    rw [filter_orderedInsert less p hp, filter_cons, ih, ← filter_cons]

theorem tied_class (h : WeakLess less) (x : α) :
    ∀ a b, tied less x a = true → tied less x b = true → less b a = false := by
  intro a b ha hb
  rw [tied_iff] at ha hb
  exact h.negTrans b x a hb.2 ha.1

theorem sorted_eq_of_classes (h : WeakLess less) : ∀ (s t : List α), s.Pairwise (fun a b => less b a = false) →
      t.Pairwise (fun a b => less b a = false) →
      (∀ x, s.filter (tied less x) = t.filter (tied less x)) → s = t := by
  have hm (s t : List α) (he : ∀ x, s.filter (tied less x) = t.filter (tied less x)) (a : α)
      (ha : a ∈ s) : a ∈ t := by
    have hf : a ∈ s.filter (tied less a) := mem_filter.mpr ⟨ha, h.tied_refl a⟩
    rw [he a] at hf
    exact (mem_filter.mp hf).1
  intro s
  induction s with
  | nil =>
    intro t _ _ he
    exact (eq_nil_iff_forall_not_mem.mpr (fun a ha => not_mem_nil (hm t [] (fun x => (he x).symm) a ha))).symm
  | cons a s ih =>
    intro t hs ht he
    cases t with
    | nil => exact absurd (hm _ _ he a mem_cons_self) not_mem_nil
    | cons b t =>
      have hba : less a b = false := by
        rcases mem_cons.mp (hm _ _ he a mem_cons_self) with hab | hat
        · exact hab ▸ h.irrefl a
        · exact (pairwise_cons.mp ht).1 a hat
      have hab : less b a = false := by
        rcases mem_cons.mp (hm _ _ (fun x => (he x).symm) b mem_cons_self) with hba | hbs
        · exact hba ▸ h.irrefl b
        · exact (pairwise_cons.mp hs).1 b hbs
      have hh := he a
      rw [filter_cons_of_pos (h.tied_refl a), filter_cons_of_pos ((tied_iff less a b).mpr ⟨hba, hab⟩)] at hh
      obtain rfl : a = b := (List.cons.inj hh).1
      refine congrArg (a :: ·) (ih t (pairwise_cons.mp hs).2 (pairwise_cons.mp ht).2 ?_)
      intro x
      have hx := he x
      by_cases hxa : tied less x a = true
      · rw [filter_cons_of_pos hxa, filter_cons_of_pos hxa] at hx
        exact (List.cons.inj hx).2
      · rwa [filter_cons_of_neg hxa, filter_cons_of_neg hxa] at hx

theorem stableSort_eq_of_classes (h : WeakLess less) (l m : List α)
    (he : ∀ x, l.filter (tied less x) = m.filter (tied less x)) : stableSort less l = stableSort less m := by
  apply sorted_eq_of_classes h _ _ (stableSort_pairwise h l) (stableSort_pairwise h m)
  intro x
  rw [filter_stableSort less _ (tied_class h x), filter_stableSort less _ (tied_class h x), he x]

theorem filter_eq_of_perm_of_const {l m : List α} (hlm : l.Perm m) (p : α → Bool)
    (hc : ∀ a ∈ l, ∀ b ∈ l, p a = true → p b = true → a = b) : l.filter p = m.filter p := by
  have hp := hlm.filter p
  have hco (a : α) (ha : a ∈ l.filter p) (b : α) (hb : b ∈ m.filter p) : a = b := by
    have hb' := hp.mem_iff.mpr hb
    exact hc a (mem_filter.mp ha).1 b (mem_filter.mp hb').1
      (mem_filter.mp ha).2 (mem_filter.mp hb').2
  apply ext_getElem hp.length_eq
  intro i hi hj
  exact hco _ (getElem_mem hi) _ (getElem_mem hj)

theorem stableSort_eq_of_perm (h : WeakLess less) {l m : List α}
    (hlm : l.Perm m) (hc : ∀ a ∈ l, ∀ b ∈ l, tied less a b = true → a = b) :
    stableSort less l = stableSort less m := by
  apply stableSort_eq_of_classes h
  intro x
  apply filter_eq_of_perm_of_const hlm
  intro a ha b hb hxa hxb
  apply hc a ha b hb
  rw [tied_iff]
  exact ⟨tied_class h x b a hxb hxa, tied_class h x a b hxa hxb⟩

/-- One round of an exchange sort: hold `x` against each later element and swap where that one is
less. Returns what ends up in front and the list behind it. -/
def exchangePass (less : α → α → Bool) (x : α) : List α → α × List α
  | [] => (x, [])
  | y :: l =>
    if less y x then ((exchangePass less y l).1, x :: (exchangePass less y l).2)
    else ((exchangePass less x l).1, y :: (exchangePass less x l).2)

def exchangeSort (less : α → α → Bool) : ℕ → List α → List α
  | 0, l => l
  | _+1, [] => []
  | n+1, x :: l => (exchangePass less x l).1 :: exchangeSort less n (exchangePass less x l).2

theorem exchangePass_perm (less : α → α → Bool) : ∀ (l : List α) (x : α),
    ((exchangePass less x l).1 :: (exchangePass less x l).2).Perm (x :: l) := by
  intro l
  induction l with
  | nil => exact fun x => List.Perm.refl _
  | cons y l ih =>
    intro x
    rw [exchangePass]
    split_ifs
    · exact (List.Perm.swap x _ _).trans ((ih y).cons x)
    · exact ((List.Perm.swap y _ _).trans ((ih x).cons y)).trans (List.Perm.swap x y l)

theorem exchangePass_front (h : WeakLess less) : ∀ (l : List α) (x : α), less x (exchangePass less x l).1 = false ∧
      ∀ z ∈ (exchangePass less x l).2, less z (exchangePass less x l).1 = false := by
  intro l
  induction l with
  | nil => exact fun x => ⟨h.irrefl x, by simp [exchangePass]⟩
  | cons y l ih =>
    intro x
    rw [exchangePass]
    split_ifs with hyx
    · have hx : less x (exchangePass less y l).1 = false :=
        h.negTrans x y _ (h.asymm y x hyx) (ih y).1
      exact ⟨hx, forall_mem_cons.mpr ⟨hx, (ih y).2⟩⟩
    · have hy : less y (exchangePass less x l).1 = false :=
        h.negTrans y x _ (by simpa using hyx) (ih x).1
      exact ⟨(ih x).1, forall_mem_cons.mpr ⟨hy, (ih x).2⟩⟩

theorem exchangeSort_perm (less : α → α → Bool) : ∀ (n : ℕ) (l : List α), (exchangeSort less n l).Perm l := by
  intro n
  induction n with
  | zero => exact fun l => List.Perm.refl l
  | succ n ih =>
    intro l
    cases l with
    | nil => exact List.Perm.refl _
    | cons x l => exact ((ih _).cons _).trans (exchangePass_perm less l x)

theorem exchangeSort_pairwise (h : WeakLess less) : ∀ (n : ℕ) (l : List α),
    l.length ≤ n → (exchangeSort less n l).Pairwise (fun a b => less b a = false) := by
  intro n
  induction n with
  | zero =>
    intro l hl
    rw [eq_nil_of_length_eq_zero (Nat.le_zero.mp hl)]
    exact List.Pairwise.nil
  | succ n ih =>
    intro l hl
    cases l with
    | nil => exact List.Pairwise.nil
    | cons x l =>
      have hle : (exchangePass less x l).2.length ≤ n := by
        have := (exchangePass_perm less l x).length_eq
        simp only [length_cons] at this hl
        omega
      refine List.Pairwise.cons ?_ (ih _ hle)
      intro z hz
      exact (exchangePass_front h l x).2 z ((exchangeSort_perm less n _).mem_iff.mp hz)

theorem exchangeSort_eq_stableSort (h : WeakLess less) (l : List α)
    (hc : ∀ a ∈ l, ∀ b ∈ l, tied less a b = true → a = b) : exchangeSort less l.length l = stableSort less l := by
  have hp := exchangeSort_perm less l.length l
  apply sorted_eq_of_classes h _ _ (exchangeSort_pairwise h _ l (le_rfl))
    (stableSort_pairwise h l)
  intro x
  apply filter_eq_of_perm_of_const (hp.trans (stableSort_perm less l).symm)
  intro a ha b hb hxa hxb
  apply hc a (hp.mem_iff.mp ha) b (hp.mem_iff.mp hb)
  rw [tied_iff]
  exact ⟨tied_class h x b a hxb hxa, tied_class h x a b hxa hxb⟩

/-- The elements tied with `x` as an exchange sort orders them: each smaller element moves the first of
those seen so far to the back. -/
def rotateTies (less : α → α → Bool) (x : α) (seen : List α) (a : α) : List α :=
  if less a x then seen.drop 1 ++ seen.take 1 else if less x a then seen else seen ++ [a]

section

variable (h : WeakLess less) {x : α}
include h

theorem less_of_less_of_not {a b : α} (hab : less a b = true) (hxb : less x b = false) : less a x = true := by
  by_contra hax
  have hn := h.negTrans a x b (by simpa using hax) hxb
  simp [hab] at hn

theorem foldl_pass_of_less : ∀ (l : List α) {y : α} (_ : less y x = true) (seen : List α),
    l.foldl (rotateTies less x) seen = [(exchangePass less y l).1].filter (tied less x) ++
      (exchangePass less y l).2.foldl (rotateTies less x) seen := by
  intro l
  induction l with
  | nil =>
    intro y hy seen
    simp [exchangePass, tied, hy]
  | cons z l ih =>
    intro y hy seen
    rw [exchangePass, foldl_cons]
    split_ifs with hzy
    · have hz : less z x = true := less_of_less_of_not h hzy (h.asymm y x hy)
      have hs : rotateTies less x seen z = rotateTies less x seen y := by
        rw [rotateTies, rotateTies, if_pos hy, if_pos hz]
      rw [hs]
      exact ih hz _
    · exact ih hy _

/-- A round that holds a tied element: it stays in front, or goes behind the ties met before the first
smaller element. -/
theorem foldl_pass_of_tied : ∀ (l : List α) {y : α} (_ : tied less x y = true) (seen : List α),
    l.foldl (rotateTies less x) (y :: seen) = [(exchangePass less y l).1].filter (tied less x) ++
      (exchangePass less y l).2.foldl (rotateTies less x) seen := by
  intro l
  induction l with
  | nil =>
    intro y hy seen
    simp [exchangePass, hy]
  | cons z l ih =>
    intro y hy seen
    obtain ⟨hxy, hyx⟩ := (tied_iff less x y).mp hy
    rw [exchangePass, foldl_cons]
    split_ifs with hzy
    · have hz : less z x = true := less_of_less_of_not h hzy hxy
      have hl : rotateTies less x (y :: seen) z = seen ++ [y] := by simp [rotateTies, hz]
      have hr : rotateTies less x seen y = seen ++ [y] := by simp [rotateTies, hxy, hyx]
      rw [hl, foldl_cons, hr]
      exact foldl_pass_of_less h l hz _
    · have hz : less z x = false := h.negTrans z y x (by simpa using hzy) hyx
      have hc : rotateTies less x (y :: seen) z = y :: rotateTies less x seen z := by
        rw [rotateTies, rotateTies, hz]
        cases less x z <;> rfl
      rw [hc]
      exact ih hy _

theorem foldl_pass (l : List α) (y : α) :
    (y :: l).foldl (rotateTies less x) [] = [(exchangePass less y l).1].filter (tied less x) ++
      (exchangePass less y l).2.foldl (rotateTies less x) [] := by
  induction l generalizing y with
  | nil =>
    cases hy : less y x <;> cases hx : less x y <;> simp [exchangePass, rotateTies, tied, hx, hy]
  | cons z l ih =>
    cases hy : less y x with
    | true =>
      have hs : rotateTies less x [] y = [] := by simp [rotateTies, hy]
      rw [foldl_cons, hs]
      exact foldl_pass_of_less h (z :: l) hy []
    | false =>
      cases hx : less x y with
      | false =>
        have hse : rotateTies less x [] y = [y] := by simp [rotateTies, hx, hy]
        rw [foldl_cons, hse]
        exact foldl_pass_of_tied h (z :: l) ((tied_iff _ _ _).mpr ⟨hx, hy⟩) []
      | true =>
        -- greater elements do not count
        have hs : rotateTies less x [] y = [] := by simp [rotateTies, hx, hy]
        rw [foldl_cons, hs, exchangePass]
        split_ifs with hzy
        · have hb : (y :: (exchangePass less z l).2).foldl (rotateTies less x) [] =
              (exchangePass less z l).2.foldl (rotateTies less x) [] := by
            rw [foldl_cons, hs]
          rw [hb]
          exact ih z
        · have hz : less x z = true := by
            by_contra hn
            have := h.negTrans x z y (by simpa using hn) (by simpa using hzy)
            simp [hx] at this
          have hs' : rotateTies less x [] z = [] := by simp [rotateTies, hz, h.asymm x z hz]
          have ih' := ih y
          rw [foldl_cons, hs] at ih'
          rw [foldl_cons, foldl_cons, hs']
          exact ih'

theorem filter_exchangeSort : ∀ (n : ℕ) (l : List α), l.length ≤ n →
    (exchangeSort less n l).filter (tied less x) = l.foldl (rotateTies less x) [] := by
  intro n
  induction n with
  | zero =>
    intro l hl
    rw [eq_nil_of_length_eq_zero (Nat.le_zero.mp hl)]
    rfl
  | succ n ih =>
    intro l hl
    cases l with
    | nil => rfl
    | cons y l =>
      have hle : (exchangePass less y l).2.length ≤ n := by
        have := (exchangePass_perm less l y).length_eq
        simp only [length_cons] at this hl
        omega
      rw [foldl_pass h, ← ih _ hle, ← filter_append]
      rfl

end

/-- In a sorted list the first element that satisfies `p` is the first one of its class. -/
theorem find?_sorted (h : WeakLess less) (p : α → Bool) {c : α} (hc : p c = true) : ∀ {l : List α},
    l.Pairwise (fun a b => less b a = false) → c ∈ l → (∀ a ∈ l, p a = true → less a c = false) →
    l.find? p = (l.filter (tied less c)).find? p := by
  intro l
  induction l with
  | nil => exact fun _ hm => absurd hm not_mem_nil
  | cons a l ih =>
    intro hso hm hl
    obtain ⟨hf, hr⟩ := pairwise_cons.mp hso
    cases hpa : p a with
    | true =>
      have hca : less c a = false := by
        rcases mem_cons.mp hm with rfl | hcl
        · exact h.irrefl c
        · exact hf c hcl
      have ht : tied less c a = true := (tied_iff _ _ _).mpr ⟨hca, hl a mem_cons_self hpa⟩
      rw [filter_cons_of_pos ht, find?_cons_of_pos hpa, find?_cons_of_pos hpa]
    | false =>
      have hcl : c ∈ l := (mem_cons.mp hm).resolve_left (fun heq => by simp [heq, hpa] at hc)
      have ih' := ih hr hcl (fun b hb => hl b (mem_cons_of_mem a hb))
      rw [find?_cons_of_neg (by simp [hpa]), ih', filter_cons]
      split_ifs
      · rw [find?_cons_of_neg (by simp [hpa])]
      · rfl

end StableSort
