import Mathlib.Data.List.Basic
import Mathlib.Logic.Function.Basic
import Mathlib.Tactic.SplitIfs

/-! Recursive functions with a memo table and a guard against re-entry. Where the calls fall along a rank,
the memoised function and plain evaluation give the same values. -/
namespace MemoRecursion

open List Function

universe u

/-- A computation that may call the function at `κ`, receive a `ν` and emit records `δ`. -/
inductive Comp (κ ν δ : Type) (α : Type u) : Type u
  | pure : α → Comp κ ν δ α
  | call : κ → (ν → Comp κ ν δ α) → Comp κ ν δ α
  | emit : δ → Comp κ ν δ α → Comp κ ν δ α

variable {κ ν δ : Type} {α β : Type u}

namespace Comp

def bind : Comp κ ν δ α → (α → Comp κ ν δ β) → Comp κ ν δ β
  | pure a, f => f a
  | call k c, f => call k (fun v => (c v).bind f)
  | emit d c, f => emit d (c.bind f)

instance : Monad (Comp κ ν δ) where
  pure := Comp.pure
  bind := Comp.bind

def ask (k : κ) : Comp κ ν δ ν := call k pure

def tell (d : δ) : Comp κ ν δ PUnit := emit d (pure ⟨⟩)

def eval (f : κ → ν) : Comp κ ν δ α → α
  | pure a => a
  | call k c => (c (f k)).eval f
  | emit _ c => c.eval f

def calls (f : κ → ν) : Comp κ ν δ α → List κ
  | pure _ => []
  | call k c => k :: (c (f k)).calls f
  | emit _ c => c.calls f

section

variable (f : κ → ν)
include f

@[simp] theorem eval_pure (a : α) : (Pure.pure a : Comp κ ν δ α).eval f = a := rfl

@[simp] theorem calls_pure (a : α) : (Pure.pure a : Comp κ ν δ α).calls f = [] := rfl

@[simp] theorem eval_ask (k : κ) : (ask k : Comp κ ν δ ν).eval f = f k := rfl

@[simp] theorem calls_ask (k : κ) : (ask k : Comp κ ν δ ν).calls f = [k] := rfl

@[simp] theorem eval_tell (d : δ) : (tell d : Comp κ ν δ PUnit.{u+1}).eval f = ⟨⟩ := rfl

@[simp] theorem calls_tell (d : δ) : (tell d : Comp κ ν δ PUnit.{u+1}).calls f = [] := rfl

@[simp] theorem eval_bind (c : Comp κ ν δ α) (g : α → Comp κ ν δ β) : (c >>= g).eval f = (g (c.eval f)).eval f := by
  induction c with
  | pure a => rfl
  | call k c ih => exact ih (f k)
  | emit d c ih => exact ih

@[simp] theorem calls_bind (c : Comp κ ν δ α) (g : α → Comp κ ν δ β) :
    (c >>= g).calls f = c.calls f ++ (g (c.eval f)).calls f := by
  induction c with
  | pure a => rfl
  | call k c ih => exact congrArg (k :: ·) (ih (f k))
  | emit d c ih => exact ih

end

theorem eval_congr {f g : κ → ν} (c : Comp κ ν δ α) (h : ∀ k ∈ c.calls f, f k = g k) : c.eval f = c.eval g := by
  induction c with
  | pure a => rfl
  | call k c ih =>
    have hk : f k = g k := h k mem_cons_self
    have hc := ih (f k) (fun j hj => h j (mem_cons_of_mem k hj))
    simp only [eval, ← hk]
    exact hc
  | emit d c ih => exact ih h

end Comp

theorem mem_calls_foldlM {γ : Type} {σ : Type u} (f : κ → ν) (step : σ → γ → Comp κ ν δ σ)
    (k : κ) : ∀ (l : List γ) (s : σ), k ∈ (l.foldlM step s).calls f →
      ∃ pre x post, l = pre ++ x :: post ∧
        k ∈ (step (pre.foldl (fun s x => (step s x).eval f) s) x).calls f := by
  intro l
  induction l with
  | nil => intro s hk; simp [foldlM_nil] at hk
  | cons x l ih =>
    intro s hk
    rw [foldlM_cons, Comp.calls_bind, mem_append] at hk
    rcases hk with hk | hk
    · exact ⟨[], x, l, rfl, hk⟩
    · obtain ⟨pre, y, post, rfl, hy⟩ := ih _ hk
      exact ⟨x :: pre, y, post, rfl, hy⟩

section

variable [DecidableEq κ]

/-- The memo table, the keys whose computation is open, and the records emitted so far.
`guardHits` is a ghost: it counts how often the re-entry guard answered. -/
structure MemoState (κ ν δ : Type) where
  memo : κ → Option ν
  resolving : κ → Bool
  log : List δ
  guardHits : ℕ

def MemoState.init : MemoState κ ν δ := ⟨fun _ => none, fun _ => false, [], 0⟩

def MemoState.start (st : MemoState κ ν δ) (k : κ) : MemoState κ ν δ :=
  { st with resolving := update st.resolving k true }

def MemoState.finish (st : MemoState κ ν δ) (k : κ) (v : ν) : MemoState κ ν δ :=
  { st with
    memo := update st.memo k (some v)
    resolving := update st.resolving k false }

/-- Run a body with `rec` for its calls. -/
def Comp.run (rec : κ → MemoState κ ν δ → ν × MemoState κ ν δ) :
    Comp κ ν δ α → MemoState κ ν δ → α × MemoState κ ν δ
  | .pure a, st => (a, st)
  | .call k c, st => (c (rec k st).1).run rec (rec k st).2
  | .emit d c, st => c.run rec { st with log := st.log ++ [d] }

/-- The memoised function: look the key up, answer `empty` on re-entry and for a key without a
body, else run the body with the key marked as open and store its value. -/
def memoRec (body : κ → Option (Comp κ ν δ ν)) (empty : ν) :
    ℕ → κ → MemoState κ ν δ → ν × MemoState κ ν δ
  | 0, _, st => (empty, st)
  | fuel+1, k, st =>
    match st.memo k with
    | some v => (v, st)
    | none =>
      if st.resolving k then (empty, { st with guardHits := st.guardHits+1 })
      else
        match body k with
        | none => (empty, st)
        | some c =>
          let r := c.run (memoRec body empty fuel) (st.start k)
          (r.1, r.2.finish k r.1)

/-- The function without memo table and guard, cut off at a recursion depth. -/
def unmemo (body : κ → Option (Comp κ ν δ ν)) (empty : ν) : ℕ → κ → ν
  | 0, _ => empty
  | n+1, k =>
    match body k with
    | none => empty
    | some c => c.eval (unmemo body empty n)

/-- `f` solves the recursion and its calls fall along `rank`. -/
structure Solves (body : κ → Option (Comp κ ν δ ν)) (empty : ν) (f : κ → ν) (rank : κ → ℕ) :
    Prop where
  value : ∀ k c, body k = some c → f k = c.eval f
  missing : ∀ k, body k = none → f k = empty
  falls : ∀ k c, body k = some c → ∀ j ∈ c.calls f, rank j < rank k

variable {body : κ → Option (Comp κ ν δ ν)} {f : κ → ν} {st : MemoState κ ν δ} {empty : ν} {rank : κ → ℕ}

omit [DecidableEq κ] in
theorem Solves.unique {g : κ → ν} (hf : Solves body empty f rank) (hg : Solves body empty g rank) : f = g := by
  have hr : ∀ r k, rank k = r → f k = g k := by
    intro r
    induction r using Nat.strongRecOn with
    | ind r ih =>
      intro k hk
      cases hb : body k with
      | none => rw [hf.missing k hb, hg.missing k hb]
      | some c =>
        rw [hf.value k c hb, hg.value k c hb]
        apply Comp.eval_congr
        intro j hj
        exact ih (rank j) (hk ▸ hf.falls k c hb j hj) j rfl
  funext k
  exact hr (rank k) k rfl

def MemoState.Sound (f : κ → ν) (st : MemoState κ ν δ) : Prop :=
  ∀ k v, st.memo k = some v → v = f k

/-- What a step may do to the state: add sound entries to the table and records to the log. -/
structure Extends (f : κ → ν) (st st' : MemoState κ ν δ) : Prop where
  sound : st'.Sound f
  resolving : st'.resolving = st.resolving
  guardHits : st'.guardHits = st.guardHits
  memo : ∀ k v, st.memo k = some v → st'.memo k = some v

omit [DecidableEq κ] in
theorem Extends.refl (h : st.Sound f) : Extends f st st :=
  ⟨h, rfl, rfl, fun _ _ hv => hv⟩

omit [DecidableEq κ] in
theorem Extends.trans {st' st'' : MemoState κ ν δ} (h : Extends f st st') (h' : Extends f st' st'') :
    Extends f st st'' :=
  ⟨h'.sound, h'.resolving.trans h.resolving, h'.guardHits.trans h.guardHits,
    fun k v hv => h'.memo k v (h.memo k v hv)⟩

theorem Extends.finish {st' : MemoState κ ν δ} {k : κ} {v : ν}
    (h : Extends f (st.start k) st') (hm : st.memo k = none) (ho : st.resolving k = false) (hv : v = f k) :
    Extends f st (st'.finish k v) := by
  refine ⟨?_, ?_, h.guardHits, ?_⟩
  · intro j w hw
    by_cases hjk : j = k
    · subst hjk
      simp only [MemoState.finish, update_self] at hw
      exact (Option.some.inj hw).symm.trans hv
    · simp only [MemoState.finish, update_of_ne hjk] at hw
      exact h.sound j w hw
  · simp only [MemoState.finish, h.resolving, MemoState.start, update_idem]
    rw [← ho, update_eq_self]
  · intro j w hw
    have hjk : j ≠ k := fun he => by rw [he, hm] at hw; contradiction
    simp only [MemoState.finish, update_of_ne hjk]
    exact h.memo j w hw

omit [DecidableEq κ] in
theorem run_spec (f : κ → ν) (rec : κ → MemoState κ ν δ → ν × MemoState κ ν δ) (res : κ → Bool) (c : Comp κ ν δ α)
    (hre : ∀ j ∈ c.calls f, ∀ st : MemoState κ ν δ, st.Sound f → st.resolving = res →
      (rec j st).1 = f j ∧ Extends f st (rec j st).2) :
    ∀ st : MemoState κ ν δ, st.Sound f → st.resolving = res →
      (c.run rec st).1 = c.eval f ∧ Extends f st (c.run rec st).2 := by
  induction c with
  | pure a => exact fun st hs _ => ⟨rfl, Extends.refl hs⟩
  | call k c ih =>
    intro st hs hr
    obtain ⟨hv, he⟩ := hre k mem_cons_self st hs hr
    have hih := ih (f k) (fun j hj => hre j (mem_cons_of_mem k hj)) (rec k st).2
      he.sound (he.resolving.trans hr)
    simp only [Comp.run, Comp.eval, hv]
    exact ⟨hih.1, he.trans hih.2⟩
  | emit d c ih =>
    intro st hs hr
    obtain ⟨hv, he⟩ := ih hre { st with log := st.log ++ [d] } hs hr
    exact ⟨hv, he.sound, he.resolving, he.guardHits, he.memo⟩

/-- The memoised function returns the plain value, never meets its guard, and leaves the key in
the table. The open keys are those above `k` in rank. -/
theorem memoRec_spec (hf : Solves body empty f rank) :
    ∀ (fuel : ℕ) (k : κ) (st : MemoState κ ν δ), rank k < fuel → st.Sound f →
      (∀ j, st.resolving j = true → rank k < rank j) →
      (memoRec body empty fuel k st).1 = f k ∧
        Extends f st (memoRec body empty fuel k st).2 ∧
        ((body k).isSome → (memoRec body empty fuel k st).2.memo k = some (f k)) := by
  intro fuel
  induction fuel with
  | zero => intro k st hk; omega
  | succ fuel ih =>
    intro k st hk hs hr
    unfold memoRec
    cases hm : st.memo k with
    | some v =>
      have hv : v = f k := hs k v hm
      exact ⟨hv, Extends.refl hs, fun _ => by rw [hm, hv]⟩
    | none =>
      have ho : st.resolving k = false := by
        by_contra hn
        exact absurd (hr k (by simpa using hn)) (Nat.lt_irrefl _)
      simp only [ho, Bool.false_eq_true, ↓reduceIte]
      cases hb : body k with
      | none => exact ⟨(hf.missing k hb).symm, Extends.refl hs, by simp⟩
      | some c =>
        have hcs : ∀ j ∈ c.calls f, ∀ st' : MemoState κ ν δ, st'.Sound f →
            st'.resolving = (st.start k).resolving →
            (memoRec body empty fuel j st').1 = f j ∧
              Extends f st' (memoRec body empty fuel j st').2 := by
          intro j hj st' hs' hr'
          have hjk := hf.falls k c hb j hj
          have ha : ∀ i, st'.resolving i = true → rank j < rank i := by
            intro i hi
            by_cases hik : i = k
            · exact hik ▸ hjk
            · simp only [hr', MemoState.start, update_of_ne hik] at hi
              exact Nat.lt_trans hjk (hr i hi)
          have h := ih j st' (by omega) hs' ha
          exact ⟨h.1, h.2.1⟩
        obtain ⟨hva, he⟩ := run_spec f (memoRec body empty fuel) _ c hcs (st.start k) hs rfl
        have hv' := hva.trans (hf.value k c hb).symm
        refine ⟨hv', he.finish hm ho hv', fun _ => ?_⟩
        simp only [MemoState.finish, update_self, hv']

omit [DecidableEq κ] in
/-- Plain evaluation to a depth above every rank solves the recursion. The predicate `P` is what
the call structure may rely on about returned values. -/
theorem solves_unmemo {N : ℕ} (hN : ∀ k, rank k < N) (P : ν → Prop) (he : P empty)
    (hbo : ∀ f : κ → ν, (∀ k, P (f k)) → ∀ k c, body k = some c → P (c.eval f) ∧ ∀ j ∈ c.calls f, rank j < rank k) :
    Solves body empty (unmemo body empty N) rank ∧ ∀ k, P (unmemo body empty N k) := by
  have hP : ∀ n k, P (unmemo body empty n k) := by
    intro n
    induction n with
    | zero => exact fun _ => he
    | succ n ih =>
      intro k
      unfold unmemo
      cases hb : body k with
      | none => exact he
      | some c => exact (hbo _ ih k c hb).1
  -- a depth above the rank of `k` is as good as any other such depth
  have hs : ∀ r k, rank k = r → ∀ n m, r < n → r < m →
      unmemo body empty n k = unmemo body empty m k := by
    intro r
    induction r using Nat.strongRecOn with
    | ind r ih =>
      intro k hk n m hn hm
      obtain ⟨n, rfl⟩ : ∃ n', n = n'+1 := ⟨n-1, by omega⟩
      obtain ⟨m, rfl⟩ : ∃ m', m = m'+1 := ⟨m-1, by omega⟩
      unfold unmemo
      cases hb : body k with
      | none => rfl
      | some c =>
        apply Comp.eval_congr
        intro j hj
        have hjk := (hbo _ (hP n) k c hb).2 j hj
        exact ih (rank j) (by omega) j rfl n m (by omega) (by omega)
  refine ⟨⟨?_, ?_, fun k c hb => (hbo _ (hP N) k c hb).2⟩, hP N⟩
  · intro k c hb
    have hk := hN k
    rw [hs (rank k) k rfl N (N+1) hk (by omega)]
    simp only [unmemo, hb]
  · intro k hb
    have hk := hN k
    rw [hs (rank k) k rfl N (N+1) hk (by omega)]
    simp only [unmemo, hb]

end

end MemoRecursion
