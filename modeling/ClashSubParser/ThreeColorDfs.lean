import Mathlib.Data.List.Nodup
import Mathlib.Data.List.Chain
import Mathlib.Data.List.Perm.Subperm
import Mathlib.Logic.Function.Basic
import Mathlib.Tactic.SplitIfs
import Mathlib.Tactic.Ring

/-! Depth-first cycle search with three colours and an explicit stack. A run reports a closed walk or leaves
a topological order. -/
namespace ThreeColorDfs

open List

inductive Color
  | white | gray | black
deriving DecidableEq, Repr

variable {V : Type*} [DecidableEq V]

/-- The colours so far and the stack of vertices whose visit is open, oldest first. -/
structure State (V : Type*) where
  color : V → Color
  stack : List V

def State.init : State V := ⟨fun _ => .white, []⟩

def State.enter (st : State V) (u : V) : State V :=
  ⟨Function.update st.color u .gray, st.stack ++ [u]⟩

def State.leave (st : State V) (u : V) : State V :=
  ⟨Function.update st.color u .black, st.stack.dropLast⟩

/-- `none` is an exhausted search, `error (v, p)` the closed walk `p` reported at `v`. -/
abbrev Outcome (V : Type*) := Option (Except (V × List V) (State V))

def cyclePath (stack : List V) (u v : V) : List V :=
  match stack.idxOf? v with
  | some i => stack.drop i ++ [v]
  | none => [u, v, u]

def visitNeighbors (visit : V → State V → Outcome V) (u : V) : List V → State V → Outcome V
  | [], st => some (.ok st)
  | v :: vs, st =>
    match st.color v with
    | .gray => some (.error (v, cyclePath st.stack u v))
    | .black => visitNeighbors visit u vs st
    | .white =>
      match visit v st with
      | some (.ok st') => visitNeighbors visit u vs st'
      | r => r

def dfs (neighbors : V → List V) : ℕ → V → State V → Outcome V
  | 0, _, _ => none
  | fuel+1, u, st =>
    match visitNeighbors (dfs neighbors fuel) u (neighbors u) (st.enter u) with
    | some (.ok st') => some (.ok (st'.leave u))
    | r => r

def dfsAll (neighbors : V → List V) (fuel : ℕ) : List V → State V → Outcome V
  | [], st => some (.ok st)
  | v :: vs, st =>
    if st.color v = .white then
      match dfs neighbors fuel v st with
      | some (.ok st') => dfsAll neighbors fuel vs st'
      | r => r
    else dfsAll neighbors fuel vs st

/-- A closed walk through distinct vertices: `c` back to its first vertex. -/
def IsCycle (R : V → V → Prop) (p : List V) : Prop :=
  ∃ v c, p = v :: c ++ [v] ∧ (v :: c).Nodup ∧ List.IsChain R p

def TopoOrder (neighbors : V → List V) : List V → Prop
  | [] => True
  | v :: vs => v ∉ vs ∧ (∀ w ∈ neighbors v, w ∈ vs) ∧ TopoOrder neighbors vs

/-- What holds of the colours and the stack between two steps of the search. -/
structure Inv (neighbors : V → List V) (U : List V) (st : State V) : Prop where
  gray_iff : ∀ v, st.color v = .gray ↔ v ∈ st.stack
  nodup : st.stack.Nodup
  chain : List.IsChain (fun u v => v ∈ neighbors u) st.stack
  stack_sub : ∀ v ∈ st.stack, v ∈ U
  finished : ∃ bs, TopoOrder neighbors bs ∧ (∀ v, st.color v = .black ↔ v ∈ bs) ∧ ∀ v ∈ bs, v ∈ U

/-- What one visit guarantees: it does not run out, it reports only cycles, and on success it
restores the stack and keeps every black vertex black. -/
def Visited (neighbors : V → List V) (U : List V) (st : State V) (done : List V) : Outcome V → Prop
  | none => False
  | some (.error p) => IsCycle (fun u v => v ∈ neighbors u) p.2
  | some (.ok st') => Inv neighbors U st' ∧ st'.stack = st.stack ∧
      (∀ v, st.color v = .black → st'.color v = .black) ∧ ∀ v ∈ done, st'.color v = .black

omit [DecidableEq V] in
theorem inv_init (neighbors : V → List V) (U : List V) : Inv neighbors U State.init := by
  refine ⟨fun v => by simp [State.init], by simp [State.init], by simp [State.init],
    by simp [State.init], [], trivial, fun v => by simp [State.init], by simp⟩

variable {neighbors : V → List V} {U s : List V} {st : State V} {u : V}

section

variable (h : Inv neighbors U st)
include h

omit [DecidableEq V] in
theorem Inv.stack_length_lt (hu : st.color u = .white) (huU : u ∈ U) : st.stack.length < U.length := by
  have hn : u ∉ st.stack := fun hm => by simp [(h.gray_iff u).mpr hm] at hu
  have hnd : (u :: st.stack).Nodup := nodup_cons.mpr ⟨hn, h.nodup⟩
  have hs : u :: st.stack ⊆ U := cons_subset.mpr ⟨huU, h.stack_sub⟩
  exact (subperm_of_subset hnd hs).length_le

theorem Inv.enter (hu : st.color u = .white) (huU : u ∈ U)
    (hto : ∀ t ∈ st.stack.getLast?, u ∈ neighbors t) : Inv neighbors U (st.enter u) := by
  have hn : u ∉ st.stack := fun hm => by simp [(h.gray_iff u).mpr hm] at hu
  obtain ⟨bs, hbs, hbl, hbU⟩ := h.finished
  refine ⟨?_, ?_, ?_, ?_, bs, hbs, ?_, hbU⟩
  · intro v
    by_cases hv : v = u
    · simp [State.enter, hv]
    · simp [State.enter, hv, h.gray_iff v]
  · rw [State.enter, nodup_append]
    exact ⟨h.nodup, by simp, by rintro a ha b hb rfl; simp at hb; exact hn (hb ▸ ha)⟩
  · rw [State.enter, isChain_append]
    refine ⟨h.chain, by simp, ?_⟩
    intro t ht v hv
    obtain rfl : u = v := by simpa using hv
    exact hto t ht
  · intro v hv
    rcases mem_append.mp hv with hv | hv
    · exact h.stack_sub v hv
    · exact (mem_singleton.mp hv) ▸ huU
  · intro v
    by_cases hv : v = u
    · subst hv
      have : v ∉ bs := fun hm => by simp [(hbl v).mpr hm] at hu
      simp [State.enter, this]
    · simp [State.enter, hv, hbl v]

theorem Inv.leave (hs : st.stack = s ++ [u]) (hn : ∀ v ∈ neighbors u, st.color v = .black) :
    Inv neighbors U (st.leave u) := by
  obtain ⟨bs, hbs, hb, hbU⟩ := h.finished
  have hd : st.stack.dropLast = s := by rw [hs, dropLast_concat]
  have hnd := h.nodup
  rw [hs, nodup_append] at hnd
  have hus : u ∉ s := fun hm => hnd.2.2 u hm u (by simp) rfl
  have hme (v : V) : v ∈ st.stack ↔ v ∈ s ∨ v = u := by simp [hs]
  have hu : st.color u = .gray := (h.gray_iff u).mpr ((hme u).mpr (Or.inr rfl))
  refine ⟨?_, ?_, ?_, ?_, u :: bs, ⟨?_, fun w hw => (hb w).mp (hn w hw), hbs⟩, ?_, ?_⟩
  · intro v
    by_cases hv : v = u
    · simp [State.leave, hv, hd, hus]
    · simp [State.leave, hv, hd, h.gray_iff v, hme v]
  · rw [State.leave, hd]
    exact hnd.1
  · have hc := h.chain
    rw [hs, isChain_append] at hc
    rw [State.leave, hd]
    exact hc.1
  · intro v hv
    rw [State.leave, hd] at hv
    exact h.stack_sub v ((hme v).mpr (Or.inl hv))
  · intro hm
    simp [(hb u).mpr hm] at hu
  · intro v
    by_cases hv : v = u
    · simp [State.leave, hv]
    · simp [State.leave, hv, hb v]
  · intro v hv
    rcases mem_cons.mp hv with rfl | hv
    · exact h.stack_sub v ((hme v).mpr (Or.inr rfl))
    · exact hbU v hv

theorem cyclePath_isCycle {v : V} (hs : st.stack = s ++ [u]) (hv : v ∈ neighbors u)
    (hg : st.color v = .gray) : IsCycle (fun u v => v ∈ neighbors u) (cyclePath st.stack u v) := by
  have hm : v ∈ st.stack := (h.gray_iff v).mp hg
  obtain ⟨i, hi⟩ : ∃ i, st.stack.idxOf? v = some i :=
    Option.isSome_iff_exists.mp (isSome_idxOf?.mpr hm)
  obtain ⟨hlt, hge, -⟩ := idxOf?_eq_some_iff.mp hi
  have hd : st.stack.drop i = v :: st.stack.drop (i+1) := by
    rw [drop_eq_getElem_cons hlt, hge]
  refine ⟨v, st.stack.drop (i+1), ?_, ?_, ?_⟩
  · simp only [cyclePath, hi, hd]
  · rw [← hd]
    exact h.nodup.sublist (drop_sublist _ _)
  · simp only [cyclePath, hi]
    rw [isChain_append]
    refine ⟨h.chain.drop _, by simp, ?_⟩
    intro t ht w hw
    obtain rfl : v = w := by simpa using hw
    have hl : (st.stack.drop i).getLast? = some u := by
      rw [getLast?_drop, if_neg (by omega), hs, getLast?_concat]
    rw [hl, Option.mem_some_iff] at ht
    exact ht ▸ hv

end

omit [DecidableEq V] in
/-- Run a second part of the search after a first one that finished `v`. -/
theorem Visited.cons {st₁ : State V} {v : V} {vs : List V} {r : Outcome V} (hs : st₁.stack = st.stack)
    (hm : ∀ w, st.color w = .black → st₁.color w = .black) (hv : st₁.color v = .black)
    (h : Visited neighbors U st₁ vs r) : Visited neighbors U st (v :: vs) r := by
  cases r with
  | none => exact h
  | some r =>
    cases r with
    | error p => exact h
    | ok st' =>
      obtain ⟨hi, hs', hm', hd⟩ := h
      exact ⟨hi, hs'.trans hs, fun w hw => hm' w (hm w hw), forall_mem_cons.mpr ⟨hm' v hv, hd⟩⟩

omit [DecidableEq V] in
theorem Visited.bind {v : V} {vs : List V} {next : State V → Outcome V}
    (hn : ∀ st₁, Inv neighbors U st₁ → st₁.stack = st.stack → Visited neighbors U st₁ vs (next st₁)) :
    ∀ {r : Outcome V}, Visited neighbors U st [v] r →
      Visited neighbors U st (v :: vs) (match r with | some (.ok st') => next st' | r => r)
  | some (.error _), h => h
  | some (.ok st₁), ⟨hi, hs, hm, hd⟩ =>
    Visited.cons hs hm (hd v mem_cons_self) (hn st₁ hi hs)

theorem visitNeighbors_visited (visit : V → State V → Outcome V)
    (hvi : ∀ v st, Inv neighbors U st → st.color v = .white → v ∈ U → st.stack = s ++ [u] →
      v ∈ neighbors u → Visited neighbors U st [v] (visit v st)) :
    ∀ (vs : List V) (st : State V), (∀ v ∈ vs, v ∈ neighbors u ∧ v ∈ U) → Inv neighbors U st →
      st.stack = s ++ [u] → Visited neighbors U st vs (visitNeighbors visit u vs st) := by
  intro vs
  induction vs with
  | nil => exact fun st _ h _ => ⟨h, rfl, fun _ hb => hb, by simp⟩
  | cons v vs ih =>
    intro st hvs h hs
    obtain ⟨hv, hvU⟩ := hvs v mem_cons_self
    have hr := fun w hw => hvs w (mem_cons_of_mem v hw)
    unfold visitNeighbors
    cases hc : st.color v with
    | gray => exact cyclePath_isCycle h hs hv hc
    | black => exact Visited.cons rfl (fun _ hw => hw) hc (ih st hr h hs)
    | white =>
      exact Visited.bind (fun st₁ hi hst => ih st₁ hr hi (hst.trans hs)) (hvi v st h hc hvU hs hv)

section

variable (hU : ∀ u ∈ U, ∀ v ∈ neighbors u, v ∈ U)
include hU

theorem dfs_visited : ∀ (fuel : ℕ) (u : V) (st : State V), Inv neighbors U st → st.color u = .white → u ∈ U →
      (∀ t ∈ st.stack.getLast?, u ∈ neighbors t) → U.length ≤ fuel+st.stack.length →
      Visited neighbors U st [u] (dfs neighbors fuel u st) := by
  intro fuel
  induction fuel with
  | zero =>
    intro u st h hu huU _ hf
    have := h.stack_length_lt hu huU
    omega
  | succ fuel ih =>
    intro u st h hu huU ht hf
    have hen := h.enter hu huU ht
    have hl := visitNeighbors_visited (U := U) (s := st.stack) (u := u) (dfs neighbors fuel)
      (fun v st' hi hw hvU hs hv => ih v st' hi hw hvU
        (by rw [hs, getLast?_concat]; simpa using hv)
        (by rw [hs, length_append, length_singleton]; omega))
      (neighbors u) (st.enter u) (fun v hv => ⟨hv, hU u huU v hv⟩) hen rfl
    unfold dfs
    revert hl
    cases visitNeighbors (dfs neighbors fuel) u (neighbors u) (st.enter u) with
    | none => exact id
    | some r =>
      cases r with
      | error p => exact id
      | ok st' =>
        rintro ⟨hin, hst, hm, hd⟩
        refine ⟨hin.leave hst hd, ?_, ?_, ?_⟩
        · rw [State.leave, hst, State.enter, dropLast_concat]
        · intro v hv
          have hne : v ≠ u := fun he => by rw [he, hu] at hv; contradiction
          have hv' : (st.enter u).color v = .black := by simpa [State.enter, hne] using hv
          simpa [State.leave, hne] using hm v hv'
        · simp [State.leave]

theorem dfsAll_visited {fuel : ℕ} (hf : U.length ≤ fuel) :
    ∀ (vs : List V) (st : State V), (∀ v ∈ vs, v ∈ U) → Inv neighbors U st → st.stack = [] →
      Visited neighbors U st vs (dfsAll neighbors fuel vs st) := by
  intro vs
  induction vs with
  | nil => exact fun st _ h _ => ⟨h, rfl, fun _ hb => hb, by simp⟩
  | cons v vs ih =>
    intro st hvs h hs
    have hr := fun w hw => hvs w (mem_cons_of_mem v hw)
    unfold dfsAll
    split_ifs with hc
    · exact Visited.bind (fun st₁ hi hst => ih st₁ hr hi (hst.trans hs))
        (dfs_visited hU fuel v st h hc (hvs v mem_cons_self) (by simp [hs]) (by omega))
    · have hbl : st.color v = .black := by
        cases hcv : st.color v with
        | white => exact absurd hcv hc
        | gray => exact absurd ((h.gray_iff v).mp hcv) (by simp [hs])
        | black => rfl
      exact Visited.cons rfl (fun _ hw => hw) hbl (ih st hr h hs)

end

/-- The position of a vertex in a topological order, counted from its end. -/
def topoRank : List V → V → ℕ
  | [], _ => 0
  | x :: vs, v => if v = x then vs.length else topoRank vs v

theorem topoRank_lt : ∀ (vs : List V) (v : V), v ∈ vs → topoRank vs v < vs.length := by
  intro vs
  induction vs with
  | nil => simp
  | cons x vs ih =>
    intro v hv
    unfold topoRank
    split_ifs with hx
    · simp
    · have := ih v ((mem_cons.mp hv).resolve_left hx)
      simp only [length_cons]
      omega

theorem topoRank_neighbor (neighbors : V → List V) : ∀ (vs : List V), TopoOrder neighbors vs →
    ∀ v ∈ vs, ∀ w ∈ neighbors v, w ∈ vs ∧ topoRank vs w < topoRank vs v := by
  intro vs
  induction vs with
  | nil => simp
  | cons x vs ih =>
    rintro ⟨hx, hnx, hvs⟩ v hv w hw
    have hwv : w ∈ vs := by
      by_cases hvx : v = x
      · exact hnx w (hvx ▸ hw)
      · exact (ih hvs v ((mem_cons.mp hv).resolve_left hvx) w hw).1
    have hwx : w ≠ x := fun he => hx (he ▸ hwv)
    refine ⟨mem_cons_of_mem x hwv, ?_⟩
    simp only [topoRank, hwx, ↓reduceIte]
    split_ifs with hvx
    · exact topoRank_lt vs w hwv
    · exact (ih hvs v ((mem_cons.mp hv).resolve_left hvx) w hw).2

omit [DecidableEq V] in
theorem TopoOrder.nodup : ∀ {vs : List V}, TopoOrder neighbors vs → vs.Nodup
  | [], _ => nodup_nil
  | _ :: _, h => nodup_cons.mpr ⟨h.1, TopoOrder.nodup h.2.2⟩

omit [DecidableEq V] in
theorem not_isCycle_of_rank {R : V → V → Prop} (rank : V → ℕ)
    (hr : ∀ u v, R u v → rank v < rank u) (p : List V) : ¬IsCycle R p := by
  rintro ⟨v, c, rfl, -, hc⟩
  have hf (d : List V) : ∀ a b, List.IsChain R (a :: d ++ [b]) → rank b < rank a := by
    induction d with
    | nil => intro a b h; exact hr a b (by simpa using h)
    | cons x d ih =>
      intro a b h
      simp only [cons_append, isChain_cons_cons] at h
      exact (ih x b h.2).trans (hr a x h.1)
  exact lt_irrefl _ (hf c v v hc)

/-- A search over a closed set of vertices always ends, with a cycle of the graph or with a
rank that falls along every edge. -/
theorem dfsAll_spec (hU : ∀ u ∈ U, ∀ v ∈ neighbors u, v ∈ U) {fuel : ℕ} (hf : U.length ≤ fuel)
    {vs : List V} (hvs : ∀ v ∈ vs, v ∈ U) : (∃ v p, dfsAll neighbors fuel vs State.init = some (.error (v, p)) ∧
      IsCycle (fun u v => v ∈ neighbors u) p) ∨
    (∃ st, dfsAll neighbors fuel vs State.init = some (.ok st) ∧
      ∃ rank : V → ℕ, (∀ v ∈ vs, rank v < U.length ∧ ∀ w ∈ neighbors v, rank w < rank v)) := by
  have h := dfsAll_visited hU hf vs State.init hvs (inv_init neighbors U) rfl
  revert h
  cases hr : dfsAll neighbors fuel vs State.init with
  | none => exact False.elim
  | some r =>
    cases r with
    | error p => exact fun h => Or.inl ⟨p.1, p.2, rfl, h⟩
    | ok st =>
      rintro ⟨hi, -, -, hd⟩
      obtain ⟨bs, hbs, hb, hbU⟩ := hi.finished
      have hl : bs.length ≤ U.length := (subperm_of_subset hbs.nodup hbU).length_le
      refine Or.inr ⟨st, rfl, topoRank bs, ?_⟩
      intro v hv
      have hvb : v ∈ bs := (hb v).mp (hd v hv)
      exact ⟨(topoRank_lt bs v hvb).trans_le hl, fun w hw => (topoRank_neighbor neighbors bs hbs v hvb w hw).2⟩

end ThreeColorDfs
