import Mathlib.Data.List.Nodup
import Mathlib.Data.List.Perm.Subperm
import Mathlib.Logic.Relation

/-! Collecting what hangs on the vertices reachable from a start vertex, by a depth-first walk. -/
namespace Reachability

open List Relation.ReflTransGen

variable {V β : Type*} [DecidableEq V]

/-- Walk from `v`: skip it if visited, else take its payload and walk from its children. -/
def collect (children : V → List V) (payload : V → List β) :
    ℕ → V → List V × List β → List V × List β
  | 0, _, acc => acc
  | fuel+1, v, acc =>
    if v ∈ acc.1 then acc
    else (children v).foldl (fun acc c => collect children payload fuel c acc)
      (v :: acc.1, acc.2 ++ payload v)

variable {children : V → List V} {payload : V → List β} {U : List V} {acc : List V × List β} {v : V}

theorem payload_of_mem_collect {b : β} :
    ∀ (fuel : ℕ) (v : V) (acc : List V × List β), b ∈ (collect children payload fuel v acc).2 →
      b ∈ acc.2 ∨ ∃ w, b ∈ payload w := by
  intro fuel
  induction fuel with
  | zero => exact fun v acc hb => .inl hb
  | succ fuel ih =>
    intro v acc hb
    unfold collect at hb
    split_ifs at hb with hv
    · exact .inl hb
    · have hl : ∀ (vs : List V) (acc : List V × List β),
          b ∈ (vs.foldl (fun acc c => collect children payload fuel c acc) acc).2 →
          b ∈ acc.2 ∨ ∃ w, b ∈ payload w := by
        intro vs
        induction vs with
        | nil => exact fun acc hb => .inl hb
        | cons w vs ihvs =>
          intro acc hb
          rcases ihvs _ hb with hb | hb
          · exact ih w acc hb
          · exact .inr hb
      rcases hl _ _ hb with hb | hb
      · rcases mem_append.mp hb with hb | hb
        · exact .inl hb
        · exact .inr ⟨v, hb⟩
      · exact .inr hb

/-- What a walk over `vs` guarantees: it visits `vs`, it visits only what `vs` reaches, it does not
leave a newly visited vertex with an unvisited child, and it takes exactly the new payloads. -/
structure Walked (children : V → List V) (payload : V → List β) (U vs : List V)
    (acc acc' : List V × List β) : Prop where
  nodup : acc'.1.Nodup
  sub : ∀ v ∈ acc'.1, v ∈ U
  mono : ∀ v ∈ acc.1, v ∈ acc'.1
  length : acc.1.length ≤ acc'.1.length
  visited : ∀ v ∈ vs, v ∈ acc'.1
  reached : ∀ v ∈ acc'.1, v ∈ acc.1 ∨
    ∃ r ∈ vs, Relation.ReflTransGen (fun a b => b ∈ children a) r v
  closed : ∀ v ∈ acc'.1, v ∈ acc.1 ∨ ∀ c ∈ children v, c ∈ acc'.1
  taken : ∀ b, b ∈ acc'.2 ↔ b ∈ acc.2 ∨ ∃ v ∈ acc'.1, v ∉ acc.1 ∧ b ∈ payload v

omit [DecidableEq V] in
theorem Walked.nil (hnd : acc.1.Nodup) (hs : ∀ v ∈ acc.1, v ∈ U) : Walked children payload U [] acc acc :=
  ⟨hnd, hs, fun _ h => h, Nat.le_refl _, by simp, fun _ h => Or.inl h, fun _ h => Or.inl h,
    fun b => ⟨Or.inl, fun h => h.elim id (fun ⟨v, hv, hn, _⟩ => absurd hv hn)⟩⟩

theorem Walked.cons {vs : List V} {acc₁ acc₂ : List V × List β} (h : Walked children payload U [v] acc acc₁)
    (h' : Walked children payload U vs acc₁ acc₂) : Walked children payload U (v :: vs) acc acc₂ := by
  refine ⟨h'.nodup, h'.sub, fun w hw => h'.mono w (h.mono w hw), Nat.le_trans h.length h'.length, ?_, ?_, ?_, ?_⟩
  · exact forall_mem_cons.mpr ⟨h'.mono v (h.visited v mem_cons_self), h'.visited⟩
  · intro w hw
    rcases h'.reached w hw with hw | ⟨r, hr, hrw⟩
    · rcases h.reached w hw with hw | ⟨r, hr, hrw⟩
      · exact .inl hw
      · exact .inr ⟨r, by simp_all, hrw⟩
    · exact .inr ⟨r, mem_cons_of_mem v hr, hrw⟩
  · intro w hw
    rcases h'.closed w hw with hw | hc
    · rcases h.closed w hw with hw | hc
      · exact .inl hw
      · exact .inr fun c hcw => h'.mono c (hc c hcw)
    · exact .inr hc
  · intro b
    rw [h'.taken, h.taken]
    constructor
    · rintro ((hb | ⟨w, hw, hn, hb⟩) | ⟨w, hw, hn, hb⟩)
      · exact .inl hb
      · exact .inr ⟨w, h'.mono w hw, hn, hb⟩
      · exact .inr ⟨w, hw, fun hwa => hn (h.mono w hwa), hb⟩
    · rintro (hb | ⟨w, hw, hn, hb⟩)
      · exact .inl (.inl hb)
      · by_cases hw₁ : w ∈ acc₁.1
        · exact .inl (.inr ⟨w, hw₁, hn, hb⟩)
        · exact .inr ⟨w, hw, hw₁, hb⟩

theorem Walked.visit {acc' : List V × List β} (hv : v ∉ acc.1)
    (h : Walked children payload U (children v) (v :: acc.1, acc.2 ++ payload v) acc') :
    Walked children payload U [v] acc acc' := by
  have hvm : v ∈ acc'.1 := h.mono v mem_cons_self
  refine ⟨h.nodup, h.sub, fun w hw => h.mono w (mem_cons_of_mem v hw), ?_, by simpa using hvm,
    ?_, ?_, ?_⟩
  · have := h.length
    simp only [length_cons] at this
    omega
  · intro w hw
    rcases h.reached w hw with hw | ⟨r, hr, hrw⟩
    · rcases mem_cons.mp hw with rfl | hw
      · exact .inr ⟨w, mem_cons_self, refl⟩
      · exact .inl hw
    · exact .inr ⟨v, mem_cons_self, head hr hrw⟩
  · intro w hw
    rcases h.closed w hw with hw | hc
    · rcases mem_cons.mp hw with rfl | hw
      · exact .inr h.visited
      · exact .inl hw
    · exact .inr hc
  · intro b
    rw [h.taken]
    constructor
    · rintro (hb | ⟨w, hw, hn, hb⟩)
      · rcases mem_append.mp hb with hb | hb
        · exact .inl hb
        · exact .inr ⟨v, hvm, hv, hb⟩
      · exact .inr ⟨w, hw, fun hwa => hn (mem_cons_of_mem v hwa), hb⟩
    · rintro (hb | ⟨w, hw, hn, hb⟩)
      · exact .inl (mem_append_left _ hb)
      · by_cases hwv : w = v
        · exact .inl (mem_append_right _ (hwv ▸ hb))
        · exact .inr ⟨w, hw, by simp [hwv, hn], hb⟩

theorem collect_walked (payload : V → List β) (hU : ∀ u ∈ U, ∀ c ∈ children u, c ∈ U) :
    ∀ (fuel : ℕ) (v : V) (acc : List V × List β), v ∈ U → acc.1.Nodup → (∀ w ∈ acc.1, w ∈ U) →
      U.length < fuel+acc.1.length →
      Walked children payload U [v] acc (collect children payload fuel v acc) := by
  intro fuel
  induction fuel with
  | zero =>
    intro v acc _ hnd hs hf
    have := (subperm_of_subset hnd hs).length_le
    omega
  | succ fuel ih =>
    intro v acc hv hnd hs hf
    unfold collect
    split_ifs with hvi
    · have hn : Walked children payload U [] acc acc := Walked.nil hnd hs
      exact ⟨hnd, hs, fun _ h => h, Nat.le_refl _, by simpa using hvi, fun _ h => .inl h,
        fun _ h => .inl h, hn.taken⟩
    · apply Walked.visit hvi
      have hlo : ∀ (vs : List V) (acc : List V × List β), (∀ w ∈ vs, w ∈ U) → acc.1.Nodup →
          (∀ w ∈ acc.1, w ∈ U) → U.length < fuel+acc.1.length →
          Walked children payload U vs acc
            (vs.foldl (fun acc c => collect children payload fuel c acc) acc) := by
        intro vs
        induction vs with
        | nil => exact fun acc _ hnd hs _ => Walked.nil hnd hs
        | cons w vs ihvs =>
          intro acc hvs hnd hs hl
          have ho := ih w acc (hvs w mem_cons_self) hnd hs hl
          have hl' := ho.length
          exact ho.cons (ihvs _ (fun x hx => hvs x (mem_cons_of_mem w hx)) ho.nodup ho.sub (by omega))
      apply hlo _ _ (hU v hv)
      · exact nodup_cons.mpr ⟨hvi, hnd⟩
      · exact forall_mem_cons.mpr ⟨hv, hs⟩
      · simp only [length_cons]
        omega

/-- The walk collects the payloads of all reachable vertices and no others. -/
theorem mem_collect (payload : V → List β)
    (hU : ∀ u ∈ U, ∀ c ∈ children u, c ∈ U) {fuel : ℕ} (hf : U.length < fuel) (hv : v ∈ U) (b : β) : b ∈
    (collect children payload fuel v ([], [])).2 ↔
      ∃ w, Relation.ReflTransGen (fun a b => b ∈ children a) v w ∧ b ∈ payload w := by
  have h := collect_walked payload hU fuel v ([], []) hv (by simp) (by simp) (by simpa using hf)
  have hro := h.visited v mem_cons_self
  have hrc (w : V) : w ∈ (collect children payload fuel v ([], [])).1 ↔
      Relation.ReflTransGen (fun a b => b ∈ children a) v w := by
    constructor
    · intro hw
      obtain ⟨r, hr, hrw⟩ := (h.reached w hw).resolve_left (by simp)
      exact (mem_singleton.mp hr) ▸ hrw
    · intro hw
      induction hw with
      | refl => exact hro
      | tail _ hbc ih => exact (h.closed _ ih).resolve_left (by simp) _ hbc
  rw [h.taken]
  constructor
  · rintro (hb | ⟨w, hw, -, hb⟩)
    · simp at hb
    · exact ⟨w, (hrc w).mp hw, hb⟩
  · rintro ⟨w, hw, hb⟩
    exact .inr ⟨w, (hrc w).mpr hw, by simp, hb⟩

theorem mem_collect_step (payload : V → List β)
    (hU : ∀ u ∈ U, ∀ c ∈ children u, c ∈ U) {fuel : ℕ} (hf : U.length < fuel) (hv : v ∈ U) (b : β) : b ∈
    (collect children payload fuel v ([], [])).2 ↔
      b ∈ payload v ∨ ∃ c ∈ children v, b ∈ (collect children payload fuel c ([], [])).2 := by
  rw [mem_collect payload hU hf hv]
  constructor
  · rintro ⟨w, hvw, hb⟩
    rcases cases_head hvw with rfl | ⟨c, hc, hcw⟩
    · exact .inl hb
    · exact .inr ⟨c, hc, (mem_collect payload hU hf (hU v hv c hc) b).mpr ⟨w, hcw, hb⟩⟩
  · rintro (hb | ⟨c, hc, hb⟩)
    · exact ⟨v, refl, hb⟩
    · obtain ⟨w, hcw, hb⟩ := (mem_collect payload hU hf (hU v hv c hc) b).mp hb
      exact ⟨w, head hc hcw, hb⟩

end Reachability
