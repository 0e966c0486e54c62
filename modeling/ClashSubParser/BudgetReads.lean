import ClashSubParser.AssocTotals
import Mathlib.Algebra.Order.Group.Nat

/-! The budget that the bodies of responses share. A read reserves, reads and settles, and it waits while
other reads hold all that is left. -/
namespace ClashSubParser

open AssocTotals

inductive ReadError
  | bodyBudget | context
  /-- of the reader under the body, which has no budget itself -/
  | reader (message : String)

/-- Where a call of `Read` stands. -/
inductive ReadPhase
  /-- at the head of the loop in `reserve` -/
  | reserving (size : ℕ)
  /-- at the `select`, with the channel it took -/
  | waiting (size channel : ℕ)
  | reserved (amount : ℕ)
  /-- the reader has filled `n` of the bytes it was given -/
  | filled (amount n : ℕ) (h : n ≤ amount) (err : Option String)
  | returned (n : ℕ) (err : Option ReadError)

inductive ReadAction
  | call (k size : ℕ)
  | reserve (k : ℕ)
  /-- the context of the call has ended -/
  | giveUp (k : ℕ)
  | wake (k : ℕ)
  | fill (k n : ℕ) (err : Option String)
  | settle (k : ℕ)

/-- A budget without a ledger. Its channels are numbered; only `changed` is open. -/
structure SharedBudget (limit : ℕ) where
  used : ℕ := 0
  reserved : ℕ := 0
  changed : ℕ := 0
  /-- all calls by their number -/
  reads : FiniteMap ℕ ReadPhase := ∅

namespace SharedBudget

variable {limit : ℕ} (b : SharedBudget limit)

def move (k : ℕ) (p : ReadPhase) : SharedBudget limit := { b with reads := b.reads.insert k p }

/-- One turn of the loop, up to the end of its critical section. -/
def reserve (k size : ℕ) : SharedBudget limit :=
  let free := limit - b.used - b.reserved
  if 0 < free then
    { b.move k (.reserved (min size free)) with reserved := b.reserved + min size free }
  else if b.reserved = 0 then b.move k (.returned 0 (some .bodyBudget))
  else b.move k (.waiting size b.changed)

def settle (k amount n : ℕ) (err : Option String) : SharedBudget limit :=
  { b.move k (.returned n (err.map .reader)) with
    reserved := b.reserved - amount
    used := b.used + n
    changed := b.changed + 1 }

/-- An action that does not fit the phase of its call does nothing. -/
def step : ReadAction → SharedBudget limit
  | .call k size =>
    if b.reads.lookup k = none then b.move k (if size = 0 then .returned 0 none else .reserving size) else b
  | .reserve k =>
    match b.reads.lookup k with
    | some (.reserving size) => b.reserve k size
    | _ => b
  | .giveUp k =>
    match b.reads.lookup k with
    | some (.reserving _) | some (.waiting _ _) => b.move k (.returned 0 (some .context))
    | _ => b
  | .wake k =>
    match b.reads.lookup k with
    | some (.waiting size channel) => if channel = b.changed then b else b.move k (.reserving size)
    | _ => b
  | .fill k n err =>
    match b.reads.lookup k with
    | some (.reserved amount) => if h : n ≤ amount then b.move k (.filled amount n h err) else b
    | _ => b
  | .settle k =>
    match b.reads.lookup k with
    | some (.filled amount n _ err) => b.settle k amount n err
    | _ => b

end SharedBudget

namespace ReadPhase

def held : ReadPhase → ℕ
  | .reserved amount | .filled amount _ _ _ => amount
  | _ => 0

def settled : ReadPhase → ℕ
  | .returned n _ => n
  | _ => 0

/-- The bytes of the call that its reader has got. -/
def delivered : ReadPhase → ℕ
  | .filled _ n _ _ | .returned n _ => n
  | _ => 0

def inFlight : ReadPhase → Bool
  | .returned _ _ => false
  | _ => true

theorem delivered_le : ∀ p : ReadPhase, p.delivered ≤ p.held + p.settled
  | .reserving _ | .waiting _ _ | .reserved _ => Nat.zero_le _
  | .filled _ _ h _ => h
  | .returned n _ => Nat.le_add_left n 0

theorem delivered_eq : ∀ {p : ReadPhase}, p.inFlight = false → p.delivered = p.settled
  | .returned _ _, _ => rfl

end ReadPhase

namespace SharedBudget

variable {limit : ℕ} {b : SharedBudget limit} {k : ℕ} {p p' : ReadPhase}

/-- What a phase says about the budget. -/
def Fits (b : SharedBudget limit) : ReadPhase → Prop
  | .waiting _ channel =>
    channel ≤ b.changed ∧ (channel = b.changed → limit ≤ b.used + b.reserved ∧ b.reserved ≠ 0)
  | .returned _ (some .bodyBudget) => b.used = limit
  | _ => True

structure Accounted (b : SharedBudget limit) : Prop where
  reserved : b.reserved = total ReadPhase.held b.reads
  used : b.used = total ReadPhase.settled b.reads
  bound : b.used + b.reserved ≤ limit
  fits : ∀ k p, b.reads.lookup k = some p → b.Fits p

namespace Accounted

variable (h : b.Accounted)
include h

theorem move (hk : b.reads.lookup k = some p) (hh : p'.held = p.held) (hs : p'.settled = p.settled)
    (hf : b.Fits p') : (b.move k p').Accounted where
  reserved := by
    have ht := total_replace (f := ReadPhase.held) hk p'
    rw [hh] at ht
    exact h.reserved.trans (add_right_cancel ht).symm
  used := by
    have ht := total_replace (f := ReadPhase.settled) hk p'
    rw [hs] at ht
    exact h.used.trans (add_right_cancel ht).symm
  bound := h.bound
  fits := forall_insert h.fits hf

theorem call (hk : b.reads.lookup k = none) (hh : p.held = 0) (hs : p.settled = 0) (hf : b.Fits p) :
    (b.move k p).Accounted where
  reserved := by
    change _ = total _ (b.reads.insert k p)
    rw [total_insert_new hk, hh, zero_add]
    exact h.reserved
  used := by
    change _ = total _ (b.reads.insert k p)
    rw [total_insert_new hk, hs, zero_add]
    exact h.used
  bound := h.bound
  fits := forall_insert h.fits hf

theorem reserve {size : ℕ} (hk : b.reads.lookup k = some (.reserving size)) : (b.reserve k size).Accounted := by
  have hb := h.bound
  rw [SharedBudget.reserve]
  split_ifs with hfr hr
  · refine ⟨?_, ?_, ?_, forall_insert ?_ trivial⟩
    · have ht := total_replace (f := ReadPhase.held) hk (.reserved (min size (limit - b.used - b.reserved)))
      exact (congrArg (· + _) h.reserved).trans ht.symm
    · have ht := total_replace (f := ReadPhase.settled) hk (.reserved (min size (limit - b.used - b.reserved)))
      exact h.used.trans (add_right_cancel ht).symm
    · change b.used + (b.reserved + min size (limit - b.used - b.reserved)) ≤ limit
      omega
    · intro k' p' hp
      have hf := h.fits k' p' hp
      -- nobody waits on the open channel while something is free
      unfold Fits at hf ⊢
      split at hf
      · exact ⟨hf.1, fun hc => absurd (hf.2 hc).1 (by omega)⟩
      · exact hf
      · trivial
  · refine h.move hk rfl rfl ?_
    change b.used = limit
    omega
  · refine h.move hk rfl rfl ⟨le_rfl, fun _ => ⟨?_, hr⟩⟩
    omega

theorem settle {amount n : ℕ} {hn : n ≤ amount} {err : Option String}
    (hk : b.reads.lookup k = some (.filled amount n hn err)) : (b.settle k amount n err).Accounted := by
  have hb := h.bound
  have hh := total_replace (f := ReadPhase.held) hk (.returned n (err.map .reader))
  have hs := total_replace (f := ReadPhase.settled) hk (.returned n (err.map .reader))
  rw [← h.reserved] at hh
  rw [← h.used] at hs
  change _ + amount = b.reserved + 0 at hh
  change _ + 0 = b.used + n at hs
  refine ⟨?_, ?_, ?_, forall_insert ?_ ?_⟩
  · exact Nat.sub_eq_of_eq_add hh.symm
  · exact hs.symm
  · change b.used + n + (b.reserved - amount) ≤ limit
    omega
  · intro k' p' hp
    have hf := h.fits k' p' hp
    unfold Fits at hf ⊢
    split at hf
    · exact ⟨hf.1.trans (Nat.le_succ _), fun hc => absurd hf.1 (by rw [hc]; exact Nat.not_succ_le_self _)⟩
    · change b.used + n = limit
      omega
    · trivial
  · cases err with
    | none | some e => trivial

theorem step (a : ReadAction) : (b.step a).Accounted := by
  cases a with
  | call k size =>
    rw [SharedBudget.step]
    split_ifs with hk hs
    · exact h.call hk rfl rfl trivial
    · exact h.call hk rfl rfl trivial
    · exact h
  | reserve k =>
    rw [SharedBudget.step]
    split
    · next hk => exact h.reserve hk
    · exact h
  | giveUp k =>
    rw [SharedBudget.step]
    split
    · next hk => exact h.move hk rfl rfl trivial
    · next hk => exact h.move hk rfl rfl trivial
    · exact h
  | wake k =>
    rw [SharedBudget.step]
    split
    · next hk =>
      split_ifs
      · exact h
      · exact h.move hk rfl rfl trivial
    · exact h
  | fill k n err =>
    rw [SharedBudget.step]
    split
    · next hk =>
      split_ifs
      · exact h.move hk rfl rfl trivial
      · exact h
    · exact h
  | settle k =>
    rw [SharedBudget.step]
    split
    · next hk => exact h.settle hk
    · exact h

theorem delivered_le : total ReadPhase.delivered b.reads ≤ b.used + b.reserved := by
  calc total ReadPhase.delivered b.reads
      ≤ total (fun p => p.held + p.settled) b.reads := total_le_total ReadPhase.delivered_le _
    _ = total ReadPhase.held b.reads + total ReadPhase.settled b.reads := List.sum_map_add
    _ = b.used + b.reserved := by rw [← h.reserved, ← h.used, add_comm]

theorem delivered_eq (hi : ∀ k p, b.reads.lookup k = some p → p.inFlight = false) :
    total ReadPhase.delivered b.reads = b.used := by
  rw [h.used, total, total]
  congr 1
  apply List.map_congr_left
  rintro ⟨k, p⟩ hp
  exact ReadPhase.delivered_eq (hi k p (mem_entries.mp hp))

end Accounted

theorem accounted_run (actions : List ReadAction) : (actions.foldl step ({} : SharedBudget limit)).Accounted := by
  refine List.foldlRecOn actions step ⟨rfl, rfl, Nat.zero_le _, nofun⟩ ?_
  exact fun _ h a _ => h.step a

/-- However reads interleave, they deliver no more than the limit. A read fails for want of budget only when
the limit is used up. -/
theorem reads_keep_budget (limit : ℕ) (actions : List ReadAction) :
    let b := actions.foldl step ({} : SharedBudget limit)
    b.used + b.reserved ≤ limit ∧ total ReadPhase.delivered b.reads ≤ limit ∧
      ((∀ k p, b.reads.lookup k = some p → p.inFlight = false) → total ReadPhase.delivered b.reads = b.used) ∧
      (∀ k n, b.reads.lookup k = some (.returned n (some .bodyBudget)) → b.used = limit) ∧
      ∀ k size, b.reads.lookup k = some (.waiting size b.changed) →
        ¬ 0 < limit - b.used - b.reserved ∧ b.reserved ≠ 0 := by
  intro b
  have h : b.Accounted := accounted_run actions
  refine ⟨h.bound, h.delivered_le.trans h.bound, h.delivered_eq, fun k n hk => h.fits k _ hk, ?_⟩
  intro k size hk
  obtain ⟨hf, hr⟩ := (h.fits k _ hk).2 rfl
  exact ⟨by omega, hr⟩

end SharedBudget

end ClashSubParser
