import ClashSubParser.SchedulerAccounting

/-! Deduplication: a node is queued at most once for each kind. -/
namespace ClashSubParser

open List AssocTotals ProbeScheduler ProbeTask

def ProbeTask.target (t : ProbeTask) : String × String := (t.logicalID, t.kind)

namespace ProbeScheduler

variable {s s' : ProbeScheduler} {task t : ProbeTask} {old : List ProbeTask}

theorem key_eq_of_target_eq (h : t.target = task.target) : t.key = task.key := by
  obtain ⟨hid, hk⟩ := Prod.mk.inj h
  rw [key, key, hid, hk]

theorem target_not_mem_of_record (hbk : s.Books) {nodes : FiniteMap String ActiveRecord}
    (hpr : Pruned s.activeNodes nodes) (hfr : nodes.lookup task.key = none) (ht : t ∈ s.content) :
    t.target ≠ task.target := by
  intro heq
  have hh := (hpr.held hbk.held task.key).2
  rw [hfr] at hh
  have hm : task.key ∈ s.content.map key + s.probing.map key := by
    rw [← key_eq_of_target_eq heq]
    exact Multiset.mem_add.mpr (.inl (Multiset.mem_map_of_mem _ ht))
  have ha := hh.mpr hm
  contradiction

theorem target_not_mem_of_pool (hid : task.logicalID ≠ "") (hp : s.isNodeInPoolForPeriodicLocked task = false)
    (ht : t ∈ s.content) : t.target ≠ task.target := by
  intro heq
  obtain ⟨hti, hk⟩ := Prod.mk.inj heq
  have hin : inPoolFor task t = true := by
    exact decide_eq_true ⟨hti, .inr (.inr hk)⟩
  rw [← coe_pending, Multiset.mem_coe, mem_flatMap] at ht
  obtain ⟨e, he, ht⟩ := ht
  have hfd : s.isNodeInPoolForPeriodicLocked task = true := by
    apply decide_eq_true
    exact ⟨hid, .inr (any_eq_true.mpr ⟨e, he, any_eq_true.mpr ⟨t, ht, hin⟩⟩)⟩
  rw [hp] at hfd
  contradiction

theorem target_not_mem_promoteQueued {now : Time} (hf : ∀ run, ManualFirst (s.queue run))
    (hc : s.sameRunConflict now task = false) (ht : t ∈ (s.promoteQueued task).1.content) :
    t.target ≠ task.target := by
  intro heq
  obtain ⟨hid, hk⟩ := Prod.mk.inj heq
  obtain ⟨run, ht⟩ := mem_content.mp ht
  rw [queue_promoteQueued hf] at ht
  split_ifs at ht with ho
  · have hfd : s.sameRunConflict now task = true := by
      apply decide_eq_true
      refine ⟨ho.2, .inr (.inr ?_)⟩
      exact any_eq_true.mpr ⟨t, ho.1 ▸ ht, decide_eq_true ⟨hid, hk⟩⟩
    rw [hc] at hfd
    contradiction
  · obtain ⟨u, -, hu, hke⟩ := exists_of_mem_promotedQueue ht
    have htg : u.logicalID = task.logicalID ∧ u.kind = task.kind := by
      rcases hu with rfl | rfl <;> exact ⟨hid, hk⟩
    exact hke ⟨htg.1, decide_eq_true (.inl htg.2)⟩

def Deduplicated (s : ProbeScheduler) : Prop :=
  ∀ id kind, id ≠ "" → (s.content.map ProbeTask.target).count (id, kind) ≤ 1

theorem Deduplicated.of_le (h : s.Deduplicated)
    (hle : s'.content.map target ≤ s.content.map target) : s'.Deduplicated := fun id kind hid =>
  le_trans (Multiset.count_le_of_le _ hle) (h id kind hid)

theorem Deduplicated.cons {rest : Multiset ProbeTask} (h : ∀ id kind, id ≠ "" →
      (rest.map target).count (id, kind) ≤ 1) (hc : s'.content = task ::ₘ rest)
    (hn : task.logicalID ≠ "" → ∀ t ∈ rest, t.target ≠ task.target) : s'.Deduplicated := by
  intro id kind hid
  rw [hc, Multiset.map_cons]
  by_cases heq : (id, kind) = task.target
  · have hta : task.logicalID ≠ "" := (Prod.mk.inj heq).1 ▸ hid
    have hz : (rest.map target).count task.target = 0 := by
      rw [Multiset.count_eq_zero, Multiset.mem_map]
      rintro ⟨t, ht, htg⟩
      exact hn hta t ht htg
    rw [heq, Multiset.count_cons_self, hz]
  · rw [Multiset.count_cons_of_ne heq]
    exact h id kind hid

theorem Submitted.deduplicated {attempt : Attempt} (hs : Submitted s task attempt s' old) (hbk : s.Books)
    (hf : ∀ run, ManualFirst (s.queue run)) (h : s.Deduplicated) : s'.Deduplicated := by
  have hp (nodes : FiniteMap String ActiveRecord) :
      ((s.withNodes nodes).promoteQueued task).1.Deduplicated := by
    apply h.of_le
    have hc := (promotion_withNodes hf nodes task).content (f := target) fun _ => rfl
    rw [← show _ = s.content.map target from hc]
    exact Multiset.le_add_right _ _
  cases hs with
  | failed | skipped | full => exact h
  | @fullManual nodes => exact hp nodes
  | @strict nodes ho hpr hm hr hfr =>
    refine Deduplicated.cons h (content_appendTask _ task) fun _ t ht => ?_
    exact target_not_mem_of_record hbk hpr hfr ht
  | periodic ho hpr hm hr hfr =>
    refine Deduplicated.cons h (content_appendTask _ task) fun hid t ht => ?_
    exact target_not_mem_of_pool hid hfr ht
  | @manual nodes now ho hpr hm hr hfr =>
    refine Deduplicated.cons (hp nodes) (content_insertTask _ task) fun _ t ht => ?_
    exact target_not_mem_promoteQueued (s := s.withNodes nodes) hf hfr ht

end ProbeScheduler

namespace SchedulerSystem

variable {σ σ' : SchedulerSystem}

theorem Moves.deduplicated {action : SchedulerAction} (hm : Moves σ action σ') (hsd : σ.Sound)
    (h : σ.sched.Deduplicated) : σ'.sched.Deduplicated := by
  have ht {sched : ProbeScheduler} {q : Multiset ProbeTask} (hc : sched.content + q = σ.sched.content) :
      sched.Deduplicated := by
    apply h.of_le
    rw [← hc]
    exact Multiset.map_le_map (Multiset.le_add_right _ _)
  cases hm with
  | enqueued _ _ hs | skipped _ _ hs | waits _ _ hs | refused _ _ hs =>
    exact hs.deduplicated hsd.books hsd.first h
  | dispatched _ hd =>
    apply ht
    rw [content_dispatchLocked hd, ← Multiset.singleton_add, add_comm]
    rfl
  | @cancels runID now => exact ht (content_cancelRun σ.sched now runID)
  | @closes now => exact ht (content_close σ.sched now)
  | reorders hqs hns =>
    apply ht (q := 0)
    rw [add_zero]
    exact total_perm _ hqs
  | _ => exact h

/-- Whatever is submitted, dispatched, cancelled or closed, in any mode and order: a node is queued at most
once for a kind. -/
theorem queued_at_most_once {cfg : SchedulerConfig} (h : Reachable cfg σ) {logicalID : String}
    (hid : logicalID ≠ "") (kind : String) :
    σ.sched.content.countP (fun t => t.logicalID = logicalID ∧ t.kind = kind) ≤ 1 := by
  obtain ⟨s, hn, actions, he⟩ := h
  have hi : s.Deduplicated := by
    obtain ⟨-, -, rfl, -, -⟩ := newScheduler_eq_ok hn
    intro id kind _
    exact Nat.zero_le 1
  have ha : σ.Sound ∧ σ.sched.Deduplicated := by
    refine exec_induction (P := fun σ => σ.Sound ∧ σ.sched.Deduplicated) ?_ ⟨sound_newScheduler hn, hi⟩ he
    intro σ action σ' ⟨hsd, h⟩ hm
    exact ⟨hm.sound hsd, hm.deduplicated hsd h⟩
  have hc := ha.2 logicalID kind hid
  rw [Multiset.count, Multiset.countP_map, ← Multiset.countP_eq_card_filter] at hc
  refine le_of_eq_of_le (Multiset.countP_congr rfl fun t _ => ?_) hc
  simp [target, eq_comm]

/-- A manual task takes the place of a strict one of another run. -/
theorem queued_at_most_once_manual : ∃ σ, Reachable {} σ ∧ σ.sched.queue "b" ≠ [] ∧
    σ.sched.content.countP (fun t => t.logicalID = "n1" ∧ t.kind = "speed") ≤ 1 := by
  have hru : ∃ σ, exec { sched := defaultScheduler }
      [.submit "a" "n1" "speed" .strictConflict false, .attempt 0 0, .submit "b" "n1" "speed" .manualPreemptFront false,
        .attempt 1 0] = some σ ∧ σ.sched.queue "b" = [⟨"b", "n1", "speed", .manualPreemptFront, 1⟩] := ⟨_, rfl, rfl⟩
  obtain ⟨σ, he, hqu⟩ := hru
  have hr : Reachable {} σ := ⟨_, newScheduler_default, _, he⟩
  refine ⟨σ, hr, ?_, queued_at_most_once hr (by decide) "speed"⟩
  rw [hqu]
  exact cons_ne_nil _ _

end SchedulerSystem

end ClashSubParser
