import ClashSubParser.SchedulerCompletion

/-! Manual priority: manual tasks stand at the front of every queue, in the order in which they came. -/
namespace ClashSubParser

open List AssocTotals ProbeScheduler List.Sublist

namespace ProbeScheduler

variable {s s' : ProbeScheduler} {task t : ProbeTask}

theorem filter_isManual_initial {q : List ProbeTask} (h : ManualFirst q) : (q.filter fun t => t.IsManual) <+: q := by
  obtain ⟨p, r, rfl, hp, hr⟩ := exists_split_of_manualFirst h
  have hl : p.filter (fun t => t.IsManual) = p := filter_eq_self.mpr fun t ht => decide_eq_true (hp t ht)
  have hri : r.filter (fun t => t.IsManual) = [] :=
    filter_eq_nil_iff.mpr fun t ht => by simpa using hr t ht
  rw [filter_append, hl, hri, append_nil]
  exact prefix_append p r

theorem manualFront_of_mem {run : String} (hf : ManualFirst (s.queue run)) (ht : t ∈ s.queue run)
    (hm : t.IsManual) : s.manualFront run = true := by
  rw [manualFront]
  cases hq : s.queue run with
  | nil =>
    rw [hq] at ht
    contradiction
  | cons u rest =>
    rw [hq] at ht hf
    apply decide_eq_true
    rcases mem_cons.mp ht with rfl | hr
    · exact hm
    · exact (pairwise_cons.mp hf).1 t hr hm

theorem isManual_nextEligibleLocked (hli : Listed s.runOrder s.queue) (hfs : ∀ run, ManualFirst (s.queue run))
    (h : s.nextEligibleLocked = some (task, s')) {run : String} (ht : t ∈ s.queue run) (hm : t.IsManual) :
    task.IsManual := by
  have hr : run ∈ s.runOrder := (hli.mem_iff run).mpr (ne_nil_of_mem ht)
  rw [nextEligibleLocked] at h
  cases hfind : s.runOrder.findIdx? s.manualFront with
  | none =>
    have hn := findIdx?_eq_none_iff.mp hfind run hr
    rw [manualFront_of_mem (hfs run) ht hm] at hn
    contradiction
  | some i =>
    rw [hfind] at h
    obtain ⟨rest, hq, -⟩ := takeFront_eq_some h
    obtain ⟨hi, hf, -⟩ := findIdx?_eq_some_iff_getElem.mp hfind
    rw [getD_eq_getElem?_getD, getElem?_eq_getElem hi, Option.getD_some] at hq
    rw [manualFront, hq] at hf
    exact of_decide_eq_true hf

end ProbeScheduler

def SchedulerEvent.manualCall (run : String) : SchedulerEvent → Option ℕ
  | .enqueued task => if task.IsManual ∧ task.runID = run then some task.call else none
  | _ => none

def SchedulerEvent.dispatchedCall (run : String) : SchedulerEvent → Option ℕ
  | .dispatched task => if task.runID = run then some task.call else none
  | _ => none

namespace SchedulerSystem

open SchedulerEvent

def manualCalls (σ : SchedulerSystem) (run : String) : List ℕ := σ.history.filterMap (manualCall run)

def dispatchedCalls (σ : SchedulerSystem) (run : String) : List ℕ := σ.history.filterMap (dispatchedCall run)

def manualPart (calls : List ℕ) (q : List ProbeTask) : List ℕ := (q.map (·.call)).filter (· ∈ calls)

/-- The manual tasks of a run that are dispatched or queued are in the order of their submission. -/
structure InOrder (σ : SchedulerSystem) : Prop where
  sorted : ∀ run, List.Sublist ((σ.dispatchedCalls run).filter (· ∈ σ.manualCalls run) ++
    manualPart (σ.manualCalls run) (σ.sched.queue run)) (σ.manualCalls run)
  manual : ∀ run, ∀ t ∈ σ.sched.queue run, t.call ∈ σ.manualCalls run → t.IsManual
  known : ∀ run, ∀ call ∈ σ.dispatchedCalls run, call ∈ callsOf enqueuedCall σ.history

variable {σ σ' : SchedulerSystem}

section

variable {e : SchedulerEvent} (hhistory : σ'.history = σ.history ++ [e]) (run : String)
include hhistory

theorem manualCalls_concat : σ'.manualCalls run = σ.manualCalls run ++ (manualCall run e).toList := by
  rw [manualCalls, hhistory, filterMap_append, manualCalls]
  cases h : manualCall run e with
  | none => rw [filterMap_cons_none h, filterMap_nil, Option.toList_none]
  | some call => rw [filterMap_cons_some h, filterMap_nil, Option.toList_some]

theorem dispatchedCalls_concat : σ'.dispatchedCalls run = σ.dispatchedCalls run ++ (dispatchedCall run e).toList := by
  rw [dispatchedCalls, hhistory, filterMap_append, dispatchedCalls]
  cases h : dispatchedCall run e with
  | none => rw [filterMap_cons_none h, filterMap_nil, Option.toList_none]
  | some call => rw [filterMap_cons_some h, filterMap_nil, Option.toList_some]

end

theorem manualCalls_sublist (σ : SchedulerSystem) (run : String) :
    (σ.manualCalls run).Sublist (σ.history.filterMap enqueuedCall) := by
  rw [manualCalls]
  induction σ.history with
  | nil => exact refl _
  | cons e history ih =>
    cases e with
    | enqueued task =>
      have hc : (SchedulerEvent.enqueued task :: history).filterMap enqueuedCall =
          task.call :: history.filterMap enqueuedCall := rfl
      by_cases hm : task.IsManual ∧ task.runID = run
      · have hs : manualCall run (.enqueued task) = some task.call := if_pos hm
        rw [filterMap_cons_some hs]
        exact ih.cons_cons _
      · have hn : manualCall run (.enqueued task) = none := if_neg hm
        rw [filterMap_cons_none hn]
        exact ih.cons _
    | _ => exact ih

section

variable {calls : List ℕ} {q : List ProbeTask}

theorem manualPart_promotedQueue_sublist (task : ProbeTask) (hm : ∀ t ∈ q, t.call ∈ calls → t.IsManual) :
    (manualPart calls (promotedQueue task q)).Sublist (manualPart calls q) := by
  have hpr : ((q.filter fun t => Promotes task t).map promoted).map (·.call) =
      (q.filter fun t => Promotes task t).map (·.call) := by rw [map_map]; rfl
  have hn {p : List ProbeTask} (hp : ∀ t ∈ p, t ∈ q ∧ ¬t.IsManual) :
      (p.map (·.call)).filter (fun call => decide (call ∈ calls)) = [] := by
    rw [filter_eq_nil_iff]
    intro call hc
    obtain ⟨t, ht, rfl⟩ := mem_map.mp hc
    rw [decide_eq_true_eq]
    exact fun hme => (hp t ht).2 (hm t (hp t ht).1 hme)
  have hmv := hn (p := q.filter fun t => Promotes task t) fun t ht =>
    ⟨mem_of_mem_filter ht, (of_decide_eq_true (mem_filter.mp ht).2).2.2⟩
  have hb := hn (p := promotedBack task q) fun t ht =>
    ⟨mem_of_mem_filter ht, not_isManual_promotedBack ht⟩
  rw [manualPart, manualPart, promotedQueue, promotedFront, map_append, map_append, hpr,
    filter_append, filter_append, hmv, hb, append_nil, append_nil]
  exact (filter_sublist.map _).filter _

theorem isManual_promotedQueue (task : ProbeTask) (hm : ∀ t ∈ q, t.call ∈ calls → t.IsManual) :
    ∀ t ∈ promotedQueue task q, t.call ∈ calls → t.IsManual := by
  intro t ht hc
  obtain ⟨u, hu, heq, -⟩ := exists_of_mem_promotedQueue ht
  rcases heq with rfl | rfl
  · exact hm t hu hc
  · rfl

end

section

theorem InOrder.of_queue (h : σ.InOrder) (hm : ∀ run, σ'.manualCalls run = σ.manualCalls run)
    (hd : ∀ run, σ'.dispatchedCalls run = σ.dispatchedCalls run)
    (he : callsOf enqueuedCall σ.history ⊆ callsOf enqueuedCall σ'.history)
    (hp : ∀ run, (manualPart (σ.manualCalls run) (σ'.sched.queue run)).Sublist
      (manualPart (σ.manualCalls run) (σ.sched.queue run)))
    (hk : ∀ run, ∀ t ∈ σ'.sched.queue run, t.call ∈ σ.manualCalls run → t.IsManual) : σ'.InOrder := by
  refine ⟨fun run => ?_, fun run => ?_, fun run => ?_⟩
  · rw [hm, hd]
    exact ((refl _).append (hp run)).trans (h.sorted run)
  · rw [hm]
    exact hk run
  · rw [hd]
    exact fun call hc => he (h.known run call hc)

def QuietHistory (σ σ' : SchedulerSystem) : Prop :=
  ∃ events, σ'.history = σ.history ++ events ∧
    ∀ e ∈ events, ∀ run, manualCall run e = none ∧ dispatchedCall run e = none

theorem QuietHistory.of_eq (h : σ'.history = σ.history) : QuietHistory σ σ' :=
  ⟨[], by rw [h, append_nil], by simp⟩

theorem InOrder.of_quiet (h : σ.InOrder) (hev : QuietHistory σ σ')
    (hp : ∀ run, (manualPart (σ.manualCalls run) (σ'.sched.queue run)).Sublist
      (manualPart (σ.manualCalls run) (σ.sched.queue run)))
    (hk : ∀ run, ∀ t ∈ σ'.sched.queue run, t.call ∈ σ.manualCalls run → t.IsManual) : σ'.InOrder := by
  obtain ⟨events, hhistory, hn⟩ := hev
  apply h.of_queue _ _ _ hp hk
  · intro run
    rw [manualCalls, hhistory, filterMap_append, filterMap_eq_nil_iff.mpr fun e he => (hn e he run).1,
      append_nil, manualCalls]
  · intro run
    rw [dispatchedCalls, hhistory, filterMap_append,
      filterMap_eq_nil_iff.mpr fun e he => (hn e he run).2, append_nil, dispatchedCalls]
  · exact callsOf_subset hhistory

theorem InOrder.taken (h : σ.InOrder) (he : QuietHistory σ σ')
    (hqu : ∀ run, (σ'.sched.queue run).Sublist (σ.sched.queue run)) : σ'.InOrder :=
  h.of_quiet he (fun run => ((hqu run).map _).filter _) fun run t ht => h.manual run t ((hqu run).subset ht)

/-- A queued task was put there by a call of `submit`. -/
theorem mem_enqueued_of_mem_queue (hle : σ.Ledger) {run : String} {t : ProbeTask} (ht : t ∈ σ.sched.queue run) :
    t.call ∈ callsOf enqueuedCall σ.history := by
  rw [hle.handed, owed]
  have hc : t ∈ σ.sched.content := mem_content.mpr ⟨run, ht⟩
  have hm : t.call ∈ σ.sched.content.map (·.call) := Multiset.mem_map_of_mem _ hc
  simp only [Multiset.mem_add]
  exact .inl (.inl (.inl (.inl hm)))

theorem not_mem_enqueued_of_lookup (hle : σ.Ledger) {call : ℕ} {sub : Submission}
    (hs : σ.submissions.lookup call = some sub) : sub.task.call ∉ callsOf enqueuedCall σ.history := by
  have hnd := hle.once
  rw [allCalls, openCalls_dropSubmission hs] at hnd
  simp only [Multiset.nodup_add] at hnd
  exact Multiset.disjoint_left.mp hnd.1.1.2.2
    (Multiset.mem_add.mpr (.inr (Multiset.mem_singleton_self _)))

section

variable {task : ProbeTask} {calls : List ℕ} {q : List ProbeTask}

theorem manualPart_concat (hc : task.call ∉ calls) : manualPart calls (q ++ [task]) = manualPart calls q := by
  simp [manualPart, hc]

theorem manualPart_concat_calls {call : ℕ} (hca : ∀ t ∈ q, t.call ≠ call) :
    manualPart (calls ++ [call]) q = manualPart calls q := by
  apply filter_congr
  intro c hc
  obtain ⟨t, ht, rfl⟩ := mem_map.mp hc
  simp [hca t ht]

theorem manualPart_insertManual (hf : ManualFirst q) (hm : ∀ t ∈ q, t.call ∈ calls → t.IsManual)
    (hca : ∀ t ∈ q, t.call ≠ task.call) :
    manualPart (calls ++ [task.call]) (insertManual task q) = manualPart calls q ++ [task.call] := by
  obtain ⟨p, r, rfl, hp, hr⟩ := exists_split_of_manualFirst hf
  have hn : manualPart calls r = [] := by
    rw [manualPart, filter_eq_nil_iff]
    intro c hc
    obtain ⟨t, ht, rfl⟩ := mem_map.mp hc
    rw [decide_eq_true_eq]
    exact fun hme => hr t ht (hm t (mem_append_right p ht) hme)
  have ha (calls : List ℕ) (p r : List ProbeTask) :
      manualPart calls (p ++ r) = manualPart calls p ++ manualPart calls r := by
    rw [manualPart, map_append, filter_append, manualPart, manualPart]
  have hta : manualPart (calls ++ [task.call]) [task] = [task.call] := by simp [manualPart]
  have hs : p ++ task :: r = p ++ ([task] ++ r) := rfl
  rw [insertManual_append hp hr, hs, ha, ha, ha, hta, hn, append_nil,
    manualPart_concat_calls fun t ht => hca t (mem_append_left r ht),
    manualPart_concat_calls fun t ht => hca t (mem_append_right p ht), hn, append_nil]

end

section

variable {call : ℕ} {sub : Submission} {sched : ProbeScheduler} {old : List ProbeTask}

theorem promoted_in_order (hsd : σ.Sound) (h : σ.InOrder) (nodes : FiniteMap String ActiveRecord) (task : ProbeTask)
    (run : String) :
    (manualPart (σ.manualCalls run) (((σ.sched.withNodes nodes).promoteQueued task).1.queue run)).Sublist
        (manualPart (σ.manualCalls run) (σ.sched.queue run)) ∧
      ∀ t ∈ ((σ.sched.withNodes nodes).promoteQueued task).1.queue run,
        (t.call ∈ σ.manualCalls run → t.IsManual) ∧ ∃ u ∈ σ.sched.queue run, t.call = u.call := by
  rw [queue_promoteQueued (s := σ.sched.withNodes nodes) hsd.first]
  split_ifs
  · exact ⟨refl _, fun t ht => ⟨h.manual run t ht, t, ht, rfl⟩⟩
  · refine ⟨manualPart_promotedQueue_sublist task (h.manual run), fun t ht => ?_⟩
    refine ⟨isManual_promotedQueue task (h.manual run) t ht, ?_⟩
    obtain ⟨u, hu, heq, -⟩ := exists_of_mem_promotedQueue ht
    refine ⟨u, hu, ?_⟩
    rcases heq with rfl | rfl <;> rfl

variable (h : σ.InOrder)
include h

theorem InOrder.submitted {task : ProbeTask} {attempt : Attempt} (hsd : σ.Sound)
    (hsu : Submitted σ.sched task attempt sched old) (ha : attempt ≠ .enqueued) (hs : σ'.sched = sched)
    (he : QuietHistory σ σ') : σ'.InOrder := by
  have hsa (hqu : ∀ run, sched.queue run = σ.sched.queue run) : σ'.InOrder := by
    apply h.taken he
    intro run
    rw [hs, hqu]
  cases hsu with
  | failed | skipped | full => exact hsa fun _ => rfl
  | strict | periodic | manual => contradiction
  | @fullManual nodes =>
    have hp := promoted_in_order hsd h nodes task
    rw [← hs] at hp
    exact h.of_quiet he (fun run => (hp run).1) fun run t ht => ((hp run).2 t ht).1

theorem InOrder.appended {s : ProbeScheduler} (hle : σ.Ledger)
    (hsu : σ.submissions.lookup call = some sub) (hmo : ¬sub.task.IsManual)
    (hs : σ'.sched = s.appendTask sub.task) (hqu : ∀ run, s.queue run = σ.sched.queue run)
    (hhistory : σ'.history = σ.history ++ [.enqueued sub.task]) : σ'.InOrder := by
  have hfr := not_mem_enqueued_of_lookup hle hsu
  have hn (run : String) : sub.task.call ∉ σ.manualCalls run := fun hm =>
    hfr ((manualCalls_sublist σ run).subset hm)
  apply h.of_queue
  · intro run
    rw [manualCalls_concat hhistory]
    simp [manualCall, hmo]
  · intro run
    rw [dispatchedCalls_concat hhistory]
    simp [dispatchedCall]
  · exact callsOf_subset hhistory
  · intro run
    rw [hs, queue_appendTask, hqu]
    split_ifs
    · rw [manualPart_concat (hn run)]
    · exact refl _
  · intro run t ht
    rw [hs, queue_appendTask, hqu] at ht
    split_ifs at ht
    · rcases mem_append.mp ht with ht | ht
      · exact h.manual run t ht
      · rw [mem_singleton.mp ht]
        exact fun hm => absurd hm (hn run)
    · exact h.manual run t ht

theorem InOrder.inserted {nodes : FiniteMap String ActiveRecord} {s : ProbeScheduler} (hsd : σ.Sound)
    (hle : σ.Ledger) (hsu : σ.submissions.lookup call = some sub) (hmo : sub.task.IsManual)
    (hs : σ'.sched = s.insertTask sub.task)
    (hqu : ∀ run, s.queue run = ((σ.sched.withNodes nodes).promoteQueued sub.task).1.queue run)
    (hhistory : σ'.history = σ.history ++ [.enqueued sub.task]) : σ'.InOrder := by
  have hfr := not_mem_enqueued_of_lookup hle hsu
  have hd (run : String) : σ'.dispatchedCalls run = σ.dispatchedCalls run := by
    rw [dispatchedCalls_concat hhistory]
    simp [dispatchedCall]
  have hcs (run : String) : σ'.manualCalls run =
      if run = sub.task.runID then σ.manualCalls run ++ [sub.task.call] else σ.manualCalls run := by
    rw [manualCalls_concat hhistory]
    split_ifs with hr
    · simp [manualCall, hmo, hr]
    · simp [manualCall, Ne.symm hr]
  have hp := promoted_in_order hsd h nodes sub.task
  have hf (run : String) : ManualFirst (s.queue run) := by
    rw [hqu]
    exact manualFirst_promoteQueued (s := σ.sched.withNodes nodes) hsd.first sub.task run
  have ho (run : String) (t : ProbeTask) (ht : t ∈ s.queue run) : t.call ≠ sub.task.call := by
    rw [hqu] at ht
    obtain ⟨-, u, hu, heq⟩ := (hp run).2 t ht
    rw [heq]
    intro he'
    exact hfr (he' ▸ mem_enqueued_of_mem_queue hle hu)
  have hm (run : String) (t : ProbeTask) (ht : t ∈ s.queue run) : t.call ∈ σ.manualCalls run → t.IsManual := by
    rw [hqu] at ht
    exact ((hp run).2 t ht).1
  have hpa (run : String) : (manualPart (σ.manualCalls run) (s.queue run)).Sublist
      (manualPart (σ.manualCalls run) (σ.sched.queue run)) := by
    rw [hqu]
    exact (hp run).1
  refine ⟨fun run => ?_, fun run t ht => ?_, fun run c hc => ?_⟩
  · rw [hcs, hd, hs, queue_insertTask]
    split_ifs
    · have hol : (σ.dispatchedCalls run).filter (· ∈ σ.manualCalls run ++ [sub.task.call]) =
          (σ.dispatchedCalls run).filter (· ∈ σ.manualCalls run) := by
        apply filter_congr
        intro c hc
        have hne : c ≠ sub.task.call := by
          rintro rfl
          exact hfr (h.known run _ hc)
        simp [hne]
      rw [hol, manualPart_insertManual (hf run) (hm run) (ho run), ← append_assoc]
      exact (((refl _).append (hpa run)).trans (h.sorted run)).append (refl _)
    · exact ((refl _).append (hpa run)).trans (h.sorted run)
  · rw [hs, queue_insertTask] at ht
    rw [hcs]
    split_ifs at ht ⊢
    · rcases mem_insertManual.mp ht with rfl | ht
      · exact fun _ => hmo
      · rw [mem_append, mem_singleton]
        exact fun hme => hm run t ht (hme.resolve_right (ho run t ht))
    · exact hm run t ht
  · rw [hd] at hc
    exact callsOf_subset hhistory (h.known run c hc)

theorem InOrder.enqueued (hsd : σ.Sound) (hle : σ.Ledger)
    (hs : σ.submissions.lookup call = some sub) (hse : Submitted σ.sched sub.task .enqueued sched old)
    (hsc : σ'.sched = sched) (hhistory : σ'.history = σ.history ++ [.enqueued sub.task]) : σ'.InOrder := by
  cases hse with
  | strict _ _ hm | periodic _ _ hm => exact h.appended hle hs hm hsc (fun _ => rfl) hhistory
  | manual _ _ hm => exact h.inserted hsd hle hs hm hsc (fun _ => rfl) hhistory

end

theorem InOrder.dispatched {task : ProbeTask} {execID : ℕ} {sched : ProbeScheduler} (h : σ.InOrder) (hsd : σ.Sound)
    (hle : σ.Ledger) (hdi : σ.sched.dispatchLocked = some (task, execID, sched)) (hs : σ'.sched = sched)
    (hhistory : σ'.history = σ.history ++ [.dispatched task]) : σ'.InOrder := by
  obtain ⟨run', rest, hr', hqu⟩ := queue_dispatchLocked hdi
  have hta : task ∈ σ.sched.queue run' := by
    rw [hr']
    exact mem_cons_self
  have ho : task.runID = run' := hsd.own run' task hta
  have hcs (run : String) : σ'.manualCalls run = σ.manualCalls run := by
    rw [manualCalls_concat hhistory]
    simp [manualCall]
  have hd (run : String) : σ'.dispatchedCalls run =
      if run = run' then σ.dispatchedCalls run ++ [task.call] else σ.dispatchedCalls run := by
    rw [dispatchedCalls_concat hhistory]
    split_ifs with hr
    · simp [dispatchedCall, ho, hr]
    · have hn : task.runID ≠ run := fun heq => hr (heq.symm.trans ho)
      simp [dispatchedCall, hn]
  refine ⟨fun run => ?_, fun run t ht => ?_, fun run c hc => ?_⟩
  · rw [hcs, hd, hs, hqu]
    split_ifs with hr
    · -- the task changes from the queue to the dispatched ones, behind all of these
      have hso := h.sorted run
      rw [hr, hr'] at hso
      have hm : manualPart (σ.manualCalls run') (task :: rest) =
          [task.call].filter (· ∈ σ.manualCalls run') ++ manualPart (σ.manualCalls run') rest := by
        rw [manualPart, map_cons, ← singleton_append, filter_append, manualPart]
      rw [hm, ← append_assoc, ← filter_append] at hso
      rw [hr]
      exact hso
    · exact h.sorted run
  · rw [hs, hqu] at ht
    rw [hcs]
    split_ifs at ht with hr
    · apply h.manual run
      rw [hr, hr']
      exact mem_cons_of_mem task ht
    · exact h.manual run t ht
  · apply callsOf_subset hhistory
    rw [hd] at hc
    split_ifs at hc
    · rcases mem_append.mp hc with hc | hc
      · exact h.known run c hc
      · rw [mem_singleton.mp hc]
        exact mem_enqueued_of_mem_queue hle hta
    · exact h.known run c hc

theorem Moves.inOrder {action : SchedulerAction} (hm : Moves σ action σ') (hsd : σ.Sound) (hle : σ.Ledger)
    (h : σ.InOrder) : σ'.InOrder := by
  have hq (e : SchedulerEvent) (he : ∀ run, manualCall run e = none ∧ dispatchedCall run e = none)
      (hhistory : σ'.history = σ.history ++ [e]) : QuietHistory σ σ' :=
    ⟨[e], hhistory, fun e' he' => mem_singleton.mp he' ▸ he⟩
  cases hm with
  | enqueued hsu _ hs => exact h.enqueued hsd hle hsu hs rfl rfl
  | skipped _ _ hs | waits _ _ hs => exact h.submitted hsd hs (by simp) rfl (.of_eq rfl)
  | refused _ _ hs ha =>
    exact h.submitted hsd hs ha rfl (hq _ (fun _ => ⟨rfl, rfl⟩) rfl)
  | abandons | skipCalls | skipReturns | executes | calls | callReturns | drainReturns =>
    exact h.taken (hq _ (fun _ => ⟨rfl, rfl⟩) rfl) fun _ => refl _
  | dispatched _ hd => exact h.dispatched hsd hle hd rfl rfl
  | @cancels runID now =>
    refine h.taken (.of_eq rfl) fun run => ?_
    rw [queue_cancelRun]
    split_ifs
    · exact nil_sublist _
    · exact refl _
  | @closes now =>
    refine h.taken (.of_eq rfl) fun run => ?_
    cases ho : σ.sched.closed with
    | true => rw [ProbeScheduler.close, if_pos ho]
    | false =>
      rw [close_eq ho]
      exact nil_sublist _
  | @reorders queues nodes hqs hns =>
    refine h.taken (.of_eq rfl) fun run => ?_
    have hqu : ({ σ.sched with queues := queues, activeNodes := nodes } : ProbeScheduler).queue run =
        σ.sched.queue run := congrArg (·.getD []) (AList.perm_lookup hqs)
    rw [hqu]
  | _ => exact h.taken (.of_eq rfl) fun _ => refl _

end

theorem Reachable.inOrder {cfg : SchedulerConfig} (h : Reachable cfg σ) : σ.Sound ∧ σ.Ledger ∧ σ.InOrder := by
  obtain ⟨s, hn, actions, he⟩ := h
  have hi : ({ sched := s } : SchedulerSystem).InOrder := by
    obtain ⟨-, -, rfl, -, -⟩ := newScheduler_eq_ok hn
    exact ⟨fun run => refl _, fun run t ht => absurd ht not_mem_nil,
      fun run call hc => absurd hc not_mem_nil⟩
  refine exec_induction (P := fun σ => σ.Sound ∧ σ.Ledger ∧ σ.InOrder) ?_
    ⟨sound_newScheduler hn, ledger_newScheduler hn, hi⟩ he
  intro σ action σ' ⟨hsd, hle, ho⟩ hm
  exact ⟨hm.sound hsd, hm.ledger hsd hle, hm.inOrder hsd hle ho⟩

/-- The manual tasks are a front part of every queue, no other task is taken while one is queued, and those
submitted for a run are dispatched in the order of their submission. -/
theorem manual_priority {cfg : SchedulerConfig} (h : Reachable cfg σ) :
    (∀ run, (σ.sched.queue run).filter (fun t => t.IsManual) <+: σ.sched.queue run) ∧
    (∀ task sched, σ.sched.nextEligibleLocked = some (task, sched) → ¬task.IsManual →
      ∀ run, ∀ t ∈ σ.sched.queue run, ¬t.IsManual) ∧
    ∀ run, (σ.manualCalls run).Nodup ∧
      ((σ.dispatchedCalls run).filter (· ∈ σ.manualCalls run)).Sublist (σ.manualCalls run) := by
  obtain ⟨hsd, hle, ho⟩ := h.inOrder
  refine ⟨fun run => filter_isManual_initial (hsd.first run), ?_, fun run => ⟨?_, ?_⟩⟩
  · intro task sched hn hot run t ht hm
    exact hot (isManual_nextEligibleLocked hsd.books.listed hsd.first hn ht hm)
  · exact hle.nodup_enqueued.sublist (manualCalls_sublist σ run)
  · exact (sublist_append_left _ _).trans (ho.sorted run)

/-- A strict task that a manual one of another run promotes is dispatched between two manual ones. -/
theorem manual_priority_promoted : ∃ σ, Reachable {} σ ∧ σ.dispatchedCalls "a" = [1, 0, 3] ∧
    ((σ.dispatchedCalls "a").filter (· ∈ σ.manualCalls "a")).Sublist (σ.manualCalls "a") := by
  have hru : ∃ σ, exec { sched := defaultScheduler }
      [.submit "a" "n1" "speed" .strictConflict false, .attempt 0 0, .submit "a" "n2" "speed" .manualPreemptFront false,
        .attempt 1 0, .submit "b" "n1" "delay" .manualPreemptFront false, .attempt 2 0,
        .submit "a" "n3" "speed" .manualPreemptFront false, .attempt 3 0, .dispatch, .dispatch,
        .dispatch] = some σ ∧ σ.dispatchedCalls "a" = [1, 0, 3] := ⟨_, rfl, rfl⟩
  obtain ⟨σ, he, hcs⟩ := hru
  have hr : Reachable {} σ := ⟨_, newScheduler_default, _, he⟩
  exact ⟨σ, hr, hcs, ((manual_priority hr).2.2 "a").2⟩

end SchedulerSystem

end ClashSubParser
