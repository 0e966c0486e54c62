import ClashSubParser.SchedulerQueues
import Mathlib

/-! The books of the scheduler: its counters and indexes, as the queued and the probing tasks determine
them. -/
namespace ClashSubParser

open List AssocTotals

namespace ProbeScheduler

def content (s : ProbeScheduler) : Multiset ProbeTask := total (fun q : List ProbeTask => ↑q) s.queues

def probing (s : ProbeScheduler) : Multiset ProbeTask := total (fun t : ProbeTask => {t}) s.probingTasks

section

variable (s : ProbeScheduler)
include s

theorem coe_queue (run : String) :
    (s.queue run : Multiset ProbeTask) = (s.queues.lookup run).elim 0 fun q : List ProbeTask => ↑q := by
  rw [queue]
  cases s.queues.lookup run <;> rfl

theorem queue_setQueue (run run' : String) (q : List ProbeTask) :
    (s.setQueue run q).queue run' = if run' = run then q else s.queue run' := by
  rw [queue, queue, setQueue]
  by_cases hr : run' = run
  · subst hr
    by_cases hq : q = [] <;> simp [hq]
  · rw [if_neg hr]
    by_cases hq : q = []
    · simp [hq, AList.lookup_erase_ne hr]
    · simp [hq, AList.lookup_insert_ne hr]

theorem content_setQueue (run : String) (q : List ProbeTask) :
    (s.setQueue run q).content + s.queue run = s.content + q := by
  rw [coe_queue, content, content, setQueue]
  by_cases hq : q = []
  · subst hq
    rw [if_pos rfl, total_eq_erase _ s.queues run, Multiset.coe_nil, add_zero, add_comm]
  · rw [if_neg hq, total_exchange]

theorem queue_setQueue_map (run : String) (f : List ProbeTask → List ProbeTask) (run' : String) :
    (s.setQueue run (f (s.queue run))).queue run' = if run' = run then f (s.queue run') else s.queue run' := by
  rw [queue_setQueue]
  split_ifs with hr
  · rw [hr]
  · rfl

end

theorem content_setQueue_cons {s : ProbeScheduler} {run : String} {q : List ProbeTask} {task : ProbeTask}
    (hq : (q : Multiset ProbeTask) = task ::ₘ s.queue run) : (s.setQueue run q).content = task ::ₘ s.content := by
  have hs := content_setQueue s run q
  rw [hq, Multiset.add_cons, ← Multiset.cons_add] at hs
  exact Multiset.add_left_inj.mp hs

section

/-- The records count the tasks of every key, and a record is active where there are some. -/
def Held (nodes : FiniteMap String ActiveRecord) (keys : Multiset String) : Prop :=
  ∀ key, ((nodes.lookup key).getD {}).count = keys.count key ∧
    (((nodes.lookup key).getD {}).active = true ↔ key ∈ keys)

variable {nodes : FiniteMap String ActiveRecord} {keys keys' : Multiset String} {key : String}
  {record : ActiveRecord} {s : ProbeScheduler}

theorem Held.insert (h : Held nodes keys) (hc : record.count = keys'.count key)
    (ha : record.active = true ↔ key ∈ keys') (ho : ∀ k, k ≠ key → keys'.count k = keys.count k) :
    Held (nodes.insert key record) keys' := by
  intro k
  by_cases hk : k = key
  · subst hk
    rw [AList.lookup_insert]
    exact ⟨hc, ha⟩
  · rw [AList.lookup_insert_ne hk, ho k hk, ← Multiset.count_pos, ho k hk, Multiset.count_pos]
    exact h k

theorem Held.erase (h : Held nodes keys) (hn : key ∉ keys') (ho : ∀ k, k ≠ key → keys'.count k = keys.count k) :
    Held (nodes.erase key) keys' := by
  intro k
  by_cases hk : k = key
  · subst hk
    simp [hn]
  · rw [AList.lookup_erase_ne hk, ho k hk, ← Multiset.count_pos, ho k hk, Multiset.count_pos]
    exact h k

theorem count_cons_other {k : String} (hk : k ≠ key) : (key ::ₘ keys).count k = keys.count k :=
  Multiset.count_cons_of_ne hk keys

theorem Held.occupy (h : Held s.activeNodes keys) (key runID : String) :
    Held (s.occupy key runID).activeNodes (key ::ₘ keys) := by
  apply h.insert
  · have hc := (h key).1
    rw [Multiset.count_cons_self]
    push_cast
    rw [← hc]
    rfl
  · simp
  · exact fun k hk => count_cons_other hk

theorem Held.release {now : Time} (h : Held nodes (key ::ₘ keys)) (hr : (nodes.lookup key).getD {} = record) :
    Held (nodes.insert key (s.releaseRecord record now)) keys := by
  have hc := (h key).1
  rw [hr, Multiset.count_cons_self] at hc
  push_cast at hc
  apply h.insert
  · rw [releaseRecord]
    split_ifs with hz
    · change (0 : Int) = _
      omega
    · change record.count - 1 = _
      omega
  · rw [← Multiset.count_pos, releaseRecord]
    split_ifs with hz
    · exact iff_of_false not_false (by omega)
    · exact iff_of_true rfl (by omega)
  · exact fun k hk => (count_cons_other hk).symm

theorem Held.releaseQueued {t : ProbeTask} (h : Held s.activeNodes (t.key ::ₘ keys)) :
    Held (s.releaseQueued t).activeNodes keys := by
  obtain ⟨hc, ha⟩ := h t.key
  have hs : ((s.activeNodes.lookup t.key).getD {}).active = true := ha.mpr (Multiset.mem_cons_self _ _)
  rw [Multiset.count_cons_self] at hc
  push_cast at hc
  rw [ProbeScheduler.releaseQueued]
  cases hlk : s.activeNodes.lookup t.key with
  | none => simp [hlk] at hs
  | some r =>
    rw [hlk, Option.getD_some] at hc
    dsimp only
    split_ifs with hz
    · apply h.erase
      · rw [← Multiset.count_eq_zero]
        omega
      · exact fun k hk => (count_cons_other hk).symm
    · apply h.insert
      · change r.count - 1 = _
        omega
      · rw [← Multiset.count_pos]
        exact iff_of_true rfl (by omega)
      · exact fun k hk => (count_cons_other hk).symm

theorem Held.foldl {f : ProbeScheduler → ProbeTask → ProbeScheduler}
    (hf : ∀ {s t keys}, Held s.activeNodes (t.key ::ₘ keys) → Held (f s t).activeNodes keys) (q : List ProbeTask)
    (h : Held s.activeNodes ((q : Multiset ProbeTask).map ProbeTask.key + keys)) :
    Held (q.foldl f s).activeNodes keys := by
  induction q generalizing s with
  | nil => simpa using h
  | cons t q ih =>
    apply ih
    rw [← Multiset.cons_coe, Multiset.map_cons, Multiset.cons_add] at h
    exact hf h

def Pruned (nodes nodes' : FiniteMap String ActiveRecord) : Prop :=
  ∀ key, nodes'.lookup key = nodes.lookup key ∨
    nodes'.lookup key = none ∧ ∃ record, nodes.lookup key = some record ∧ record.active = false

theorem pruned_refl (nodes : FiniteMap String ActiveRecord) : Pruned nodes nodes := fun _ => Or.inl rfl

theorem pruned_erase (hr : nodes.lookup key = some record) (ha : record.active = false) : Pruned nodes
    (nodes.erase key) := by
  intro k
  by_cases hk : k = key
  · subst hk
    exact .inr ⟨AList.lookup_erase _ _, record, hr, ha⟩
  · exact .inl (AList.lookup_erase_ne hk)

theorem Pruned.trans {nodes' nodes'' : FiniteMap String ActiveRecord} (h : Pruned nodes nodes')
    (h' : Pruned nodes' nodes'') : Pruned nodes nodes'' := by
  intro key
  rcases h' key with he' | ⟨hn, r, hr, ha⟩
  · rcases h key with heq | ⟨hn, hre⟩
    · exact .inl (he'.trans heq)
    · exact .inr ⟨he'.trans hn, hre⟩
  · rcases h key with heq | ⟨hn', -⟩
    · exact .inr ⟨hn, r, heq ▸ hr, ha⟩
    · rw [hn'] at hr
      contradiction

theorem Pruned.held {nodes' : FiniteMap String ActiveRecord} (h : Pruned nodes nodes') (hh : Held nodes keys) :
    Held nodes' keys := by
  intro key
  rcases h key with heq | ⟨hn, record, hr, ha⟩
  · rw [heq]
    exact hh key
  · obtain ⟨-, hi⟩ := hh key
    have hke : key ∉ keys := by
      intro hk
      have ht := hi.mpr hk
      rw [hr, Option.getD_some, ha] at ht
      contradiction
    rw [hn, Multiset.count_eq_zero_of_notMem hke]
    simp [hke]

theorem pruned_keep (now : Time) (nodes : FiniteMap String ActiveRecord) :
    Pruned nodes (keep (fun r => r.active || decide (now < r.untilTime)) nodes) := by
  intro key
  rw [lookup_keep]
  cases hlookup : nodes.lookup key with
  | none => exact .inl rfl
  | some r =>
    by_cases hk : (r.active || decide (now < r.untilTime)) = true
    · exact .inl (by simp [Option.filter, hk])
    · refine .inr ⟨by simp [Option.filter, hk], r, rfl, ?_⟩
      cases ha : r.active with
      | false => rfl
      | true => simp [ha] at hk

theorem oldestInactive_some {time : Time} (h : oldestInactive nodes = some (key, time)) :
    ∃ r, nodes.lookup key = some r ∧ r.active = false := by
  have hall : ∀ k t, oldestInactive nodes = some (k, t) →
      ∃ r, nodes.lookup k = some r ∧ r.active = false := by
    rw [oldestInactive]
    refine foldlRecOn (motive := fun oldest => ∀ k t, oldest = some (k, t) →
      ∃ r, nodes.lookup k = some r ∧ r.active = false) nodes.entries _ (by simp) ?_
    intro oldest hs e hmem k t hk
    beta_reduce at hk
    by_cases ha : e.2.active = true
    · rw [if_pos ha] at hk
      exact hs k t hk
    · have he : nodes.lookup e.1 = some e.2 := mem_entries.mp hmem
      have hf : e.2.active = false := Bool.eq_false_iff.mpr ha
      rw [if_neg ha] at hk
      cases oldest with
      | none =>
        obtain ⟨rfl, -⟩ := Prod.mk.inj (Option.some.inj hk)
        exact ⟨e.2, he, hf⟩
      | some old =>
        dsimp only at hk
        split_ifs at hk with hlt
        · obtain ⟨rfl, -⟩ := Prod.mk.inj (Option.some.inj hk)
          exact ⟨e.2, he, hf⟩
        · exact hs k t hk
  exact hall key time h

theorem pruned_evictOldest (limit : Int) (fuel : ℕ) : Pruned nodes (evictOldest limit fuel nodes) := by
  induction fuel generalizing nodes with
  | zero => exact pruned_refl nodes
  | succ fuel ih =>
    rw [evictOldest]
    split_ifs with hl
    · cases hold : oldestInactive nodes with
      | none => exact pruned_refl nodes
      | some old =>
        obtain ⟨record, hr, ha⟩ := oldestInactive_some hold
        exact (pruned_erase hr ha).trans ih
    · exact pruned_refl nodes

/-- Pruning forgets free nodes alone, never one in use. -/
theorem pruned_pruneActiveNodesLocked (s : ProbeScheduler) (now : Time) :
    Pruned s.activeNodes (s.pruneActiveNodesLocked now).activeNodes :=
  (pruned_keep now s.activeNodes).trans (pruned_evictOldest _ _)

end

section

structure Listed (order : List String) (queue : String → List ProbeTask) : Prop where
  nodup : order.Nodup
  mem_iff : ∀ run, run ∈ order ↔ queue run ≠ []

variable {order : List String} {queue queue' : String → List ProbeTask} {run : String}

section

variable (h : Listed order queue)
include h

theorem Listed.congr (ho : ∀ r, r ≠ run → queue' r = queue r)
    (hru : queue' run = [] ↔ queue run = []) : Listed order queue' := by
  refine ⟨h.nodup, fun r => ?_⟩
  rw [h.mem_iff]
  by_cases hr : r = run
  · rw [hr]
    exact not_congr hru.symm
  · rw [ho r hr]

theorem Listed.append (ho : ∀ r, r ≠ run → queue' r = queue r) (hru : queue' run ≠ [])
    (hn : queue run = []) : Listed (order ++ [run]) queue' := by
  have hno : run ∉ order := fun hm => (h.mem_iff run).mp hm hn
  refine ⟨nodup_append_comm.mp (nodup_cons.mpr ⟨hno, h.nodup⟩), fun r => ?_⟩
  rw [mem_append, mem_singleton, h.mem_iff]
  by_cases hr : r = run
  · simp [hr, hru]
  · simp [hr, ho r hr]

theorem Listed.erase (ho : ∀ r, r ≠ run → queue' r = queue r) (hru : queue' run = []) :
    Listed (order.erase run) queue' := by
  refine ⟨h.nodup.erase run, fun r => ?_⟩
  rw [h.nodup.mem_erase_iff, h.mem_iff]
  by_cases hr : r = run
  · simp [hr, hru]
  · simp [hr, ho r hr]

theorem Listed.front (ho : ∀ r, r ≠ run → queue' r = queue r) (hru : queue' run ≠ []) :
    Listed (frontRun order run) queue' := by
  refine ⟨nodup_cons.mpr ⟨h.nodup.not_mem_erase, h.nodup.erase run⟩, fun r => ?_⟩
  rw [frontRun, mem_cons, h.nodup.mem_erase_iff, h.mem_iff]
  by_cases hr : r = run
  · simp [hr, hru]
  · simp [hr, ho r hr]

end

def CursorInRange (s : ProbeScheduler) : Prop :=
  s.runCursor < s.runOrder.length ∨ s.runOrder = [] ∧ s.runCursor = 0

theorem cursorInRange_mod {s : ProbeScheduler} {n : ℕ}
    (h : s.runCursor = if s.runOrder.length > 0 then n % s.runOrder.length else 0) : s.CursorInRange := by
  split_ifs at h with hl
  · left
    rw [h]
    exact Nat.mod_lt n hl
  · right
    exact ⟨length_eq_zero_iff.mp (by omega), h⟩

end

/-- What the counters and indexes say, as the queued and the probing tasks determine it. -/
structure Books (s : ProbeScheduler) : Prop where
  queued : s.queued = s.content.card
  bounded : s.queued ≤ s.cfg.queueSize
  listed : Listed s.runOrder s.queue
  tasks : s.taskCount = s.queued + s.probing.card
  active : s.activeCount = s.probing.card
  byRun : total id s.activeByRun = s.activeCount
  limit : s.activeCount ≤ s.cfg.concurrency
  held : Held s.activeNodes (s.content.map ProbeTask.key + s.probing.map ProbeTask.key)

theorem Books.requeue {s s' : ProbeScheduler} (h : s.Books) (hc : s'.cfg = s.cfg)
    (hp : s'.probingTasks = s.probingTasks) (ha : s'.activeCount = s.activeCount)
    (hb : s'.activeByRun = s.activeByRun) (hts : s'.taskCount - s.taskCount = s'.queued - s.queued)
    (hq : s'.queued = s'.content.card) (hbo : s'.queued ≤ s.cfg.queueSize)
    (hli : Listed s'.runOrder s'.queue)
    (hh : Held s'.activeNodes (s'.content.map ProbeTask.key + s.probing.map ProbeTask.key)) : s'.Books := by
  have hs : s'.probing = s.probing := by rw [probing, hp, probing]
  refine ⟨hq, hc ▸ hbo, hli, ?_, ?_, ?_, ?_, ?_⟩
  · have hbe := h.tasks
    rw [hs]
    omega
  · rw [ha, hs]
    exact h.active
  · rw [ha, hb]
    exact h.byRun
  · rw [ha, hc]
    exact h.limit
  · rw [hs]
    exact hh

end ProbeScheduler

end ClashSubParser
