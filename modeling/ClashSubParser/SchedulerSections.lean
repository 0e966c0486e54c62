import ClashSubParser.SchedulerBooks

/-! What each section of the scheduler does to the books: tasks are queued, dispatched, finished and
cancelled. -/
namespace ClashSubParser

open List AssocTotals ProbeTask

namespace ProbeScheduler

section

variable {s : ProbeScheduler} {task : ProbeTask}

theorem coe_concat (task : ProbeTask) (q : List ProbeTask) : ((q ++ [task] : List ProbeTask) : Multiset ProbeTask) =
    task ::ₘ q := by
  rw [Multiset.cons_coe, Multiset.coe_eq_coe]
  exact perm_append_singleton task q

theorem coe_insertManual (task : ProbeTask) (q : List ProbeTask) :
    (insertManual task q : Multiset ProbeTask) = task ::ₘ q := by
  rw [insertManual, Multiset.cons_coe, Multiset.coe_eq_coe]
  refine perm_middle.trans ?_
  rw [take_append_drop]

theorem mem_insertManual {t task : ProbeTask} {q : List ProbeTask} : t ∈ insertManual task q ↔ t = task ∨ t ∈ q := by
  rw [← Multiset.mem_coe, coe_insertManual, Multiset.mem_cons, Multiset.mem_coe]

theorem content_appendTask (s : ProbeScheduler) (task : ProbeTask) :
    (s.appendTask task).content = task ::ₘ s.content :=
  content_setQueue_cons (coe_concat task _)

theorem content_insertTask (s : ProbeScheduler) (task : ProbeTask) :
    (s.insertTask task).content = task ::ₘ s.content :=
  content_setQueue_cons (coe_insertManual task _)

theorem queue_appendTask (s : ProbeScheduler) (task : ProbeTask) (run : String) :
    (s.appendTask task).queue run = if run = task.runID then s.queue run ++ [task] else s.queue run :=
  queue_setQueue_map s task.runID (· ++ [task]) run

theorem queue_insertTask (s : ProbeScheduler) (task : ProbeTask) (run : String) :
    (s.insertTask task).queue run = if run = task.runID then insertManual task (s.queue run) else s.queue run :=
  queue_setQueue_map s task.runID (insertManual task) run

section

variable {nodes : FiniteMap String ActiveRecord}

theorem Books.enqueue {s' : ProbeScheduler} (h : s.Books) (hcf : s'.cfg = s.cfg)
    (hp : s'.probingTasks = s.probingTasks) (ha : s'.activeCount = s.activeCount)
    (hb : s'.activeByRun = s.activeByRun) (hts : s'.taskCount = s.taskCount + 1)
    (hq : s'.queued = s.queued + 1) (hr : s.queued < s.cfg.queueSize)
    (hc : s'.content = task ::ₘ s.content) (hli : Listed s'.runOrder s'.queue)
    (hh : Held s'.activeNodes (task.key ::ₘ (s.content.map key + s.probing.map key))) :
    s'.Books := by
  refine h.requeue hcf hp ha hb (by omega) ?_ (by omega) hli ?_
  · rw [hq, hc, Multiset.card_cons, h.queued]
    push_cast
    rfl
  · rw [hc, Multiset.map_cons, Multiset.cons_add]
    exact hh

theorem Books.appendTask (h : s.Books) (hro : s.queued < s.cfg.queueSize)
    (hh : Held nodes (task.key ::ₘ (s.content.map key + s.probing.map key))) :
    (({ s with activeNodes := nodes } : ProbeScheduler).appendTask task).Books := by
  refine h.enqueue rfl rfl rfl rfl rfl rfl hro (content_appendTask _ task) ?_ hh
  have hqu := queue_appendTask { s with activeNodes := nodes } task
  have ho (r : String) (hr : r ≠ task.runID) :
      (({ s with activeNodes := nodes } : ProbeScheduler).appendTask task).queue r = s.queue r :=
    (hqu r).trans (if_neg hr)
  have hru : (({ s with activeNodes := nodes } : ProbeScheduler).appendTask task).queue task.runID ≠ [] := by
    rw [hqu, if_pos rfl]
    simp
  change Listed (if s.queue task.runID = [] then s.runOrder ++ [task.runID] else s.runOrder) _
  split_ifs with hn
  · exact h.listed.append ho hru hn
  · exact h.listed.congr ho (iff_of_false hru hn)

theorem Books.insertTask (h : s.Books) (hro : s.queued < s.cfg.queueSize)
    (hh : Held nodes (task.key ::ₘ (s.content.map key + s.probing.map key))) :
    (({ s with activeNodes := nodes } : ProbeScheduler).insertTask task).Books := by
  refine h.enqueue rfl rfl rfl rfl rfl rfl hro (content_insertTask _ task) ?_ hh
  have hqu := queue_insertTask { s with activeNodes := nodes } task
  apply h.listed.front
  · exact fun r hr => (hqu r).trans (if_neg hr)
  · rw [hqu, if_pos rfl, insertManual]
    simp

end

section

variable {s' : ProbeScheduler} {t : ProbeTask} {i emptied kept execID : ℕ}

def afterTake (s : ProbeScheduler) (i emptied kept : ℕ) (rest : List ProbeTask) : ProbeScheduler :=
  let order := if rest = [] then s.runOrder.eraseIdx i else s.runOrder
  ({ s.setQueue (s.runOrder.getD i "") rest with
    queued := s.queued - 1
    runOrder := order
    runCursor := if rest = [] then (if order.length > 0 then emptied % order.length else 0) else kept } :
    ProbeScheduler).signalLocked

theorem takeFront_eq_some (h : s.takeFront i emptied kept = some (t, s')) :
    ∃ rest, s.queue (s.runOrder.getD i "") = t :: rest ∧ s' = s.afterTake i emptied kept rest := by
  rw [takeFront] at h
  cases hq : s.queue (s.runOrder.getD i "") with
  | nil =>
    rw [hq] at h
    contradiction
  | cons u rest =>
    rw [hq] at h
    obtain ⟨rfl, rfl⟩ := Prod.mk.inj (Option.some.inj h)
    exact ⟨rest, rfl, rfl⟩

theorem nextEligibleLocked_eq_some (h : s.nextEligibleLocked = some (t, s')) :
    ∃ i emptied kept rest, i < s.runOrder.length ∧ (kept = s.runCursor ∨ kept < s.runOrder.length) ∧
      s.queue (s.runOrder.getD i "") = t :: rest ∧ s' = s.afterTake i emptied kept rest := by
  rw [nextEligibleLocked] at h
  cases hfind : s.runOrder.findIdx? s.manualFront with
  | some i =>
    rw [hfind] at h
    obtain ⟨rest, hq, hs⟩ := takeFront_eq_some h
    have hi : i < s.runOrder.length := (findIdx?_eq_some_iff_getElem.mp hfind).1
    exact ⟨i, _, _, rest, hi, .inl rfl, hq, hs⟩
  | none =>
    rw [hfind] at h
    dsimp only at h
    split at h
    · contradiction
    · rename_i n hn
      have hsi : n < s.runOrder.length := mem_range.mp (mem_of_find?_eq_some hn)
      have hp : 0 < s.runOrder.length := by omega
      obtain ⟨rest, hq, hs⟩ := takeFront_eq_some h
      exact ⟨_, _, _, rest, Nat.mod_lt _ hp, .inr (Nat.mod_lt _ hp), hq, hs⟩

theorem content_afterTake {rest : List ProbeTask} (hq : s.queue (s.runOrder.getD i "") = t :: rest) :
    s.content = t ::ₘ (s.afterTake i emptied kept rest).content := by
  have hs := content_setQueue s (s.runOrder.getD i "") rest
  rw [hq, ← Multiset.cons_coe, Multiset.add_cons, ← Multiset.cons_add] at hs
  exact (Multiset.add_left_inj.mp hs).symm

theorem queue_afterTake {rest : List ProbeTask} (run : String) :
    (s.afterTake i emptied kept rest).queue run = if run = s.runOrder.getD i "" then rest else s.queue run :=
  queue_setQueue s (s.runOrder.getD i "") run rest

theorem listed_afterTake (h : Listed s.runOrder s.queue) (hi : i < s.runOrder.length) {rest : List ProbeTask}
    (hq : s.queue (s.runOrder.getD i "") = t :: rest) :
    Listed (s.afterTake i emptied kept rest).runOrder (s.afterTake i emptied kept rest).queue := by
  have ho (r : String) (hr : r ≠ s.runOrder.getD i "") :
      (s.afterTake i emptied kept rest).queue r = s.queue r := (queue_afterTake r).trans (if_neg hr)
  have hru : (s.afterTake i emptied kept rest).queue (s.runOrder.getD i "") = rest :=
    (queue_afterTake _).trans (if_pos rfl)
  change Listed (if rest = [] then s.runOrder.eraseIdx i else s.runOrder) _
  split_ifs with hre
  · have he : s.runOrder.eraseIdx i = s.runOrder.erase (s.runOrder.getD i "") := by
      rw [getD_eq_getElem?_getD, getElem?_eq_getElem hi, Option.getD_some, h.nodup.erase_getElem]
    rw [he]
    exact h.erase ho (hru.trans hre)
  · refine h.congr ho (iff_of_false ?_ ?_)
    · rwa [hru]
    · rw [hq]
      exact cons_ne_nil t rest

theorem cursorInRange_afterTake (h : s.CursorInRange) (hi : i < s.runOrder.length)
    (hk : kept = s.runCursor ∨ kept < s.runOrder.length) (rest : List ProbeTask) :
    (s.afterTake i emptied kept rest).CursorInRange := by
  by_cases hr : rest = []
  · subst hr
    exact cursorInRange_mod rfl
  · left
    have ho : (s.afterTake i emptied kept rest).runOrder = s.runOrder := if_neg hr
    have hcu : (s.afterTake i emptied kept rest).runCursor = kept := if_neg hr
    rw [ho, hcu]
    rcases hk with rfl | hlt
    · rcases h with hlt | ⟨hn, -⟩
      · exact hlt
      · simp [hn] at hi
    · exact hlt

theorem dispatchLocked_eq_some (h : s.dispatchLocked = some (t, execID, s')) :
    s.activeCount < s.cfg.concurrency ∧ ∃ i emptied kept rest, i < s.runOrder.length ∧
      (kept = s.runCursor ∨ kept < s.runOrder.length) ∧ s.queue (s.runOrder.getD i "") = t :: rest ∧
      execID = s.nextExecID + 1 ∧ s' = { s.afterTake i emptied kept rest with
        activeByRun := s.activeByRun.insert t.runID ((s.activeByRun.lookup t.runID).getD 0 + 1)
        nextExecID := execID
        probingTasks := s.probingTasks.insert execID t
        activeCount := s.activeCount + 1 } := by
  rw [dispatchLocked] at h
  split_ifs at h with hf
  cases hnext : s.nextEligibleLocked with
  | none =>
    rw [hnext] at h
    contradiction
  | some p =>
    obtain ⟨u, s₁⟩ := p
    rw [hnext] at h
    obtain ⟨i, emptied, kept, rest, hi, hk, hq, rfl⟩ := nextEligibleLocked_eq_some hnext
    obtain ⟨rfl, ht⟩ := Prod.mk.inj (Option.some.inj h)
    obtain ⟨rfl, rfl⟩ := Prod.mk.inj ht
    exact ⟨by omega, i, emptied, kept, rest, hi, hk, hq, rfl, rfl⟩

theorem queue_dispatchLocked (h : s.dispatchLocked = some (t, execID, s')) :
    ∃ run rest, s.queue run = t :: rest ∧ ∀ r, s'.queue r = if r = run then rest else s.queue r := by
  obtain ⟨-, i, emptied, kept, rest, -, -, hq, -, rfl⟩ := dispatchLocked_eq_some h
  exact ⟨_, rest, hq, @queue_afterTake s i emptied kept rest⟩

theorem content_dispatchLocked (h : s.dispatchLocked = some (t, execID, s')) : s.content = t ::ₘ s'.content := by
  obtain ⟨-, i, emptied, kept, rest, -, -, hq, -, rfl⟩ := dispatchLocked_eq_some h
  exact @content_afterTake s t i emptied kept rest hq

theorem Books.dispatch (h : s.Books) (hd : s.dispatchLocked = some (t, execID, s'))
    (hfr : s.probingTasks.lookup execID = none) : s'.Books := by
  obtain ⟨hf, i, emptied, kept, rest, hi, -, hq, -, rfl⟩ := dispatchLocked_eq_some hd
  have hc : s.content = t ::ₘ (s.afterTake i emptied kept rest).content := content_afterTake hq
  have hp : total (fun t : ProbeTask => ({t} : Multiset ProbeTask)) (s.probingTasks.insert execID t) =
      t ::ₘ s.probing := by
    rw [total_insert_new hfr, Multiset.singleton_add]
    rfl
  have hqu := h.queued
  have hb := h.bounded
  have hts := h.tasks
  have ha := h.active
  rw [hc, Multiset.card_cons] at hqu
  push_cast at hqu
  have hli : Listed (s.afterTake i emptied kept rest).runOrder (s.afterTake i emptied kept rest).queue :=
    listed_afterTake h.listed hi hq
  refine ⟨?_, ?_, hli, ?_, ?_, ?_, ?_, ?_⟩
  · change s.queued - 1 = ((s.afterTake i emptied kept rest).content.card : Int)
    omega
  · change s.queued - 1 ≤ s.cfg.queueSize
    omega
  · change s.taskCount = s.queued - 1 + (Multiset.card (total _ (s.probingTasks.insert execID t)) : Int)
    rw [hp, Multiset.card_cons]
    push_cast
    omega
  · change s.activeCount + 1 = (Multiset.card (total _ (s.probingTasks.insert execID t)) : Int)
    rw [hp, Multiset.card_cons]
    push_cast
    omega
  · have he := total_exchange id s.activeByRun t.runID ((s.activeByRun.lookup t.runID).getD 0 + 1)
    have hvl : (s.activeByRun.lookup t.runID).elim 0 id = (s.activeByRun.lookup t.runID).getD 0 := by
      cases s.activeByRun.lookup t.runID <;> rfl
    have hby := h.byRun
    rw [hvl, id] at he
    change total id (s.activeByRun.insert t.runID _) = s.activeCount + 1
    omega
  · change s.activeCount + 1 ≤ s.cfg.concurrency
    omega
  · have hh := h.held
    rw [hc, Multiset.map_cons, Multiset.cons_add, ← Multiset.add_cons, ← Multiset.map_cons, ← hp] at hh
    exact hh

end

section

variable {now : Time} {execID : ℕ} {seq : Option ℕ}

theorem Books.finish (h : s.Books) (hlk : s.probingTasks.lookup execID = some task) :
    (s.finishTaskExecutionLocked now task execID seq).Books := by
  have hp : s.probing = task ::ₘ total (fun t : ProbeTask => {t}) (s.probingTasks.erase execID) := by
    rw [probing, total_erase hlk, Multiset.singleton_add]
  have hts := h.tasks
  have ha := h.active
  have hl := h.limit
  have hb := h.byRun
  rw [hp, Multiset.card_cons] at hts ha
  push_cast at hts ha
  refine ⟨h.queued, h.bounded, h.listed, ?_, ?_, ?_, ?_, ?_⟩
  · change s.taskCount - 1 = s.queued + (Multiset.card (total _ (s.probingTasks.erase execID)) : Int)
    omega
  · change s.activeCount - 1 = (Multiset.card (total _ (s.probingTasks.erase execID)) : Int)
    omega
  · have hvl : (s.activeByRun.lookup task.runID).elim 0 id = (s.activeByRun.lookup task.runID).getD 0 := by
      cases s.activeByRun.lookup task.runID <;> rfl
    change total id (if (s.activeByRun.lookup task.runID).getD 0 - 1 = 0 then s.activeByRun.erase task.runID
      else s.activeByRun.insert task.runID ((s.activeByRun.lookup task.runID).getD 0 - 1)) = s.activeCount - 1
    split_ifs with hz
    · have hsp := total_eq_erase id s.activeByRun task.runID
      omega
    · have he := total_exchange id s.activeByRun task.runID ((s.activeByRun.lookup task.runID).getD 0 - 1)
      rw [hvl, id] at he
      omega
  · change s.activeCount - 1 ≤ s.cfg.concurrency
    omega
  · have hh := h.held
    rw [hp, Multiset.map_cons, Multiset.add_cons] at hh
    have hs : ((s.activeNodes.lookup task.key).getD {}).active = true :=
      (hh task.key).2.mpr (Multiset.mem_cons_self _ _)
    cases hr : s.activeNodes.lookup task.key with
    | none => simp [hr] at hs
    | some record =>
      simp only [finishTaskExecutionLocked, hr]
      apply hh.release
      rw [hr, Option.getD_some]

end

section

variable {now : Time}

theorem foldl_cancelQueued (q : List ProbeTask) (s : ProbeScheduler) :
    q.foldl (cancelQueued now) s = { s with activeNodes := (q.foldl (cancelQueued now) s).activeNodes } := by
  induction q generalizing s with
  | nil => rfl
  | cons t q ih =>
    rw [foldl_cons, ih]
    rfl

theorem dropRun_eq (s : ProbeScheduler) (run : String) :
    s.dropRun run = { s with runOrder := s.runOrder.erase run, runCursor := (s.dropRun run).runCursor } := by
  by_cases hr : run ∈ s.runOrder
  · rw [dropRun, if_pos hr]
  · rw [dropRun, if_neg hr, erase_of_not_mem hr]

theorem cursorInRange_dropRun (h : s.CursorInRange) (run : String) : (s.dropRun run).CursorInRange := by
  by_cases hr : run ∈ s.runOrder
  · rw [dropRun, if_pos hr]
    exact cursorInRange_mod rfl
  · rwa [dropRun, if_neg hr]

theorem cancelRun_eq (s : ProbeScheduler) (now : Time) (runID : String) : (s.cancelRun now runID).1 = { s with
      cancelledRuns := runID :: s.cancelledRuns
      cancelled := s.cancelled ++ (s.runCancels.filter fun c => c.1 = runID).map (·.2)
      queues := (s.setQueue runID []).queues
      queued := s.queued - (s.queue runID).length
      activeNodes := (s.cancelRun now runID).1.activeNodes
      runOrder := s.runOrder.erase runID
      runCursor := (s.dropRun runID).runCursor
      taskCount := s.taskCount - (s.queue runID).length
      changed := s.changed + 1 } := by
  have hcu (s' : ProbeScheduler) (ho : s'.runOrder = s.runOrder) (hcu : s'.runCursor = s.runCursor) :
      (s'.dropRun runID).runCursor = (s.dropRun runID).runCursor := by
    by_cases hr : runID ∈ s.runOrder
    · rw [dropRun, dropRun, if_pos (ho ▸ hr), if_pos hr, ho, hcu]
    · rw [dropRun, dropRun, if_neg (ho ▸ hr), if_neg hr, hcu]
  let q := s.queue runID
  let s₁ : ProbeScheduler := { s with
    cancelledRuns := runID :: s.cancelledRuns
    cancelled := s.cancelled ++ (s.runCancels.filter fun c => c.1 = runID).map (·.2) }
  let s₂ : ProbeScheduler := { s₁.setQueue runID [] with queued := s.queued - q.length }
  let s₃ : ProbeScheduler := { s₂ with activeNodes := (q.foldl (cancelQueued now) s₂).activeNodes }
  have hf : q.foldl (cancelQueued now) s₂ = s₃ := foldl_cancelQueued q s₂
  have hd : s₃.dropRun runID =
      { s₃ with runOrder := s.runOrder.erase runID, runCursor := (s.dropRun runID).runCursor } := by
    rw [dropRun_eq, hcu s₃ rfl rfl]
    rfl
  have hrs : (s.cancelRun now runID).1 =
      ({ s₃.dropRun runID with taskCount := (s₃.dropRun runID).taskCount - q.length } : ProbeScheduler).signalLocked := by
    rw [← hf]
    rfl
  rw [hrs, hd]
  rfl

theorem queue_cancelRun (s : ProbeScheduler) (now : Time) (runID run : String) :
    (s.cancelRun now runID).1.queue run = if run = runID then [] else s.queue run := by
  rw [cancelRun_eq]
  exact queue_setQueue s runID run []

theorem content_cancelRun (s : ProbeScheduler) (now : Time) (runID : String) :
    (s.cancelRun now runID).1.content + s.queue runID = s.content := by
  have hs := content_setQueue s runID []
  rw [cancelRun_eq]
  rwa [Multiset.coe_nil, add_zero] at hs

theorem held_cancelRun {keys : Multiset String} (now : Time) {runID : String}
    (h : Held s.activeNodes ((s.queue runID : Multiset ProbeTask).map key + keys)) :
    Held (s.cancelRun now runID).1.activeNodes keys := by
  have hns (s' : ProbeScheduler) : (s'.dropRun runID).activeNodes = s'.activeNodes := by rw [dropRun_eq]
  change Held (ProbeScheduler.dropRun _ runID).activeNodes keys
  rw [hns]
  exact Held.foldl (fun h => h.release rfl) (s.queue runID) h

/-- Cancelling a run keeps the books. -/
theorem Books.cancelRun (h : s.Books) (runID : String) : (s.cancelRun now runID).1.Books := by
  have hc := content_cancelRun s now runID
  have hqu := queue_cancelRun s now runID
  have hca : ((s.cancelRun now runID).1.content.card : Int) + (s.queue runID).length = s.content.card := by
    rw [← hc, Multiset.card_add, Multiset.coe_card]
    push_cast
    rfl
  have hq := h.queued
  have hb := h.bounded
  have hh := h.held
  rw [← hc, Multiset.map_add, add_comm (Multiset.map key _), add_assoc] at hh
  have hh' := held_cancelRun now hh
  have hli : Listed (s.runOrder.erase runID) (s.cancelRun now runID).1.queue :=
    h.listed.erase (fun r hr => (hqu r).trans (if_neg hr)) ((hqu runID).trans (if_pos rfl))
  rw [cancelRun_eq] at hca hh' hli ⊢
  refine h.requeue rfl rfl rfl rfl ?_ ?_ ?_ hli hh'
  · change s.taskCount - (s.queue runID).length - s.taskCount = s.queued - (s.queue runID).length - s.queued
    omega
  · change s.queued - (s.queue runID).length = _
    omega
  · change s.queued - (s.queue runID).length ≤ s.cfg.queueSize
    omega

theorem coe_pending (s : ProbeScheduler) : ((s.queues.entries.flatMap (·.2) : List ProbeTask) : Multiset ProbeTask) =
    s.content := by
  rw [content, total]
  induction s.queues.entries with
  | nil => rfl
  | cons e entries ih =>
    rw [flatMap_cons, map_cons, sum_cons, ← ih, Multiset.coe_add]

theorem mem_content {t : ProbeTask} : t ∈ s.content ↔ ∃ run, t ∈ s.queue run := by
  rw [← coe_pending, Multiset.mem_coe, mem_flatMap]
  constructor
  · rintro ⟨⟨run, q⟩, he, ht⟩
    refine ⟨run, ?_⟩
    rw [queue, mem_entries.mp he]
    exact ht
  · rintro ⟨run, ht⟩
    rw [queue] at ht
    cases hq : s.queues.lookup run with
    | none =>
      rw [hq] at ht
      contradiction
    | some q =>
      rw [hq] at ht
      exact ⟨⟨run, q⟩, mem_entries.mpr hq, ht⟩

theorem close_eq (ho : s.closed = false) (now : Time) : (s.close now).1 = { s with
      closed := true
      ctxDone := true
      queues := ∅
      runOrder := []
      queued := 0
      activeNodes := (s.close now).1.activeNodes
      cancelled := s.cancelled ++ s.runCancels.map (·.2)
      taskCount := s.taskCount - (s.queues.entries.flatMap (·.2)).length
      changed := s.changed + 1 } := by
  let pending := s.queues.entries.flatMap (·.2)
  let s₁ : ProbeScheduler := { s with closed := true, ctxDone := true, queues := ∅, runOrder := [], queued := 0 }
  let s₂ : ProbeScheduler := { s₁ with activeNodes := (pending.foldl (cancelQueued now) s₁).activeNodes }
  have hf : pending.foldl (cancelQueued now) s₁ = s₂ := foldl_cancelQueued pending s₁
  have hrs : (s.close now).1 = ({ s₂ with
      cancelled := s₂.cancelled ++ s₂.runCancels.map (·.2)
      taskCount := s₂.taskCount - pending.length } : ProbeScheduler).signalLocked := by
    rw [ProbeScheduler.close, if_neg (by simp [ho]), ← hf]
  rw [hrs]
  rfl

theorem held_close {keys : Multiset String} (ho : s.closed = false) (now : Time)
    (h : Held s.activeNodes (s.content.map key + keys)) : Held (s.close now).1.activeNodes keys := by
  rw [← coe_pending] at h
  rw [ProbeScheduler.close, if_neg (by simp [ho])]
  exact Held.foldl (fun h => h.release rfl) _ h

theorem content_close (s : ProbeScheduler) (now : Time) : (s.close now).1.content + (s.close now).2 = s.content := by
  cases hopen : s.closed with
  | true =>
    rw [ProbeScheduler.close, if_pos hopen]
    exact add_zero _
  | false =>
    have hs : (s.close now).2 = s.queues.entries.flatMap (·.2) := by
      rw [ProbeScheduler.close, if_neg (by simp [hopen])]
    rw [hs, coe_pending, close_eq hopen]
    exact zero_add _

theorem callbacks_close (s : ProbeScheduler) (now : Time) : (s.close now).1.callbacks = s.callbacks := by
  cases ho : s.closed with
  | true => rw [ProbeScheduler.close, if_pos ho]
  | false => rw [close_eq ho]

theorem Books.close (h : s.Books) : (s.close now).1.Books := by
  cases hopen : s.closed with
  | true =>
    rw [ProbeScheduler.close, if_pos hopen]
    exact h
  | false =>
    have hc : ((s.queues.entries.flatMap (·.2)).length : Int) = s.content.card := by
      rw [← coe_pending, Multiset.coe_card]
    have hq := h.queued
    have hb := h.bounded
    have hh := held_close hopen now h.held
    rw [close_eq hopen] at hh ⊢
    refine h.requeue rfl rfl rfl rfl ?_ rfl ?_ ⟨nodup_nil, fun run => by simp [queue]⟩ ?_
    · change s.taskCount - (s.queues.entries.flatMap (·.2)).length - s.taskCount = 0 - s.queued
      omega
    · change (0 : Int) ≤ s.cfg.queueSize
      omega
    · change Held _ ((0 : Multiset ProbeTask).map key + s.probing.map key)
      rw [Multiset.map_zero, zero_add]
      exact hh

end

end

end ProbeScheduler

end ClashSubParser
