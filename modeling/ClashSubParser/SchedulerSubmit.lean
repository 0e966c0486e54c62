import ClashSubParser.SchedulerSections

/-! What a round of a submit loop does: a task is queued, skipped or refused. -/
namespace ClashSubParser

open List AssocTotals

namespace ProbeScheduler

variable {s : ProbeScheduler} {task : ProbeTask}

section

theorem releaseQueued_eq (s : ProbeScheduler) (t : ProbeTask) : s.releaseQueued t = { s with
      queued := s.queued - 1
      taskCount := s.taskCount - 1
      activeNodes := (s.releaseQueued t).activeNodes } := by
  rw [releaseQueued]
  cases s.activeNodes.lookup t.key with
  | none => rfl
  | some record =>
    dsimp only
    split_ifs <;> rfl

theorem foldl_releaseQueued (q : List ProbeTask) (s : ProbeScheduler) : q.foldl releaseQueued s = { s with
      queued := s.queued - q.length
      taskCount := s.taskCount - q.length
      activeNodes := (q.foldl releaseQueued s).activeNodes } := by
  induction q generalizing s with
  | nil => simp
  | cons t q ih =>
    have hq : s.queued - 1 - q.length = s.queued - (t :: q).length := by
      rw [length_cons]
      omega
    have hts : s.taskCount - 1 - q.length = s.taskCount - (t :: q).length := by
      omega
    rw [foldl_cons, ← hq, ← hts, ih]
    generalize (List.foldl releaseQueued (s.releaseQueued t) q).activeNodes = nodes
    rw [releaseQueued_eq]

def QueueUpdate (s s' : ProbeScheduler) : Prop :=
  s' = { s with
    queues := s'.queues
    runOrder := s'.runOrder
    runCursor := s'.runCursor
    queued := s'.queued
    taskCount := s'.taskCount
    activeNodes := s'.activeNodes }

variable {run : String} {s' : ProbeScheduler}

theorem QueueUpdate.trans {s'' : ProbeScheduler} (h : QueueUpdate s s') (h' : QueueUpdate s' s'') :
    QueueUpdate s s'' := by
  rw [h] at h'
  exact h'

abbrev OwnRun (task : ProbeTask) (run : String) : Prop := run = task.runID ∧ task.runID ≠ ""

/-- What going through the queues of `runs` for a manual task comes to. -/
structure Promotion (task : ProbeTask) (runs : List String) (s s' : ProbeScheduler) (removed : List ProbeTask) :
    Prop where
  frame : QueueUpdate s s'
  queue : ∀ run, s'.queue run =
    if run ∈ runs ∧ ¬OwnRun task run then promotedQueue task (s.queue run) else s.queue run
  content : ∀ {β : Type} {f : ProbeTask → β}, (∀ t, f (promoted t) = f t) →
    s'.content.map f + (removed : Multiset ProbeTask).map f = s.content.map f
  cursor : s.CursorInRange → s'.CursorInRange
  books : s.Books → s'.Books

theorem promotedQueue_nil (task : ProbeTask) : promotedQueue task [] = [] := rfl

def replacedTasks (task : ProbeTask) (q : List ProbeTask) : List ProbeTask := q.filter fun t => Replaced task t

def withPromoted (s : ProbeScheduler) (task : ProbeTask) (run : String) : ProbeScheduler :=
  ({ s with
    queued := s.queued - (replacedTasks task (s.queue run)).length
    taskCount := s.taskCount - (replacedTasks task (s.queue run)).length
    activeNodes := ((replacedTasks task (s.queue run)).foldl releaseQueued s).activeNodes } : ProbeScheduler).setQueue
      run (promotedQueue task (s.queue run))

theorem promoteRun_other (ho : ¬OwnRun task run) (hfirst : ManualFirst (s.queue run)) (old : List ProbeTask) :
    promoteRun task (s, old) run =
      (if promotedQueue task (s.queue run) = [] then (s.withPromoted task run).dropRun run
        else s.withPromoted task run, old ++ replacedTasks task (s.queue run)) := by
  have hl : promoteLoop task (s.queue run).length (s.queue run) 0 =
      (promotedQueue task (s.queue run), replacedTasks task (s.queue run)) :=
    @promoteLoop_eq task [] (s.queue run) hfirst _ le_rfl
  have hf := foldl_releaseQueued (replacedTasks task (s.queue run)) s
  rw [promoteRun]
  rw [if_neg ho, hl]
  dsimp only
  rw [hf]
  rfl

theorem queue_withPromoted (s : ProbeScheduler) (task : ProbeTask) (run r : String) :
    (s.withPromoted task run).queue r = if r = run then promotedQueue task (s.queue run) else s.queue r :=
  queue_setQueue _ run r _

theorem content_withPromoted (s : ProbeScheduler) (task : ProbeTask) (run : String) {β : Type} {f : ProbeTask → β}
    (hf : ∀ t, f (promoted t) = f t) :
    (s.withPromoted task run).content.map f + (replacedTasks task (s.queue run) : Multiset ProbeTask).map f =
      s.content.map f := by
  have hs : (s.withPromoted task run).content + s.queue run = s.content + promotedQueue task (s.queue run) :=
    content_setQueue _ run _
  have hm := congrArg (Multiset.map f) hs
  rw [Multiset.map_add, Multiset.map_add, ← map_promotedQueue hf (s.queue run),
    add_comm (Multiset.map f (promotedQueue task (s.queue run) : Multiset ProbeTask)), ← add_assoc] at hm
  exact Multiset.add_left_inj.mp hm

theorem card_withPromoted (s : ProbeScheduler) (task : ProbeTask) (run : String) :
    ((s.withPromoted task run).content.card : Int) + (replacedTasks task (s.queue run)).length =
      s.content.card := by
  have hm := congrArg Multiset.card (content_withPromoted s task run (f := fun _ => ()) fun _ => rfl)
  rw [Multiset.card_add, Multiset.card_map, Multiset.card_map, Multiset.card_map, Multiset.coe_card] at hm
  omega

/-- The books stay in order whatever becomes of the order of runs, as long as it lists the queues. -/
theorem books_withPromoted (h : s.Books)
    (hu : s' = { s.withPromoted task run with runOrder := s'.runOrder, runCursor := s'.runCursor })
    (hli : Listed s'.runOrder s'.queue) : s'.Books := by
  have hc := card_withPromoted s task run
  have hq := h.queued
  have hb := h.bounded
  rw [hu] at hli ⊢
  refine h.requeue rfl rfl rfl rfl ?_ ?_ ?_ hli ?_
  · change s.taskCount - (replacedTasks task (s.queue run)).length - s.taskCount =
      s.queued - (replacedTasks task (s.queue run)).length - s.queued
    omega
  · change s.queued - (replacedTasks task (s.queue run)).length = ((s.withPromoted task run).content.card : Int)
    omega
  · change s.queued - (replacedTasks task (s.queue run)).length ≤ s.cfg.queueSize
    omega
  · have hk : (s.withPromoted task run).content.map ProbeTask.key +
        (replacedTasks task (s.queue run) : Multiset ProbeTask).map ProbeTask.key = s.content.map ProbeTask.key :=
      content_withPromoted s task run fun _ => rfl
    have hh := h.held
    rw [← hk, add_comm (Multiset.map ProbeTask.key (s.withPromoted task run).content), add_assoc] at hh
    exact Held.foldl Held.releaseQueued (replacedTasks task (s.queue run)) hh

theorem queue_of_withPromoted (ho : ¬OwnRun task run)
    (hs' : s'.queues = (s.withPromoted task run).queues) (r : String) : s'.queue r =
      if r ∈ [run] ∧ ¬OwnRun task r then promotedQueue task (s.queue r) else s.queue r := by
  have hs : s'.queue r = (s.withPromoted task run).queue r := by
    rw [ProbeScheduler.queue, ProbeScheduler.queue, hs']
  rw [hs, queue_withPromoted]
  by_cases hr : r = run
  · subst hr
    rw [if_pos rfl, if_pos ⟨mem_singleton_self r, ho⟩]
  · rw [if_neg hr, if_neg fun h => hr (mem_singleton.mp h.1)]

theorem promotion_promoteRun (hfirst : ManualFirst (s.queue run)) (old : List ProbeTask) :
    ∃ removed, (promoteRun task (s, old) run).2 = old ++ removed ∧
      Promotion task [run] s (promoteRun task (s, old) run).1 removed := by
  by_cases ho : OwnRun task run
  · rw [promoteRun, if_pos ho]
    refine ⟨[], (append_nil old).symm, rfl, ?_, ?_, id, id⟩
    · intro r
      have hr : ¬(r ∈ [run] ∧ ¬OwnRun task r) := by
        rintro ⟨hr, hno⟩
        rw [mem_singleton.mp hr] at hno
        exact hno ho
      rw [if_neg hr]
    · intro β f _
      simp
  · rw [promoteRun_other ho hfirst]
    refine ⟨replacedTasks task (s.queue run), rfl, ?_⟩
    have hu : QueueUpdate s (s.withPromoted task run) := rfl
    have hru : (s.withPromoted task run).queue run = promotedQueue task (s.queue run) := by
      rw [queue_withPromoted, if_pos rfl]
    have hot : ∀ r, r ≠ run → (s.withPromoted task run).queue r = s.queue r := by
      intro r hr
      rw [queue_withPromoted, if_neg hr]
    split_ifs with hn
    · -- an emptied queue takes its run out of the order
      have hqs : ((s.withPromoted task run).dropRun run).queues = (s.withPromoted task run).queues := by
        rw [dropRun_eq]
      have hd : QueueUpdate (s.withPromoted task run) ((s.withPromoted task run).dropRun run) := by
        unfold QueueUpdate
        rw [dropRun_eq]
      refine ⟨hu.trans hd, queue_of_withPromoted ho hqs, ?_, ?_, ?_⟩
      · intro β f hf
        have hs : ((s.withPromoted task run).dropRun run).content = (s.withPromoted task run).content := by
          rw [content, hqs]
          rfl
        rw [hs]
        exact content_withPromoted s task run hf
      · exact fun h => cursorInRange_dropRun (s := s.withPromoted task run) h run
      · intro h
        apply books_withPromoted h (by rw [dropRun_eq])
        rw [dropRun_eq]
        exact h.listed.erase hot (hru.trans hn)
    · refine ⟨hu, queue_of_withPromoted ho rfl, content_withPromoted s task run, id, ?_⟩
      intro h
      apply books_withPromoted h rfl
      apply h.listed.congr hot
      refine iff_of_false (hru ▸ hn) fun he => hn ?_
      rw [he, promotedQueue_nil]

theorem Promotion.trans {runs : List String} {s'' : ProbeScheduler}
    {removed removed' : List ProbeTask} (h : Promotion task [run] s s' removed)
    (h' : Promotion task runs s' s'' removed') (hru : run ∉ runs) :
    Promotion task (run :: runs) s s'' (removed ++ removed') := by
  refine ⟨h.frame.trans h'.frame, ?_, ?_, h'.cursor ∘ h.cursor, h'.books ∘ h.books⟩
  · intro r
    rw [h'.queue, h.queue]
    by_cases hr : r = run
    · subst hr
      simp [hru]
    · simp [hr]
  · intro β f hf
    rw [← h.content hf, ← h'.content hf, ← Multiset.coe_add, Multiset.map_add, add_assoc,
      add_comm (Multiset.map f ↑removed)]

theorem promotion_foldl {runs : List String} (hnd : runs.Nodup)
    (hfirst : ∀ run, ManualFirst (s.queue run)) (old : List ProbeTask) :
    ∃ removed, (runs.foldl (promoteRun task) (s, old)).2 = old ++ removed ∧
      Promotion task runs s (runs.foldl (promoteRun task) (s, old)).1 removed := by
  induction runs generalizing s old with
  | nil => exact ⟨[], (append_nil old).symm, rfl, by simp, by simp, id, id⟩
  | cons run runs ih =>
    obtain ⟨hru, hr⟩ := nodup_cons.mp hnd
    obtain ⟨removed, ho, hp⟩ := @promotion_promoteRun s task run (hfirst run) old
    have hf' (r : String) : ManualFirst ((promoteRun task (s, old) run).1.queue r) := by
      rw [hp.queue]
      split_ifs
      · exact manualFirst_promotedQueue task _
      · exact hfirst r
    obtain ⟨removed', ho', hp'⟩ := ih hr hf' (promoteRun task (s, old) run).2
    refine ⟨removed ++ removed', ?_, hp.trans hp' hru⟩
    rw [foldl_cons, ← append_assoc, ← ho]
    exact ho'

variable (hfirst : ∀ run, ManualFirst (s.queue run))
include hfirst

theorem promotion_promoteQueued (task : ProbeTask) :
    Promotion task s.queues.keys s (s.promoteQueued task).1 (s.promoteQueued task).2 := by
  obtain ⟨removed, ho, hp⟩ := @promotion_foldl s task s.queues.keys s.queues.keys_nodup hfirst []
  rw [promoteQueued, ho]
  exact hp

theorem queue_promoteQueued (task : ProbeTask) (run : String) : (s.promoteQueued task).1.queue run =
      if OwnRun task run then s.queue run else promotedQueue task (s.queue run) := by
  rw [(promotion_promoteQueued hfirst task).queue]
  by_cases ho : OwnRun task run
  · rw [if_pos ho, if_neg fun h => h.2 ho]
  · rw [if_neg ho]
    by_cases hr : run ∈ s.queues.keys
    · rw [if_pos ⟨hr, ho⟩]
    · have hn : s.queue run = [] := by
        rw [queue, AList.lookup_eq_none.mpr hr, Option.getD_none]
      rw [if_neg fun h => hr h.1, hn, promotedQueue_nil]

end

section

def Admits (s : ProbeScheduler) (task : ProbeTask) : Prop := s.closed = false ∧ task.runID ∉ s.cancelledRuns

abbrev withNodes (s : ProbeScheduler) (nodes : FiniteMap String ActiveRecord) : ProbeScheduler :=
  { s with activeNodes := nodes }

/-- What a round of a submit loop can do. The records may be pruned first. -/
inductive Submitted (s : ProbeScheduler) (task : ProbeTask) : Attempt → ProbeScheduler → List ProbeTask → Prop
  | failed {err : SubmitError} {nodes : FiniteMap String ActiveRecord} (hpruned : Pruned s.activeNodes nodes) :
      Submitted s task (.failed err) (s.withNodes nodes) []
  | skipped (hopen : s.Admits task) (hmode : task.mode = .periodicDedupe)
      (hpool : s.isNodeInPoolForPeriodicLocked task = true) : Submitted s task .skipped s []
  | full {nodes : FiniteMap String ActiveRecord} (hopen : s.Admits task) (hpruned : Pruned s.activeNodes nodes)
      (hfull : ¬s.queued < s.cfg.queueSize) : Submitted s task .full (s.withNodes nodes) []
  | fullManual {nodes : FiniteMap String ActiveRecord} (hopen : s.Admits task) (hpruned : Pruned s.activeNodes nodes)
      (hmode : task.IsManual)
      (hfull : ¬((s.withNodes nodes).promoteQueued task).1.queued <
        ((s.withNodes nodes).promoteQueued task).1.cfg.queueSize) :
      Submitted s task .full ((s.withNodes nodes).promoteQueued task).1
        ((s.withNodes nodes).promoteQueued task).2
  /-- a strict task: nothing is recorded under its key -/
  | strict {nodes : FiniteMap String ActiveRecord} (hopen : s.Admits task) (hpruned : Pruned s.activeNodes nodes)
      (hmode : ¬task.IsManual) (hroom : s.queued < s.cfg.queueSize) (hfresh : nodes.lookup task.key = none) :
      Submitted s task .enqueued
        ((s.withNodes nodes).enqueueTaskLocked task.key task) []
  | periodic {nodes : FiniteMap String ActiveRecord} (hopen : s.Admits task) (hpruned : Pruned s.activeNodes nodes)
      (hmode : ¬task.IsManual) (hroom : s.queued < s.cfg.queueSize)
      (hfresh : s.isNodeInPoolForPeriodicLocked task = false) :
      Submitted s task .enqueued
        (((s.withNodes nodes).occupy task.key task.runID).appendTask task) []
  | manual {nodes : FiniteMap String ActiveRecord} {now : Time} (hopen : s.Admits task)
      (hpruned : Pruned s.activeNodes nodes) (hmode : task.IsManual)
      (hroom : ((s.withNodes nodes).promoteQueued task).1.queued <
        ((s.withNodes nodes).promoteQueued task).1.cfg.queueSize)
      (hfresh : (s.withNodes nodes).sameRunConflict now task = false) :
      Submitted s task .enqueued
        ((((s.withNodes nodes).promoteQueued task).1.occupy task.key task.runID).insertTask
          task)
        ((s.withNodes nodes).promoteQueued task).2

theorem submitted_strictEnqueue {nodes : FiniteMap String ActiveRecord} (ho : s.Admits task)
    (hpr : Pruned s.activeNodes nodes) (hm : ¬task.IsManual) (hfr : nodes.lookup task.key = none) :
    Submitted s task ((s.withNodes nodes).strictEnqueue task.key task).1
      ((s.withNodes nodes).strictEnqueue task.key task).2 [] := by
  rw [strictEnqueue]
  by_cases hr : s.queued < s.cfg.queueSize
  · rw [if_pos hr]
    exact .strict ho hpr hm hr hfr
  · rw [if_neg hr]
    exact .full ho hpr hr

theorem submitted_strict (hm : ¬task.IsManual) (now : Time) :
    Submitted s task (s.submitStrictConflict now task).1 (s.submitStrictConflict now task).2 [] := by
  rw [submitStrictConflict]
  split_ifs with hcl hc
  · exact .failed (pruned_refl _)
  · exact .failed (pruned_refl _)
  · have ho : s.Admits task := ⟨Bool.eq_false_iff.mpr hcl, hc⟩
    have hpr := pruned_pruneActiveNodesLocked s now
    dsimp only
    cases hlk : (s.pruneActiveNodesLocked now).activeNodes.lookup task.key with
    | none => exact submitted_strictEnqueue ho hpr hm hlk
    | some record =>
      dsimp only
      split_ifs with ha
      · exact .failed hpr
      · have hf : record.active = false := Bool.eq_false_iff.mpr fun h => ha (.inl h)
        exact submitted_strictEnqueue ho (hpr.trans (pruned_erase hlk hf)) hm (AList.lookup_erase _ _)

theorem submitted_periodic (hm : task.mode = .periodicDedupe) (now : Time) :
    Submitted s task (s.submitPeriodicDedupe now task).1 (s.submitPeriodicDedupe now task).2 [] := by
  have hn : ¬task.IsManual := by
    rw [ProbeTask.IsManual, hm]
    decide
  rw [submitPeriodicDedupe]
  split_ifs with hcl hc hp
  · exact .failed (pruned_refl _)
  · exact .failed (pruned_refl _)
  · exact .skipped ⟨Bool.eq_false_iff.mpr hcl, hc⟩ hm hp
  · have ho : s.Admits task := ⟨Bool.eq_false_iff.mpr hcl, hc⟩
    have hpr := pruned_pruneActiveNodesLocked s now
    dsimp only
    split_ifs with hr
    · exact .periodic ho hpr hn hr (Bool.eq_false_iff.mpr hp)
    · exact .full ho hpr hr

theorem submitted_manual (hm : task.IsManual) (now : Time) :
    Submitted s task (s.submitManualPreemptFront now task).1 (s.submitManualPreemptFront now task).2.1
      (s.submitManualPreemptFront now task).2.2 := by
  rw [submitManualPreemptFront]
  split_ifs with hcl hc
  · exact .failed (pruned_refl _)
  · exact .failed (pruned_refl _)
  · have ho : s.Admits task := ⟨Bool.eq_false_iff.mpr hcl, hc⟩
    have hpr := pruned_pruneActiveNodesLocked s now
    dsimp only
    split_ifs with hco hr
    · exact .failed hpr
    · exact .manual ho hpr hm hr (Bool.eq_false_iff.mpr hco)
    · exact .fullManual ho hpr hm hr

theorem submitted_submitLocked (s : ProbeScheduler) (now : Time) (task : ProbeTask) :
    Submitted s task (s.submitLocked now task).1 (s.submitLocked now task).2.1 (s.submitLocked now task).2.2 := by
  rw [submitLocked]
  cases hm : task.mode with
  | strictConflict => exact submitted_strict (by simp [hm]) now
  | periodicDedupe => exact submitted_periodic hm now
  | manualPreemptFront => exact submitted_manual hm now

theorem Held.enqueue {nodes : FiniteMap String ActiveRecord} {keys : Multiset String} {key runID : String}
    (h : Held nodes keys) (hfr : nodes.lookup key = none) :
    Held (nodes.insert key { active := true, count := 1, lastRunID := runID }) (key ::ₘ keys) := by
  have hc := (h key).1
  rw [hfr, Option.getD_none] at hc
  apply h.insert
  · rw [Multiset.count_cons_self]
    push_cast
    rw [← hc]
    rfl
  · simp
  · exact fun k hk => count_cons_other hk

section

variable {s' : ProbeScheduler} {attempt : Attempt} {old : List ProbeTask}

theorem Submitted.of_not_admits (h : Submitted s task attempt s' old) (hn : ¬s.Admits task) :
    (∃ nodes, s' = s.withNodes nodes) ∧ old = [] ∧ ∃ err, attempt = .failed err := by
  cases h with
  | @failed err nodes => exact ⟨⟨nodes, rfl⟩, rfl, err, rfl⟩
  | skipped ho | full ho | fullManual ho | strict ho | periodic ho | manual ho =>
    exact absurd ho hn

theorem cursorInRange_appendTask (h : s.CursorInRange) (task : ProbeTask) : (s.appendTask task).CursorInRange := by
  have ho : (s.appendTask task).runOrder =
      if s.queue task.runID = [] then s.runOrder ++ [task.runID] else s.runOrder := rfl
  have hcu : (s.appendTask task).runCursor = s.runCursor := rfl
  rw [CursorInRange, ho, hcu]
  split_ifs with hn
  · left
    rw [length_append, length_singleton]
    rcases h with hlt | ⟨-, hz⟩ <;> omega
  · exact h

structure SameWorkers (s s' : ProbeScheduler) : Prop where
  cfg : s'.cfg = s.cfg
  closed : s'.closed = s.closed
  probingTasks : s'.probingTasks = s.probingTasks
  nextExecID : s'.nextExecID = s.nextExecID
  runCancels : s'.runCancels = s.runCancels
  cancelledRuns : s'.cancelledRuns = s.cancelledRuns
  cancelSequence : s'.cancelSequence = s.cancelSequence
  ctxDone : s'.ctxDone = s.ctxDone
  cancelled : s'.cancelled = s.cancelled

theorem QueueUpdate.sameWorkers (h : QueueUpdate s s') : SameWorkers s s' := by
  rw [h]
  exact ⟨rfl, rfl, rfl, rfl, rfl, rfl, rfl, rfl, rfl⟩

theorem SameWorkers.trans {s'' : ProbeScheduler} (h : SameWorkers s s') (h' : SameWorkers s' s'') :
    SameWorkers s s'' where
  cfg := h'.cfg.trans h.cfg
  closed := h'.closed.trans h.closed
  probingTasks := h'.probingTasks.trans h.probingTasks
  nextExecID := h'.nextExecID.trans h.nextExecID
  runCancels := h'.runCancels.trans h.runCancels
  cancelledRuns := h'.cancelledRuns.trans h.cancelledRuns
  cancelSequence := h'.cancelSequence.trans h.cancelSequence
  ctxDone := h'.ctxDone.trans h.ctxDone
  cancelled := h'.cancelled.trans h.cancelled

theorem sameWorkers_withNodes (s : ProbeScheduler) (nodes : FiniteMap String ActiveRecord) :
    SameWorkers s (s.withNodes nodes) :=
  ⟨rfl, rfl, rfl, rfl, rfl, rfl, rfl, rfl, rfl⟩

theorem sameWorkers_appendTask (s : ProbeScheduler) (task : ProbeTask) : SameWorkers s (s.appendTask task) :=
  ⟨rfl, rfl, rfl, rfl, rfl, rfl, rfl, rfl, rfl⟩

theorem sameWorkers_insertTask (s : ProbeScheduler) (task : ProbeTask) : SameWorkers s (s.insertTask task) :=
  ⟨rfl, rfl, rfl, rfl, rfl, rfl, rfl, rfl, rfl⟩

variable (hfirst : ∀ run, ManualFirst (s.queue run))

section

include hfirst

theorem promotion_withNodes (nodes : FiniteMap String ActiveRecord) (task : ProbeTask) :
    Promotion task s.queues.keys (s.withNodes nodes) ((s.withNodes nodes).promoteQueued task).1
      ((s.withNodes nodes).promoteQueued task).2 :=
  promotion_promoteQueued (s := s.withNodes nodes) hfirst task

theorem manualFirst_promoteQueued (task : ProbeTask) (run : String) :
    ManualFirst ((s.promoteQueued task).1.queue run) := by
  rw [queue_promoteQueued hfirst]
  split_ifs
  · exact hfirst run
  · exact manualFirst_promotedQueue task _

theorem manualFirst_appendTask (hm : ¬task.IsManual) (run : String) :
    ManualFirst ((s.appendTask task).queue run) := by
  rw [queue_appendTask]
  split_ifs
  · exact manualFirst_concat (hfirst run) hm
  · exact hfirst run

end

variable (h : Submitted s task attempt s' old)
include h hfirst

theorem Submitted.books (hbk : s.Books) : s'.Books := by
  have hpr {nodes : FiniteMap String ActiveRecord} (hp : Pruned s.activeNodes nodes) :
      (s.withNodes nodes).Books := { hbk with held := hp.held hbk.held }
  cases h with
  | failed hp | full ho hp => exact hpr hp
  | skipped => exact hbk
  | @fullManual nodes ho hp => exact (promotion_withNodes hfirst nodes task).books (hpr hp)
  | strict ho hp hm hr hfr => exact (hpr hp).appendTask hr ((hp.held hbk.held).enqueue hfr)
  | periodic ho hp hm hr => exact (hpr hp).appendTask hr (Held.occupy (hpr hp).held _ _)
  | @manual nodes _ ho hp hm hr =>
    have hpm := (promotion_withNodes hfirst nodes task).books (hpr hp)
    exact hpm.insertTask hr (Held.occupy hpm.held _ _)

theorem Submitted.first (run : String) : ManualFirst (s'.queue run) := by
  cases h with
  | failed | skipped | full => exact hfirst run
  | @fullManual nodes => exact manualFirst_promoteQueued (s := s.withNodes nodes) hfirst task run
  | strict ho hp hm | periodic ho hp hm => exact manualFirst_appendTask hfirst hm run
  | @manual nodes _ ho hp hm =>
    have hpr := manualFirst_promoteQueued (s := s.withNodes nodes) hfirst task run
    rw [queue_insertTask]
    split_ifs
    · exact manualFirst_insertManual hpr hm
    · exact hpr

theorem Submitted.own (ho : ∀ run, ∀ t ∈ s.queue run, t.runID = run) (run : String) : ∀ t ∈ s'.queue run, t.runID =
    run := by
  have hp (nodes : FiniteMap String ActiveRecord) (t : ProbeTask)
      (ht : t ∈ ((s.withNodes nodes).promoteQueued task).1.queue run) : t.runID = run := by
    rw [queue_promoteQueued (s := s.withNodes nodes) hfirst] at ht
    split_ifs at ht with hr
    · exact ho run t ht
    · obtain ⟨u, hu, heq, -⟩ := exists_of_mem_promotedQueue ht
      rcases heq with rfl | rfl
      · exact ho run t hu
      · exact ho run u hu
  have ha (nodes : FiniteMap String ActiveRecord) (t : ProbeTask)
      (ht : t ∈ ((s.withNodes nodes).appendTask task).queue run) : t.runID = run := by
    rw [queue_appendTask] at ht
    split_ifs at ht with hr
    · rcases mem_append.mp ht with ht | ht
      · exact ho run t ht
      · rw [mem_singleton.mp ht, hr]
    · exact ho run t ht
  cases h with
  | failed | skipped | full => exact ho run
  | @fullManual nodes => exact hp nodes
  | strict | periodic => exact ha _
  | @manual nodes =>
    intro t ht
    rw [queue_insertTask] at ht
    split_ifs at ht with hr
    · rcases mem_insertManual.mp ht with rfl | hm
      · exact hr.symm
      · exact hp nodes t hm
    · exact hp nodes t ht

theorem Submitted.cursor (hcu : s.CursorInRange) : s'.CursorInRange := by
  cases h with
  | failed | skipped | full => exact hcu
  | @fullManual nodes => exact (promotion_withNodes hfirst nodes task).cursor hcu
  | strict | periodic => exact cursorInRange_appendTask hcu task
  | manual => exact .inl (Nat.succ_pos _)

theorem Submitted.content {β : Type} {f : ProbeTask → β} (hf : ∀ t, f (promoted t) = f t) :
    s'.content.map f + (old : Multiset ProbeTask).map f =
      if attempt = .enqueued then f task ::ₘ s.content.map f else s.content.map f := by
  have hp {nodes : FiniteMap String ActiveRecord} :
      ((s.withNodes nodes).promoteQueued task).1.content.map f +
        (((s.withNodes nodes).promoteQueued task).2 : Multiset ProbeTask).map f =
      s.content.map f := (promotion_withNodes hfirst nodes task).content hf
  cases h with
  | failed | skipped | full => exact add_zero _
  | fullManual => exact hp
  | strict =>
    rw [enqueueTaskLocked, content_appendTask, Multiset.map_cons]
    exact add_zero _
  | periodic =>
    rw [content_appendTask, Multiset.map_cons]
    exact add_zero _
  | manual =>
    rw [content_insertTask, Multiset.map_cons, Multiset.cons_add]
    exact congrArg (f task ::ₘ ·) hp

theorem Submitted.sameWorkers : SameWorkers s s' := by
  have hp (nodes : FiniteMap String ActiveRecord) :
      SameWorkers s ((s.withNodes nodes).promoteQueued task).1 :=
    (sameWorkers_withNodes s nodes).trans (promotion_withNodes hfirst nodes task).frame.sameWorkers
  cases h with
  | @failed err nodes | @full nodes => exact sameWorkers_withNodes s nodes
  | skipped => exact sameWorkers_withNodes s s.activeNodes
  | @fullManual nodes => exact hp nodes
  | @strict nodes | @periodic nodes => exact (sameWorkers_withNodes s _).trans (sameWorkers_appendTask _ task)
  | @manual nodes =>
    exact ((hp nodes).trans (sameWorkers_withNodes _ _)).trans (sameWorkers_insertTask _ task)

theorem Submitted.callbacks : s'.callbacks = if attempt = .enqueued then s.callbacks + 1 else s.callbacks := by
  have hp {nodes : FiniteMap String ActiveRecord} :
      ((s.withNodes nodes).promoteQueued task).1.callbacks = s.callbacks := by
    rw [(promotion_withNodes hfirst nodes task).frame]
  cases h with
  | @manual nodes =>
    change ((s.withNodes nodes).promoteQueued task).1.callbacks + 1 = s.callbacks + 1
    rw [hp]
  | fullManual => exact hp
  | _ => rfl

end

end

end ProbeScheduler

end ClashSubParser
