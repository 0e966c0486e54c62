import ClashSubParser.RunObservations

/-! The pairs of a run in every phase of `Run`: before its stages, in them, and while it records what was not
executed. -/
namespace ClashSubParser

open List AssocTotals RunnerState

/-- The writes of observations succeed, and the query finds every listed node active, in scope and no notice. -/
def RunnerAction.isRegular (cfg : DefaultRunner) (req : RunRequest) : RunnerAction → Bool
  | .list db _ => req.nodeIDs.all (db.isProbeable cfg.targetScope)
  | .store _ ok => ok
  | .record ok => ok
  | _ => true

namespace RunnerSystem

structure Untouched (r : RunnerState) : Prop where
  targets : r.targets = []
  tasks : r.tasks = ∅
  seen : r.seen = []
  observations : r.observations = []

section

variable (chosen : List Node → List ProbeKind → Prop) (covers : Multiset ProbePair → Multiset ProbePair → Prop)

structure InStage (s : RunnerSystem) (stage : ProbeStage) (rest : List (Node × ProbeKind)) : Prop where
  chosen : chosen s.runner.targets s.runner.kinds
  earlier : ∀ call t, s.runner.tasks.lookup call = some t →
    call ∈ s.runner.stageCalls ∨ s.sched.isOver call = true
  books : ∃ done, s.runner.Books (stage.index + 1) rest done

structure Settled (s : RunnerSystem) (rest : List (Node × ProbeKind)) : Prop where
  chosen : chosen s.runner.targets s.runner.kinds
  ended : ∀ call t, s.runner.tasks.lookup call = some t → s.sched.isOver call = true
  recorded : covers (s.runner.observedPairs + (rest.map pairOf : List ProbePair)) s.runner.plannedPairs

/-- The accounts of a run in every phase: `chosen` holds of its targets and kinds, and `covers` of what it has
stored or is about to record and what it planned. -/
def Accounted (s : RunnerSystem) : Prop :=
  match s.runner.phase with
  | .entered => Untouched s.runner
  | .marking => Untouched s.runner
  | .selecting _ found => Untouched s.runner ∧ (found.map Node.logicalID).Nodup
  | .submitting stage rest _ => InStage chosen s stage rest
  | .waiting stage => InStage chosen s stage []
  | .draining stage => InStage chosen s stage []
  | .recording _ _ rest => Settled chosen covers s rest
  | .returned _ => Untouched s.runner ∨ Settled chosen covers s []

/-- What the accounts need of an action: the targets that it lists are chosen, and an observation that is not
stored can be missing. -/
structure Allows (cfg : DefaultRunner) (req : RunRequest) (action : RunnerAction) : Prop where
  planned : ∀ targets kinds, chosen targets kinds → Planned targets kinds
  refl : ∀ m, covers m m
  lists : ∀ db, action = .list db true → req.nodeIDs ≠ [] →
    targetsOf req.nodeIDs (db.list (cfg.targetQuery req.nodeIDs)).1 ≠ [] →
    chosen (targetsOf req.nodeIDs (db.list (cfg.targetQuery req.nodeIDs)).1) (validKinds req.kinds)
  pages : ∀ targets, req.nodeIDs = [] → (targets.map Node.logicalID).Nodup → targets ≠ [] →
    chosen targets (validKinds req.kinds)
  records : action = .record false → ∀ m n p, covers (m + n) p → covers m p

end

/-- The targets and kinds are those of the request, as far as the query found them. -/
structure Chosen (cfg : DefaultRunner) (req : RunRequest) (targets : List Node) (kinds : List ProbeKind) : Prop where
  nonempty : targets ≠ []
  kinds : kinds = validKinds req.kinds
  targets : ∃ db : NodeTables, (∀ id ∈ req.nodeIDs, db.isProbeable cfg.targetScope id = true) ∧
    targets = targetsOf req.nodeIDs (db.list (cfg.targetQuery req.nodeIDs)).1

theorem Chosen.planned {cfg : DefaultRunner} {req : RunRequest} {targets : List Node} {kinds : List ProbeKind}
    (h : Chosen cfg req targets kinds) (hnd : req.nodeIDs.Nodup) (hks : req.kinds.Nodup) :
    Planned targets kinds := by
  obtain ⟨db, -, ht⟩ := h.targets
  refine ⟨?_, ?_, ?_⟩
  · rw [ht]
    exact nodup_targets hnd _
  · rw [h.kinds]
    exact nodup_validKinds hks
  · rw [h.kinds]
    exact fun k hk => isValid_of_mem_validKinds hk

section

variable {chosen : List Node → List ProbeKind → Prop} {covers : Multiset ProbePair → Multiset ProbePair → Prop}
  {cfg : DefaultRunner} {req : RunRequest} {s s' : RunnerSystem}
  {action : RunnerAction} {r' r : RunnerState} {call : ℕ} {t : RunnerTask}

/-- What the accounts of a run rest on is as before, but for submissions that ended. -/
structure SameAccounts (s s' : RunnerSystem) : Prop where
  history : s.sched.history ⊆ s'.sched.history
  targets : s'.runner.targets = s.runner.targets
  kinds : s'.runner.kinds = s.runner.kinds
  tasks : s'.runner.tasks = s.runner.tasks
  calls : s'.runner.stageCalls = s.runner.stageCalls
  seen : s'.runner.seen = s.runner.seen
  observations : s'.runner.observations = s.runner.observations

theorem InStage.congr {stage : ProbeStage} {rest : List (Node × ProbeKind)} (h : InStage chosen s stage rest)
    (hs : SameAccounts s s') : InStage chosen s' stage rest := by
  obtain ⟨done, hbk⟩ := h.books
  refine ⟨by rw [hs.targets, hs.kinds]; exact h.chosen, ?_, done, ?_⟩
  · intro call t ht
    rw [hs.tasks] at ht
    rw [hs.calls]
    exact (h.earlier call t ht).imp_right (SchedulerSystem.isOver_mono hs.history)
  · refine hbk.congr hs.seen hs.observations hs.targets hs.kinds ?_ ?_
    · rw [livePairs, hs.tasks, livePairs]
    · rw [storedPairs, hs.tasks, storedPairs]

theorem Settled.congr {rest : List (Node × ProbeKind)} (h : Settled chosen covers s rest)
    (hs : SameAccounts s s') : Settled chosen covers s' rest := by
  refine ⟨by rw [hs.targets, hs.kinds]; exact h.chosen, ?_, ?_⟩
  · intro call t ht
    rw [hs.tasks] at ht
    exact SchedulerSystem.isOver_mono hs.history (h.ended call t ht)
  · rw [observedPairs, hs.observations, plannedPairs, plan, hs.targets, hs.kinds]
    exact h.recorded

theorem Untouched.congr (h : Untouched r) (ht : r'.targets = r.targets)
    (hts : r'.tasks = r.tasks) (hs : r'.seen = r.seen) (ho : r'.observations = r.observations) :
    Untouched r' :=
  ⟨ht ▸ h.targets, hts ▸ h.tasks, hs ▸ h.seen, ho ▸ h.observations⟩

section

variable (h : Accounted chosen covers s)
include h

theorem Accounted.congr (hph : s'.runner.phase = s.runner.phase) (hs : SameAccounts s s') :
    Accounted chosen covers s' := by
  have hu (hr : Untouched s.runner) : Untouched s'.runner :=
    hr.congr hs.targets hs.tasks hs.seen hs.observations
  rw [Accounted] at h ⊢
  rw [hph]
  cases hp : s.runner.phase with
  | entered | marking => rw [hp] at h; exact hu h
  | selecting page found => rw [hp] at h; exact ⟨hu h.1, h.2⟩
  | submitting stage rest current | waiting stage | draining stage => rw [hp] at h; exact InStage.congr h hs
  | recording r meter rest => rw [hp] at h; exact Settled.congr h hs
  | returned r => rw [hp] at h; exact h.imp hu (·.congr hs)

theorem Accounted.untouched (hea : s.runner.phase.isEarly = true) : Untouched s.runner := by
  rw [Accounted] at h
  cases hp : s.runner.phase with
  | entered | marking => rw [hp] at h; exact h
  | selecting page found => rw [hp] at h; exact h.1
  | _ =>
    rw [hp] at hea
    contradiction

theorem Accounted.in_stage (ht : s.runner.tasks.lookup call = some t) (ho : ¬ s.sched.isOver call = true) :
    ∃ stage rest, InStage chosen s stage rest ∧
      ∀ s' : RunnerSystem, s'.runner.phase = s.runner.phase → InStage chosen s' stage rest →
        Accounted chosen covers s' := by
  have hu (hr : Untouched s.runner) : False := by
    rw [hr.tasks, AList.lookup_empty] at ht
    contradiction
  have hse {rest : List (Node × ProbeKind)} (hs : Settled chosen covers s rest) : False := ho (hs.ended call t ht)
  rw [Accounted] at h
  cases hp : s.runner.phase with
  | entered | marking => rw [hp] at h; exact (hu h).elim
  | selecting page found => rw [hp] at h; exact (hu h.1).elim
  | submitting stage rest current =>
    rw [hp] at h
    refine ⟨stage, rest, h, fun s' hph hs => ?_⟩
    rw [Accounted, hph]
    exact hs
  | waiting stage | draining stage =>
    rw [hp] at h
    refine ⟨stage, [], h, fun s' hph hs => ?_⟩
    rw [Accounted, hph]
    exact hs
  | recording r meter rest => rw [hp] at h; exact (hse h).elim
  | returned r => rw [hp] at h; exact (h.elim hu hse).elim

theorem Accounted.writes {t' : RunnerTask}
    (ht : s.runner.tasks.lookup call = some t) (ho : ¬ s.sched.isOver call = true)
    (hsc : s'.sched = s.sched) (hph : s'.runner.phase = s.runner.phase)
    (htg : s'.runner.targets = s.runner.targets) (hks : s'.runner.kinds = s.runner.kinds)
    (hts : s'.runner.tasks = s.runner.tasks.insert call t') (hcs : s'.runner.stageCalls = s.runner.stageCalls)
    (hbk : ∀ n rest done, s.runner.Books n rest done → ∃ done', s'.runner.Books n rest done') :
    Accounted chosen covers s' := by
  obtain ⟨stage, rest, hs, hb⟩ := h.in_stage ht ho
  obtain ⟨done, hd⟩ := hs.books
  refine hb s' hph ⟨by rw [htg, hks]; exact hs.chosen, ?_, hbk _ _ _ hd⟩
  rw [hsc, hcs, hts]
  exact forall_insert hs.earlier (hs.earlier call t ht)

end

theorem accounted_onward {sched : SchedulerSystem} {n : ℕ} {done : Multiset ProbePair} (hal : ∀ m, covers m m)
    (hbk : r.Books n [] done) (hc : chosen r.targets r.kinds) (hp : Planned r.targets r.kinds)
    (hs : r.storedPairs = 0) (ho : ∀ call t, r.tasks.lookup call = some t → sched.isOver call = true)
    (hon : r.Onward n r') : Accounted chosen covers ⟨sched, r'⟩ := by
  cases hon with
  | finish state result =>
    refine ⟨hc, ho, ?_⟩
    have hf := hbk.finishes hp hs
    change covers (r.observedPairs + _) r.plannedPairs
    rw [hf]
    exact hal _
  | start stage hn hks => exact ⟨hc, fun call t ht => .inr (ho call t ht), done, hbk.starts hp hn hks⟩

theorem accounted_expand {sched : SchedulerSystem} {ts : List Node} (hal : ∀ m, covers m m) (hr : Untouched r)
    (hpl : ∀ targets kinds, chosen targets kinds → Planned targets kinds)
    (hc : ts ≠ [] → chosen ts (validKinds req.kinds)) :
    Accounted chosen covers ⟨sched, r.expand cfg req.kinds ts⟩ := by
  rw [expand]
  dsimp only
  split_ifs with he
  · exact .inl (hr.congr rfl rfl rfl rfl)
  · exact .inl (hr.congr rfl rfl rfl rfl)
  · have hl : livePairs { r with targets := ts, kinds := validKinds req.kinds } = 0 := by
      rw [livePairs, hr.tasks]
      rfl
    have hs : storedPairs { r with targets := ts, kinds := validKinds req.kinds } = 0 := by
      rw [storedPairs, hr.tasks]
      rfl
    have hbk : Books { r with targets := ts, kinds := validKinds req.kinds } 0 [] 0 := by
      refine ⟨?_, ?_, ?_, ?_⟩
      · rw [hr.seen]
        rfl
      · rw [hs]
        rw [hr.observations]
        rfl
      · rw [hl]
        exact Multiset.nodup_zero
      · rw [hl]
        exact fun p hp => absurd hp (Multiset.notMem_zero p)
    refine accounted_onward hal hbk (hc he) (hpl _ _ (hc he)) hs ?_ onward_beginStages
    intro call t ht
    rw [hr.tasks, AList.lookup_empty] at ht
    contradiction

theorem InStage.ends {stage : ProbeStage} (h : InStage chosen s stage []) (hlk : s.Linked) (hal : ∀ m, covers m m)
    (hpl : ∀ targets kinds, chosen targets kinds → Planned targets kinds) (ho : s.stageOver = true)
    (hon : s.runner.Onward (stage.index + 1) r) : Accounted chosen covers { s with runner := r } := by
  have ha (call : ℕ) (t : RunnerTask) (ht : s.runner.tasks.lookup call = some t) : s.sched.isOver call = true :=
    (h.earlier call t ht).elim (all_eq_true.mp ho call) id
  have hs : s.runner.storedPairs = 0 := by
    apply total_eq_zero
    intro call t ht
    rcases hlk.phase_of_isOver ht (ha call t ht) with hph | hph <;> rw [storedShare, hph]
  obtain ⟨done, hbk⟩ := h.books
  exact accounted_onward hal hbk h.chosen (hpl _ _ h.chosen) hs ha hon

theorem Linked.not_over (h : s.Linked) (ht : s.runner.tasks.lookup call = some t)
    (hb : t.phase ≠ .submitted) (hl : t.phase ≠ .returned) : ¬ s.sched.isOver call = true :=
  fun ho => h.ledger.not_executing_of_isOver ho (h.running call t ht hb hl)

theorem TaskMoves.accounted (hm : TaskMoves s action s') (hlk : s.Linked) (h : Accounted chosen covers s) :
    Accounted chosen covers s' := by
  cases hm with
  | @scheduler a sched hp hs =>
    have hm := SchedulerSystem.moves_of_step hs
    have hmv : Accounted chosen covers ⟨sched, s.runner⟩ :=
      h.congr rfl ⟨hm.history_subset, rfl, rfl, rfl, rfl, rfl, rfl⟩
    rcases called_cases hlk hs with hsa | ⟨call, t, ht, hph, he, hcd⟩
    · rw [hsa]
      exact hmv
    · -- a task that begins is not over
      have hle := hm.ledger hlk.sound hlk.ledger
      have ho : ¬ sched.isOver call = true := fun ho => hle.not_executing_of_isOver ho he
      rw [hcd]
      refine hmv.writes ht ho rfl rfl rfl rfl rfl rfl fun n rest done hbk => ⟨done, ?_⟩
      exact hbk.advances ht (by simp [hph]) (by simp) (by rw [storedShare, hph]) rfl
  | environment => exact h.congr rfl ⟨List.Subset.refl _, rfl, rfl, rfl, rfl, rfl, rfl⟩
  | @advances _ call t phase hta hb hc =>
    have hse : t.phase ≠ .submitted := by
      rcases hb with hph | hph <;> simp [hph]
    have hr : t.phase ≠ .returned := by
      rcases hb with hph | hph <;> simp [hph]
    have hst : storedShare t = 0 := by
      rcases hb with hph | hph <;> rw [storedShare, hph]
    refine h.writes hta (hlk.not_over hta hse hr) rfl rfl rfl rfl rfl rfl
      fun n rest done hbk => ⟨done, ?_⟩
    rcases hc with ⟨-, rfl⟩ | ⟨_, -, rfl⟩ <;> exact hbk.advances hta hr (by simp) hst rfl
  | givesUp hta hph =>
    refine h.writes hta (hlk.not_over hta (by simp [hph]) (by simp [hph])) rfl rfl rfl rfl rfl rfl
      fun n rest done hbk => ⟨done, ?_⟩
    exact hbk.returns hta (by simp [hph]) (by rw [storedShare, hph])
  | stores hta hph =>
    refine h.writes hta (hlk.not_over hta (by simp [hph]) (by simp [hph])) rfl rfl rfl rfl rfl rfl
      fun n rest done hbk => ⟨done, ?_⟩
    exact hbk.stores hta hph
  | @returns _ _ t _ _ _ _ _ _ _ hta hc =>
    rcases hc with ⟨rfl, hph, hseen⟩ | ⟨rfl, hph, rfl⟩
    · -- the pair stays unseen, and is recorded later
      refine h.writes hta (hlk.not_over hta (by simp [hph]) (by simp [hph])) rfl rfl rfl rfl rfl rfl
        fun n rest done hbk => ⟨done, ?_⟩
      exact (hbk.returns hta (by simp [hph]) (by rw [storedShare, hph])).congr hseen rfl rfl rfl rfl rfl
    · refine h.writes hta (hlk.not_over hta (by simp [hph]) (by simp [hph])) rfl rfl rfl rfl rfl rfl
        fun n rest done hbk => ⟨done + {t.pair}, ?_⟩
      exact (hbk.marks hta hph).congr rfl rfl rfl rfl rfl rfl

theorem RunMoves.accounted (hm : RunMoves cfg req s action s') (hal : Allows chosen covers cfg req action)
    (hlk : s.Linked) (h : Accounted chosen covers s) : Accounted chosen covers s' := by
  cases hm with
  | turnsAway hea => exact .inl ((h.untouched hea).congr rfl rfl rfl rfl)
  | prepares hea hid hn =>
    have hr := h.untouched hea
    rcases hn with rfl | ⟨page, found, rfl, rfl | ⟨page', before, chunk, hph, rfl⟩⟩
    · exact hr.congr rfl rfl rfl rfl
    · exact ⟨hr.congr rfl rfl rfl rfl, nodup_nil⟩
    · rw [Accounted, hph] at h
      exact ⟨hr.congr rfl rfl rfl rfl, nodup_addUnseen h.2 chunk⟩
  | @lists db page found hph hids =>
    rw [Accounted, hph] at h
    exact accounted_expand hal.refl h.1 hal.planned (hal.lists db rfl hids)
  | @listsLast db page found chunk hph hno =>
    rw [Accounted, hph] at h
    exact accounted_expand hal.refl h.1 hal.planned (hal.pages _ hno (nodup_addUnseen h.2 chunk))
  | @submits stage n k rest sched hph hs =>
    have hm := SchedulerSystem.moves_of_step hs
    rw [Accounted, hph] at h
    obtain ⟨done, hbk⟩ := h.books
    have hne : s.runner.tasks.lookup s.sched.nextCall = none := by
      by_contra hsome
      obtain ⟨t, ht⟩ := Option.ne_none_iff_exists'.mp hsome
      exact absurd (hlk.numbered _ t ht) (lt_irrefl _)
    refine ⟨h.chosen, ?_, done, hbk.submits hne rfl rfl rfl rfl rfl⟩
    refine forall_insert (fun call t ht => ?_) (.inl (mem_append_right _ (mem_singleton.mpr rfl)))
    exact (h.earlier call t ht).imp (mem_append_left _) (SchedulerSystem.isOver_mono hm.history_subset)
  | submitted hph =>
    rw [Accounted, hph] at h
    exact h.congr ⟨Subset.refl _, rfl, rfl, rfl, rfl, rfl, rfl⟩
  | submitsLast submitErr hac hph =>
    rw [Accounted, hph] at h
    obtain ⟨done, hbk⟩ := h.books
    have hl : InStage chosen s _ [] := ⟨h.chosen, h.earlier, done, hbk.drop_rest⟩
    exact hl.congr ⟨Subset.refl _, rfl, rfl, rfl, rfl, rfl, rfl⟩
  | cancels hph hs =>
    rw [Accounted, hph] at h
    exact h.congr ⟨(SchedulerSystem.moves_of_step hs).history_subset, rfl, rfl, rfl, rfl, rfl, rfl⟩
  | @ends a stage runner hac hph ho hon =>
    have hst : InStage chosen s stage [] := by
      rcases hph with hph | hph
      · rw [Accounted, hph] at h
        exact h
      · rw [Accounted, hph] at h
        exact h
    exact hst.ends hlk hal.refl hal.planned ho hon
  | @records ok result meter n k rest hph =>
    rw [Accounted, hph] at h
    refine ⟨h.chosen, h.ended, ?_⟩
    have hrc := h.recorded
    rw [map_cons, ← Multiset.cons_coe, ← Multiset.singleton_add, ← add_assoc] at hrc
    cases ok with
    | true =>
      change covers ((((s.runner.observations ++ [s.runner.observeMissing meter n k]).map RunObservation.pair :
        List ProbePair) : Multiset ProbePair) + (rest.map pairOf : List ProbePair)) s.runner.plannedPairs
      rw [map_append, ← Multiset.coe_add]
      exact hrc
    | false =>
      rw [add_right_comm] at hrc
      exact hal.records rfl _ _ _ hrc
  | leaves hph =>
    rw [Accounted, hph] at h
    exact .inr (h.congr ⟨Subset.refl _, rfl, rfl, rfl, rfl, rfl, rfl⟩)

theorem Moves.accounted (hm : Moves cfg req s action s') (hal : Allows chosen covers cfg req action)
    (hlk : s.Linked) (h : Accounted chosen covers s) : Accounted chosen covers s' := by
  cases hm with
  | beside hm => exact hm.accounted hlk h
  | own hm => exact hm.accounted hal hlk h

/-- Regular actions choose the nodes of the request, and what is stored is what was planned. -/
theorem allows_of_isRegular (hi : req.nodeIDs ≠ []) (hnd : req.nodeIDs.Nodup) (hks : req.kinds.Nodup)
    (hre : action.isRegular cfg req = true) : Allows (Chosen cfg req) (· = ·) cfg req action where
  planned targets kinds h := h.planned hnd hks
  refl m := rfl
  lists db ha _ hne := ⟨hne, rfl, db, by
    subst ha
    exact all_eq_true.mp hre, rfl⟩
  pages targets h := absurd h hi
  records ha := by
    subst ha
    contradiction

end

end RunnerSystem

end ClashSubParser
