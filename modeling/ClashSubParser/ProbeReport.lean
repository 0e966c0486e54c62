import ClashSubParser.ObservedRuns

/-! The report of a maintenance probe: its rows come from one page of the nodes, its total from their number. -/
namespace ClashSubParser

open Function List RunnerSystem

/-- An observation as `SyncEvidenceData` leaves it, with the category of its attempt and the code of its detail. -/
structure ReportedObservation extends ProbeObservation where
  nodeLogicalID : String
  connectionRevision : Option Int
  category : Option String
  detailCode : String

/-- A row, with the observation whose other columns it copies. -/
structure ProbeReportRow where
  nodeID : String
  kind : ProbeKind
  status : String
  skipReason : String := ""
  errorCode : String := ""
  observation : Option ReportedObservation := none

inductive TaskCounter
  | completed | failed | skipped | restricted | unknown | cancelled | budgetNotExecuted | stale
deriving DecidableEq

structure ProbeSummary where
  totalNodesTargeted : ℕ
  totalTasksScheduled : ℕ
  availableNodes : ℕ
  tasks : TaskCounter → ℕ := fun _ => 0
  rows : List ProbeReportRow := []

/-- The query of `executeProbe`. -/
def probeQuery : NodeQuery := ⟨.enabledSubscriptions, true, [], true, 1, 10000⟩

def ReportedObservation.status (o : ReportedObservation) (n : Node) : String :=
  if o.connectionRevision ≠ some n.connectionRevision then "stale"
  else o.category.getD (if o.verdict = .error then "fail" else o.verdict.text)

def counterOf (status : String) : TaskCounter :=
  if status = "available" then .completed
  else if status ∈ ["fail", "error"] then .failed
  else if status = "restricted" then .restricted
  else if status ∈ ["cancelled", "deadline_exceeded"] then .cancelled
  else if status = "budget_not_executed" then .budgetNotExecuted
  else if status = "dependency_skipped" then .skipped
  else if status ∈ ["stale", "configuration_mismatch"] then .stale
  else .unknown

section

variable (obs : List ReportedObservation) (n : Node)

/-- The entry of `obsMap`: a later observation replaces an earlier one. -/
def observed (kind : ProbeKind) : Option ReportedObservation :=
  (obs.filter (fun o => o.nodeLogicalID = n.logicalID && o.kind = kind)).getLast?

def passedAlive : Bool := (observed obs n .baseline).any (·.verdict = .available)

/-- The row for a node and a kind, with the counter that goes up with it. -/
def taskRow (kind : ProbeKind) : TaskCounter × ProbeReportRow :=
  let row : ProbeReportRow := { nodeID := n.logicalID, kind := kind, status := "cancelled" }
  match observed obs n kind with
  | some o =>
    let status := o.status n
    (counterOf status,
      { row with
        status := status
        skipReason := if status = "dependency_skipped" then "alive_gating_dependency_failed" else ""
        errorCode := if o.detailCode ≠ "" then o.detailCode else if status = "fail" then "probe_failed" else ""
        observation := some o })
  | none =>
    if kind ≠ .baseline ∧ passedAlive obs n = false then
      (.skipped,
        { row with
          status := "skipped", skipReason := "alive_gating_dependency_failed", errorCode := "dependency_skipped" })
    else (.cancelled, { row with skipReason := "task_not_completed", errorCode := "incomplete" })

end

def ProbeSummary.addTask (s : ProbeSummary) (t : TaskCounter × ProbeReportRow) : ProbeSummary :=
  { s with rows := s.rows ++ [t.2], tasks := update s.tasks t.1 (s.tasks t.1 + 1) }

/-- `executeProbe` without a dry run, once the run is over and its observations are read. -/
def executeProbe (db : NodeTables) (kinds : List ProbeKind) (obs : List ReportedObservation) : ProbeSummary :=
  let (nodes, total) := db.list probeQuery
  (nodes.flatMap fun n => kinds.map (taskRow obs n)).foldl ProbeSummary.addTask
    { totalNodesTargeted := total
      totalTasksScheduled := total * kinds.length
      availableNodes := nodes.countP (passedAlive obs) }

namespace ProbeSummary

def counted (s : ProbeSummary) : ℕ := s.tasks .completed + s.tasks .failed + s.tasks .skipped + s.tasks .restricted +
  s.tasks .unknown + s.tasks .cancelled + s.tasks .budgetNotExecuted + s.tasks .stale

def pairs (s : ProbeSummary) : List (String × ProbeKind) := s.rows.map (fun row => (row.nodeID, row.kind))

/-- One row for each pair of an active node in scope and a kind, and every scheduled task in one counter. -/
def Accounts (s : ProbeSummary) (db : NodeTables) (kinds : List ProbeKind) : Prop :=
  (s.pairs.Nodup ∧ ∀ id kind, (id, kind) ∈ s.pairs ↔ id ∈ (db.matching probeQuery).map (·.logicalID) ∧ kind ∈ kinds) ∧
    s.counted = s.totalTasksScheduled

theorem counted_addTask (s : ProbeSummary) (t : TaskCounter × ProbeReportRow) :
    (s.addTask t).counted = s.counted + 1 := by
  obtain ⟨counter, row⟩ := t
  cases counter <;> simp [counted, addTask, update] <;> omega

theorem foldl_addTask (ts : List (TaskCounter × ProbeReportRow)) : ∀ s : ProbeSummary,
    (ts.foldl addTask s).rows = s.rows ++ ts.map Prod.snd ∧ (ts.foldl addTask s).counted = s.counted + ts.length ∧
      (ts.foldl addTask s).totalTasksScheduled = s.totalTasksScheduled := by
  induction ts with
  | nil => simp
  | cons t ts ih =>
    intro s
    obtain ⟨hr, hc, ht⟩ := ih (s.addTask t)
    rw [counted_addTask] at hc
    refine ⟨hr.trans ?_, hc.trans ?_, ht⟩
    · rw [addTask, append_assoc, singleton_append, map_cons]
    · rw [length_cons]
      omega

end ProbeSummary

section

variable (db : NodeTables) (kinds : List ProbeKind) (obs : List ReportedObservation)

theorem pairs_executeProbe :
    (executeProbe db kinds obs).pairs = ((db.list probeQuery).1.map (·.logicalID)) ×ˢ kinds := by
  have hrow (n : Node) (kind : ProbeKind) :
      ((taskRow obs n kind).2.nodeID, (taskRow obs n kind).2.kind) = (n.logicalID, kind) := by
    rw [taskRow]
    dsimp only
    split
    · rfl
    · split_ifs <;> rfl
  rw [ProbeSummary.pairs, executeProbe, (ProbeSummary.foldl_addTask _ _).1]
  simp only [nil_append, map_flatMap, map_map, comp_def, hrow]
  exact (flatMap_map Node.logicalID (fun id => kinds.map (Prod.mk id)) _).symm

theorem counted_executeProbe : (executeProbe db kinds obs).counted = (db.list probeQuery).1.length * kinds.length ∧
    (executeProbe db kinds obs).totalTasksScheduled = (db.matching probeQuery).length * kinds.length := by
  obtain ⟨-, hc, ht⟩ := ProbeSummary.foldl_addTask ((db.list probeQuery).1.flatMap fun n => kinds.map (taskRow obs n))
    ⟨_, (db.matching probeQuery).length * kinds.length, (db.list probeQuery).1.countP (passedAlive obs), fun _ => 0, []⟩
  refine ⟨hc.trans ?_, ht⟩
  simp [ProbeSummary.counted, length_flatMap]

/-- The counters add up to the rows, and each row is for a scheduled task of its own. -/
theorem report_rows_subperm : (executeProbe db kinds obs).counted = (executeProbe db kinds obs).rows.length ∧
    (executeProbe db kinds obs).pairs <+~ ((db.matching probeQuery).map (·.logicalID)) ×ˢ kinds := by
  obtain ⟨rest, hperm, -⟩ := @NodeTables.list_first_page db probeQuery rfl
  have hl := congrArg length (pairs_executeProbe db kinds obs)
  rw [ProbeSummary.pairs, length_map, length_product, length_map] at hl
  rw [hl, (counted_executeProbe db kinds obs).1, pairs_executeProbe]
  refine ⟨rfl, Subperm.trans ?_ (hperm.product_right kinds).subperm⟩
  rw [SProd.sprod, instSProd, product, flatMap_append]
  exact (sublist_append_left _ _).subperm

/-- The report accounts for every task if and only if there is none, or the kinds are distinct and the nodes fit on
the longest page of the repository. -/
theorem report_accounts_iff (db : NodeTables) (kinds : List ProbeKind) (obs : List ReportedObservation) :
    (executeProbe db kinds obs).Accounts db kinds ↔ kinds = [] ∨ db.matching probeQuery = [] ∨
      (kinds.Nodup ∧ (db.matching probeQuery).length ≤ 100) := by
  obtain ⟨rest, hperm, hlen⟩ := @NodeTables.list_first_page db probeQuery rfl
  obtain ⟨hc, ht⟩ := counted_executeProbe db kinds obs
  have hsize : probeQuery.effectivePageSize = 100 := rfl
  rw [hsize] at hlen
  rw [ProbeSummary.Accounts, pairs_executeProbe, hc, ht, hlen]
  constructor
  · rintro ⟨⟨hnd, -⟩, heq⟩
    by_cases hk : kinds = []
    · exact .inl hk
    by_cases hm : db.matching probeQuery = []
    · exact .inr (.inl hm)
    have hmin := Nat.eq_of_mul_eq_mul_right (length_pos_of_ne_nil hk) heq
    have hpos := length_pos_of_ne_nil hm
    refine .inr (.inr ⟨?_, by omega⟩)
    cases hp : (db.list probeQuery).1 with
    | nil =>
      rw [hp, length_nil] at hlen
      omega
    | cons n page =>
      rw [hp, map_cons, product_cons] at hnd
      exact hnd.of_append_left.of_map
  · rintro (rfl | hm | ⟨hnd, hle⟩)
    · simp
    · have hp : (db.list probeQuery).1 = [] := by
        rw [← length_eq_zero_iff, hlen, hm]
        rfl
      simp [hp, hm]
    · have hr : rest = [] := by
        have hl := hperm.length_eq
        rw [length_append, length_map, length_map, hlen] at hl
        exact length_eq_zero_iff.mp (by omega)
      rw [hr, append_nil] at hperm
      refine ⟨⟨(hperm.nodup_iff.mpr NodeTables.nodup_matching).product hnd, ?_⟩, by rw [Nat.min_eq_right hle]⟩
      intro id kind
      exact pair_mem_product.trans (and_congr_left fun _ => hperm.mem_iff)

/-- Of 101 nodes one has no row, and its task is in no counter. -/
theorem exists_uncounted_task : ∃ db : NodeTables, (executeProbe db [.baseline] []).counted = 100 ∧
    (executeProbe db [.baseline] []).totalTasksScheduled = 101 := by
  let db := loneNodes manyIDs nodup_manyIDs
  have hm : db.matching probeQuery = manyIDs.map probeNode := by
    refine filter_eq_self.mpr fun n hn => ?_
    obtain ⟨id, hid, rfl⟩ := mem_map.mp hn
    have hp : db.isProbeable .enabledSubscriptions id = true := isProbeable_loneNodes nodup_manyIDs _ hid
    simp only [NodeTables.isProbeable, Bool.and_eq_true, ne_eq, not_true_eq_false, decide_false, Bool.false_or] at hp
    simp [NodeTables.admits, probeQuery, probeNode, hp.1.2, hp.2]
  obtain ⟨-, -, hlen⟩ := @NodeTables.list_first_page db probeQuery rfl
  obtain ⟨hc, ht⟩ := counted_executeProbe db [.baseline] []
  rw [hlen, hm, length_map] at hc
  rw [hm, length_map] at ht
  exact ⟨db, hc, ht⟩

end

end ClashSubParser
