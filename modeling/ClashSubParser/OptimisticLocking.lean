import ClashSubParser.PolicySnapshots
import ClashSubParser.VersionedHistory
import Mathlib

/-! Optimistic locking of groups: when a group ID and a revision stand for one content. -/
namespace ClashSubParser

open List KeyedTable VersionedHistory

structure GroupContent where
  name : String
  groupType : GroupType
  emptyFallbackPass : Bool
  sources : List MemberSource
deriving DecidableEq

namespace PolicyStore

def contents (st : PolicyStore) : Moment String Int GroupContent := fun id =>
  (st.groups.get? id).map (fun row =>
    (row.revision, ⟨row.name, row.groupType, row.emptyFallbackPass, st.fetchSourcesForGroup id⟩))

section

variable {rt : Runtime} {st st' : PolicyStore}

theorem contents_of_get? {id : String} {row : GroupRow} (h : st.groups.get? id = some row) :
    ∃ c, st.contents id = some (row.revision, c) := by
  rw [contents, h]
  exact ⟨_, rfl⟩

theorem exists_row_of_contents {id : String} {revision : Int} {c : GroupContent}
    (h : st.contents id = some (revision, c)) : ∃ row, st.groups.get? id = some row ∧ row.revision = revision := by
  obtain ⟨row, hr, heq⟩ := Option.map_eq_some_iff.mp h
  exact ⟨row, hr, congrArg Prod.fst heq⟩

theorem contents_eq_none {id : String} (h : st.groups.get? id = none) : st.contents id = none := by
  rw [contents, h]
  rfl

theorem Saved.contents_of_ne {group : NodeGroup} {expected next : Int} {given : List MemberSource}
    {inserted : List SourceRow} (h : Saved rt st group expected given st' next inserted) {id : String}
    (hne : id ≠ group.id) : st'.contents id = st.contents id := by
  have hg : st'.groups.get? id = st.groups.get? id := by
    rw [h.groups]
    exact Table.get?_put_of_ne _ _ hne
  rw [contents, contents, hg, h.fetchSourcesForGroup_of_ne hne]

theorem Saved.contents_self {group : NodeGroup} {expected next : Int} {given : List MemberSource}
    {inserted : List SourceRow} (h : Saved rt st group expected given st' next inserted) :
    ∃ c, st'.contents group.id = some (next, c) := by
  have hg : st'.groups.get? group.id = some (groupRow group next) := by
    rw [h.groups]
    exact Table.get?_put_self _ (groupRow group next)
  exact contents_of_get? hg

theorem contents_removeGroup {id : String} (h : st.removeGroup id = .ok st') (k : String) :
    st'.contents k = if k = id then none else st.contents k := by
  obtain ⟨hgs, hs⟩ := removeGroup_ok h
  have hg : st'.groups.get? k = if k = id then none else st.groups.get? k := by
    rw [hgs]
    exact Table.get?_delete _ k id
  split_ifs at hg ⊢ with hk
  · exact contents_eq_none hg
  · have hf : st'.fetchSourcesForGroup k = st.fetchSourcesForGroup k := by
      rw [fetchSourcesForGroup, hs, filter_sources_of_ne hk]
      rfl
    rw [contents, contents, hg, hf]

end

inductive Call
  | save (newID : ℕ → Except GoError String) (group : NodeGroup) (expected : Int) (sources : List MemberSource)
  | delete (id : String)
  | restore (snapshot : Except GoError (List NodeGroup)) (expected : RevisionVector)

section

variable (rt : Runtime)

def perform (st : PolicyStore) : Call → Except GoError PolicyStore
  | .save newID group expected sources => (st.saveGroupWithSources rt newID group expected sources).map Prod.fst
  | .delete id => st.deleteGroup rt id
  | .restore snapshot expected => st.restorePolicySnapshot rt snapshot expected

end

end PolicyStore

open PolicyStore

structure Execution where
  past : List PolicyStore
  now : PolicyStore

namespace Execution

def states (e : Execution) : List PolicyStore := e.now :: e.past

def start (st : PolicyStore) : Execution := ⟨[], st⟩

def Renewable (e : Execution) (id : String) (bound : Int) : Prop :=
  match e.now.groups.get? id with
  | some row => int64 (row.revision+1) = row.revision+1
  | none => ∀ st ∈ e.past, ∀ row ∈ st.groups.rows, row.id = id → row.revision ≤ bound

/-- A save starts a group at revision 1, a restore above the revision of the snapshot. A save that
expects a revision starts no group. -/
def Orderly (e : Execution) : Call → Prop
  | .save _ group expected _ => (0 < expected ∧ group.id ∉ e.now.groups.keys) ∨ e.Renewable group.id 0
  | .delete _ => True
  | .restore (.error _) _ => True
  | .restore (.ok groups) _ =>
    ∀ g ∈ groups, int64 (g.revision+1) = g.revision+1 ∧ e.Renewable g.id (max 0 g.revision)

variable (rt : Runtime)

def next (e : Execution) (call : Call) : Execution where
  past := e.states
  now :=
    match e.now.perform rt call with
    | .ok st' => st'
    | .error _ => e.now

def run (e : Execution) (calls : List Call) : Execution := calls.foldl (next rt) e

def OrderlyRun (e : Execution) : List Call → Prop
  | [] => True
  | call :: calls => e.Orderly call ∧ OrderlyRun (e.next rt call) calls

variable {rt} {e : Execution}

/-- A row that goes above the current one, or above `bound` where the group is absent, is a step of a
versioned history. -/
theorem Renewable.step {id : String} {bound revision : Int} {next : PolicyStore}
    (h : e.Renewable id bound) {c : GroupContent} (hn : next.contents id = some (revision, c))
    (hs : ∀ row, e.now.groups.get? id = some row → row.revision < revision)
    (hab : e.now.groups.get? id = none → bound < revision) :
    Step (e.past.map contents) e.now.contents next.contents id := by
  unfold Renewable at h
  cases hg : e.now.groups.get? id with
  | some row =>
    obtain ⟨d, hno⟩ := contents_of_get? hg
    exact Step.bump hno hn (hs row hg)
  | none =>
    rw [hg] at h
    refine Step.insert (contents_eq_none hg) hn ?_
    intro m hm u d hmk
    obtain ⟨st, hst, rfl⟩ := mem_map.mp hm
    obtain ⟨row, hr, rfl⟩ := exists_row_of_contents hmk
    obtain ⟨hme, hid⟩ := Table.get?_eq_some.mp hr
    have hle : row.revision ≤ bound := h st hst row hme hid
    have hlt : bound < revision := hab hg
    omega

theorem Renewable.int64_succ {id : String} {bound : Int} (h : e.Renewable id bound) {row : GroupRow}
    (hg : e.now.groups.get? id = some row) : int64 (row.revision+1) = row.revision+1 := by
  rwa [Renewable, hg] at h

theorem step_save {newID : ℕ → Except GoError String} {group saved : NodeGroup} {expected : Int}
    {sources : List MemberSource} {st' : PolicyStore} (h : e.Orderly (.save newID group expected sources))
    (hs : e.now.saveGroupWithSources rt newID group expected sources = .ok (st', saved)) (k : String) :
    Step (e.past.map contents) e.now.contents st'.contents k := by
  obtain ⟨next, inserted, hsv⟩ := saveGroupWithSources_ok hs
  by_cases hk : k = group.id
  · subst hk
    obtain ⟨c, hse⟩ := hsv.contents_self
    have hr := hsv.revision
    unfold nextRevision at hr
    rcases h with ⟨he, hab⟩ | hre
    · -- without the group, an expected revision is a conflict
      rw [Table.get?_eq_none.mpr hab, if_pos he] at hr
      contradiction
    · refine hre.step hse ?_ ?_
      · intro row hg
        have hf := hre.int64_succ hg
        rw [hg] at hr
        dsimp only at hr
        split_ifs at hr
        have hn := Except.ok.inj hr
        omega
      · intro hg
        rw [hg] at hr
        split_ifs at hr
        have hn := Except.ok.inj hr
        omega
  · exact Step.keep (hsv.contents_of_ne hk)

theorem step_restore {snapshot : Except GoError (List NodeGroup)} {expected : RevisionVector}
    {st' : PolicyStore} (h : e.Orderly (.restore snapshot expected))
    (hre : e.now.restorePolicySnapshot rt snapshot expected = .ok st') (k : String) :
    Step (e.past.map contents) e.now.contents st'.contents k := by
  obtain ⟨groups, rfl, hro⟩ := restorePolicySnapshot_ok hre
  cases hge : st'.groups.get? k with
  | none => exact Step.drop (contents_eq_none hge)
  | some row =>
    obtain ⟨c, hn⟩ := contents_of_get? hge
    obtain ⟨hm, rfl⟩ := Table.get?_eq_some.mp hge
    obtain ⟨g, hg, rfl⟩ := hro row hm
    obtain ⟨hs, hr⟩ := h g hg
    refine hr.step hn ?_ ?_
    · intro current hc
      exact lt_restoreRevision hs hc (hr.int64_succ hc)
    · intro hc
      exact max_lt_restoreRevision hs hc

theorem step_next {call : Call} (h : e.Orderly call) (k : String) :
    Step (e.past.map contents) e.now.contents (e.next rt call).now.contents k := by
  unfold next
  cases hp : e.now.perform rt call with
  | error err => exact Step.keep rfl
  | ok st' =>
    cases call with
    | save newID group expected sources =>
      cases hs : e.now.saveGroupWithSources rt newID group expected sources with
      | error err => simp [perform, hs, Except.map] at hp
      | ok r =>
        simp only [perform, hs, Except.map, Except.ok.injEq] at hp
        subst hp
        exact step_save h hs k
    | delete id =>
      have hc := contents_removeGroup (deleteGroup_ok hp) k
      split_ifs at hc
      · exact Step.drop hc
      · exact Step.keep hc
    | restore snapshot expected => exact step_restore h hp k

theorem history_run : ∀ {calls : List Call} {e : Execution}, History (e.states.map contents) →
    OrderlyRun rt e calls → History ((e.run rt calls).states.map contents) := by
  intro calls
  induction calls with
  | nil => exact fun h _ => h
  | cons call calls ih =>
    intro e h ho
    apply ih _ ho.2
    exact History.step h (step_next ho.1)

/-- Optimistic locking is sound along every orderly run: a group ID and a revision never stand for two
contents, and a save that expects a revision finds the content its caller saw at that revision. -/
theorem optimistic_locking {st₀ : PolicyStore} {calls : List Call} (h : OrderlyRun rt (start st₀) calls) :
    let e := (start st₀).run rt calls
    (∀ s ∈ e.states, ∀ t ∈ e.states, ∀ id revision c d, s.contents id = some (revision, c) →
      t.contents id = some (revision, d) → c = d) ∧
    ∀ newID group expected sources st' saved, 0 < expected →
      e.now.saveGroupWithSources rt newID group expected sources = .ok (st', saved) →
      ∃ c, e.now.contents group.id = some (expected, c) ∧
        ∀ s ∈ e.past, ∀ d, s.contents group.id = some (expected, d) → d = c := by
  intro e
  have hh : History (e.states.map contents) := history_run (History.start _) h
  have hco : ∀ s ∈ e.states, ∀ t ∈ e.states, ∀ id revision c d, s.contents id = some (revision, c) →
      t.contents id = some (revision, d) → c = d := by
    intro s hs t ht id revision c d hc hd
    exact hh.content_eq (mem_map_of_mem hs) (mem_map_of_mem ht) hc hd
  refine ⟨hco, ?_⟩
  intro newID group expected sources st' saved hp hsa
  obtain ⟨next, inserted, hsv⟩ := saveGroupWithSources_ok hsa
  have hr := hsv.revision
  unfold nextRevision at hr
  cases hget : e.now.groups.get? group.id with
  | none =>
    rw [hget] at hr
    simp [hp] at hr
  | some row =>
    rw [hget] at hr
    dsimp only at hr
    split_ifs at hr with hcn
    have hcu : row.revision = expected := by
      by_contra hne
      exact hcn ⟨hp, fun heq => hne heq.symm⟩
    obtain ⟨c, hc⟩ := contents_of_get? hget
    rw [hcu] at hc
    refine ⟨c, hc, fun s hs d hd => ?_⟩
    exact hco s (mem_cons_of_mem _ hs) e.now mem_cons_self _ _ d c hd hc

/-- Save `A` under a name, without sources. -/
def saveNamed (name : String) (expected : Int) : Call :=
  .save (fun _ => .ok "") { id := idA, name := name, groupType := .select } expected []

theorem optimistic_locking_two_saves :
    let calls := [saveNamed "first" 0, saveNamed "second" 1]
    let e := (start PolicyStore.empty).run asciiRuntime calls
    OrderlyRun asciiRuntime (start PolicyStore.empty) calls ∧
    ∀ s ∈ e.states, ∀ t ∈ e.states, ∀ id revision c d, s.contents id = some (revision, c) →
      t.contents id = some (revision, d) → c = d := by
  intro calls e
  have ho : OrderlyRun asciiRuntime (start PolicyStore.empty) calls := by
    refine ⟨.inr ?_, .inr ?_, trivial⟩
    · intro st hst
      exact absurd hst not_mem_nil
    · change int64 (1+1) = 1+1
      decide
  exact ⟨ho, (optimistic_locking ho).1⟩

/-- `A` is deleted and created again: revision 1 then stands for a second content, and a save that
expects revision 1 goes through. -/
theorem revision_reused :
    let e := (start PolicyStore.empty).run asciiRuntime [saveNamed "first" 0, .delete idA, saveNamed "second" 0]
    let shown (st : PolicyStore) := (st.contents idA).map (fun entry => (entry.1, entry.2.name))
    e.states.map shown = [some (1, "second"), none, some (1, "first"), none] ∧
    (e.now.perform asciiRuntime (saveNamed "third" 1)).toOption.map shown = some (some (2, "third")) := by
  decide

end Execution

end ClashSubParser
