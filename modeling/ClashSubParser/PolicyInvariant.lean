import ClashSubParser.PolicyService

/-! Whole runs of group commands: the stored groups pass `ValidatePolicyTopology` after any of them. -/
namespace ClashSubParser

open List FirstError KeyedTable ThreeColorDfs Except

/-- The graph `groups`, `edges` was accepted, and it has every group and every reference that storing
`given` as the sources of `group` leaves behind. -/
structure Covers (rt : Runtime) (st : PolicyStore) (group : NodeGroup) (given : List MemberSource)
    (groups : List NodeGroup) (edges : EdgeMap) : Prop where
  accepted : ∃ b, validatePolicyTopology rt groups edges [] b = .ok ()
  old : ∀ g ∈ st.listGroups, g.id ≠ group.id → g ∈ groups
  new : ∃ g ∈ groups, g.id = group.id ∧ g.name = group.name ∧ g.groupType = group.groupType
  refers : ∀ s ∈ given, ∀ v, sourceTarget s = some v → Refers groups edges group.id v

section

variable {rt : Runtime} {st st' : PolicyStore} {group : NodeGroup} {expected next : Int}
  {given : List MemberSource} {inserted : List SourceRow} {groups : List NodeGroup} {edges : EdgeMap}

theorem validatePolicyRules_nil (ids : List String) (b : Bool) : validatePolicyRules rt [] ids b = .ok () :=
  rfl

theorem Covers.topology (h : Covers rt st group given groups edges)
    (hsv : st.Saved rt group expected given st' next inserted) (b : Bool) :
    validatePolicyTopology rt st'.listGroups [] [] b = .ok () := by
  obtain ⟨b₀, ha⟩ := h.accepted
  have hok : EntriesOk rt groups edges := (validatePolicyTopology_ok_iff.mp ha).1
  have he : ∀ g' ∈ st'.listGroups, ∀ s ∈ g'.sources, ∀ v, sourceTarget s = some v →
      v ∈ groupIDs st'.listGroups := by
    intro g' hg' s hs v hv
    obtain ⟨row, -, rfl⟩ := PolicyStore.mem_listGroups.mp hg'
    exact PolicyStore.sourceTarget_mem hs hv
  apply validatePolicyTopology_ok_of_refers ha
  · intro g' hg'
    rcases hsv.mem_listGroups.mp hg' with ⟨ho, hne⟩ | rfl
    · exact hok.group g' (h.old g' ho hne)
    · -- the saved row has the name and the type that were checked
      obtain ⟨g, hg, hid, hn, ht⟩ := h.new
      have hva : validateGroup rt g = .ok () := hok.group g hg
      rwa [validateGroup, hid, hn, ht] at hva
  · intro g' hg' s hs
    rcases hsv.mem_listGroups.mp hg' with ⟨ho, hne⟩ | rfl
    · have hm : g' ∈ groups := h.old g' ho hne
      have hsr := checkSources_ok_iff.mp (hok.source g' hm) s hs
      refine ⟨(checkSource_ok_iff.mp hsr).1, fun v hv => ⟨?_, he g' hg' s hs v hv⟩⟩
      exact refers_iff.mpr (.inr ⟨g', hm, rfl, s, hs, hv⟩)
    · obtain ⟨hva, s', hs', htg⟩ := hsv.exists_of_mem_fetch hs
      refine ⟨hva, fun v hv => ⟨?_, he _ hg' s hs v hv⟩⟩
      exact h.refers s' hs' v (htg ▸ hv)
  · exact validatePolicyRules_nil _ b

theorem topology_of_removeGroup {id : String} {b : Bool}
    (h : validatePolicyTopology rt st.listGroups [] [] b = .ok ()) (hre : st.removeGroup id = .ok st') :
    validatePolicyTopology rt st'.listGroups [] [] b = .ok () := by
  obtain ⟨hgs, hsr⟩ := PolicyStore.removeGroup_ok hre
  apply validatePolicyTopology_ok_of_part h
  · intro g' hg'
    obtain ⟨row, hr, rfl⟩ := PolicyStore.mem_listGroups.mp hg'
    rw [hgs] at hr
    have hm : st.groupOf row ∈ st.listGroups :=
      PolicyStore.mem_listGroups.mpr ⟨row, (Table.mem_deleteWhere.mp hr).1, rfl⟩
    refine ⟨st.groupOf row, hm, rfl, rfl, rfl, ?_⟩
    intro s hs
    obtain ⟨source, hso, hg, rfl⟩ := PolicyStore.mem_fetchSourcesForGroup.mp hs
    rw [hsr] at hso
    exact PolicyStore.mem_fetchSourcesForGroup.mpr ⟨source, (Table.mem_deleteWhere.mp hso).1, hg, rfl⟩
  · intro g' hg' s hs v hv
    obtain ⟨row, -, rfl⟩ := PolicyStore.mem_listGroups.mp hg'
    exact PolicyStore.sourceTarget_mem hs hv
  · exact validatePolicyRules_nil _ b

end

namespace PolicyService

section

variable {rt : Runtime} {env : ServiceEnv} {st st' : PolicyStore}

theorem newGroup_ok {cmd : CreateGroupCommand} {group : NodeGroup} (h : newGroup rt env cmd = .ok group) :
    newGroupID env cmd = .ok group.id := by
  rw [newGroup] at h
  rw [ite_invalid_eq_ok, ite_invalid_eq_ok, bind_eq_ok_iff] at h
  obtain ⟨-, -, groupID, hid, h⟩ := h
  rw [ite_invalid_eq_ok, bind_eq_ok_iff] at h
  obtain ⟨-, -, -, h⟩ := h
  obtain rfl := ok.inj h
  exact hid

theorem validatePolicyGraph_ok {gs : List NodeGroup} {edges : EdgeMap}
    (h : validatePolicyGraph rt gs edges [] [] = .ok ()) :
    validatePolicyTopology rt gs edges [] true = .ok () := by
  obtain ⟨_, ht, -⟩ := bind_eq_ok_iff.mp h
  exact ht

theorem refers_of_editLegacySources {gid : String} {cur given : List MemberSource}
    {list : List GroupEdge} {changeFilter : Bool} {filter : Option NodeFilterSpec}
    (h : editLegacySources rt gid cur (some list) changeFilter filter = .ok given)
    {edges : EdgeMap} (hm : (gid, list) ∈ edges) (gs : List NodeGroup) {s : MemberSource}
    (hs : s ∈ given) {v : String} (hv : sourceTarget s = some v) : Refers gs edges gid v := by
  rcases exists_of_mem_editLegacySources h hs hv with ⟨list', hl, e, he, hev⟩ | ⟨hn, -⟩
  · cases hl
    exact refers_iff.mpr (.inl ⟨(gid, list), hm, rfl, e, he, hev⟩)
  · contradiction

theorem createGroup_ok {cmd : CreateGroupCommand} {view : GroupView}
    (h : createGroup rt env st cmd = .ok (st', view)) :
    ∃ group given next inserted gs edges, newGroupID env cmd = .ok group.id ∧
      st.Saved rt group 0 given st' next inserted ∧ Covers rt st group given gs edges := by
  obtain ⟨group, hgr, h⟩ := bind_eq_ok_iff.mp h
  obtain ⟨edges, -, h⟩ := bind_eq_ok_iff.mp h
  obtain ⟨_, hga, h⟩ := bind_eq_ok_iff.mp h
  obtain ⟨_, -, h⟩ := bind_eq_ok_iff.mp h
  have hid := newGroup_ok hgr
  split_ifs at h with he
  · obtain ⟨⟨st₁, saved⟩, hsa, h⟩ := bind_eq_ok_iff.mp h
    obtain ⟨rfl, -⟩ := Prod.mk.inj (ok.inj h)
    obtain ⟨current, expected, given, next, inserted, hb, hgv, hsv⟩ := PolicyStore.saveGroup_ok hsa
    obtain ⟨rfl, rfl⟩ := Prod.mk.inj (ok.inj hb)
    refine ⟨group, given, next, inserted, _, _, hid, hsv, ⟨true, validatePolicyGraph_ok hga⟩, ?_, ?_, ?_⟩
    · intro g hg _
      exact mem_append_left _ hg
    · exact ⟨group, mem_append_right _ (mem_singleton_self group), rfl, rfl, rfl⟩
    · intro s hs v hv
      exact refers_of_editLegacySources hgv (mem_append_right _ (mem_singleton_self _)) _ hs hv
  · obtain ⟨_, -, h⟩ := bind_eq_ok_iff.mp h
    obtain ⟨_, ht, h⟩ := bind_eq_ok_iff.mp h
    obtain ⟨⟨st₁, saved⟩, hsa, h⟩ := bind_eq_ok_iff.mp h
    obtain ⟨rfl, -⟩ := Prod.mk.inj (ok.inj h)
    obtain ⟨next, inserted, hsv⟩ := PolicyStore.saveGroupWithSources_ok hsa
    let numbered := { group with sources := numberSources group.id cmd.sources }
    refine ⟨numbered, _, next, inserted, _, _, hid, hsv, ⟨false, ht⟩, ?_, ?_, ?_⟩
    · intro g hg _
      exact mem_append_left _ hg
    · exact ⟨_, mem_append_right _ (mem_singleton_self _), rfl, rfl, rfl⟩
    · intro s hs v hv
      exact refers_iff.mpr
        (.inr ⟨_, mem_append_right _ (mem_singleton_self _), rfl, s, hs, hv⟩)

theorem changeNames_id {group group' : NodeGroup} {cmd : UpdateGroupCommand}
    (h : changeNames rt group cmd = .ok group') : group'.id = group.id := by
  simp only [changeNames, ite_invalid_eq_ok] at h
  rw [← ok.inj h.2.2]

theorem mem_replaceGroup_of_ne {group g : NodeGroup} : ∀ {list : List NodeGroup}, g ∈ list →
    g.id ≠ group.id → g ∈ replaceGroup group list := by
  intro list
  induction list with
  | nil => exact fun hg _ => hg
  | cons a rest ih =>
    intro hg hne
    rw [replaceGroup]
    split_ifs with ha
    · rcases mem_cons.mp hg with rfl | hg
      · exact absurd ha hne
      · exact mem_cons_of_mem _ hg
    · rcases mem_cons.mp hg with rfl | hg
      · exact mem_cons_self
      · exact mem_cons_of_mem _ (ih hg hne)

theorem mem_replaceGroup_self {group : NodeGroup} : ∀ {list : List NodeGroup}, group.id ∈ groupIDs list →
    group ∈ replaceGroup group list := by
  intro list
  induction list with
  | nil => simp [groupIDs]
  | cons a rest ih =>
    intro hid
    rw [replaceGroup]
    split_ifs with ha
    · exact mem_cons_self
    · rcases mem_cons.mp hid with heq | hid
      · exact absurd heq.symm ha
      · exact mem_cons_of_mem _ (ih hid)

theorem updateGroup_ok {cmd : UpdateGroupCommand} {view : GroupView}
    (h : updateGroup rt env st cmd = .ok (st', view)) : ∃ group expected given next inserted gs edges,
      st.Saved rt group expected given st' next inserted ∧ Covers rt st group given gs edges := by
  obtain ⟨stored, hst, h⟩ := bind_eq_ok_iff.mp h
  obtain ⟨group, hgr, h⟩ := bind_eq_ok_iff.mp h
  obtain ⟨⟨sources, expected⟩, -, h⟩ := bind_eq_ok_iff.mp h
  obtain ⟨_, -, h⟩ := bind_eq_ok_iff.mp h
  obtain ⟨_, -, h⟩ := bind_eq_ok_iff.mp h
  obtain ⟨_, ht, h⟩ := bind_eq_ok_iff.mp h
  obtain ⟨expected, -, h⟩ := bind_eq_ok_iff.mp h
  obtain ⟨⟨st₁, saved⟩, hsa, h⟩ := bind_eq_ok_iff.mp h
  obtain ⟨rfl, -⟩ := Prod.mk.inj (ok.inj h)
  obtain ⟨next, inserted, hsv⟩ := PolicyStore.saveGroupWithSources_ok hsa
  -- the group is stored, so it replaces an entry of the graph
  have hm : group.id ∈ groupIDs st.listGroups := by
    obtain ⟨row, hr, -, rfl⟩ := PolicyStore.getGroupByID_ok hst
    rw [changeNames_id hgr]
    exact mem_groupIDs.mpr ⟨_, PolicyStore.mem_listGroups.mpr ⟨row, hr, rfl⟩, rfl⟩
  refine ⟨_, expected, _, next, inserted, _, _, hsv, ⟨false, ht⟩, ?_, ?_, ?_⟩
  · intro g hg hne
    exact mem_replaceGroup_of_ne hg hne
  · exact ⟨_, mem_replaceGroup_self hm, rfl, rfl, rfl⟩
  · intro s hs v hv
    exact refers_iff.mpr (.inr ⟨_, mem_replaceGroup_self hm, rfl, s, hs, hv⟩)

theorem setGroupEdges_ok {cmd : SetGroupEdgesCommand} (h : setGroupEdges rt env st cmd = .ok st') :
    ∃ group expected given next inserted gs edges,
      st.Saved rt group expected given st' next inserted ∧ Covers rt st group given gs edges := by
  obtain ⟨_, -, h⟩ := bind_eq_ok_iff.mp h
  obtain ⟨edges, -, h⟩ := bind_eq_ok_iff.mp h
  obtain ⟨_, hgr, h⟩ := bind_eq_ok_iff.mp h
  obtain ⟨_, -, h⟩ := bind_eq_ok_iff.mp h
  obtain ⟨group, current, expected, given, next, inserted, hge, hgv, hsv⟩ :=
    PolicyStore.setEdgesForGroup_ok h
  obtain ⟨row, hr, hid, rfl⟩ := PolicyStore.getGroupByID_ok hge
  have hm : st.groupOf row ∈ st.listGroups := PolicyStore.mem_listGroups.mpr ⟨row, hr, rfl⟩
  refine ⟨_, expected, given, next, inserted, _, _, hsv, ⟨true, validatePolicyGraph_ok hgr⟩, ?_, ?_, ?_⟩
  · exact fun g hg _ => hg
  · exact ⟨_, hm, rfl, rfl, rfl⟩
  · intro s hs v hv
    refine refers_of_editLegacySources hgv (mem_map.mpr ⟨_, hm, ?_⟩) _ hs hv
    exact Prod.ext rfl (if_pos hid)

theorem deleteGroup_ok {id : String} (h : deleteGroup rt st id = .ok st') : st.removeGroup id = .ok st' := by
  obtain ⟨_, -, h⟩ := bind_eq_ok_iff.mp h
  exact PolicyStore.deleteGroup_ok h

end

inductive Command
  | createGroup (cmd : CreateGroupCommand)
  | updateGroup (cmd : UpdateGroupCommand)
  | setGroupEdges (cmd : SetGroupEdgesCommand)
  | deleteGroup (id : String)

section

variable (rt : Runtime)

def execute (env : ServiceEnv) (st : PolicyStore) : Command → Except GoError PolicyStore
  | .createGroup cmd => (createGroup rt env st cmd).map Prod.fst
  | .updateGroup cmd => (updateGroup rt env st cmd).map Prod.fst
  | .setGroupEdges cmd => setGroupEdges rt env st cmd
  | .deleteGroup id => deleteGroup rt st id

def step (st : PolicyStore) (call : ServiceEnv × Command) : PolicyStore :=
  match execute rt call.1 st call.2 with
  | .ok st' => st'
  | .error _ => st

def run (calls : List (ServiceEnv × Command)) : PolicyStore := calls.foldl (step rt) PolicyStore.empty

variable {rt}

theorem execute_ok {env : ServiceEnv} {st st' : PolicyStore} {command : Command}
    (h : execute rt env st command = .ok st') : (∃ group expected given next inserted gs edges,
      st.Saved rt group expected given st' next inserted ∧ Covers rt st group given gs edges) ∨
    ∃ id, st.removeGroup id = .ok st' := by
  -- a creation or an update also returns a view
  have hv {x : Except GoError (PolicyStore × GroupView)} (hx : x.map Prod.fst = .ok st') :
      ∃ view, x = .ok (st', view) := by
    cases x with
    | error err => contradiction
    | ok r => exact ⟨r.2, congrArg ok (Prod.ext (ok.inj hx) rfl)⟩
  cases command with
  | createGroup cmd =>
    obtain ⟨view, hc⟩ := hv h
    obtain ⟨group, given, next, inserted, gs, edges, -, hsv, hco⟩ := createGroup_ok hc
    exact .inl ⟨group, 0, given, next, inserted, gs, edges, hsv, hco⟩
  | updateGroup cmd =>
    obtain ⟨view, hu⟩ := hv h
    exact .inl (updateGroup_ok hu)
  | setGroupEdges cmd => exact .inl (setGroupEdges_ok h)
  | deleteGroup id => exact .inr ⟨id, deleteGroup_ok h⟩

/-- One call keeps the stored groups within what `ValidatePolicyTopology` accepts. -/
theorem topology_step {st : PolicyStore} {b : Bool}
    (h : validatePolicyTopology rt st.listGroups [] [] b = .ok ()) (call : ServiceEnv × Command) :
    validatePolicyTopology rt (step rt st call).listGroups [] [] b = .ok () := by
  unfold step
  cases hexecute : execute rt call.1 st call.2 with
  | error err => exact h
  | ok st' =>
    rcases execute_ok hexecute with ⟨_, _, _, _, _, _, _, hsv, hc⟩ | ⟨id, hr⟩
    · exact hc.topology hsv b
    · exact topology_of_removeGroup h hr

/-- After every run from the empty store the stored groups pass `ValidatePolicyTopology`: every stored
source is valid, refers to another stored group, and no cycle of references exists. -/
theorem run_topology (calls : List (ServiceEnv × Command)) (b : Bool) :
    validatePolicyTopology rt (run rt calls).listGroups [] [] b = .ok () ∧
    (∀ g ∈ (run rt calls).listGroups, ∀ s ∈ g.sources, validateMemberSource rt s = .ok () ∧
      ∀ v, sourceTarget s = some v → v ≠ g.id ∧ v ∈ groupIDs (run rt calls).listGroups) ∧
    ∀ path, ¬IsCycle (Refers (run rt calls).listGroups []) path := by
  have hp : validatePolicyTopology rt (run rt calls).listGroups [] [] b = .ok () := by
    have hst : ∀ (calls : List (ServiceEnv × Command)) (st : PolicyStore),
        validatePolicyTopology rt st.listGroups [] [] b = .ok () →
        validatePolicyTopology rt (calls.foldl (step rt) st).listGroups [] [] b = .ok () := by
      intro calls
      induction calls with
      | nil => exact fun st h => h
      | cons call calls ih => exact fun st h => ih _ (topology_step h call)
    apply hst
    rfl
  obtain ⟨hok, ⟨rank, hr⟩, -⟩ := validatePolicyTopology_ok_iff.mp hp
  refine ⟨hp, ?_, not_isCycle_of_rank rank hr.falls⟩
  intro g hg s hs
  exact checkSource_ok_iff.mp (checkSources_ok_iff.mp (hok.source g hg) s hs)

/-- A service without a node repository whose generated IDs are fixed. -/
def sampleEnv : ServiceEnv where
  nodeRepo := none
  groupID := .ok idB
  edgeID i := .ok ("edge-" ++ toString i)
  sourceID i := .ok ("source-" ++ toString i)

def createA : Command := .createGroup { id := idA, name := "A", groupType := .select }

def createB : Command :=
  .createGroup { name := " B ", groupType := .select, edges := [{ childGroupID := some idA }] }

-- the reference back from `A` is refused, and so is the deletion of `A`
example :
    let calls := [createA, createB, .setGroupEdges ⟨idA, [{ childGroupID := some idB }]⟩, .deleteGroup idA]
    (run asciiRuntime (calls.map (sampleEnv, ·))).listGroups.map
        (fun g => (g.id, g.name, g.sources.map (·.targetGroupID))) =
      [(idA, "A", []), (idB, "B", [some idA])] := by decide

end

section

variable {rt : Runtime} {env : ServiceEnv} {st st' : PolicyStore}

/-- A successful creation adds at most one group. It leaves every earlier group as it was exactly if the
ID it was given, or generated, is not the ID of a stored group. -/
theorem createGroup_unchanged_iff {cmd : CreateGroupCommand} {view : GroupView}
    (h : createGroup rt env st cmd = .ok (st', view)) : ((∀ g ∈ st.listGroups, g ∈ st'.listGroups) ↔
      ∀ id, newGroupID env cmd = .ok id → id ∉ groupIDs st.listGroups) ∧
    ∃ new, ∀ g ∈ st'.listGroups, g ∈ st.listGroups ∨ g = new := by
  obtain ⟨group, given, next, inserted, groups, -, hid, hsv, -⟩ := createGroup_ok h
  refine ⟨⟨?_, ?_⟩, st'.groupOf (PolicyStore.groupRow group next), ?_⟩
  · intro hf id hi' hm
    obtain rfl := ok.inj (hid.symm.trans hi')
    obtain ⟨g, hg, hgi⟩ := mem_groupIDs.mp hm
    obtain ⟨row, hro, rfl⟩ := PolicyStore.mem_listGroups.mp hg
    -- the stored group is overwritten, and its revision counts up
    have hn : int64 (row.revision+1) = next := by
      have hge : st.groups.get? group.id = some row := Table.get?_eq_some.mpr ⟨hro, hgi⟩
      have hr := hsv.revision
      rw [PolicyStore.nextRevision, hge] at hr
      simpa using hr
    rcases hsv.mem_listGroups.mp (hf _ hg) with ⟨-, hne⟩ | heq
    · exact hne hgi
    · have hs : row.revision = next := congrArg NodeGroup.revision heq
      exact int64_succ_ne row.revision (hn.trans hs.symm)
  · intro hfr g hg
    refine hsv.mem_listGroups.mpr (.inl ⟨hg, ?_⟩)
    intro heq
    exact hfr group.id hid (mem_groupIDs.mpr ⟨g, hg, heq⟩)
  · intro g hg
    rcases hsv.mem_listGroups.mp hg with ⟨ho, -⟩ | rfl
    · exact .inl ho
    · exact .inr rfl

def sampleStore : PolicyStore := run asciiRuntime ([createA, createB].map (sampleEnv, ·))

def createOther (id : String) : CreateGroupCommand := { id := id, name := "Other", groupType := .urltest }

theorem createGroup_under_new_id :
    ∃ st' view, createGroup asciiRuntime sampleEnv sampleStore (createOther idC) = .ok (st', view) ∧
      ∀ g ∈ sampleStore.listGroups, g ∈ st'.listGroups := by
  have hfr : idC ∉ groupIDs sampleStore.listGroups := by decide
  obtain ⟨⟨st', view⟩, h⟩ := exists_of_isOk (x := createGroup asciiRuntime sampleEnv sampleStore (createOther idC))
    (by decide)
  refine ⟨st', view, h, (createGroup_unchanged_iff h).1.mpr ?_⟩
  intro id hid
  obtain rfl : idC = id := ok.inj hid
  exact hfr

/-- Creating a group under the ID of `B` succeeds: it renames `B` and drops its reference to `A`. -/
theorem createGroup_under_stored_id :
    let shown (st : PolicyStore) :=
      st.listGroups.map (fun g => (g.id, g.name, g.revision, g.sources.map (·.targetGroupID)))
    shown sampleStore = [(idA, "A", 1, []), (idB, "B", 1, [some idA])] ∧
    (createGroup asciiRuntime sampleEnv sampleStore (createOther idB)).toOption.map (shown ·.1) =
      some [(idA, "A", 1, []), (idB, "Other", 2, [])] := by decide

end

end PolicyService

end ClashSubParser
