import ClashSubParser.GroupResolution
import ClashSubParser.JsonEncoding
import ClashSubParser.Resolver

/-! The members `Resolve` computes for a group are the specified ones. -/
namespace ClashSubParser

open MemoRecursion StableSort

section

variable {rt : Runtime} {enc : Encoder} {clock : Clock}

theorem resolve_eq_ok_iff {ctxErr : Option GoError} {input : ResolveInput} {snap : ResolvedPolicySnapshot} :
    resolve rt enc clock ctxErr input = .ok snap ↔
      ctxErr = none ∧ validateInput rt (normalizeInput input) = .ok () ∧
      snapshotOf rt enc clock (normalizeInput input) = snap := by
  cases ctxErr with
  | some err => simp [resolve]
  | none =>
    cases h : validateInput rt (normalizeInput input) with
    | error err | ok u => simp [resolve, h]

theorem validateInput_ok_iff {input : ResolveInput} : validateInput rt (normalizeInput input) = .ok () ↔
      validatePolicyTopology rt (normalizeInput input).groups [] input.policyRules false = .ok () ∧
      validateGlobalFilter rt input.globalFilter = .ok () := by
  have hn : forEach (validateNodeFilter rt) (normalizeInput input).groups = .ok () := by
    rw [forEach_ok_iff]
    intro g hg
    obtain ⟨g', -, rfl⟩ := List.mem_map.mp hg
    rfl
  rw [validateInput, FirstError.bind_unit_eq_ok_iff, FirstError.bind_unit_eq_ok_iff, FirstError.bind_unit_eq_ok_iff]
  exact ⟨fun h => ⟨h.1, h.2.1⟩, fun h => ⟨h.1, h.2, rfl, hn⟩⟩

theorem groupIDs_normalizeInput (input : ResolveInput) :
    groupIDs (normalizeInput input).groups = groupIDs input.groups := by
  simp [groupIDs, normalizeInput]

theorem length_normalizeInput (input : ResolveInput) :
    (normalizeInput input).groups.length = input.groups.length := by
  simp [normalizeInput]

theorem ranked_of_topology {groups : List NodeGroup} {rank : String → ℕ} {ctx : GroupContext}
    (hc : ctx.groupMap = mapOf (·.id) groups) (hok : EntriesOk rt groups [])
    (hr : RankOf groups [] rank) {depth : ℕ} (hd : groups.length < depth) : ctx.Ranked depth rank := by
  refine ⟨fun k => Nat.lt_of_le_of_lt (hr.bound k) hd, ?_⟩
  intro gid g hg s hs hk k htg
  rw [hc] at hg
  obtain ⟨hm, rfl⟩ := mapOf_some hg
  have hsr := checkSources_ok_iff.mp (hok.source g hm) s hs
  obtain ⟨t, ht, hst⟩ := sourceTarget_of_valid (checkSource_ok_iff.mp hsr).1 hk
  obtain rfl : t = k := by rw [ht] at htg; exact Option.some.inj htg
  exact hr.falls g.id t (refers_iff.mpr (Or.inr ⟨g, hm, rfl, s, hs, hst⟩))

theorem exists_ranked {input : ResolveInput} (h : validateInput rt (normalizeInput input) = .ok ()) :
    ∃ rank, ∀ depth, input.groups.length < depth →
      (resolveContext rt clock (normalizeInput input)).Ranked depth rank := by
  obtain ⟨hok, ⟨rank, hr⟩, -⟩ := validatePolicyTopology_ok_iff.mp (validateInput_ok_iff.mp h).1
  refine ⟨rank, fun depth hd => ranked_of_topology rfl hok hr ?_⟩
  rwa [length_normalizeInput]

theorem exists_ranked_fuel {input : ResolveInput} (h : validateInput rt (normalizeInput input) = .ok ()) :
    ∃ rank, (resolveContext rt clock (normalizeInput input)).Ranked
      ((normalizeInput input).groups.length+1) rank := by
  obtain ⟨rank, hr⟩ := @exists_ranked rt clock input h
  refine ⟨rank, hr _ ?_⟩
  rw [length_normalizeInput]
  exact Nat.lt_succ_self _

end

/-- For every accepted input, whatever groups were asked for before: the members of a group are the
specified fold over its sorted sources, and the re-entry guard has never answered. -/
theorem resolveGroupMemo_members_eq_spec {rt : Runtime} {enc : Encoder} {clock : Clock}
    {ctxErr : Option GoError} {input : ResolveInput} {snap : ResolvedPolicySnapshot}
    (hres : resolve rt enc clock ctxErr input = .ok snap) (hids : (groupIDs input.groups).Nodup)
    (order : List String) {g : NodeGroup} (hg : g ∈ (normalizeInput input).groups) {depth : ℕ}
    (hdepth : input.groups.length < depth) :
    let ctx := resolveContext rt clock (normalizeInput input)
    let fuel := (normalizeInput input).groups.length+1
    let st := resolveMany rt ctx fuel order MemoState.init
    (resolveGroupMemo rt ctx fuel g.id st).1.members = specMembers rt ctx depth g ∧
    (resolveGroupMemo rt ctx fuel g.id st).2.guardHits = 0 := by
  intro ctx fuel st
  obtain ⟨-, hva, -⟩ := resolve_eq_ok_iff.mp hres
  obtain ⟨rank, hr⟩ := @exists_ranked rt clock input hva
  have hf : ctx.Ranked fuel rank := by
    apply hr
    rw [← length_normalizeInput]
    exact Nat.lt_succ_self _
  have hm : ctx.groupMap g.id = some g := by
    apply mapOf_eq_some _ hg
    rw [← groupIDs_normalizeInput] at hids
    exact hids
  have hst : Settled rt ctx fuel st := (settled_init fuel).resolveMany hf (Nat.le_refl _) order
  obtain ⟨hv, ha⟩ := hst.resolve hf (Nat.le_refl _) g.id
  refine ⟨?_, ha.guardHits⟩
  rw [hv, hf.solves.unique (hr depth hdepth).solves]
  exact (groupValue_meets (hr depth hdepth) hm).members

def sampleNode (logicalID displayName : String) : Node where
  logicalID := logicalID
  protocol := .trojan
  displayName := displayName
  server := "example.org"
  port := 443
  credentials := { password := "p" }
  active := true
  connectionRevision := 1

def nodeHK : Node := sampleNode "node_00000000000000aa" "HK-1"

def nodeUS : Node := sampleNode "node_00000000000000bb" "US-1"

def manualSource (n : Node) (position : Int) : MemberSource where
  id := ""
  groupID := ""
  operation := .add
  kind := .manualNode
  position := position
  nodeLogicalID := some n.logicalID

def groupNodesOf (target : String) (position : Int) : MemberSource where
  id := ""
  groupID := ""
  operation := .add
  kind := .groupNodes
  position := position
  targetGroupID := some target

def removeMatching (pattern : String) (position : Int) : MemberSource where
  id := ""
  groupID := ""
  operation := .remove
  kind := .regex
  position := position
  pattern := some pattern

def sampleGroup (id name : String) (sources : List MemberSource) : NodeGroup where
  id := id
  name := name
  groupType := .select
  sources := sources

/-- `B` takes the nodes of `A`, drops one of them, takes it back and refers to `A`. -/
def readdInput : ResolveInput where
  nodes := [nodeHK, nodeUS]
  groups :=
    [sampleGroup idB "B" [groupNodesOf idA 0, removeMatching "hk" 1, manualSource nodeHK 2, groupRefTo idA 3],
     sampleGroup idA "A" [manualSource nodeHK 0, manualSource nodeUS 1]]
  asOf := 63000000000000000000

def sampleClock : Clock := ⟨63000000000000000000, 63000000000000000000, 63000000000000000000⟩

theorem resolve_sample (input : ResolveInput) (h : validateInput asciiRuntime (normalizeInput input) = .ok ()) :
    resolve asciiRuntime jsonEncoder sampleClock none input =
      .ok (snapshotOf asciiRuntime jsonEncoder sampleClock (normalizeInput input)) :=
  resolve_eq_ok_iff.mpr ⟨rfl, h, rfl⟩

/-- Asked for after `A` has been resolved, `B` has the member that came back in its new place. -/
theorem readdInput_members :
    let ctx := resolveContext asciiRuntime sampleClock (normalizeInput readdInput)
    (resolveGroupMemo asciiRuntime ctx 3 idB (resolveMany asciiRuntime ctx 3 [idA] MemoState.init)).1.members =
      [⟨.node, nodeUS.logicalID, "US-1", 0⟩, ⟨.node, nodeHK.logicalID, "HK-1", 1⟩,
       ⟨.group, idA, "A", 2⟩] := by
  have hr := resolve_sample readdInput (by decide)
  have hB : (normalizeInput readdInput).groups[0] ∈ (normalizeInput readdInput).groups := by decide
  have hd : readdInput.groups.length < 3 := by decide
  have h := (resolveGroupMemo_members_eq_spec hr (by decide) [idA] hB hd).1
  exact h.trans (by decide)

end ClashSubParser
