import ClashSubParser.MemberSources
import ClashSubParser.ThreeColorDfs

/-! `ValidatePolicyTopology`: which policy graphs it accepts and when it reports a cycle. -/
namespace ClashSubParser

open List FirstError ThreeColorDfs

/-- Legacy edges by parent, in the order one call ranges over the map. -/
abbrev EdgeMap := List (String × List GroupEdge)

variable (groups : List NodeGroup)

def groupIDs : List String := groups.map (·.id)

variable (edges : EdgeMap) (u : String)

def edgeTargets : List String :=
  (edges.filter (·.1 == u)).flatMap (fun entry => entry.2.filterMap (fun e => nonEmpty e.childGroupID))

def sourceTargets : List String :=
  (groups.filter (·.id == u)).flatMap (fun g => g.sources.filterMap sourceTarget)

/-- The list the source builds in `adj[u]`. -/
def adjacency : List String :=
  edgeTargets edges u ++ sourceTargets groups u

def neighbors : List String :=
  (adjacency groups edges u).insertionSort (· ≤ ·)

section

variable (rt : Runtime) (ids : List String)

def checkReference (parentID : String) (target : Option String) :
    Except GoError Unit :=
  match target with
  | none => .ok ()
  | some childID =>
    if childID = parentID then
      invalid rt "self_loop_forbidden"
        ("self-loop detected: parent group " ++ parentID ++ " cannot reference itself")
    else if childID ∉ ids then
      invalid rt "target_group_not_found"
        ("target child group " ++ childID ++ " does not exist in policy graph")
    else .ok ()

def checkEdge (parentID : String) (edge : GroupEdge) : Except GoError Unit :=
  match validateGroupEdge rt { edge with parentGroupID := parentID } with
  | .error e => .error e
  | .ok _ => checkReference rt ids parentID (nonEmpty edge.childGroupID)

def checkEdges (entry : String × List GroupEdge) : Except GoError Unit :=
  if entry.1 ∉ ids then
    invalid rt "parent_group_not_found"
      ("parent group " ++ entry.1 ++ " does not exist in policy graph")
  else forEach (checkEdge rt ids entry.1) entry.2

def checkSource (g : NodeGroup) (s : MemberSource) : Except GoError Unit :=
  match validateMemberSource rt s with
  | .error e => .error e
  | .ok _ => checkReference rt ids g.id (sourceTarget s)

def checkSources (g : NodeGroup) : Except GoError Unit :=
  forEach (checkSource rt ids g) g.sources

def cycleError (v : String) (path : List String) : DomainError :=
  let pathStr := Strings.join path " -> "
  { newValidationError rt "cycle_detected" ("cycle detected in policy graph: " ++ pathStr) with
    cyclePath := path
    details := [("cycle", pathStr), ("group_id", v)] }

def checkCycles (groups : List NodeGroup) (edges : EdgeMap) : Except GoError Unit :=
  match dfsAll (neighbors groups edges) groups.length ((groupIDs groups).insertionSort (· ≤ ·))
    State.init with
  | none => .error .outOfFuel
  | some (.error (v, path)) => .error (.domain (cycleError rt v path))
  | some (.ok _) => .ok ()

def validatePolicyTopology (groups : List NodeGroup) (edges : EdgeMap) (rules : List PolicyRule)
    (requireTerminalMatch : Bool) : Except GoError Unit := do
  forEach (validateGroup rt) groups
  forEach (checkEdges rt (groupIDs groups)) edges
  forEach (checkSources rt (groupIDs groups)) groups
  checkCycles rt groups edges
  validatePolicyRules rt rules (groupIDs groups) requireTerminalMatch

end

/-- The policy graph: `u` refers to `v` by a source of any operation or by a legacy edge. -/
def Refers (v : String) : Prop :=
  v ∈ adjacency groups edges u

structure RankOf (groups : List NodeGroup) (edges : EdgeMap) (rank : String → ℕ) : Prop where
  bound : ∀ u, rank u ≤ groups.length
  falls : ∀ u v, Refers groups edges u v → rank v < rank u

structure EntriesOk (rt : Runtime) (groups : List NodeGroup) (edges : EdgeMap) : Prop where
  group : ∀ g ∈ groups, validateGroup rt g = .ok ()
  edge : ∀ entry ∈ edges, checkEdges rt (groupIDs groups) entry = .ok ()
  source : ∀ g ∈ groups, checkSources rt (groupIDs groups) g = .ok ()

instance (groups : List NodeGroup) (edges : EdgeMap) (u v : String) :
    Decidable (Refers groups edges u v) :=
  inferInstanceAs (Decidable (v ∈ adjacency groups edges u))

variable {rt : Runtime} {groups : List NodeGroup} {ids : List String} {edges : EdgeMap} {u v : String}
  {rules : List PolicyRule} {b : Bool}

theorem mem_groupIDs : u ∈ groupIDs groups ↔ ∃ g ∈ groups, g.id = u := by
  simp [groupIDs]

theorem refers_iff : Refers groups edges u v ↔
      (∃ entry ∈ edges, entry.1 = u ∧ ∃ e ∈ entry.2, nonEmpty e.childGroupID = some v) ∨
      (∃ g ∈ groups, g.id = u ∧ ∃ s ∈ g.sources, sourceTarget s = some v) := by
  simp only [Refers, adjacency, edgeTargets, sourceTargets, mem_append, mem_flatMap,
    mem_filter, mem_filterMap, beq_iff_eq, and_assoc]

theorem checkReference_ok_iff {t : Option String} :
    checkReference rt ids u t = .ok () ↔ ∀ v, t = some v → v ≠ u ∧ v ∈ ids := by
  cases t with
  | none | some v => simp [checkReference]

theorem checkEdge_ok_iff {e : GroupEdge} : checkEdge rt ids u e = .ok () ↔
      validateGroupEdge rt { e with parentGroupID := u } = .ok () ∧
      ∀ v, nonEmpty e.childGroupID = some v → v ≠ u ∧ v ∈ ids := by
  rw [← @checkReference_ok_iff rt, checkEdge]
  cases validateGroupEdge rt { e with parentGroupID := u } with
  | error err | ok _ => simp

theorem checkSource_ok_iff {g : NodeGroup} {s : MemberSource} : checkSource rt ids g s = .ok () ↔
      validateMemberSource rt s = .ok () ∧ ∀ v, sourceTarget s = some v → v ≠ g.id ∧ v ∈ ids := by
  rw [← @checkReference_ok_iff rt, checkSource]
  cases validateMemberSource rt s with
  | error err | ok _ => simp

theorem checkEdges_ok_iff {entry : String × List GroupEdge} : checkEdges rt ids entry = .ok () ↔
      entry.1 ∈ ids ∧ ∀ e ∈ entry.2, checkEdge rt ids entry.1 e = .ok () := by
  rw [checkEdges, ite_invalid_eq_ok, forEach_ok_iff, not_not]

theorem checkSources_ok_iff {g : NodeGroup} :
    checkSources rt ids g = .ok () ↔ ∀ s ∈ g.sources, checkSource rt ids g s = .ok () :=
  forEach_ok_iff g.sources

theorem EntriesOk.refers (h : EntriesOk rt groups edges) (huv : Refers groups edges u v) :
    u ∈ groupIDs groups ∧ v ∈ groupIDs groups ∧ v ≠ u := by
  rcases refers_iff.mp huv with ⟨entry, hen, rfl, e, he, hv⟩ | ⟨g, hg, rfl, s, hs, hv⟩
  · obtain ⟨hu, ha⟩ := checkEdges_ok_iff.mp (h.edge entry hen)
    obtain ⟨hne, hm⟩ := (checkEdge_ok_iff.mp (ha e he)).2 v hv
    exact ⟨hu, hm, hne⟩
  · have ha := checkSources_ok_iff.mp (h.source g hg) s hs
    obtain ⟨hne, hm⟩ := (checkSource_ok_iff.mp ha).2 v hv
    exact ⟨mem_groupIDs.mpr ⟨g, hg, rfl⟩, hm, hne⟩

theorem mem_neighbors : v ∈ neighbors groups edges u ↔ Refers groups edges u v := by
  rw [neighbors, mem_insertionSort, Refers]

theorem checkCycles_cases (h : EntriesOk rt groups edges) :
    (∃ v path, checkCycles rt groups edges = .error (.domain (cycleError rt v path)) ∧
      IsCycle (Refers groups edges) path) ∨
    (checkCycles rt groups edges = .ok () ∧ ∃ rank, RankOf groups edges rank) := by
  have hR : (fun u v => v ∈ neighbors groups edges u) = Refers groups edges := by
    ext u v
    exact mem_neighbors
  have hi (u : String) : u ∈ (groupIDs groups).insertionSort (· ≤ ·) ↔ u ∈ groupIDs groups :=
    mem_insertionSort _
  have hl : (groupIDs groups).length = groups.length := by simp [groupIDs]
  have hcl : ∀ u ∈ groupIDs groups, ∀ v ∈ neighbors groups edges u, v ∈ groupIDs groups :=
    fun u _ v hv => (h.refers (mem_neighbors.mp hv)).2.1
  rcases dfsAll_spec hcl (hl.le) (fun v hv => (hi v).mp hv) with
    ⟨v, path, hr, hc⟩ | ⟨st, hr, rank, hra⟩
  · left
    rw [hR] at hc
    exact ⟨v, path, by simp only [checkCycles, hr], hc⟩
  · right
    -- names outside the graph get the rank below all groups
    refine ⟨by simp only [checkCycles, hr],
      fun u => if u ∈ groupIDs groups then rank u+1 else 0, ?_, ?_⟩
    · intro u
      split_ifs with hu
      · have := (hra u ((hi u).mpr hu)).1
        omega
      · omega
    · intro u v huv
      obtain ⟨hu, hv, -⟩ := h.refers huv
      have hf := (hra u ((hi u).mpr hu)).2 v (mem_neighbors.mpr huv)
      simp only [hu, hv, if_true]
      omega

theorem validatePolicyTopology_ok_iff : validatePolicyTopology rt groups edges rules b = .ok () ↔
      EntriesOk rt groups edges ∧ (∃ rank, RankOf groups edges rank) ∧
      validatePolicyRules rt rules (groupIDs groups) b = .ok () := by
  have hen : EntriesOk rt groups edges ↔ forEach (validateGroup rt) groups = .ok () ∧
      forEach (checkEdges rt (groupIDs groups)) edges = .ok () ∧
      forEach (checkSources rt (groupIDs groups)) groups = .ok () := by
    rw [forEach_ok_iff, forEach_ok_iff, forEach_ok_iff]
    exact ⟨fun h => ⟨h.group, h.edge, h.source⟩, fun h => ⟨h.1, h.2.1, h.2.2⟩⟩
  rw [validatePolicyTopology, bind_unit_eq_ok_iff, bind_unit_eq_ok_iff, bind_unit_eq_ok_iff, bind_unit_eq_ok_iff,
    hen]
  constructor
  · rintro ⟨hg, he, hs, hc, hr⟩
    refine ⟨⟨hg, he, hs⟩, ?_, hr⟩
    rcases checkCycles_cases (hen.mpr ⟨hg, he, hs⟩) with ⟨v, path, hb, -⟩ | ⟨-, hra⟩
    · rw [hb] at hc
      contradiction
    · exact hra
  · rintro ⟨⟨hg, he, hs⟩, ⟨rank, hra⟩, hr⟩
    refine ⟨hg, he, hs, ?_, hr⟩
    rcases checkCycles_cases (hen.mpr ⟨hg, he, hs⟩) with ⟨v, path, -, hcy⟩ | ⟨hok, -⟩
    · exact absurd hcy (not_isCycle_of_rank rank hra.falls path)
    · exact hok

theorem exists_rankOf (h : EntriesOk rt groups edges) {rank : String → ℕ}
    (hf : ∀ u v, Refers groups edges u v → rank v < rank u) : ∃ rank, RankOf groups edges rank := by
  rcases checkCycles_cases h with ⟨v, path, -, hc⟩ | ⟨-, hr⟩
  · exact absurd hc (not_isCycle_of_rank rank hf path)
  · exact hr

section

variable (h : validatePolicyTopology rt groups edges rules b = .ok ())
include h

/-- A graph of valid groups and sources is accepted if it only has references of an accepted one, between
its own groups. -/
theorem validatePolicyTopology_ok_of_refers {gs' : List NodeGroup} {rules' : List PolicyRule} {b' : Bool}
    (hgr : ∀ g' ∈ gs', validateGroup rt g' = .ok ())
    (hsr : ∀ g' ∈ gs', ∀ s ∈ g'.sources, validateMemberSource rt s = .ok () ∧
      ∀ v, sourceTarget s = some v → Refers groups edges g'.id v ∧ v ∈ groupIDs gs')
    (hrl : validatePolicyRules rt rules' (groupIDs gs') b' = .ok ()) :
    validatePolicyTopology rt gs' [] rules' b' = .ok () := by
  obtain ⟨hok, ⟨rank, hra⟩, -⟩ := validatePolicyTopology_ok_iff.mp h
  have he : EntriesOk rt gs' [] := by
    refine ⟨hgr, by simp, fun g' hg' => checkSources_ok_iff.mpr fun s hs => ?_⟩
    obtain ⟨hva, hr⟩ := hsr g' hg' s hs
    refine checkSource_ok_iff.mpr ⟨hva, fun v hv => ?_⟩
    obtain ⟨hre, hm⟩ := hr v hv
    exact ⟨(hok.refers hre).2.2, hm⟩
  have hf : ∀ u v, Refers gs' [] u v → rank v < rank u := by
    intro u v huv
    rcases refers_iff.mp huv with ⟨entry, hen, -⟩ | ⟨g', hg', rfl, s, hs, hv⟩
    · simp at hen
    · exact hra.falls _ v ((hsr g' hg' s hs).2 v hv).1
  exact validatePolicyTopology_ok_iff.mpr ⟨he, exists_rankOf he hf, hrl⟩

/-- A graph whose groups and sources come from an accepted one is accepted, if its targets exist. -/
theorem validatePolicyTopology_ok_of_part {gs' : List NodeGroup} {rules' : List PolicyRule} {b' : Bool}
    (hgr : ∀ g' ∈ gs', ∃ g ∈ groups, g'.id = g.id ∧ g'.name = g.name ∧
      g'.groupType = g.groupType ∧ ∀ s ∈ g'.sources, s ∈ g.sources)
    (htg : ∀ g' ∈ gs', ∀ s ∈ g'.sources, ∀ v, sourceTarget s = some v → v ∈ groupIDs gs')
    (hrl : validatePolicyRules rt rules' (groupIDs gs') b' = .ok ()) :
    validatePolicyTopology rt gs' [] rules' b' = .ok () := by
  obtain ⟨hok, -, -⟩ := validatePolicyTopology_ok_iff.mp h
  refine validatePolicyTopology_ok_of_refers h ?_ ?_ hrl
  · intro g' hg'
    obtain ⟨g, hg, hid, hn, ht, -⟩ := hgr g' hg'
    have hva := hok.group g hg
    rwa [validateGroup, ← hid, ← hn, ← ht] at hva
  · intro g' hg' s hs
    obtain ⟨g, hg, hid, -, -, hsu⟩ := hgr g' hg'
    have hsr := checkSources_ok_iff.mp (hok.source g hg) s (hsu s hs)
    refine ⟨(checkSource_ok_iff.mp hsr).1, fun v hv => ⟨?_, htg g' hg' s hs v hv⟩⟩
    exact refers_iff.mpr (.inr ⟨g, hg, hid.symm, s, hsu s hs, hv⟩)

end

theorem validatePolicyRules_congr {ids' : List String} (h : ∀ u, u ∈ ids ↔ u ∈ ids') :
    validatePolicyRules rt rules ids b = validatePolicyRules rt rules ids' b := by
  have hr : validatePolicyRule rt ids = validatePolicyRule rt ids' := by
    funext rule
    have hn : ids = [] ↔ ids' = [] := by
      rw [eq_nil_iff_forall_not_mem, eq_nil_iff_forall_not_mem]
      exact forall_congr' fun u => not_congr (h u)
    simp only [validatePolicyRule, ne_eq, hn, h]
  rw [validatePolicyRules, validatePolicyRules, hr]

/-- Every parent of a legacy edge and every target of a reference is a group. -/
structure ReferencesExist (groups : List NodeGroup) (edges : EdgeMap) : Prop where
  parent : ∀ entry ∈ edges, entry.1 ∈ groupIDs groups
  target : ∀ u v, Refers groups edges u v → v ∈ groupIDs groups

/-- Each element refers to the next one, and the walk ends where it starts. -/
def IsClosedWalk (R : String → String → Prop) (p : List String) : Prop :=
  List.IsChain R p ∧ p.head? = p.getLast?

theorem referencesExist_of_sources (h : ∀ g ∈ groups, ∀ s ∈ g.sources, ∀ v ∈ sourceTarget s, v ∈ groupIDs groups) :
    ReferencesExist groups [] := by
  refine ⟨by simp, fun u v huv => ?_⟩
  rcases refers_iff.mp huv with ⟨entry, hen, -⟩ | ⟨g, hg, -, s, hs, hv⟩
  · simp at hen
  · exact h g hg s hs v hv

theorem validatePolicyRules_code (rt : Runtime) (rules : List PolicyRule) (ids : List String) (b : Bool) :
    errorCode? (validatePolicyRules rt rules ids b) ≠ some "cycle_detected" := by
  rw [validatePolicyRules]
  cases hloop : forEach (validatePolicyRule rt ids) (sortRules rules) with
  | error e =>
    obtain ⟨rule, -, hr⟩ := exists_of_forEach_error _ hloop
    change errorCode? (.error e : Except GoError Unit) ≠ _
    rw [← hr, validatePolicyRule]
    split_ifs <;> simp
  | ok u =>
    dsimp only
    split
    · simp
    · split_ifs <;> simp
    · simp

theorem checkSources_code {e : GoError} (hs : ∀ g ∈ groups, ∀ s ∈ g.sources, validateMemberSource rt s = .ok ())
    (h : forEach (checkSources rt (groupIDs groups)) groups = .error e) :
    errorCode? (.error e : Except GoError Unit) ≠ some "cycle_detected" := by
  obtain ⟨g, hg, hge⟩ := exists_of_forEach_error _ h
  obtain ⟨s, hsg, hse⟩ := exists_of_forEach_error _ hge
  simp only [checkSource, hs g hg s hsg] at hse
  rw [← hse]
  cases hv : sourceTarget s with
  | none => simp [hv, checkReference] at hse
  | some v =>
    rw [checkReference]
    split_ifs <;> simp

theorem ne_parent_of_validateGroupEdge {e : GroupEdge}
    (h : validateGroupEdge rt e = .ok ()) (hv : nonEmpty e.childGroupID = some v) : v ≠ e.parentGroupID := by
  rw [validateGroupEdge, ite_invalid_eq_ok, hv] at h
  rintro rfl
  cases hn : nonEmpty e.nodeLogicalID with
  | none | some n => simp [hn] at h

theorem checkEdges_ok_of_references (he : ∀ entry ∈ edges, ∀ e ∈ entry.2,
      validateGroupEdge rt { e with parentGroupID := entry.1 } = .ok ()) (hr : ReferencesExist groups edges) :
    forEach (checkEdges rt (groupIDs groups)) edges = .ok () := by
  rw [forEach_ok_iff]
  intro entry hen
  rw [checkEdges_ok_iff]
  refine ⟨hr.parent entry hen, fun e hee => checkEdge_ok_iff.mpr ⟨he entry hen e hee, ?_⟩⟩
  intro v hv
  have hre : Refers groups edges entry.1 v :=
    refers_iff.mpr (.inl ⟨entry, hen, rfl, e, hee, hv⟩)
  exact ⟨ne_parent_of_validateGroupEdge (he entry hen e hee) hv, hr.target _ v hre⟩

/-- Where the targets exist, a source check on valid sources fails only over a group that refers to itself. -/
theorem exists_refers_self_of_checkSources {e : GoError}
    (hs : ∀ g ∈ gs, ∀ s ∈ g.sources, validateMemberSource rt s = .ok ()) (hr : ReferencesExist gs edges)
    (h : forEach (checkSources rt (groupIDs gs)) gs = .error e) : ∃ u, Refers gs edges u u := by
  obtain ⟨g, hgm, hge⟩ := exists_of_forEach_error _ h
  obtain ⟨s, hsg, hse⟩ := exists_of_forEach_error _ hge
  by_contra hno
  have hok : checkSource rt (groupIDs gs) g s = .ok () := by
    refine checkSource_ok_iff.mpr ⟨hs g hgm s hsg, fun v hv => ?_⟩
    have hre : Refers gs edges g.id v :=
      refers_iff.mpr (.inr ⟨g, hgm, rfl, s, hsg, hv⟩)
    refine ⟨?_, hr.target _ v hre⟩
    rintro rfl
    exact hno ⟨_, hre⟩
  rw [hok] at hse
  contradiction

theorem isClosedWalk_of_isCycle {R : String → String → Prop} {path : List String} (h : IsCycle R path)
    (hl : ∀ u, ¬R u u) : IsClosedWalk R path ∧ 3 ≤ path.length := by
  obtain ⟨w, c, rfl, -, hc⟩ := h
  refine ⟨⟨hc, by rw [getLast?_concat, cons_append, head?_cons]⟩, ?_⟩
  cases c with
  | nil => exact absurd (by simpa using hc) (hl w)
  | cons x c => simp

theorem code_ne_of_errorCode_ne {r : Except GoError Unit} {code : String} (h : errorCode? r ≠ some code)
    {err : DomainError} (he : r = .error (.domain err)) : err.code ≠ code := by
  intro hc
  rw [he] at h
  exact h (by simp [errorCode?, GoError.code?, GoError.asDomainError, hc])

/-- On individually valid entries a cycle is reported exactly when no group refers to itself and
some cycle leads through at least two groups; the reported path is a closed walk through them. -/
theorem cycle_detected_iff {rt : Runtime} {groups : List NodeGroup} {edges : EdgeMap}
    {rules : List PolicyRule} {b : Bool} (hg : ∀ g ∈ groups, validateGroup rt g = .ok ())
    (hs : ∀ g ∈ groups, ∀ s ∈ g.sources, validateMemberSource rt s = .ok ()) (he : ∀ entry ∈ edges, ∀ e ∈ entry.2,
      validateGroupEdge rt { e with parentGroupID := entry.1 } = .ok ())
    (hr : ReferencesExist groups edges) :
    (errorCode? (validatePolicyTopology rt groups edges rules b) = some "cycle_detected" ↔
      (∀ u, ¬Refers groups edges u u) ∧ ∃ p, IsCycle (Refers groups edges) p ∧ 3 ≤ p.length) ∧
    ∀ err, validatePolicyTopology rt groups edges rules b = .error (.domain err) →
      err.code = "cycle_detected" →
      IsClosedWalk (Refers groups edges) err.cyclePath ∧ 3 ≤ err.cyclePath.length := by
  have hgs : forEach (validateGroup rt) groups = .ok () := (forEach_ok_iff groups).mpr hg
  have hed : forEach (checkEdges rt (groupIDs groups)) edges = .ok () := checkEdges_ok_of_references he hr
  cases hsr : forEach (checkSources rt (groupIDs groups)) groups with
  | error e =>
    have hv : validatePolicyTopology rt groups edges rules b = .error e := by
      simp only [validatePolicyTopology, hgs, hed, hsr, bind, Except.bind]
    have hco := checkSources_code hs hsr
    obtain ⟨u, hu⟩ := exists_refers_self_of_checkSources hs hr hsr
    rw [hv]
    refine ⟨⟨fun h => absurd h hco, fun h => absurd hu (h.1 u)⟩, fun err her hc => ?_⟩
    exact absurd hc (code_ne_of_errorCode_ne hco her)
  | ok _ =>
    have hok : EntriesOk rt groups edges :=
      ⟨hg, (forEach_ok_iff edges).mp hed, (forEach_ok_iff groups).mp hsr⟩
    have hl : ∀ u, ¬Refers groups edges u u := fun u hu => (hok.refers hu).2.2 rfl
    rcases checkCycles_cases hok with ⟨v, path, hb, hcy⟩ | ⟨hgo, rank, hra⟩
    · -- the search has found a cycle, and it is the one reported
      have hv : validatePolicyTopology rt groups edges rules b =
          .error (.domain (cycleError rt v path)) := by
        simp only [validatePolicyTopology, hgs, hed, hsr, hb, bind, Except.bind]
      have hw := isClosedWalk_of_isCycle hcy hl
      rw [hv]
      refine ⟨⟨fun _ => ⟨hl, path, hcy, hw.2⟩, fun _ => rfl⟩, ?_⟩
      intro err her _
      rw [Except.error.injEq, GoError.domain.injEq] at her
      rw [← her]
      exact hw
    · -- the search has ranked the groups, so there is none, and the rules report no cycle
      have hv : validatePolicyTopology rt groups edges rules b =
          validatePolicyRules rt rules (groupIDs groups) b := by
        simp only [validatePolicyTopology, hgs, hed, hsr, hgo, bind, Except.bind]
      have hco := validatePolicyRules_code rt rules (groupIDs groups) b
      rw [hv]
      refine ⟨⟨fun h => absurd h hco, ?_⟩, fun err her hc => ?_⟩
      · rintro ⟨-, p, hp, -⟩
        exact absurd hp (not_isCycle_of_rank rank hra.falls p)
      · exact absurd hc (code_ne_of_errorCode_ne hco her)

/-- A source that refers to `target`. -/
def groupRefTo (target : String) (position : Int) : MemberSource where
  id := ""
  groupID := ""
  operation := .add
  kind := .groupRef
  position := position
  targetGroupID := some target

def idA : String := "01890000-0000-7000-8000-00000000000a"

def idB : String := "01890000-0000-7000-8000-00000000000b"

def idC : String := "01890000-0000-7000-8000-00000000000c"

def mutualGroups : List NodeGroup :=
  [{ id := idA, name := "A", groupType := .select, sources := [groupRefTo idB 0] },
   { id := idB, name := "B", groupType := .select, sources := [groupRefTo idA 0] }]

theorem cycle_detected_mutualGroups : errorCode? (validatePolicyTopology asciiRuntime mutualGroups [] [] false) =
      some "cycle_detected" := by
  have hw : List.IsChain (Refers mutualGroups []) [idA, idB, idA] := by
    decide
  refine (cycle_detected_iff (by decide) (by decide) (by simp)
    (referencesExist_of_sources (by decide))).1.mpr ⟨?_, _, ⟨idA, [idB], rfl, by decide, hw⟩, by simp⟩
  intro u hu
  obtain ⟨g, hg, rfl, s, hs, hv⟩ := (refers_iff.mp hu).resolve_left (by simp)
  have hne : ∀ g ∈ mutualGroups, ∀ s ∈ g.sources, sourceTarget s ≠ some g.id := by decide
  exact hne g hg s hs hv

def loopedGroups : List NodeGroup :=
  [{ id := idA, name := "A", groupType := .select, sources := [groupRefTo idB 0, groupRefTo idA 1] },
   { id := idB, name := "B", groupType := .select, sources := [groupRefTo idA 0] }]

/-- The self-reference is reported first, and the cycle through both groups is not. -/
theorem cycle_hidden_by_self_reference : (∀ g ∈ loopedGroups, validateGroup asciiRuntime g = .ok ()) ∧
    (∀ g ∈ loopedGroups, ∀ s ∈ g.sources, validateMemberSource asciiRuntime s = .ok ()) ∧
    ReferencesExist loopedGroups [] ∧ IsCycle (Refers loopedGroups []) [idA, idB, idA] ∧
    errorCode? (validatePolicyTopology asciiRuntime loopedGroups [] [] false) =
      some "self_loop_forbidden" := by
  have hw : List.IsChain (Refers loopedGroups []) [idA, idB, idA] := by
    decide
  exact ⟨by decide, by decide, referencesExist_of_sources (by decide),
    ⟨idA, [idB], rfl, by decide, hw⟩, by decide⟩

end ClashSubParser
