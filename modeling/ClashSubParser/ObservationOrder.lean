import ClashSubParser.RiskDecisions
import ClashSubParser.TrimmedText

/-! Which observations a decision depends on: the latest one of each declared provider, in whatever order they
are read. -/
namespace ClashSubParser

open List FirstError Strings

section

variable {α β : Type} [LinearOrder β] {f : α → β}

theorem argmax_eq_of_perm {l l' : List α} (h : l.Perm l') (hi : ∀ a ∈ l, ∀ b ∈ l, f a = f b → a = b) :
    l.argmax f = l'.argmax f := by
  classical
  have hif {l : List α} (hi : ∀ a ∈ l, ∀ b ∈ l, f a = f b → a = b) (m : α) :
      l.argmax f = some m ↔ m ∈ l ∧ ∀ a ∈ l, f a ≤ f m := by
    rw [argmax_eq_some_iff]
    refine and_congr_right fun hm => and_iff_left_of_imp fun hma a ha hle => ?_
    rw [hi a ha m hm ((hma a ha).antisymm hle)]
  ext m
  rw [hif hi, hif (by simpa only [h.mem_iff] using hi)]
  simp only [h.mem_iff]

/-- The first of the elements no other exceeds. -/
theorem argmax_eq_find? (l : List α) : l.argmax f = l.find? (fun a => decide (∀ b ∈ l, f b ≤ f a)) := by
  classical
  cases hf : l.find? (fun a => decide (∀ b ∈ l, f b ≤ f a)) with
  | none =>
    cases hma : l.argmax f with
    | none => rfl
    | some m =>
      have hm := find?_eq_none.mp hf m (argmax_mem hma)
      exact absurd (decide_eq_true fun b hb => le_of_mem_argmax hb hma) hm
  | some m =>
    obtain ⟨hm, before, after, hl, hbe⟩ := find?_eq_some_iff_append.mp hf
    rw [decide_eq_true_eq] at hm
    -- what stands before it is not maximal
    have hn (a : α) (ha : f m ≤ f a) : a ∉ before := by
      intro hme
      have hba := hbe a hme
      rw [Bool.not_eq_true', decide_eq_false_iff_not] at hba
      exact hba fun b hb => (hm b hb).trans ha
    rw [argmax_eq_some_iff]
    refine ⟨mem_of_find?_eq_some hf, hm, fun a _ hle => ?_⟩
    rw [hl, idxOf_append_of_notMem (hn m le_rfl), idxOf_append_of_notMem (hn a hle), idxOf_cons_self]
    exact Nat.le_add_right _ _

theorem argmax_insert {pre added after : List α} (h : ∀ a ∈ added, ∃ b ∈ pre ++ after, f a < f b) :
    (pre ++ added ++ after).argmax f = (pre ++ after).argmax f := by
  have hm (a : α) : (∀ b ∈ pre ++ added ++ after, f b ≤ f a) ↔ ∀ b ∈ pre ++ after, f b ≤ f a := by
    refine ⟨fun hal b hb => hal b ?_, fun hal b hb => ?_⟩
    · rw [mem_append, mem_append, or_right_comm]
      exact .inl (mem_append.mp hb)
    · rw [append_assoc, mem_append, mem_append, or_left_comm] at hb
      rcases hb with hb | hb
      · obtain ⟨c, hc, hlt⟩ := h b hb
        exact hlt.le.trans (hal c hc)
      · exact hal b (mem_append.mpr hb)
  have had : added.find? (fun a => decide (∀ b ∈ pre ++ after, f b ≤ f a)) = none := by
    rw [find?_eq_none]
    intro a ha hal
    obtain ⟨b, hb, hlt⟩ := h a ha
    exact absurd (of_decide_eq_true hal b hb) (not_le.mpr hlt)
  rw [argmax_eq_find?, argmax_eq_find?]
  simp only [hm, find?_append, had, Option.or_none]

end

section

variable {rt : Runtime} {policy : RiskPolicy}

theorem zero_notMem_of_identifier {field value : String} (h : validateIPRiskIdentifier rt field value = .ok ()) :
    '\x00' ∉ value.toList := by
  simp only [validateIPRiskIdentifier, ite_invalid_eq_ok, not_or, Bool.not_eq_false] at h
  obtain ⟨-, ⟨-, h⟩, -⟩ := h
  intro hz
  have hk := mem_trimSpace hz rfl
  rw [isIPRiskIdentifier] at h
  cases hs : (trimSpace value).toList with
  | nil => simp [hs] at hk
  | cons c cs =>
    rw [hs] at hk h
    rw [Bool.and_eq_true, all_eq_true] at h
    rcases mem_cons.mp hk with rfl | hm
    · exact absurd h.1 (by decide)
    · exact absurd (h.2 _ hm) (by decide)

/-- The key of a declared provider belongs to no other provider. -/
theorem eq_of_key_eq (hv : policy.Valid rt) {ref : ProviderRef} (hr : ref ∈ policy.providerSelection.providers)
    {o : IPRiskObservation} (h : observationKey o = ref.key) : ref = ⟨o.provider, o.providerSchemaVersion⟩ := by
  obtain ⟨hpr, hsc⟩ := hv.refs ref hr
  have hz := zero_notMem_of_identifier hpr
  have hk : o.provider.toList ++ '\x00' :: o.providerSchemaVersion.toList =
      ref.provider.toList ++ '\x00' :: ref.schemaVersion.toList := by
    simpa [observationKey, ProviderRef.key, providerKey] using congrArg String.toList h
  obtain ⟨hp, -, hs⟩ := (append_cons_inj_of_notMem hz (zero_notMem_of_identifier hsc)).mp hk.symm
  rw [← String.toList_inj.mp hp, ← String.toList_inj.mp hs]

variable {nodeLogicalID expectedExitDigest : String} {evaluatedAt : Time}

theorem evaluateNodeCore_congr {observations observations' : List IPRiskObservation}
    (h : ∀ ref ∈ policy.providerSelection.providers, latestByProvider nodeLogicalID observations ref.key =
      latestByProvider nodeLogicalID observations' ref.key) :
    evaluateNodeCore rt policy nodeLogicalID expectedExitDigest observations evaluatedAt =
      evaluateNodeCore rt policy nodeLogicalID expectedExitDigest observations' evaluatedAt := by
  have hr : providerResults rt policy nodeLogicalID expectedExitDigest observations evaluatedAt =
      providerResults rt policy nodeLogicalID expectedExitDigest observations' evaluatedAt := by
    apply map_congr_left
    intro ref hre
    rw [providerResult, providerResult, h ref hre]
  rw [evaluateNodeCore, evaluateNodeCore, hr]

/-- An observation of another node, of a provider the policy does not declare, or older than another one of its
provider. -/
def Irrelevant (policy : RiskPolicy) (nodeLogicalID : String) (observations : List IPRiskObservation)
    (o : IPRiskObservation) : Prop :=
  o.nodeLogicalID ≠ nodeLogicalID ∨ ⟨o.provider, o.providerSchemaVersion⟩ ∉ policy.providerSelection.providers ∨
    ∃ newer ∈ observations, newer.nodeLogicalID = o.nodeLogicalID ∧ newer.provider = o.provider ∧
      newer.providerSchemaVersion = o.providerSchemaVersion ∧ o.observedAt < newer.observedAt

/-- The order of observations with distinct IDs does not matter, nor do observations that bear on no declared
provider of the node. -/
theorem evaluateNodeCore_observations (rt : Runtime) (policy : RiskPolicy) (nodeLogicalID expectedExitDigest : String)
    (evaluatedAt : Time) (hpolicy : policy.validate rt = .ok ()) :
    let core (observations : List IPRiskObservation) :=
      evaluateNodeCore rt policy nodeLogicalID expectedExitDigest observations evaluatedAt
    (∀ observations observations', observations.Perm observations' → (observations.map (·.id)).Nodup →
      core observations = core observations') ∧
    ∀ before added after, (∀ o ∈ added, Irrelevant policy nodeLogicalID (before ++ after) o) →
      core (before ++ added ++ after) = core (before ++ after) := by
  have hv := RiskPolicy.valid_of_validate hpolicy
  refine ⟨fun observations observations' hp hnd => evaluateNodeCore_congr fun ref _ => ?_,
    fun before added after had => evaluateNodeCore_congr fun ref hr => ?_⟩
  · rw [latestByProvider_eq_argmax, latestByProvider_eq_argmax]
    refine argmax_eq_of_perm (hp.filter _) fun a ha b hb hre => ?_
    exact inj_on_of_nodup_map hnd (mem_filter.mp ha).1 (mem_filter.mp hb).1 (congrArg Prod.snd hre)
  · rw [latestByProvider_eq_argmax, latestByProvider_eq_argmax, filter_append, filter_append, filter_append]
    apply argmax_insert
    intro o ho
    simp only [mem_filter, Bool.and_eq_true, decide_eq_true_eq] at ho
    obtain ⟨ho, hn, hk⟩ := ho
    rcases had o ho with hot | hu | ⟨newer, hne, hn', hpr, hs, hlt⟩
    · exact absurd hn hot
    · exact absurd (eq_of_key_eq hv hr hk ▸ hr) hu
    · refine ⟨newer, ?_, recency_lt_iff.mpr (.inl hlt)⟩
      rw [← filter_append, mem_filter, Bool.and_eq_true, decide_eq_true_eq, decide_eq_true_eq]
      exact ⟨hne, hn'.trans hn, by rw [← hk, observationKey, observationKey, hpr, hs]⟩

end

theorem evaluateNodeCore_observations_exchanged :
    let core (observations : List IPRiskObservation) := evaluateNodeCore asciiRuntime
      (sampleRiskPolicy .allMustAllow [scamalytics, ipqs] .review) nodeHK.logicalID "" observations sampleTime
    let first := sampleObservation "scamalytics" 40
    let second := { sampleObservation "ipqs" 90 with id := "second" }
    core [second, first] = core [first, second] := by
  intro core first second
  have h := evaluateNodeCore_observations asciiRuntime
    (sampleRiskPolicy .allMustAllow [scamalytics, ipqs] .review) nodeHK.logicalID "" sampleTime (by decide)
  exact h.1 _ _ (Perm.swap _ _ _) (by decide)

end ClashSubParser
