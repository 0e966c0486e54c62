import ClashSubParser.LeaseHistory

/-! Whether the lease of a probe batch keeps a displaced execution from writing the batch. `UpdateBatch` has
no condition on the owner, so nothing but time does. -/
namespace ClashSubParser

open Function KeyedTable ActionRuns ProbeBatchTable BatchAction Option

namespace LeaseHistory

variable {C G : Type} {cfg : C → Coordinator}

def view (cfg : C → Coordinator) (h : LeaseHistory C G) : Leases.State String String G Time where
  owner := leaseOwner ∘ ProbeBatchTable.lease? h.sys.batches
  ends := leaseEnd ∘ ProbeBatchTable.lease? h.sys.batches
  activity g := (h.sys.calls g).activity cfg
  granted := h.granted
  displaced g := h.displaced g = true
  clock := h.clock

structure Fair (cfg : C → Coordinator) (h : LeaseHistory C G) : Prop where
  sound : h.sys.Sound
  fenced : Leases.Fenced (h.view cfg)
  /-- the owner of an activity has a name -/
  named : ∀ g b, (h.sys.calls g).activity cfg = some b → b.owner ≠ ""
  /-- the batch of an activity has a row -/
  stored : ∀ g b, (h.sys.calls g).activity cfg = some b → ∃ v, ProbeBatchTable.lease? h.sys.batches b.resource = some v

theorem fair_start (bs : ProbeBatchTable) (runs : ProbeRunTable) (clock : Time) :
    (start C G bs runs clock).Fair cfg where
  sound := BatchSystem.sound_start bs runs
  fenced := ⟨nofun, nofun, nofun, nofun, fun _ _ => Bool.false_ne_true⟩
  named := nofun
  stored := nofun

variable {h : LeaseHistory C G} {a : BatchAction C G} {g : G} {reply : BatchReply} {x : BatchExecution C}

theorem Fair.owner_eq (hf : h.Fair cfg) {b : Leases.Activity String String} {t : Option Time}
    (hb : (h.sys.calls g).activity cfg = some b)
    (hlease : lease? h.sys.batches b.resource = some (b.owner, t)) :
    (h.view cfg).owner b.resource = some b.owner := by
  change leaseOwner (lease? h.sys.batches b.resource) = some b.owner
  rw [hlease]
  exact if_neg (hf.named g b hb)

variable [DecidableEq C] [DecidableEq G] {rt : Runtime}

theorem displaced_step (ha : a.acquires cfg h.sys = none) (g : G) : (h.step rt cfg a).displaced g = true ↔
      h.displaced g = true ∧ ((h.sys.step rt cfg a).calls g).activity cfg ≠ none := by
  simp only [step, ha, any_none, Bool.or_false, Bool.and_eq_true, isSome_iff_ne_none]
  exact and_comm

section

variable {a : BatchAction C G} {id : String} {v : Option (String × Option Time)}
  (hlease : ProbeBatchTable.lease? (h.sys.step rt cfg a).batches = update (ProbeBatchTable.lease? h.sys.batches) id v)

include hlease

theorem owner_step : ((h.step rt cfg a).view cfg).owner = update (h.view cfg).owner id (leaseOwner v) :=
  (congrArg (leaseOwner ∘ ·) hlease).trans (comp_update _ _ _ _)

theorem ends_step : ((h.step rt cfg a).view cfg).ends = update (h.view cfg).ends id (leaseEnd v) :=
  (congrArg (leaseEnd ∘ ·) hlease).trans (comp_update _ _ _ _)

end

theorem Fair.of_fenced (hf : h.Fair cfg) (ha : a.acquires cfg h.sys = none)
    (hs : ∀ id, (∃ v, lease? h.sys.batches id = some v) →
      ∃ v, lease? (h.sys.step rt cfg a).batches id = some v)
    (hfe : Leases.Fenced ((h.step rt cfg a).view cfg)) : (h.step rt cfg a).Fair cfg := by
  refine ⟨hf.sound.step a, hfe, fun g b hb => ?_, fun g b hb => ?_⟩
  · obtain ⟨b₀, hb₀, _, ho, _⟩ := shrinks_step hf.sound a ha g b hb
    rw [← ho]
    exact hf.named g b₀ hb₀
  · obtain ⟨b₀, hb₀, hr, _⟩ := shrinks_step hf.sound a ha g b hb
    rw [← hr]
    exact hs _ (hf.stored g b₀ hb₀)

theorem Fair.keep (hf : h.Fair cfg) (ha : a.acquires cfg h.sys = none) (hr : a.renews cfg h.sys = none)
    (hlease : ∀ id v, lease? h.sys.batches id = some v →
      lease? (h.sys.step rt cfg a).batches id = some v) : (h.step rt cfg a).Fair cfg := by
  have hs (g : G) : Shrinks cfg (h.sys.calls g) ((h.sys.step rt cfg a).calls g) :=
    shrinks_step hf.sound a ha g
  -- the rows of the activities are there, so their leases stay
  have hen (g : G) (b : Leases.Activity String String)
      (hb : ((h.sys.step rt cfg a).calls g).activity cfg = some b) :
      lease? (h.sys.step rt cfg a).batches b.resource =
        lease? h.sys.batches b.resource := by
    obtain ⟨b₀, hb₀, hre, _⟩ := hs g b hb
    obtain ⟨v, hv⟩ := hf.stored g b₀ hb₀
    rw [hre] at hv
    rw [hv]
    exact hlease _ _ hv
  have hgr : (h.step rt cfg a).granted = h.granted := by simp only [step, ha, hr]
  refine hf.of_fenced ha (fun id ⟨v, hv⟩ => ⟨v, hlease id v hv⟩) ?_
  apply hf.fenced.shrink (fun g b hb => hs g b hb) _ _ (displaced_step ha) (le_max_left _ _)
  · intro g b hb _ _ ho he
    exact ⟨(congrArg leaseOwner (hen g b hb)).trans ho,
      (congrArg leaseEnd (hen g b hb)).trans (he.trans (congrArg some (congrFun hgr g).symm))⟩
  · intro g b hb _
    exact ⟨.inl (congrArg leaseOwner (hen g b hb)), congrFun hgr g⟩

theorem exists_update {column : String → Option (String × Option Time)} {id k : String} {v : String × Option Time}
    (hk : ∃ w, column k = some w) : ∃ w, update column id (some v) k = some w := by
  by_cases hid : k = id
  · rw [hid, update_self]
    exact ⟨v, rfl⟩
  · rw [update_of_ne hid]
    exact hk

theorem displaced_acquire (hf : h.Fair cfg) {t : Time} (ha : a.acquires cfg h.sys = some (g, x, t))
    (hac : (fun y => ((h.sys.step rt cfg a).calls y).activity cfg) =
      update (fun y => (h.sys.calls y).activity cfg) g
        (some ⟨x.batch.id, (cfg x.coordinator).ownerID, false⟩)) (hi : (h.sys.calls g).activity cfg = none) (y : G) :
    (h.step rt cfg a).displaced y = true ↔ y ≠ g ∧ (h.displaced y = true ∨
      ∃ b, (h.sys.calls y).activity cfg = some b ∧ b.resource = x.batch.id ∧
        b.owner ≠ (cfg x.coordinator).ownerID) := by
  have hy := congrFun hac y
  simp only [step, ha, any_some, Bool.and_eq_true, Bool.or_eq_true, hy]
  by_cases hyg : y = g
  · -- the new activity is not displaced
    have hn : h.displaced g = false := Bool.eq_false_iff.mpr (hf.fenced.idle g hi)
    rw [hyg, hi, hn]
    simp
  · rw [update_of_ne hyg]
    cases hb : (h.sys.calls y).activity cfg with
    | none =>
      have hn : h.displaced y = false := Bool.eq_false_iff.mpr (hf.fenced.idle y hb)
      simp [hn]
    | some b => simp [hyg]

theorem truncate_le (t : Time) : t.truncate ≤ t := Int.ediv_mul_le t (by decide)

theorem Fair.acquire (hf : h.Fair cfg) {bs : ProbeBatchTable}
    (hc : h.sys.calls g = .executing x .acquiring) (hok : reply.ok = true)
    (hba : acquireLease h.sys.batches x.batch.id (cfg x.coordinator).ownerID (cfg x.coordinator).leaseDuration
      reply.now = some bs) (hti : (proceed g reply).Timely cfg h) :
    (h.step rt cfg (.proceed g reply)).Fair cfg := by
  obtain ⟨hnm, ⟨v, hv, hfr⟩, hlease⟩ := lease?_acquireLease hba
  have hac := acquires_of_acquireLease hc hok hba
  have hs : h.sys.step rt cfg (.proceed g reply) = BatchSystem.setCall { h.sys with batches := bs } g
      (.executing { x with batch := { x.batch with owner := (cfg x.coordinator).ownerID } } .registering) := by
    simp only [BatchSystem.step, BatchSystem.proceed, hc, BatchSystem.advance, hok, hba]
  have hal (y : G) (b : Leases.Activity String String) (hb : (h.sys.calls y).activity cfg = some b)
      (hid : b.resource = x.batch.id) : b.owner ≠ (cfg x.coordinator).ownerID := by
    have hr : (h.sys.calls g).requesting = some x := by
      rw [hc]
      rfl
    exact hti.2.2 x hr y b hb hid
  have hi : (h.sys.calls g).activity cfg = none := by
    rw [hc]
    rfl
  have ha : (fun y => ((h.sys.step rt cfg (.proceed g reply)).calls y).activity cfg) =
      update (fun y => (h.sys.calls y).activity cfg) g
        (some ⟨x.batch.id, (cfg x.coordinator).ownerID, false⟩) :=
    activity_update (congrArg BatchSystem.calls hs)
  rw [← show (h.sys.step rt cfg (.proceed g reply)).batches = bs from congrArg BatchSystem.batches hs] at hlease
  have haf (y : G) (b : Leases.Activity String String)
      (hb : ((h.sys.step rt cfg (.proceed g reply)).calls y).activity cfg = some b) :
      b = ⟨x.batch.id, (cfg x.coordinator).ownerID, false⟩ ∨ (h.sys.calls y).activity cfg = some b := by
    have hy := congrFun ha y
    rw [hb] at hy
    by_cases hyg : y = g
    · rw [hyg, update_self] at hy
      exact .inl (some.inj hy)
    · rw [update_of_ne hyg] at hy
      exact .inr hy.symm
  constructor
  · exact hf.sound.step _
  · refine hf.fenced.grant (e := (reply.now + (cfg x.coordinator).leaseDuration).truncate) hal ?_ ?_ ?_ ha ?_
      ?_ (le_max_left _ _)
    · -- the lease is free, the owner's own, or has ended before the clock
      change leaseOwner (lease? h.sys.batches x.batch.id) = none ∨
        leaseOwner (lease? h.sys.batches x.batch.id) = some (cfg x.coordinator).ownerID ∨
        ∀ t ∈ leaseEnd (lease? h.sys.batches x.batch.id), t < max h.clock reply.now
      rw [hv]
      rcases hfr with he | hsa | hen
      · exact .inl (if_pos he)
      · right
        left
        rw [leaseOwner, hsa]
        exact if_neg hnm
      · exact .inr (.inr fun t ht =>
          (hen t ht).trans_le ((truncate_le reply.now).trans (le_max_right _ _)))
    · rw [owner_step hlease]
      congr 1
      exact if_neg hnm
    · rw [ends_step hlease]
      rfl
    · simp only [view, step, hac]
    · exact displaced_acquire hf hac ha hi
  · intro y b hb
    rcases haf y b hb with hn | ho
    · rw [hn]
      exact hnm
    · exact hf.named y b ho
  · intro y b hb
    change ∃ v, lease? (h.sys.step rt cfg (.proceed g reply)).batches b.resource = some v
    rw [hlease]
    rcases haf y b hb with hn | ho
    · rw [hn, update_self]
      exact ⟨_, rfl⟩
    · exact exists_update (hf.stored y b ho)

theorem Fair.renew (hf : h.Fair cfg) {phase : BatchPhase}
    {batches : ProbeBatchTable} (hc : h.sys.calls g = .executing x phase) (ha : phase ≠ .acquiring)
    (hre : phase ≠ .registering) (hok : (reply.ok && !x.done) = true)
    (hb : heartbeatLease h.sys.batches x.batch.id (cfg x.coordinator).ownerID (cfg x.coordinator).leaseDuration
      reply.now = some batches) : (h.step rt cfg (.heartbeat g reply)).Fair cfg := by
  obtain ⟨⟨t, ht⟩, hlease⟩ := lease?_heartbeatLease hb
  obtain ⟨r, hr, _⟩ := activity_executing cfg x ha
  rw [← hc] at hr
  have hrn := renews_of_heartbeatLease hc ha hre hok hb
  have hs : h.sys.step rt cfg (.heartbeat g reply) = { h.sys with batches := batches } := by
    rw [BatchSystem.step, BatchSystem.beat, hc]
    cases phase with
    | acquiring => exact absurd rfl ha
    | registering => exact absurd rfl hre
    | _ => simp only [hok, hb]
  have hro : (h.sys.step rt cfg (.heartbeat g reply)).batches = batches := congrArg BatchSystem.batches hs
  have hac : (heartbeat g reply).acquires cfg h.sys = none := rfl
  have hh : (h.view cfg).owner x.batch.id = some (cfg x.coordinator).ownerID := hf.owner_eq hr ht
  rw [← hro] at hlease
  refine hf.of_fenced hac (fun id hid => ?_) ?_
  · rw [hlease]
    exact exists_update hid
  · refine hf.fenced.renew (e := (reply.now + (cfg x.coordinator).leaseDuration).truncate) hr hh ?_ ?_ ?_ ?_
      (displaced_step hac) (le_max_left _ _)
    · rw [owner_step hlease]
      exact update_eq_self_iff.mpr ((if_neg (hf.named g _ hr)).trans hh.symm)
    · rw [ends_step hlease]
      rfl
    · exact congrArg (fun calls y => (calls y).activity cfg) (congrArg BatchSystem.calls hs)
    · simp only [view, step, hac, hrn]

theorem Fair.release (hf : h.Fair cfg) (hc : h.sys.calls g = .executing x (.checked .releasing)) :
    (h.step rt cfg (.proceed g reply)).Fair cfg := by
  have ha : (proceed g reply).acquires cfg h.sys = none := by
    simp only [acquires, hc]
  have hre : (proceed g reply).renews cfg h.sys = none := rfl
  have hs : h.sys.step rt cfg (.proceed g reply) = BatchSystem.setCall
      { h.sys with
        batches := if reply.ok = true then
          releaseLease h.sys.batches x.batch.id (cfg x.coordinator).ownerID reply.now else h.sys.batches } g
      (.executing x .leaving) := by
    simp only [BatchSystem.step, BatchSystem.proceed, hc, BatchSystem.advance]
  have hro : (h.sys.step rt cfg (.proceed g reply)).batches = if reply.ok = true then
      releaseLease h.sys.batches x.batch.id (cfg x.coordinator).ownerID reply.now else h.sys.batches :=
    congrArg BatchSystem.batches hs
  have hk (heq : (h.sys.step rt cfg (.proceed g reply)).batches = h.sys.batches) :
      (h.step rt cfg (.proceed g reply)).Fair cfg := by
    refine hf.keep ha hre fun id v hv => ?_
    rw [heq]
    exact hv
  by_cases hok : reply.ok = true
  · rw [if_pos hok] at hro
    rcases lease?_releaseLease h.sys.batches x.batch.id (cfg x.coordinator).ownerID reply.now with
      hsa | ⟨⟨t, ht⟩, hlease⟩
    · exact hk (hro.trans hsa)
    · have hr : (h.sys.calls g).activity cfg = some ⟨x.batch.id, (cfg x.coordinator).ownerID, false⟩ := by
        rw [hc]
        rfl
      have hac : (fun y => ((h.sys.step rt cfg (.proceed g reply)).calls y).activity cfg) =
          update (fun y => (h.sys.calls y).activity cfg) g
            (some ⟨x.batch.id, (cfg x.coordinator).ownerID, true⟩) :=
        activity_update (congrArg BatchSystem.calls hs)
      rw [← hro] at hlease
      refine hf.of_fenced ha (fun id hid => ?_) ?_
      · rw [hlease]
        exact exists_update hid
      · refine hf.fenced.release (e := none) hr (hf.owner_eq hr ht) ?_ ?_ hac ?_ (displaced_step ha)
          (le_max_left _ _)
        · rw [owner_step hlease]
          rfl
        · rw [ends_step hlease]
          rfl
        · simp only [view, step, ha, hre]
  · rw [if_neg hok] at hro
    exact hk hro

theorem Fair.step (hf : h.Fair cfg) (a : BatchAction C G) (ht : a.Timely cfg h) : (h.step rt cfg a).Fair cfg := by
  cases hacquires : a.acquires cfg h.sys with
  | some p =>
    obtain ⟨g, reply, x, bs, rfl, hc, hok, hb⟩ := acquires_eq_some hacquires
    exact hf.acquire hc hok hb ht
  | none =>
    cases hrenews : a.renews cfg h.sys with
    | some p =>
      obtain ⟨g, reply, x, phase, bs, rfl, hc, ha, hre, hok, hb⟩ :=
        renews_eq_some hrenews
      exact hf.renew hc ha hre hok hb
    | none =>
      have he : RowsEffect cfg h.sys a (h.sys.step rt cfg a).batches := h.sys.rowsEffect_step a
      generalize hrows : (h.sys.step rt cfg a).batches = rows at he
      cases he with
      | kept =>
        refine hf.keep hacquires hrenews fun id v hv => ?_
        rw [hrows]
        exact hv
      | created g coordinator sched batchID windowAt now hc hcr =>
        refine hf.keep hacquires hrenews fun id v hv => ?_
        rw [hrows]
        exact lease?_createBatch hcr hv
      | acquired g reply hc hok hac =>
        rw [acquires_of_acquireLease hc hok hac] at hacquires
        cases hacquires
      | renewed g reply hc ha hre hok hr =>
        rw [renews_of_heartbeatLease hc ha hre hok hr] at hrenews
        cases hrenews
      | released g reply hc => exact hf.release hc
      | updated g reply w hw hok hu =>
        refine hf.keep hacquires hrenews fun id v hv => ?_
        rw [hrows, lease?_updateBatch hu]
        exact hv

/-- If the acting execution has been displaced, the step changes no batch. -/
def KeepsOut (rt : Runtime) (cfg : C → Coordinator) (h : LeaseHistory C G) (a : BatchAction C G) : Prop :=
  ∀ g, a.actor = some g → h.displaced g = true → (h.sys.step rt cfg a).batches = h.sys.batches

theorem Fair.keepsOut (hf : h.Fair cfg) (a : BatchAction C G) (hti : a.Timely cfg h) : h.KeepsOut rt cfg a := by
  intro g ha hd
  have hai : ∃ b, (h.sys.calls g).activity cfg = some b :=
    ne_none_iff_exists'.mp fun hn => hf.fenced.idle g hn hd
  obtain ⟨b, hb⟩ := hai
  -- the columns no longer name the owner of a displaced execution
  have hl {t : Option Time} (ht : lease? h.sys.batches b.resource = some (b.owner, t)) : False :=
    hf.fenced.lost g b hb hd (hf.owner_eq hb ht)
  have he : RowsEffect cfg h.sys a (h.sys.step rt cfg a).batches := h.sys.rowsEffect_step a
  generalize (h.sys.step rt cfg a).batches = rows at he ⊢
  cases he with
  | kept => rfl
  | created g' coordinator sched batchID windowAt now hc hcr | acquired g' reply hc hok hau =>
    rw [some.inj ha] at hc
    rw [hc] at hb
    cases hb
  | @renewed g' reply x phase _ hc hac hrg hok hre =>
    rw [some.inj ha] at hc
    obtain ⟨r, hr, _⟩ := activity_executing cfg x hac
    rw [hc, hr] at hb
    rw [← some.inj hb] at hl
    obtain ⟨⟨t, ht⟩, _⟩ := lease?_heartbeatLease hre
    exact absurd ht hl
  | released g' reply hc =>
    rw [some.inj ha] at hc
    rw [hc] at hb
    rw [← some.inj hb] at hl
    rcases lease?_releaseLease h.sys.batches _ _ reply.now with hs | ⟨⟨t, ht⟩, _⟩
    · exact hs
    · exact absurd ht hl
  | updated g' reply w hw hok hu =>
    rw [some.inj ha] at hw hti
    cases hc : h.sys.calls g with
    | executing x phase =>
      rw [hc] at hw hb
      obtain ⟨copy, hco, _⟩ := map_eq_some_iff.mp hw
      have hac : phase ≠ .acquiring := by
        intro hph
        rw [hph] at hco
        cases hco
      have hle : phase ≠ .leaving := by
        intro hph
        rw [hph] at hco
        cases hco
      obtain ⟨r, hr, hrt⟩ := activity_executing cfg x hac
      have hwr : (h.sys.calls g).writesCopy = true := by
        rw [hc, BatchCall.writesCopy, hco]
        rfl
      -- the lease ended before the clock, so the write is not within it
      rw [← hc] at hr
      have hla : h.granted g < h.clock := hf.fenced.late g _ hr (hrt hle) hd
      have hwi : reply.now ≤ h.granted g := hti.2.1 hok hwr
      exact absurd (hti.1.trans hwi) (not_le.mpr hla)
    | _ =>
      rw [hc] at hb
      cases hb

/-- If all clocks agree and executions write within their leases, one that has been displaced changes no batch. -/
theorem displaced_keep_out (rt : Runtime) (cfg : C → Coordinator) (batches : ProbeBatchTable) (runs : ProbeRunTable)
    (clock : Time) (actions : List (BatchAction C G))
    (halong : Along (LeaseHistory.step rt cfg) (BatchAction.Timely cfg) (start C G batches runs clock) actions) :
    Along (LeaseHistory.step rt cfg) (KeepsOut rt cfg) (start C G batches runs clock) actions :=
  halong.imp (fun _ a hf ht => Fair.step hf a ht) (fun _ a hf ht => hf.keepsOut a ht)
    (fair_start batches runs clock)

section

open scoped BatchSystem

def noLeases : LeaseHistory (Fin 2) (Fin 2) := .start (Fin 2) (Fin 2) .empty .empty 0

abbrev sampleLeaseStep : LeaseHistory (Fin 2) (Fin 2) → BatchAction (Fin 2) (Fin 2) → LeaseHistory (Fin 2) (Fin 2) :=
  LeaseHistory.step asciiRuntime sampleCoordinator

/-- The first coordinator acquires a batch for a minute, and the second one acquires it after that. -/
def takenOver : List (BatchAction (Fin 2) (Fin 2)) :=
  [.create 0 0 sampleSchedule "b" 0 0, .proceed 0 { now := 0 }, .proceed 0 { now := 0 }, .execute 1 1 sampleSchedule "b",
    .proceed 1 { now := 100000000000 }]

/-- The first coordinator hears of it by its heartbeat before it writes. -/
theorem displaced_keep_out_heartbeat : Along sampleLeaseStep (KeepsOut asciiRuntime sampleCoordinator) noLeases
      (takenOver ++ [.heartbeat 0 { now := 101000000000 }, .proceed 0 { now := 102000000000 },
        .proceed 0 { now := 103000000000 }]) :=
  displaced_keep_out asciiRuntime sampleCoordinator .empty .empty 0 _ (by decide)

/-- The first coordinator writes before its next heartbeat: it marks the batch of the second one as running. -/
theorem exists_unfenced_write : ∃ (actions : List (BatchAction (Fin 2) (Fin 2))) (a : BatchAction (Fin 2) (Fin 2)),
    ¬ KeepsOut asciiRuntime sampleCoordinator (run sampleLeaseStep noLeases actions) a := by
  refine ⟨takenOver, .proceed 0 { now := 101000000000 }, fun h => ?_⟩
  have hr := congrArg (fun rows => Table.get? rows "b") (h 0 rfl (by decide))
  revert hr
  decide

end

end LeaseHistory

end ClashSubParser
