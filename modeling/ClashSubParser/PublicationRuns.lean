import ClashSubParser.PublicationService

/-! What tokens and revocations are worth over runs of the publication service, whose writes ignore the
state of a row. -/
namespace ClashSubParser

open List KeyedTable Strings ActionRuns PublicationSystem Table

/-! ### What one statement writes -/

/-- One row is written, and nothing of a content that was there before changes. -/
structure WritesRow (rows rows' : PublicationTable) (id : String) (p' : Publication) : Prop where
  self : rows'.get? id = some p'
  other : ∀ id', id' ≠ id → rows'.get? id' = rows.get? id'
  content : ∀ p, rows.get? id = some p → p'.toDraftContent = p.toDraftContent

section

variable {rows rows' : PublicationTable} {id : String}

theorem writesRow_insert {pub : Publication} (h : pub.id ∉ rows.keys) :
    WritesRow rows (rows.insert pub h) pub.id pub := by
  refine ⟨rows.get?_insert_self pub h, fun id' hid => rows.get?_insert_of_ne pub h hid, fun p hp => ?_⟩
  rw [get?_eq_none.mpr h] at hp
  cases hp

theorem writesRow_put {p p' : Publication} (hp : rows.get? id = some p) (hid : p'.id = p.id)
    (hc : p'.toDraftContent = p.toDraftContent) : WritesRow rows (rows.put p') id p' := by
  have hk : p'.id = id := hid.trans (get?_eq_some.mp hp).2
  constructor
  · rw [← hk]
    exact rows.get?_put_self p'
  · intro id' hne
    exact rows.get?_put_of_ne p' (hk.symm ▸ hne)
  · intro q hq
    rw [hp] at hq
    rw [hc, Option.some.inj hq]

theorem WritesRow.exists_row {p' : Publication} (h : WritesRow rows rows' id p') {id' : String} {p : Publication}
    (hp : rows.get? id' = some p) : ∃ q, rows'.get? id' = some q ∧ q.toDraftContent = p.toDraftContent := by
  by_cases hid : id' = id
  · rw [hid] at hp ⊢
    exact ⟨p', h.self, h.content p hp⟩
  · exact ⟨p, (h.other id' hid).trans hp, rfl⟩

theorem createPublication_eq_some {pub : Publication} (h : createPublication rows pub = some rows') :
    rows.get? pub.id = none ∧ WritesRow rows rows' pub.id pub := by
  rw [createPublication] at h
  split_ifs at h with hf
  rw [← Option.some.inj h]
  exact ⟨get?_eq_none.mpr hf.1, writesRow_insert hf.1⟩

theorem activatePublication_eq_some {tokenHash : String} (h : activatePublication rows id tokenHash = some rows') :
    ∃ p p', rows.get? id = some p ∧ WritesRow rows rows' id p' ∧ p'.state = .active ∧ p'.tokenHash = tokenHash := by
  rw [activatePublication] at h
  cases hp : rows.get? id with
  | none =>
    rw [hp] at h
    cases h
  | some p =>
    rw [hp] at h
    split_ifs at h
    rw [← Option.some.inj h]
    exact ⟨p, _, rfl, writesRow_put hp rfl rfl, rfl, rfl⟩

theorem revokePublication_eq_some {now : Int} (h : revokePublication rows id now = some rows') :
    ∃ p p', rows.get? id = some p ∧ WritesRow rows rows' id p' ∧ p'.state = .revoked := by
  rw [revokePublication] at h
  cases hp : rows.get? id with
  | none =>
    rw [hp] at h
    cases h
  | some p =>
    rw [hp] at h
    rw [← Option.some.inj h]
    exact ⟨p, _, rfl, writesRow_put hp rfl rfl, rfl⟩

end

/-! ### What one step does -/

/-- What a step may do to the system, with what the statements it makes have found. -/
inductive PublicationEffect (lib : PublicationLibraries) (st : PublicationSystem) : PublicationAction →
    PublicationSystem → Prop
  /-- a read without consequence, or a statement that fails -/
  | idle (a : PublicationAction) (publishing revoking : List Publication)
      (hpublishing : ∀ pub ∈ publishing, pub ∈ st.publishing) :
      PublicationEffect lib st a { st with publishing := publishing, revoking := revoking }
  | previewed (uuid : String) (call : PreviewCall) (rows : PublicationTable) (pub : Publication)
      (hsound : pub.content ≠ "" → pub.contentDigest = contentDigestOf lib pub.content)
      (hnew : st.rows.get? pub.id = none) (hwrites : WritesRow st.rows rows pub.id pub) :
      PublicationEffect lib st (.preview uuid call) { st with rows := rows }
  | reissued (snapshotID : String) (target : CompilerTarget) (pub : Publication)
      (hread : readPublishable lib st.rows snapshotID target = some pub) (hactive : pub.state = .active) :
      PublicationEffect lib st (.read snapshotID target)
        { st with results := publishResult pub "active" :: st.results }
  | taken (snapshotID : String) (target : CompilerTarget) (pub : Publication)
      (hread : readPublishable lib st.rows snapshotID target = some pub) :
      PublicationEffect lib st (.read snapshotID target) { st with publishing := st.publishing ++ [pub] }
  | activated (call : ℕ) (bytes : Fin 32 → BitVec 8) (pub p p' : Publication) (rows : PublicationTable)
      (hcall : st.publishing[call]? = some pub) (hrow : st.rows.get? pub.id = some p)
      (hwrites : WritesRow st.rows rows pub.id p') (hactive : p'.state = .active)
      (htoken : p'.tokenHash = hashToken lib (exportToken bytes)) :
      PublicationEffect lib st (.activate call bytes)
        { st with
          rows := rows
          publishing := st.publishing.eraseIdx call
          results := publishResult { pub with state := .active, tokenHash := hashToken lib (exportToken bytes) }
            (exportToken bytes) :: st.results }
  | revoked (call : ℕ) (now : Int) (pub p p' : Publication) (rows : PublicationTable)
      (hrow : st.rows.get? pub.id = some p) (hwrites : WritesRow st.rows rows pub.id p')
      (hrevoked : p'.state = .revoked) :
      PublicationEffect lib st (.revoke call now)
        { st with rows := rows, revoking := st.revoking.eraseIdx call, revoked := pub.id :: st.revoked }

section

theorem publicationEffect_step (lib : PublicationLibraries) (enc : Encoders) (st : PublicationSystem)
    (a : PublicationAction) : PublicationEffect lib st a (st.step lib enc a) := by
  have hi : PublicationEffect lib st a st := .idle a st.publishing st.revoking fun _ h => h
  cases a with
  | preview uuid call =>
    rw [step]
    cases hrow : (previewRow lib enc ("snapshot_" ++ uuid) call).bind (createPublication st.rows) with
    | some rows =>
      obtain ⟨pub, hp, hcr⟩ := Option.bind_eq_some_iff.mp hrow
      obtain ⟨hn, hwr⟩ := createPublication_eq_some hcr
      exact .previewed uuid call rows pub (previewRow_sound hp) hn hwr
    | none => exact hi
  | read snapshotID t =>
    rw [step]
    split
    · next pub hre =>
      split_ifs with hac
      · exact .reissued snapshotID t pub hre hac
      · exact .taken snapshotID t pub hre
    · exact hi
  | activate call bytes =>
    rw [step]
    split
    · exact hi
    · next pub hc =>
      dsimp only
      split
      · exact .idle _ _ st.revoking fun _ h => mem_of_mem_eraseIdx h
      · next rows ha =>
        obtain ⟨p, p', hr, hwr, hac, ht⟩ := activatePublication_eq_some ha
        exact .activated call bytes pub p p' rows hc hr hwr hac ht
  | readRevocable id =>
    rw [step]
    split
    · split_ifs
      · exact hi
      · exact .idle _ st.publishing _ fun _ h => h
    · exact hi
  | revoke call now =>
    rw [step]
    split
    · exact hi
    · next pub hc =>
      split
      · exact .idle _ st.publishing _ fun _ h => h
      · next rows hrv =>
        obtain ⟨p, p', hr, hwr, hrk⟩ := revokePublication_eq_some hrv
        exact .revoked call now pub p p' rows hr hwr hrk

end

/-! ### Revocations -/

section

variable {lib : PublicationLibraries} {enc : Encoders} (st : PublicationSystem)

/-- No publication is activated that has been revoked since its call read it. -/
def PublicationAction.Unrevoked : PublicationAction → Prop
  | .activate call _ => ∀ pub ∈ st.publishing[call]?, ∀ p ∈ st.rows.get? pub.id, p.state ≠ .revoked
  | _ => True

instance (st : PublicationSystem) (a : PublicationAction) : Decidable (a.Unrevoked st) := by
  cases a <;> unfold PublicationAction.Unrevoked <;> infer_instance

def PublicationSystem.RevokedRows : Prop :=
  ∀ id ∈ st.revoked, ∃ p, st.rows.get? id = some p ∧ p.state = .revoked

theorem revokedRows_step (a : PublicationAction) (h : st.RevokedRows)
    (ha : a.Unrevoked st) : (st.step lib enc a).RevokedRows := by
  have he := publicationEffect_step lib enc st a
  generalize st.step lib enc a = st' at he
  intro id hid
  cases he with
  | idle | reissued | taken => exact h id hid
  | previewed uuid call rows pub _ hn hwr =>
    obtain ⟨p, hp, hs⟩ := h id hid
    have hne : id ≠ pub.id := by
      intro heq
      rw [heq, hn] at hp
      cases hp
    exact ⟨p, (hwr.other id hne).trans hp, hs⟩
  | activated call bytes pub p p' rows hc hr hwr hac ht =>
    obtain ⟨q, hq, hs⟩ := h id hid
    -- the row that is written was not revoked
    have hne : id ≠ pub.id := by
      intro heq
      rw [heq] at hq
      exact ha pub hc q hq hs
    exact ⟨q, (hwr.other id hne).trans hq, hs⟩
  | revoked call now pub p p' rows hr hwr hrv =>
    by_cases heq : id = pub.id
    · rw [heq]
      exact ⟨p', hwr.self, hrv⟩
    · obtain ⟨q, hq, hs⟩ := h id ((mem_cons.mp hid).resolve_left heq)
      exact ⟨q, (hwr.other id heq).trans hq, hs⟩

theorem resolveAndServe_of_revoked {err : Option GoError} {rows : PublicationTable} {id : String}
    {p : Publication} (hp : rows.get? id = some p) (hs : p.state = .revoked) (token : String) (a : Artifact) :
    resolveAndServe lib enc err rows id token ≠ .ok a := by
  have hi : p.state ≠ .active := by
    rw [hs]
    decide
  rw [resolveAndServe, hp]
  dsimp only
  split_ifs <;> simp

/-- Over every run in which no revoked publication is activated, a publication whose revocation has succeeded
is never served again, whatever token is presented. -/
theorem revocation_final (enc : Encoders) (ctxErr : Option GoError) (rows : PublicationTable)
    (actions : List PublicationAction)
    (hactions : Along (PublicationSystem.step lib enc) (fun st a => a.Unrevoked st) (.start rows) actions) :
    ∀ id ∈ (run (PublicationSystem.step lib enc) (.start rows) actions).revoked, ∀ token a,
      resolveAndServe lib enc ctxErr (run (PublicationSystem.step lib enc) (.start rows) actions).rows id token ≠
        .ok a := by
  have hs : (start rows).RevokedRows := fun id hid => absurd hid not_mem_nil
  have he := hactions.invariant revokedRows_step hs
  intro id hid token a
  obtain ⟨p, hp, hst⟩ := he id hid
  exact resolveAndServe_of_revoked hp hst token a

end

section

/-- Libraries whose documents are never parsed: the sample publishes for Surge. -/
def samplePublications : PublicationLibraries where
  toLibraries := asciiLibraries
  unmarshalMihomo _ := .error ""
  unmarshalObject _ := .error ""
  resolveTargetSnapshot _ _ := .error (.plain "")

def surgePreview : PreviewCall where
  target := .surge
  revisionID := ""
  snapshot := plainSelector
  flags := ⟨false, false⟩
  compatMode := ""
  risk := none
  ctxErr := none

def taken : List PublicationAction := [.preview "1" surgePreview, .read "snapshot_1" .surge]

def revokedOnce : List PublicationAction := [.readRevocable "snapshot_1", .revoke 0 0]

def activatedOnce : List PublicationAction := [.activate 0 (fun _ => 0)]

def afterPublications (actions : List PublicationAction) : PublicationSystem :=
  run (PublicationSystem.step samplePublications blankEncoders) (.start Table.empty) actions

theorem revocation_final_after_activation :
    "snapshot_1" ∈ (afterPublications (taken ++ activatedOnce ++ revokedOnce)).revoked ∧
      ∀ token a, resolveAndServe samplePublications blankEncoders none
        (afterPublications (taken ++ activatedOnce ++ revokedOnce)).rows "snapshot_1" token ≠ .ok a := by
  have hr : "snapshot_1" ∈ (afterPublications (taken ++ activatedOnce ++ revokedOnce)).revoked := by
    decide +kernel
  exact ⟨hr, revocation_final blankEncoders none empty _ (by decide +kernel) _ hr⟩

/-- The draft is revoked between the read and the write of a `Publish`, which activates it again. -/
theorem exists_revived_publication :
    "snapshot_1" ∈ (afterPublications (taken ++ revokedOnce ++ activatedOnce)).revoked ∧
      (resolveAndServe samplePublications blankEncoders none
        (afterPublications (taken ++ revokedOnce ++ activatedOnce)).rows "snapshot_1"
          (exportToken fun _ => 0)).isOk = true := by
  decide +kernel

end

/-! ### Tokens -/

section

variable {lib : PublicationLibraries}

/-- A `Publish` reads no active publication, and activates a row that is still a draft. -/
def PublicationAction.Exclusive (lib : PublicationLibraries) (st : PublicationSystem) : PublicationAction → Prop
  | .read snapshotID target => ∀ pub ∈ readPublishable lib st.rows snapshotID target, pub.state ≠ .active
  | .activate call _ => ∀ pub ∈ st.publishing[call]?, ∀ p ∈ st.rows.get? pub.id, p.state = .draft
  | _ => True

instance (st : PublicationSystem) (a : PublicationAction) : Decidable (a.Exclusive lib st) := by
  cases a <;> unfold PublicationAction.Exclusive <;> infer_instance

structure Publication.Servable (lib : PublicationLibraries) (p : Publication) : Prop where
  id : trimSpace p.id ≠ ""
  target : p.target.isKnown = true
  content : p.content ≠ ""
  digest : p.contentDigest = contentDigestOf lib p.content

variable {rows' rows : PublicationTable} {pub p p' : Publication} {id : String}

theorem Publication.Servable.congr {q : Publication} (h : p.Servable lib) (hid : q.id = p.id)
    (hc : q.toDraftContent = p.toDraftContent) : q.Servable lib where
  id := hid ▸ h.id
  target := hc ▸ h.target
  content := hc ▸ h.content
  digest := hc ▸ h.digest

structure Redeems (lib : PublicationLibraries) (rows : PublicationTable) (r : PublishResult) (p : Publication) :
    Prop where
  row : rows.get? r.publication.id = some p
  servable : p.Servable lib
  active : p.state = .active
  token : p.tokenHash = hashToken lib r.rawToken
  nonblank : trimSpace r.rawToken ≠ ""
  digest : p.contentDigest = r.contentDigest

def Serves (lib : PublicationLibraries) (enc : Encoders) (ctxErr : Option GoError) (rows : PublicationTable)
    (r : PublishResult) : Prop :=
  ∃ a, resolveAndServe lib enc ctxErr rows r.publication.id r.rawToken = .ok a ∧
    a.contentDigest = r.contentDigest ∧ contentDigestOf lib a.content = r.contentDigest

theorem trimSpace_hexEncode (sum : Fin 32 → BitVec 8) : trimSpace (Strconv.hexEncode sum) = Strconv.hexEncode sum :=
  trimSpace_eq_self fun _ hc => isSpace_of_isUUIDChar (isUUIDChar_of_mem_hexBytes sum _ _ hc)

theorem Redeems.serves {enc : Encoders} {err : Option GoError} {r : PublishResult} (h : Redeems lib rows r p) :
    Serves lib enc err rows r := by
  have hid : trimSpace r.publication.id ≠ "" := by
    rw [← (get?_eq_some.mp h.row).2]
    exact h.servable.id
  have hdg : contentDigestOf lib p.content = trimSpace p.contentDigest := by
    rw [h.servable.digest, contentDigestOf, trimSpace_hexEncode]
  have htg : ¬p.target.isKnown = false := by
    rw [h.servable.target]
    decide
  rw [Serves, resolveAndServe, if_neg hid, h.row]
  dsimp only
  rw [if_neg (not_not.mpr h.active), if_neg (not_or.mpr ⟨h.nonblank, not_not.mpr h.token⟩), if_neg htg,
    if_pos ⟨h.servable.content, hdg⟩]
  exact ⟨_, rfl, h.digest, h.servable.digest.symm.trans h.digest⟩

theorem trimSpace_exportToken (bytes : Fin 32 → BitVec 8) : trimSpace (exportToken bytes) ≠ "" := by
  rw [Ne, trimSpace_eq_empty_iff]
  intro h
  have hf : 'p' ∈ (exportToken bytes).toList := by
    rw [exportToken, String.toList_append]
    exact mem_append_left _ (by decide)
  exact absurd (h 'p' hf) (by decide)

def SoundRows (lib : PublicationLibraries) (rows : PublicationTable) : Prop :=
  ∀ id p, rows.get? id = some p → p.content ≠ "" → p.contentDigest = contentDigestOf lib p.content

theorem SoundRows.writesRow (h : SoundRows lib rows) (hwr : WritesRow rows rows' id p')
    (hsd : p'.content ≠ "" → p'.contentDigest = contentDigestOf lib p'.content) : SoundRows lib rows' := by
  intro id' q hq
  by_cases hid : id' = id
  · rw [hid, hwr.self] at hq
    rw [← Option.some.inj hq]
    exact hsd
  · rw [hwr.other id' hid] at hq
    exact h id' q hq

theorem SoundRows.rewritesRow
    (h : SoundRows lib rows) (hwr : WritesRow rows rows' id p') (hp : rows.get? id = some p) :
    SoundRows lib rows' := by
  apply h.writesRow hwr
  rw [hwr.content p hp]
  exact h id p hp

theorem checkPublishable_eq_ok {t : CompilerTarget} {u : Unit} (h : checkPublishable lib pub t = .ok u) :
    pub.target = t ∧ pub.content ≠ "" := by
  rw [checkPublishable] at h
  split_ifs at h with htg hs hc
  · cases h
  · cases h
  · cases h
  · exact ⟨not_not.mp htg, hc⟩

theorem readPublishable_eq_some {snapshotID : String} {t : CompilerTarget}
    (hsd : SoundRows lib rows) (h : readPublishable lib rows snapshotID t = some pub) :
    rows.get? pub.id = some pub ∧ pub.Servable lib := by
  rw [readPublishable] at h
  split_ifs at h with hbl
  rw [not_or, Bool.not_eq_false] at hbl
  split at h
  · cases h
  · next pub' hp' =>
    split at h
    · cases h
    · next hch =>
      obtain rfl := Option.some.inj h
      have hid : pub'.id = trimSpace snapshotID := (get?_eq_some.mp hp').2
      obtain ⟨htg, hc⟩ := checkPublishable_eq_ok hch
      refine ⟨hid ▸ hp', ?_, ?_, hc, hsd _ _ hp' hc⟩
      · rw [hid, trimSpace_trimSpace]
        exact hbl.2
      · rw [htg]
        exact hbl.1

/-- The calls that have read a row still find its content, and every result that is not revoked is redeemed by
its row. -/
structure Issued (lib : PublicationLibraries) (st : PublicationSystem) : Prop where
  sound : SoundRows lib st.rows
  publishing : ∀ pub ∈ st.publishing, pub.Servable lib ∧
    ∃ p, st.rows.get? pub.id = some p ∧ p.toDraftContent = pub.toDraftContent
  results : ∀ r ∈ st.results, r.publication.id ∈ st.revoked ∨ ∃ p, Redeems lib st.rows r p

theorem redeems_publishResult {token : String}
    (hr : rows.get? pub.id = some p) (hs : p.Servable lib) (ha : p.state = .active)
    (ht : p.tokenHash = hashToken lib token) (hnb : trimSpace token ≠ "")
    (hdg : p.contentDigest = pub.contentDigest) : Redeems lib rows (publishResult pub token) p :=
  ⟨hr, hs, ha, ht, hnb, hdg⟩

theorem Redeems.writesRow {r : PublishResult}
    (h : Redeems lib rows r p) (hwr : WritesRow rows rows' id p') (hid : r.publication.id ≠ id) :
    Redeems lib rows' r p :=
  { h with row := (hwr.other _ hid).trans h.row }

theorem issued_step {enc : Encoders} (st : PublicationSystem) (a : PublicationAction) (h : Issued lib st)
    (ha : a.Exclusive lib st) : Issued lib (st.step lib enc a) := by
  have he := publicationEffect_step lib enc st a
  generalize st.step lib enc a = st' at he
  have hpl : ∀ {rows id p'}, WritesRow st.rows rows id p' → ∀ pub ∈ st.publishing, pub.Servable lib ∧
      ∃ p, rows.get? pub.id = some p ∧ p.toDraftContent = pub.toDraftContent := by
    intro rows id p' hwr pub hpu
    obtain ⟨hs, p, hp, hsa⟩ := h.publishing pub hpu
    obtain ⟨q, hq, hc⟩ := hwr.exists_row hp
    exact ⟨hs, q, hq, hc.trans hsa⟩
  cases he with
  | idle _ publishing revoking hsu =>
    exact ⟨h.sound, fun pub hpu => h.publishing pub (hsu pub hpu), h.results⟩
  | previewed uuid call rows pub hsd hn hwr =>
    refine ⟨h.sound.writesRow hwr hsd, hpl hwr, fun r hr => ?_⟩
    refine (h.results r hr).imp_right fun ⟨p, hp⟩ => ⟨p, hp.writesRow hwr fun heq => ?_⟩
    have hro := hp.row
    rw [heq, hn] at hro
    cases hro
  | reissued snapshotID t pub hre hac => exact absurd hac (ha pub hre)
  | taken snapshotID t pub hre =>
    refine ⟨h.sound, fun pub' hp' => ?_, h.results⟩
    rcases mem_append.mp hp' with ho | hn
    · exact h.publishing pub' ho
    · obtain ⟨hro, hs⟩ := readPublishable_eq_some h.sound hre
      rw [mem_singleton.mp hn]
      exact ⟨hs, pub, hro, rfl⟩
  | activated call bytes pub p p' rows hca hro hwr hac ht =>
    refine ⟨h.sound.rewritesRow hwr hro, ?_, fun r hr => ?_⟩
    · intro pub' hp'
      exact hpl hwr pub' (mem_of_mem_eraseIdx hp')
    · rcases mem_cons.mp hr with rfl | ho
      · right
        obtain ⟨hs, q, hq, hre⟩ := h.publishing pub (mem_of_getElem? hca)
        have hc : p'.toDraftContent = pub.toDraftContent := (hwr.content q hq).trans hre
        have hid : p'.id = pub.id := (get?_eq_some.mp hwr.self).2
        exact ⟨p', redeems_publishResult hwr.self (hs.congr hid hc) hac ht
          (trimSpace_exportToken bytes) (congrArg DraftContent.contentDigest hc)⟩
      · refine (h.results r ho).imp_right fun ⟨q, hq⟩ => ⟨q, hq.writesRow hwr fun heq => ?_⟩
        -- the row that is written was a draft, that of the result is active
        have hd : q.state = .draft := ha pub hca q (heq ▸ hq.row)
        rw [hq.active] at hd
        cases hd
  | revoked call now pub p p' rows hro hwr hrv =>
    refine ⟨h.sound.rewritesRow hwr hro, hpl hwr, fun r hr => ?_⟩
    by_cases heq : r.publication.id = pub.id
    · rw [heq]
      exact .inl mem_cons_self
    · rcases h.results r hr with ho | ⟨q, hq⟩
      · exact .inl (mem_cons_of_mem _ ho)
      · exact .inr ⟨q, hq.writesRow hwr heq⟩

/-- From a table whose rows have no content yet, over every run in which `Publish` reads no active publication and
activates rows that are still drafts, the token of every result that is not revoked gets content with the digest
of the result. -/
theorem published_token_serves (enc : Encoders) (ctxErr : Option GoError) (rows : PublicationTable)
    (hrows : ∀ p ∈ rows.rows, p.content = "") (actions : List PublicationAction)
    (hactions : Along (PublicationSystem.step lib enc) (fun st a => a.Exclusive lib st) (.start rows) actions) :
    ∀ r ∈ (run (PublicationSystem.step lib enc) (.start rows) actions).results,
      r.publication.id ∉ (run (PublicationSystem.step lib enc) (.start rows) actions).revoked →
        Serves lib enc ctxErr (run (PublicationSystem.step lib enc) (.start rows) actions).rows r := by
  have hsd : SoundRows lib rows := fun _ p hp hne => absurd (hrows p (get?_eq_some.mp hp).1) hne
  have hs : Issued lib (.start rows) :=
    ⟨hsd, fun _ h => absurd h not_mem_nil, fun _ h => absurd h not_mem_nil⟩
  have he := hactions.invariant issued_step hs
  intro r hr hv
  obtain ⟨p, hp⟩ := (he.results r hr).resolve_left hv
  exact hp.serves

end

section

/-- The tokens of the results that are not revoked, with whether they are served. -/
def servedTokens (st : PublicationSystem) : List (String × Bool) :=
  (st.results.filter (fun r => r.publication.id ∉ st.revoked)).map (fun r =>
    (r.rawToken, (resolveAndServe samplePublications blankEncoders none st.rows r.publication.id r.rawToken).isOk))

theorem published_token_serves_activated : (afterPublications (taken ++ activatedOnce)).results ≠ [] ∧
      ∀ r ∈ (afterPublications (taken ++ activatedOnce)).results,
        r.publication.id ∉ (afterPublications (taken ++ activatedOnce)).revoked →
          Serves samplePublications blankEncoders none (afterPublications (taken ++ activatedOnce)).rows r := by
  exact ⟨by decide +kernel, published_token_serves blankEncoders none empty (fun _ h => absurd h not_mem_nil) _
    (by decide +kernel)⟩

/-- Published a second time, the active publication is returned with the token "active", which it is not served
for. -/
theorem exists_unserved_token :
    ("active", false) ∈ servedTokens (afterPublications (taken ++ activatedOnce ++ [.read "snapshot_1" .surge])) := by
  decide +kernel

end

end ClashSubParser
