import ClashSubParser.ActionRuns
import ClashSubParser.KeyedTable
import ClashSubParser.PublicationPreflight

/-! The publication service over its table. Each statement is one step, and those of different calls may
alternate. -/
namespace ClashSubParser

open KeyedTable FirstError Strings

/-! ### Frozen content -/

structure MihomoDocument where
  /-- name, proxies and used providers of the groups -/
  proxyGroups : List (String × List String × List String)
  rules : List String

structure PublicationLibraries extends Libraries where
  /-- `yaml.Unmarshal`, or the text of its error -/
  unmarshalMihomo : String → Except String MihomoDocument
  /-- `json.Unmarshal` into a map, or the text of its error -/
  unmarshalObject : String → Except String Unit
  /-- the snapshot of a revision, as it is resolved now -/
  resolveTargetSnapshot : String → CompilerTarget → Except GoError ResolvedPolicySnapshot

/-- The last field of a rule line, before `no-resolve`. -/
def extractMihomoRuleTarget (rt : Runtime) (ruleLine : String) : String :=
  let parts := split ruleLine ','
  if parts.length < 2 then ""
  else if toUpper rt (trimSpace (parts.getD 0 "")) = "MATCH" then trimSpace (parts.getD 1 "")
  else
    let last := trimSpace (parts.getD (parts.length - 1) "")
    if equalFold rt last "no-resolve" then
      if 3 ≤ parts.length then trimSpace (parts.getD (parts.length - 2) "") else ""
    else last

section

variable (lib : PublicationLibraries)

def contentError {α : Type} (code message : String) : Except GoError α :=
  .error (.domain (newValidationError lib.toRuntime code message))

def checkDocumentGroup (group : String × List String × List String) : Except GoError Unit :=
  if group.2.1 = [] ∧ group.2.2 = [] then
    contentError lib "required_nonempty"
      ("proxy group " ++ Strconv.quote lib.toRuntime group.1 ++ " has no proxies (required_nonempty)")
  else .ok ()

def checkDocumentRule (groupNames : List String) (rule : String) : Except GoError Unit :=
  let target := extractMihomoRuleTarget lib.toRuntime rule
  if target ∉ ["", "DIRECT", "REJECT", "REJECT-DROP", "PASS"] ∧ target ∉ groupNames then
    contentError lib "dangling_rule_target"
      ("rule " ++ Strconv.quote lib.toRuntime rule ++ " targets non-existent group " ++
        Strconv.quote lib.toRuntime target)
  else .ok ()

def validatePublicationContent (content : String) (target : CompilerTarget) : Except GoError Unit :=
  if content = "" then contentError lib "snapshot_not_publishable" "content is empty"
  else
    match target with
    | .mihomo =>
      match lib.unmarshalMihomo content with
      | .error text => contentError lib "invalid_publication_content" ("failed to parse mihomo YAML: " ++ text)
      | .ok doc => do
        forEach (checkDocumentGroup lib) doc.proxyGroups
        forEach (checkDocumentRule lib ((doc.proxyGroups.map (·.1)).filter (· ≠ ""))) doc.rules
    | .singBox =>
      match lib.unmarshalObject content with
      | .error text => contentError lib "invalid_publication_content" ("failed to parse sing-box JSON: " ++ text)
      | .ok _ => .ok ()
    | _ => .ok ()

end

/-! ### Rows and statements -/

inductive PublicationState
  | draft | active | revoked
deriving DecidableEq

def PublicationState.text : PublicationState → String
  | draft => "draft"
  | active => "active"
  | revoked => "revoked"

structure Publication extends DraftContent where
  id : String
  tokenHash : String
  state : PublicationState
  /-- in seconds -/
  revokedAt : Option Int := none

abbrev PublicationTable := Table Publication.id

section

variable (rows : PublicationTable)

def tokenTaken (id tokenHash : String) : Bool := rows.rows.any (fun p => p.tokenHash = tokenHash && p.id ≠ id)

/-- `Create`, or nothing where a constraint of the table is broken. -/
def createPublication (pub : Publication) : Option PublicationTable :=
  if h : pub.id ∉ rows.keys ∧ tokenTaken rows pub.id pub.tokenHash = false then some (rows.insert pub h.1) else none

/-- `Activate`, whatever the state of the row. -/
def activatePublication (id tokenHash : String) : Option PublicationTable :=
  match rows.get? id with
  | some p =>
    if tokenTaken rows id tokenHash then none else some (rows.put { p with state := .active, tokenHash := tokenHash })
  | none => none

/-- `Revoke`, whatever the state of the row. -/
def revokePublication (id : String) (now : Int) : Option PublicationTable :=
  match rows.get? id with
  | some p => some (rows.put { p with state := .revoked, revokedAt := some now })
  | none => none

end

/-! ### Calls -/

structure PublishResult where
  publication : Publication
  rawToken : String
  exportURL : String
  contentDigest : String
  snapshotID : String

def publishResult (pub : Publication) (rawToken : String) : PublishResult where
  publication := pub
  rawToken := rawToken
  exportURL := "/publish/v1/" ++ pub.id ++ "?token=" ++ rawToken
  contentDigest := pub.contentDigest
  snapshotID := pub.id

structure Artifact where
  publicationID : String
  target : CompilerTarget
  content : String
  contentType : String
  filename : String
  contentDigest : String
  snapshotDigest : String

inductive ServeError
  | notFound | revoked | unauthorized | unsupportedTarget
  | other (e : PublicationError)

section

variable (lib : PublicationLibraries)

def contentDigestOf (content : String) : String := Strconv.hexEncode (lib.sha256 content)

def hashToken (token : String) : String := Strconv.hexEncode (lib.sha256 token)

def exportToken (bytes : Fin 32 → BitVec 8) : String := "pub_" ++ Strconv.hexEncode bytes

def checkPublishable (pub : Publication) (target : CompilerTarget) : Except GoError Unit :=
  if pub.target ≠ target then
    contentError lib "snapshot_target_mismatch"
      ("snapshot target " ++ pub.target.text ++ " does not match requested target " ++ target.text)
  else if pub.state ≠ .draft ∧ pub.state ≠ .active then
    contentError lib "snapshot_not_publishable" ("snapshot state " ++ pub.state.text ++ " is not publishable")
  else if pub.content = "" then
    contentError lib "snapshot_not_publishable" "snapshot contains errors and is not publishable"
  else validatePublicationContent lib pub.content pub.target

def readPublishable (rows : PublicationTable) (snapshotID : String) (target : CompilerTarget) : Option Publication :=
  if target.isKnown = false ∨ trimSpace snapshotID = "" then none
  else
    match rows.get? (trimSpace snapshotID) with
    | none => none
    | some pub =>
      match checkPublishable lib pub target with
      | .error _ => none
      | .ok _ => some pub

variable (enc : Encoders) (ctxErr : Option GoError)

def recompile (pub : Publication) : Except PublicationError Artifact :=
  match lib.resolveTargetSnapshot pub.revisionID pub.target with
  | .error e => .error (.returned e)
  | .ok snap => (compileSnapshot lib.toLibraries enc ctxErr snap pub.target).map (fun res =>
      { publicationID := pub.id
        target := pub.target
        content := res.content
        contentType := res.contentType
        filename := res.filename
        contentDigest := res.contentDigest
        snapshotDigest := res.snapshotDigest })

/-- `ResolveAndServe`: frozen content is served while its digest is right. -/
def resolveAndServe (rows : PublicationTable) (publicationID token : String) : Except ServeError Artifact :=
  if trimSpace publicationID = "" then .error .notFound
  else
    match rows.get? publicationID with
    | none => .error .notFound
    | some pub =>
      if pub.state ≠ .active then .error .revoked
      else if trimSpace token = "" ∨ pub.tokenHash ≠ hashToken lib token then .error .unauthorized
      else if pub.target.isKnown = false then .error .unsupportedTarget
      else if pub.content ≠ "" ∧ contentDigestOf lib pub.content = trimSpace pub.contentDigest then
        .ok
          { publicationID := pub.id
            target := pub.target
            content := pub.content
            contentType := pub.contentType
            filename := pub.filename
            contentDigest := pub.contentDigest
            snapshotDigest := pub.snapshotDigest }
      else (recompile lib enc ctxErr pub).mapError .other

end

/-! ### Drafts -/

structure PreviewQuery where
  target : CompilerTarget
  revisionID : String
  /-- as it is given, or as it is resolved when the call begins -/
  snapshot : ResolvedPolicySnapshot
  flags : PruneFlags
  compatMode : String

/-- A call of `Preview` with what it meets: the risk service and the error of its context. -/
structure PreviewCall extends PreviewQuery where
  risk : Option RiskGate
  ctxErr : Option GoError

def PreviewQuery.pruned (q : PreviewQuery) : ResolvedPolicySnapshot := q.flags.apply q.snapshot

def PreviewQuery.isStrict (rt : Runtime) (q : PreviewQuery) : Bool :=
  toLower rt (trimSpace q.compatMode) ∈ ["", "strict"]

section

variable (lib : PublicationLibraries) (enc : Encoders)

/-- `Preview` in compatible mode, on the nodes the target supports. -/
def previewCompatible (call : PreviewCall) : Except PublicationError DraftContent :=
  if call.target.isKnown = false then unsupportedTarget lib.toLibraries call.target
  else if call.pruned.diagnostics.any (fun d => d.code = "filtered_nodes_empty") then
    .error (.preflight (evaluatePreflight lib.toLibraries call.risk call.pruned call.target))
  else
    let compatSnap := (filterCompatibleSnapshot lib.toLibraries call.pruned call.target).1
    let empty := compatSnap.groups.find? (fun g => call.target = .mihomo && !g.usesEmptyPass && g.members.isEmpty)
    match empty with
    | some g => .error (.returned (.domain (newValidationError lib.toRuntime "empty_group_not_allowed"
        ("policy group " ++ Strconv.quote lib.toRuntime g.name ++ " has 0 members in compatible mode"))))
    | none =>
      match compile lib.toLibraries enc call.ctxErr compatSnap call.target with
      | .error (.capability e) => .error (.capability e)
      | .error (.other e) => .error (.returned e)
      | .ok r => .ok (draftOf call.revisionID call.target compatSnap r)

def preview (draftID : String) (call : PreviewCall) : Except PublicationError DraftContent :=
  if call.isStrict lib.toRuntime then
    previewStrict lib.toLibraries enc call.risk call.ctxErr draftID call.revisionID call.target call.snapshot call.flags
  else previewCompatible lib enc call

def failedDraft (q : PreviewQuery) : DraftContent :=
  draftOf q.revisionID q.target q.pruned
    { content := ""
      contentType := ""
      filename := ""
      target := q.target
      snapshotDigest := q.pruned.snapshotDigest
      contentDigest := "" }

def DraftContent.row (content : DraftContent) (tokenKind draftID : String) : Publication :=
  { content with
    id := draftID
    tokenHash := tokenKind ++ draftID
    state := .draft }

/-- What `Preview` stores: the compiled content, or a draft without content after a capability error. -/
def previewRow (draftID : String) (call : PreviewCall) : Option Publication :=
  match preview lib enc draftID call with
  | .ok content => some (content.row "draft:" draftID)
  | .error (.strictCapability _) => some ((failedDraft call.toPreviewQuery).row "draft_failed:" draftID)
  | .error _ => none

end

section

variable {lib : PublicationLibraries} {enc : Encoders} {draftID : String} {call : PreviewCall}

/-- The digest of a compiled content is that of the content. -/
theorem contentDigest_of_compile {ctxErr : Option GoError} {snap : ResolvedPolicySnapshot} {target : CompilerTarget}
    {r : Result} (h : compile lib.toLibraries enc ctxErr snap target = .ok r) :
    r.contentDigest = contentDigestOf lib r.content := by
  unfold compile at h
  split at h
  · cases h
  · cases h
  · obtain ⟨-, h⟩ := bind_unit_eq_ok_iff.mp h
    obtain ⟨-, h⟩ := bind_unit_eq_ok_iff.mp h
    obtain ⟨rendered, -, h⟩ := bind_eq_ok_iff.mp h
    obtain rfl := Except.ok.inj h
    rfl

theorem contentDigest_of_previewStrict {risk : Option RiskGate} {ctxErr : Option GoError} {revisionID : String}
    {target : CompilerTarget} {snap : ResolvedPolicySnapshot} {flags : PruneFlags} {c : DraftContent}
    (h : previewStrict lib.toLibraries enc risk ctxErr draftID revisionID target snap flags = .ok c) :
    c.contentDigest = contentDigestOf lib c.content := by
  rw [previewStrict] at h
  dsimp only at h
  cases hd : validateTargetCapabilities lib.toLibraries (flags.apply snap) target with
  | cons d ds =>
    rw [hd] at h
    split_ifs at h
    cases h
  | nil =>
    rw [hd] at h
    split_ifs at h
    · cases h
    · obtain ⟨r, hr, rfl⟩ := map_eq_ok_iff.mp h
      exact contentDigest_of_compile (compileSnapshot_eq_ok hr)

theorem contentDigest_of_previewCompatible {c : DraftContent} (h : previewCompatible lib enc call = .ok c) :
    c.contentDigest = contentDigestOf lib c.content := by
  rw [previewCompatible] at h
  split_ifs at h
  · cases h
  · dsimp only at h
    split at h
    · cases h
    · split at h
      · cases h
      · cases h
      · next hc =>
        obtain rfl := Except.ok.inj h
        exact contentDigest_of_compile hc

/-- The content of a stored draft, if it has any, has the digest stored with it. -/
theorem previewRow_sound {pub : Publication} (h : previewRow lib enc draftID call = some pub)
    (hne : pub.content ≠ "") : pub.contentDigest = contentDigestOf lib pub.content := by
  rw [previewRow] at h
  split at h
  · next c hc =>
    obtain rfl := Option.some.inj h
    rw [preview] at hc
    split_ifs at hc
    · exact contentDigest_of_previewStrict hc
    · exact contentDigest_of_previewCompatible hc
  · obtain rfl := Option.some.inj h
    exact absurd rfl hne
  · cases h

end

/-! ### Steps -/

/-- The table, the calls that have read their row, and what calls have returned. -/
structure PublicationSystem where
  rows : PublicationTable
  publishing : List Publication
  revoking : List Publication
  results : List PublishResult
  /-- the publications whose `Revoke` has returned without an error -/
  revoked : List String

def PublicationSystem.start (rows : PublicationTable) : PublicationSystem := ⟨rows, [], [], [], []⟩

inductive PublicationAction
  /-- `Preview`, or the preview of a `Publish`, stores a draft -/
  | preview (uuid : String) (call : PreviewCall)
  /-- `Publish` reads its row -/
  | read (snapshotID : String) (target : CompilerTarget)
  /-- a `Publish` that has read a draft activates it with a new token -/
  | activate (call : ℕ) (bytes : Fin 32 → BitVec 8)
  /-- `Revoke` reads its row -/
  | readRevocable (id : String)
  /-- a `Revoke` that has read its row writes it -/
  | revoke (call : ℕ) (now : Int)

section

variable (lib : PublicationLibraries) (enc : Encoders)

/-- One statement with what its call does until the next one. A call that fails has no further steps. -/
def PublicationSystem.step (st : PublicationSystem) : PublicationAction → PublicationSystem
  | .preview uuid call =>
    { st with
      rows := ((previewRow lib enc ("snapshot_" ++ uuid) call).bind (createPublication st.rows)).getD st.rows }
  | .read snapshotID target =>
    match readPublishable lib st.rows snapshotID target with
    | some pub =>
      if pub.state = .active then { st with results := publishResult pub "active" :: st.results }
      else { st with publishing := st.publishing ++ [pub] }
    | none => st
  | .activate call bytes =>
    match st.publishing[call]? with
    | none => st
    | some pub =>
      let token := exportToken bytes
      match activatePublication st.rows pub.id (hashToken lib token) with
      | none => { st with publishing := st.publishing.eraseIdx call }
      | some rows =>
        { st with
          rows := rows
          publishing := st.publishing.eraseIdx call
          results := publishResult { pub with state := .active, tokenHash := hashToken lib token } token ::
            st.results }
  | .readRevocable id =>
    match st.rows.get? id with
    | some pub => if pub.state = .revoked then st else { st with revoking := st.revoking ++ [pub] }
    | none => st
  | .revoke call now =>
    match st.revoking[call]? with
    | none => st
    | some pub =>
      match revokePublication st.rows pub.id now with
      | none => { st with revoking := st.revoking.eraseIdx call }
      | some rows =>
        { st with
          rows := rows
          revoking := st.revoking.eraseIdx call
          revoked := pub.id :: st.revoked }

end

end ClashSubParser
