import ClashSubParser.Digest

/-! The text `encoding/json` writes for the payloads of the digests, for runs on concrete inputs. -/
namespace ClashSubParser

namespace Json

def escapeRune (c : Char) : List Char :=
  if c = '"' ∨ c = '\\' then ['\\', c]
  else
    match c.toNat with
    | 0x08 => ['\\', 'b']
    | 0x0c => ['\\', 'f']
    | 0x0a => ['\\', 'n']
    | 0x0d => ['\\', 'r']
    | 0x09 => ['\\', 't']
    | n =>
      -- besides control characters, the encoder escapes what HTML and JavaScript would read
      if n < 0x20 ∨ c = '<' ∨ c = '>' ∨ c = '&' ∨ n = 0x2028 ∨ n = 0x2029 then
        '\\' :: 'u' :: Strconv.hexDigits 4 n
      else [c]

/-- A text as the list of its characters, on which runs on concrete inputs are fast. -/
abbrev Text := List Char

def quoted (s : Text) : Text := '"' :: s.flatMap escapeRune ++ ['"']

def string (s : String) : Text := quoted s.toList

def array (items : List Text) : Text := '[' :: [','].intercalate items ++ [']']

def nilArray (items : List Text) : Text := if items = [] then "null".toList else array items

def object (fields : List (Option (String × Text))) : Text :=
  '\x7b' :: [','].intercalate (fields.reduceOption.map (fun f => string f.1 ++ ':' :: f.2)) ++ ['\x7d']

variable (name : String)

def field (value : Text) : Option (String × Text) := some (name, value)

def plain {V : Type} [ToString V] (value : V) : Option (String × Text) :=
  field name (toString value).toList

/-- A field with `omitempty`. -/
def optional (keep : Bool) (value : Text) : Option (String × Text) :=
  if keep then some (name, value) else none

def optionalInt (value : Int) : Option (String × Text) :=
  optional name (value ≠ 0) (toString value).toList

def text (value : String) : Option (String × Text) := field name (string value)

def optionalText (value : String) : Option (String × Text) :=
  optional name (value ≠ "") (string value)

def pointer (value : Option String) : Option (String × Text) :=
  value.map (fun v => (name, string v))

def texts (values : List String) : Option (String × Text) :=
  optional name (!values.isEmpty) (array (values.map string))

def map {V : Type} (enc : V → Text) (m : GoMap V) : Text :=
  object (m.entries.map (fun e => field e.1 (enc e.2)))

end Json

open Json

def RiskAction.text : RiskAction → String
  | allow => "allow"
  | review => "review"
  | block => "block"
  | unknown => "unknown"
  | other s _ => s

def MemberKind.text : MemberKind → String
  | group => "group"
  | node => "node"
  | builtin => "builtin"

def DiagnosticSeverity.text : DiagnosticSeverity → String
  | info => "info"
  | warning => "warning"
  | error => "error"

def jsonCondition (c : FilterCondition) : Text := object
  [Json.text "field" c.field, Json.text "op" c.op, optionalText "value" c.value,
   pointer "probe_kind" (c.probeKind.map (·.text)),
   c.freshnessSeconds.map (fun n => ("freshness_seconds", (toString n).toList))]

def jsonFilterSpec (s : NodeFilterSpec) : Text :=
  object [field "conditions" (nilArray (s.conditions.map jsonCondition))]

def jsonSource (s : CanonicalSourceLogical) : Text := object
  [Json.text "operation" s.operation.text, Json.text "kind" s.kind.text,
   plain "position" s.position, pointer "node_logical_id" s.nodeLogicalID,
   pointer "target_group_id" s.targetGroupID, pointer "pattern" s.pattern,
   s.filterSpec.map (fun f => ("filter_spec", jsonFilterSpec f)), pointer "builtin_name" s.builtinName]

def jsonSources (sources : List CanonicalSourceLogical) : Option (String × Text) :=
  optional "sources" (!sources.isEmpty) (array (sources.map jsonSource))

def jsonDNS (d : DNSConfig) : Text := object
  [plain "enabled" d.enabled, field "nameservers" (nilArray (d.nameservers.map string)),
   texts "fallback" d.fallback]

def jsonInputGroup (g : CanonicalInputGroup) : Text := object
  [plain "empty_fallback_pass" g.emptyFallbackPass, Json.text "id" g.id, Json.text "name" g.name,
   Json.text "group_type" g.groupType.text, jsonSources g.sources]

def jsonInputNode (n : CanonicalInputNode) : Text := object
  [Json.text "logical_id" n.logicalID, Json.text "display_name" n.displayName,
   Json.text "protocol" n.protocol.text, plain "active" n.active]

def jsonInputEdge (e : CanonicalInputEdge) : Text := object
  [Json.text "parent_group_id" e.parentGroupID, pointer "child_group_id" e.childGroupID,
   pointer "node_logical_id" e.nodeLogicalID, plain "position" e.position]

def jsonInputRule (r : CanonicalInputRule) : Text := object
  [Json.text "target_group_id" r.targetGroupID, Json.text "expression" r.expression,
   plain "position" r.position]

def jsonAdmissionRule (r : CanonicalAdmissionRule) : Text := object
  [Json.text "name" r.name, Json.text "expression" r.expression, Json.text "action" r.action.text,
   plain "position" r.position]

def jsonRiskDecision (d : CanonicalRiskDecision) : Text := object
  [Json.text "node_logical_id" d.nodeLogicalID, Json.text "policy_revision_id" d.policyRevisionID,
   Json.text "decision" d.decision.text, Json.text "reason_code" d.reasonCode,
   Json.text "evaluated_at" d.evaluatedAt]

def jsonInput (p : CanonicalInputPayload) : Text := object
  [optionalText "revision_id" p.revisionID, optionalText "inventory_watermark" p.inventoryWatermark,
   optionalText "compiler_version" p.compilerVersion, field "nodes" (array (p.nodes.map jsonInputNode)),
   field "groups" (array (p.groups.map jsonInputGroup)),
   field "edges" (nilArray (p.edges.map jsonInputEdge)),
   field "policy_rules" (array (p.policyRules.map jsonInputRule)),
   field "admission_rules" (array (p.admissionRules.map jsonAdmissionRule)), field "dns" (jsonDNS p.dns),
   optionalText "risk_policy_revision" p.riskPolicyRevision,
   optionalText "risk_decision_digest" p.riskDecisionDigest,
   optional "risk_decisions" (!p.riskDecisions.isEmpty) (array (p.riskDecisions.map jsonRiskDecision)),
   p.globalFilter.map (fun f => ("global_filter", jsonFilterSpec f)),
   optional "group_filters" (!p.groupFilters.entries.isEmpty) (Json.map jsonFilterSpec p.groupFilters),
   optional "node_sources" (!p.nodeSources.entries.isEmpty)
     (Json.map (fun l => array (l.map string)) p.nodeSources),
   optionalText "observation_digest" p.observationDigest]

def base64 : List (BitVec 8) → List Char
  | a :: b :: c :: l =>
    sextets [a.toNat/4, a.toNat%4*16 + b.toNat/16, b.toNat%16*4 + c.toNat/64, c.toNat%64] ++ base64 l
  | [a, b] => sextets [a.toNat/4, a.toNat%4*16 + b.toNat/16, b.toNat%16*4] ++ ['=']
  | [a] => sextets [a.toNat/4, a.toNat%4*16] ++ ['=', '=']
  | [] => []
where
  sextets (l : List ℕ) : List Char := l.map (fun n =>
    "ABCDEFGHIJKLMNOPQRSTUVWXYZabcdefghijklmnopqrstuvwxyz0123456789+/".toList.getD n '=')

def jsonCredential (c : InboundProtocolCredential) : Text := object
  [optionalText "password" c.password, optionalText "uuid" c.uuid, optionalText "method" c.method,
   optionalInt "alter_id" c.alterID, optionalText "private_key" c.privateKey,
   optionalText "public_key" c.publicKey, optionalText "preshared_key" c.presharedKey,
   optionalText "pre_shared_key" c.preSharedKey, texts "local_address" c.localAddress,
   optional "reserved" (!c.reserved.isEmpty) (quoted (base64 c.reserved)),
   optionalInt "mtu" c.mtu, texts "dns" c.dns,
   optionalText "congestion_control" c.congestionControl, optionalText "udp_relay_mode" c.udpRelayMode,
   texts "alpn" c.alpn, optionalText "sni" c.sni, optional "disable_sni" c.disableSNI "true".toList,
   optionalText "username" c.username,
   optional "transport" (!c.transport.entries.isEmpty) (Json.map string c.transport)]

def jsonNode (n : ResolvedNode) : Text := object
  [Json.text "logical_id" n.logicalID, Json.text "display_name" n.displayName,
   Json.text "protocol" n.protocol.text, optionalText "server" n.server,
   optionalInt "port" n.port, field "credentials" (jsonCredential n.credentials),
   plain "active" n.active,
   optionalInt "connection_revision" n.connectionRevision,
   plain "position" n.position]

def jsonMember (m : ResolvedGroupMember) : Text := object
  [Json.text "kind" m.kind.text, Json.text "target_id" m.targetID, Json.text "display_name" m.displayName,
   plain "position" m.position]

def jsonSnapshotGroup (g : CanonicalSnapshotGroup) : Text := object
  [plain "empty_fallback_pass" g.emptyFallbackPass,
   plain "effective_empty_pass" g.effectiveEmptyPass, Json.text "id" g.id,
   Json.text "name" g.name, Json.text "group_type" g.groupType.text,
   field "members" (array (g.members.map jsonMember)),
   field "child_group_ids" (nilArray (g.childGroupIDs.map string)),
   field "node_logical_ids" (nilArray (g.nodeLogicalIDs.map string)),
   field "all_node_logical_ids" (array (g.allNodeLogicalIDs.map string)),
   texts "expanded_node_ids" g.expandedNodeIDs, jsonSources g.sources,
   plain "position" g.position]

def jsonRule (r : ResolvedRule) : Text := object
  [Json.text "id" r.id, Json.text "target_group_id" r.targetGroupID,
   Json.text "target_group_name" r.targetGroupName, Json.text "expression" r.expression,
   plain "position" r.position, plain "is_terminal" r.isTerminal]

def jsonDiagnostic (d : Diagnostic) : Text := object
  [Json.text "severity" d.severity.text, Json.text "code" d.code, Json.text "message" d.message,
   optionalText "target" d.target, optionalText "reason" d.reason]

def jsonSnapshot (p : CanonicalSnapshotPayload) : Text := object
  [optionalText "revision_id" p.revisionID, optionalText "inventory_watermark" p.inventoryWatermark,
   optionalText "compiler_version" p.compilerVersion, field "nodes" (array (p.nodes.map jsonNode)),
   field "node_logical_ids" (array (p.nodeLogicalIDs.map string)),
   field "groups" (array (p.groups.map jsonSnapshotGroup)), field "rules" (array (p.rules.map jsonRule)),
   field "dns" (jsonDNS p.dns), field "diagnostics" (array (p.diagnostics.map jsonDiagnostic)),
   texts "admitted_node_ids" p.admittedNodeIDs, texts "excluded_node_ids" p.excludedNodeIDs,
   optionalText "risk_policy_revision" p.riskPolicyRevision,
   optionalText "risk_evaluated_at" p.riskEvaluatedAt,
   optionalText "risk_decision_digest" p.riskDecisionDigest]

/-- An empty list is written as the slice the resolver builds: nil for the child and node lists of a
group, empty elsewhere. -/
def jsonEncoder : Encoder where
  marshalInput := fun p => String.ofList (jsonInput p)
  marshalSnapshot := fun p => String.ofList (jsonSnapshot p)

/-- With this encoder the digest is the hash of the text written here. -/
theorem computeInputDigest_json (input : ResolveInput) (now : Time) :
    computeInputDigest asciiRuntime jsonEncoder input now =
      Strconv.hexEncode (Sha256.sumText (jsonInput (canonicalInput asciiRuntime input now))) := by
  change Strconv.hexEncode (Sha256.sumText (String.ofList _).toList) = _
  rw [String.toList_ofList]

end ClashSubParser
