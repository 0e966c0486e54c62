import ClashSubParser.PolicyTypes

/-! Node filters: validation of the conditions and their evaluation on a node. -/
namespace ClashSubParser

section

variable (rt : Runtime)

/-- A compiled name filter: RE2, or the backtracking engine where RE2 does not compile. -/
def compileFilterRegex (pattern : String) : Except GoError (String → Except GoError Bool) :=
  let pattern := Strings.trimSpace pattern
  if Strings.byteLen pattern = 0 ∨ 1024 < Strings.byteLen pattern then
    .error (.plain "regex pattern must contain 1 to 1024 bytes")
  else
    let pat := if Strings.hasPrefix pattern "(?i)" then pattern else "(?i)" ++ pattern
    let limited (run : String → Except GoError Bool) (input : String) : Except GoError Bool :=
      if 4096 < Strings.byteLen input then .error (.plain "regex input exceeds 4096 bytes")
      else run input
    match rt.regexpCompile pat with
    | .ok re => .ok (limited (fun input => .ok (re input)))
    | .error _ =>
      match rt.regexp2Compile pat with
      | .error e => .error (.plain e)
      | .ok re => .ok (limited (fun input => (re input).mapError .plain))

/-- `matched, _ := re.Match(input)`: a failed match counts as no match. -/
def matchOrFalse (re : String → Except GoError Bool) (input : String) : Bool :=
  match re input with
  | .ok b => b
  | .error _ => false

end

inductive FilterField
  | displayName | protocol | sourceSubscriptions | probeVerdict | probeLatencyMS
deriving DecidableEq

inductive FilterOp
  | contains | notContains | regex | notRegex | equals | notEquals | lte
deriving DecidableEq

def FilterOp.text : FilterOp → String
  | contains => "contains"
  | notContains => "not_contains"
  | regex => "regex"
  | notRegex => "not_regex"
  | equals => "equals"
  | notEquals => "not_equals"
  | lte => "lte"

section

variable (rt : Runtime)

def parseFilterField (s : String) : Except GoError FilterField :=
  match Strings.toLower rt (Strings.trimSpace s) with
  | "display_name" => .ok .displayName
  | "protocol" => .ok .protocol
  | "source_subscription_ids" => .ok .sourceSubscriptions
  | "probe_verdict" => .ok .probeVerdict
  | "probe_latency_ms" => .ok .probeLatencyMS
  | _ => invalid rt "invalid_filter_field" ("unsupported filter field: " ++ s)

def parseFilterOp (s : String) : Except GoError FilterOp :=
  match Strings.toLower rt (Strings.trimSpace s) with
  | "contains" => .ok .contains
  | "not_contains" => .ok .notContains
  | "regex" => .ok .regex
  | "not_regex" => .ok .notRegex
  | "equals" => .ok .equals
  | "not_equals" => .ok .notEquals
  | "lte" => .ok .lte
  | _ => invalid rt "invalid_filter_op" ("unsupported filter operator: " ++ s)

def parsesProtocol (s : String) : Bool :=
  ["socks", "ss", "vmess", "vless", "trojan", "hysteria2", "wireguard", "tuic", "http", "socks5",
    "anytls"].contains (Strings.toLower rt (Strings.trimSpace s))

def parsesProbeVerdict (s : String) : Bool :=
  ["available", "restricted", "unknown", "error", "stale"].contains
    (Strings.toLower rt (Strings.trimSpace s))

end

namespace FilterCondition

variable (rt : Runtime) (c : FilterCondition)

/-- The checks on `probe_kind` and `freshness_seconds` shared by the two probe fields. -/
def validateProbe (field : String) : Except GoError Unit :=
  if (c.probeKind.any ProbeKind.isValid) = false then
    invalid rt "invalid_probe_kind" (field ++ " condition requires a valid probe_kind")
  else
    match c.freshnessSeconds with
    | some n =>
      if n < 1 ∨ 604800 < n then
        invalid rt "invalid_freshness_seconds"
          ("freshness_seconds must be between 1 and 604800, got " ++ toString n)
      else .ok ()
    | none => .ok ()

variable (op : FilterOp) (val : String)

def validateDisplayName : Except GoError Unit :=
  let isRegex := op = .regex ∨ op = .notRegex
  let maxLen := if isRegex then 1024 else 255
  if op ≠ .contains ∧ op ≠ .notContains ∧ op ≠ .regex ∧ op ≠ .notRegex then
    invalid rt "invalid_filter_op"
      ("display_name only supports contains/not_contains/regex/not_regex, got " ++ op.text)
  else if val = "" then
    invalid rt "invalid_filter_value" "display_name filter value cannot be empty"
  else if maxLen < Strings.byteLen val then
    invalid rt "invalid_filter_value"
      ("display_name filter value cannot exceed " ++ toString maxLen ++ " characters")
  else
    match if isRegex then compileFilterRegex rt val else .ok (fun _ => .ok true) with
    | .error err => invalid rt "invalid_filter_value" ("invalid regex pattern: " ++ err.error)
    | .ok _ =>
      if c.probeKind.isSome then
        invalid rt "invalid_filter_field" "display_name filter condition must not specify probe_kind"
      else if c.freshnessSeconds.isSome then
        invalid rt "invalid_filter_field"
          "display_name filter condition must not specify freshness_seconds"
      else .ok ()

def validateProtocol : Except GoError Unit :=
  if op ≠ .equals ∧ op ≠ .notEquals then
    invalid rt "invalid_filter_op" ("protocol only supports equals/not_equals, got " ++ op.text)
  else if parsesProtocol rt val = false then
    invalid rt "invalid_filter_value" ("invalid protocol value: " ++ val)
  else if c.probeKind.isSome ∨ c.freshnessSeconds.isSome then
    invalid rt "invalid_filter_field" "protocol filter condition must not specify probe parameters"
  else .ok ()

def validateSourceSubscriptions :
    Except GoError Unit :=
  if op ≠ .contains ∧ op ≠ .notContains then
    invalid rt "invalid_filter_op"
      ("source_subscription_ids only supports contains/not_contains, got " ++ op.text)
  else if val = "" then
    invalid rt "invalid_filter_value" "source_subscription_ids value cannot be empty"
  else if isValidUUIDv7 val = false then
    invalid rt "invalid_filter_value" ("subscription id must be a valid UUIDv7: " ++ val)
  else if c.probeKind.isSome ∨ c.freshnessSeconds.isSome then
    invalid rt "invalid_filter_field"
      "source subscription filter condition must not specify probe parameters"
  else .ok ()

def validateProbeVerdict : Except GoError Unit :=
  if op ≠ .equals ∧ op ≠ .notEquals then
    invalid rt "invalid_filter_op" ("probe_verdict only supports equals/not_equals, got " ++ op.text)
  else if parsesProbeVerdict rt val = false then
    invalid rt "invalid_filter_value" ("invalid probe verdict: " ++ val)
  else c.validateProbe rt "probe_verdict"

def validateProbeLatency : Except GoError Unit :=
  if op ≠ .lte then
    invalid rt "invalid_filter_op" ("probe_latency_ms only supports lte, got " ++ op.text)
  else if (Strconv.parseInt val).any (fun n => decide (0 ≤ n ∧ n ≤ 60000)) = false then
    invalid rt "invalid_filter_value"
      ("latency_ms must be an integer between 0 and 60000, got: " ++ val)
  else c.validateProbe rt "probe_latency_ms"

def validate : Except GoError Unit := do
  let field ← parseFilterField rt c.field
  let op ← parseFilterOp rt c.op
  let val := Strings.trimSpace c.value
  match field with
  | .displayName => c.validateDisplayName rt op val
  | .protocol => c.validateProtocol rt op val
  | .sourceSubscriptions => c.validateSourceSubscriptions rt op val
  | .probeVerdict => c.validateProbeVerdict rt op val
  | .probeLatencyMS => c.validateProbeLatency rt op val

end FilterCondition

namespace NodeFilterSpec

variable (rt : Runtime)

/-- `IsEmpty`, which the source also calls on a nil pointer. -/
def isEmpty (spec : Option NodeFilterSpec) : Bool := spec.all (fun s => s.conditions.isEmpty)

def validateFrom (i : ℕ) : List FilterCondition → Except GoError Unit
  | [] => .ok ()
  | c :: cs =>
    match c.validate rt with
    | .error err => .error (.wrapped ("condition " ++ toString i ++ ": ") err)
    | .ok _ => validateFrom (i+1) cs

def validate (s : NodeFilterSpec) : Except GoError Unit :=
  if 32 < s.conditions.length then
    invalid rt "too_many_conditions"
      ("maximum of 32 filter conditions allowed, got " ++ toString s.conditions.length)
  else validateFrom rt 0 s.conditions

end NodeFilterSpec

section

variable (rt : Runtime) (c : FilterCondition) (op : Option FilterOp)

def matchesDisplayName (node : Node) : Bool × String :=
  if op = some .regex ∨ op = some .notRegex then
    match compileFilterRegex rt c.value with
    | .error err => (false, "invalid regex: " ++ err.error)
    | .ok re =>
      match re node.displayName with
      | .error err => (false, "regex match failed: " ++ err.error)
      | .ok matched =>
        if op = some .regex ∧ matched = false then
          (false, "display_name does not match regex " ++ Strconv.quote rt c.value)
        else if op = some .notRegex ∧ matched then
          (false, "display_name matches excluded regex " ++ Strconv.quote rt c.value)
        else (true, "")
  else
    let found := Strings.contains (Strings.toLower rt node.displayName) (Strings.toLower rt c.value)
    if op = some .contains ∧ found = false then
      (false, "display_name does not contain " ++ Strconv.quote rt c.value)
    else if op = some .notContains ∧ found then
      (false, "display_name contains " ++ Strconv.quote rt c.value)
    else (true, "")

def matchesProtocol (node : Node) : Bool × String :=
  let same := Strings.equalFold rt node.protocol.text c.value
  if op = some .equals ∧ same = false then
    (false, "protocol " ++ node.protocol.text ++ " != " ++ c.value)
  else if op = some .notEquals ∧ same then
    (false, "protocol " ++ node.protocol.text ++ " == " ++ c.value)
  else (true, "")

def matchesSourceSubscriptions
    (sources : List NodeSource) : Bool × String :=
  let hasSource := sources.any (fun s => s.subscriptionID == c.value)
  if op = some .contains ∧ hasSource = false then
    (false, "node not from subscription " ++ c.value)
  else if op = some .notContains ∧ hasSource then
    (false, "node from excluded subscription " ++ c.value)
  else (true, "")

/-- The window a probe condition accepts observations from, one day unless it gives its own. -/
def freshnessOf : Int :=
  match c.freshnessSeconds with
  | some n => if 0 < n then n else 86400
  | none => 86400

def matchesProbe (field : FilterField) (op : Option FilterOp)
    (latestObs : GoMap ProbeObservation) (asOf : Time) : Bool × String :=
  match c.probeKind with
  | none => (false, "missing probe kind in filter condition")
  | some kind =>
    match latestObs.get? kind.text with
    | none => (false, "no " ++ kind.text ++ " probe observation available")
    | some obs =>
      if Time.seconds (freshnessOf c) < asOf.sub obs.observedAt then
        (false, "observation expired (freshness " ++ toString (freshnessOf c) ++ "s exceeded)")
      else if field = .probeVerdict then
        let expected := Strings.toLower rt (Strings.trimSpace c.value)
        if op = some .equals ∧ obs.verdict.text ≠ expected then
          (false, "probe " ++ kind.text ++ " verdict " ++ obs.verdict.text ++ " != " ++ expected)
        else if op = some .notEquals ∧ obs.verdict.text = expected then
          (false, "probe " ++ kind.text ++ " verdict " ++ obs.verdict.text ++ " == " ++ expected)
        else (true, "")
      else if obs.verdict ≠ .available then
        (false, "probe " ++ kind.text ++ " verdict is " ++ obs.verdict.text ++
          " (latency requires available)")
      else
        match Strconv.parseInt c.value with
        | none => (false, "invalid latency threshold")
        | some maxLatency =>
          if maxLatency < obs.latencyMS then
            (false, "probe latency " ++ toString obs.latencyMS ++ "ms > threshold " ++
              toString maxLatency ++ "ms")
          else (true, "")

/-- A field or operator that does not parse is the empty text, which no case expects. -/
def matchesCondition (node : Node) (sources : List NodeSource)
    (latestObs : GoMap ProbeObservation) (asOf : Time) : Bool × String :=
  let op := (parseFilterOp rt c.op).toOption
  match (parseFilterField rt c.field).toOption with
  | some .displayName => matchesDisplayName rt c op node
  | some .protocol => matchesProtocol rt c op node
  | some .sourceSubscriptions => matchesSourceSubscriptions c op sources
  | some .probeVerdict => matchesProbe rt c .probeVerdict op latestObs asOf
  | some .probeLatencyMS => matchesProbe rt c .probeLatencyMS op latestObs asOf
  | none => (false, "unknown filter field ")

def matchesAll (node : Node) (sources : List NodeSource) (latestObs : GoMap ProbeObservation)
    (asOf : Time) : List FilterCondition → Bool × String
  | [] => (true, "")
  | c :: cs =>
    let r := matchesCondition rt c node sources latestObs asOf
    if r.1 then matchesAll node sources latestObs asOf cs else (false, r.2)

def matchesFilter (spec : Option NodeFilterSpec) (node : Node) (sources : List NodeSource)
    (latestObs : GoMap ProbeObservation) (asOf : Time) : Bool × String :=
  match spec with
  | none => (true, "")
  | some s => matchesAll rt node sources latestObs asOf s.conditions

/-- Without a filter every node passes. -/
theorem matchesFilter_of_isEmpty {spec : Option NodeFilterSpec} (h : NodeFilterSpec.isEmpty spec)
    (node : Node) (sources : List NodeSource) (latestObs : GoMap ProbeObservation) (asOf : Time) :
    matchesFilter rt spec node sources latestObs asOf = (true, "") := by
  cases spec with
  | none => rfl
  | some s =>
    have hs : s.conditions = [] := by simpa [NodeFilterSpec.isEmpty] using h
    simp only [matchesFilter, hs, matchesAll]

end

end ClashSubParser
