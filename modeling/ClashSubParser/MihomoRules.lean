import ClashSubParser.MihomoProxies
import ClashSubParser.SnapshotValidation

/-! The rules of a Mihomo document, with the providers of its rule sets. -/
namespace ClashSubParser

open FirstError Strings

structure MihomoRuleProvider where
  url : String
deriving DecidableEq

/-- The providers by name, those set last first. Type, behaviour and interval are fixed. -/
abbrev RuleProviders := List (String × MihomoRuleProvider)

/-- A rule line by its parts: the kind, the value if there is one, the target and the option. -/
structure MihomoRule where
  kind : String
  value : Option String
  target : String
  noResolve : Bool
deriving DecidableEq

def MihomoRule.line (r : MihomoRule) : String :=
  join ([r.kind] ++ r.value.toList ++ [r.target] ++ if r.noResolve then ["no-resolve"] else []) ","

/-- Only these characters, as a range loop over the text checks them. -/
def isIdentifierRune (c : Char) : Bool :=
  ('a' ≤ c && c ≤ 'z') || ('A' ≤ c && c ≤ 'Z') || ('0' ≤ c && c ≤ '9') || c == '-' || c == '_'

/-- `strings.Trim`. -/
def trimChars (cutset : String) (s : String) : String :=
  String.ofList ((s.toList.dropWhile (fun c => cutset.toList.contains c)).rdropWhile
    (fun c => cutset.toList.contains c))

section

variable (lib : Libraries)

def parseOptionalNoResolve (loc kind : String) (extra : List String) : Except CapabilityError Bool :=
  match extra with
  | [] => .ok false
  | [option] =>
    if toLower lib.toRuntime (trimSpace option) ≠ "no-resolve" then
      mihomoError loc kind ("unsupported parameter " ++ Strconv.quote lib.toRuntime (trimSpace option) ++ " in " ++
        kind ++ " rule")
    else .ok true
  | _ => mihomoError loc kind ("too many parameters in " ++ kind ++ " rule")

def isPort (p : Option Int) : Bool := p.any (fun n => 1 ≤ n && n ≤ 65535)

def validatePortSegment (loc kind seg : String) : Except CapabilityError Unit :=
  if seg = "" then mihomoError loc kind "invalid port expression in routing rule"
  else if contains seg "-" then
    match split seg '-' with
    | [first, last] =>
      let start := Strconv.parseInt (trimSpace first)
      let stop := Strconv.parseInt (trimSpace last)
      if isPort start = false ∨ isPort stop = false ∨ start.getD 0 > stop.getD 0 then
        mihomoError loc kind "port range out of bounds in routing rule"
      else .ok ()
    | _ => mihomoError loc kind "invalid port range in routing rule"
  else if isPort (Strconv.parseInt seg) = false then
    mihomoError loc kind "port number out of bounds in routing rule"
  else .ok ()

def validateMihomoPortExpr (loc kind val : String) : Except CapabilityError Unit :=
  checks ((split val '/').map (fun seg => validatePortSegment loc kind (trimSpace seg)))

def isRuleSetURLCandidate (s : String) : Bool :=
  let lower := toLower lib.toRuntime s
  hasPrefix lower "http://" || hasPrefix lower "https://" || contains lower "://"

def isRuleSetSecondArgURLOrPath (s : String) : Bool :=
  let lower := toLower lib.toRuntime s
  contains lower "://" || contains lower "/" || hasPrefix lower "." ||
    [".invalid", ".yaml", ".yml", ".txt", ".mrs", ".list"].any (hasSuffix lower)

def validateRuleSetURL (loc raw : String) : Except CapabilityError String :=
  let fail (detail : String) : Except CapabilityError String :=
    mihomoError loc "RULE-SET" ("invalid RULE-SET URL " ++ Strconv.quote lib.toRuntime raw ++ detail)
  let trimmed := trimSpace raw
  if trimmed = "" ∨ containsAny trimmed " \t\r\n" then fail ""
  else
    match lib.parseURL trimmed with
    | none => fail ": explicit https:// URL is required"
    | some u =>
      let host := toLower lib.toRuntime (trimSpace u.hostname)
      let cleanPath := trimSpace u.path
      if equalFold lib.toRuntime u.scheme "https" = false ∨ u.opaqueData ≠ "" ∨ u.user.isSome then
        fail ": explicit https:// URL is required"
      else if trimSpace u.host = "" ∨ host = "" ∨ host = "invalid" ∨ hasSuffix host ".invalid" ∨ hasPrefix host "." ∨
          hasSuffix host "." ∨ contains host ".." then
        fail ": valid non-.invalid host is required"
      else if u.port ≠ "" ∧ isPort (Strconv.parseInt u.port) = false then fail ": invalid port"
      else if cleanPath = "" ∨ cleanPath = "/" ∨ hasPrefix cleanPath "/" = false ∨ hasSuffix cleanPath "/" then
        fail ": explicit resource path is required"
      else if (split (String.ofList (cleanPath.toList.drop 1)) '/').any (fun seg => ["", ".", ".."].contains seg) then
        fail ": relative or empty path segment is forbidden"
      else .ok (u.rebuilt "https" (toLower lib.toRuntime (trimSpace u.host)))

def isValidRuleSetIdentifier (s : String) : Bool :=
  let lower := toLower lib.toRuntime s
  s ≠ "" && !contains s ".." && !hasPrefix s "." && !hasSuffix s "." && lower ≠ "invalid" &&
    !hasSuffix lower ".invalid" && s.toList.all (fun c => isIdentifierRune c || c == '.')

def providerNameOf (path : String) : String :=
  let base := (split (trimChars "/" path) '/').getLastD ""
  let stem := ([".yaml", ".yml", ".txt", ".mrs", ".list"].find? (hasSuffix (toLower lib.toRuntime base))).elim base
    (fun ext => String.ofList (base.toList.take (base.toList.length - ext.toList.length)))
  trimChars "_-" (String.ofList (stem.toList.map (fun c => if isIdentifierRune c then c else '_')))

def sanitizeRuleSetProviderName (rawURL : String) : String :=
  match lib.parseURL rawURL with
  | none => "ruleset"
  | some u => if u.path ≠ "" ∧ providerNameOf lib u.path ≠ "" then providerNameOf lib u.path else "ruleset"

def parseMihomoRuleSetExpr (loc : String) (args : List String) (existing : RuleProviders) :
    Except CapabilityError (String × String × Bool) :=
  let first := trimSpace (args.getD 0 "")
  let second := trimSpace (args.getD 1 "")
  if first = "" then mihomoError loc "RULE-SET" "routing rule value is required"
  else if isRuleSetURLCandidate lib first then do
    let validURL ← validateRuleSetURL lib loc first
    let noResolve ← parseOptionalNoResolve lib loc "RULE-SET" (args.drop 1)
    .ok (sanitizeRuleSetProviderName lib validURL, validURL, noResolve)
  else if isValidRuleSetIdentifier lib first = false then
    mihomoError loc "RULE-SET" ("invalid RULE-SET provider name " ++ Strconv.quote lib.toRuntime first)
  else if 2 ≤ args.length ∧ isRuleSetSecondArgURLOrPath lib second then do
    let validURL ← validateRuleSetURL lib loc second
    let noResolve ← parseOptionalNoResolve lib loc "RULE-SET" (args.drop 2)
    .ok (first, validURL, noResolve)
  else do
    let noResolve ← parseOptionalNoResolve lib loc "RULE-SET" (args.drop 1)
    match existing.lookup first with
    | some provider => if provider.url ≠ "" then .ok (first, provider.url, noResolve) else noURL first
    | none => noURL first
where
  noURL (name : String) : Except CapabilityError (String × String × Bool) :=
    mihomoError loc "RULE-SET" ("missing explicit https:// URL for RULE-SET provider " ++
      Strconv.quote lib.toRuntime name)

def renderedKind (kind : String) : String := if kind = "PORT" then "DST-PORT" else kind

def renderValueRule (loc kind val target : String) (parts : List String) (providers : RuleProviders) :
    Except CapabilityError (MihomoRule × RuleProviders) :=
  if kind ∈ ["DOMAIN", "DOMAIN-SUFFIX", "DOMAIN-KEYWORD", "GEOSITE", "PROCESS-NAME"] then
    if parts.length > 2 then unsupported
    else .ok (⟨kind, some val, target, false⟩, providers)
  else if kind = "GEOIP" then do
    let noResolve ← parseOptionalNoResolve lib loc kind (parts.drop 2)
    .ok (⟨kind, some val, target, noResolve⟩, providers)
  else if kind ∈ ["IP-CIDR", "IP-CIDR6", "SRC-IP-CIDR"] then
    match lib.parsePrefix val with
    | none =>
      mihomoError loc kind ("invalid CIDR " ++ Strconv.quote lib.toRuntime val ++ " in " ++ kind ++ " rule")
    | some p =>
      if kind = "IP-CIDR6" ∧ p.is4 then mihomoError loc kind "IP-CIDR6 rule requires an IPv6 CIDR prefix"
      else if kind = "IP-CIDR" ∧ p.is4 = false then mihomoError loc kind "IP-CIDR rule requires an IPv4 CIDR prefix"
      else do
        let noResolve ← parseOptionalNoResolve lib loc kind (parts.drop 2)
        .ok (⟨kind, some val, target, noResolve⟩, providers)
  else if kind ∈ ["SRC-PORT", "DST-PORT", "PORT"] then
    if parts.length > 2 then unsupported
    else do
      validateMihomoPortExpr loc kind val
      .ok (⟨renderedKind kind, some val, target, false⟩, providers)
  else if kind = "RULE-SET" then do
    let (name, url, noResolve) ← parseMihomoRuleSetExpr lib loc (parts.drop 1) providers
    if (providers.lookup name).any (fun p => p.url ≠ url) then
      mihomoError loc kind ("conflicting URLs for RULE-SET provider " ++ Strconv.quote lib.toRuntime name)
    else .ok (⟨kind, some name, target, noResolve⟩, (name, ⟨url⟩) :: providers)
  else mihomoError loc kind "routing rule kind is not supported"
where
  unsupported : Except CapabilityError (MihomoRule × RuleProviders) :=
    mihomoError loc kind ("unsupported parameter " ++
      Strconv.quote lib.toRuntime (trimSpace (parts.getD 2 "")) ++ " in " ++ kind ++ " rule")

def renderMihomoRule (index : ℕ) (rule : ResolvedRule) (providers : RuleProviders) :
    Except CapabilityError (MihomoRule × RuleProviders) :=
  let loc := ruleLocation index
  let expr := trimSpace rule.expression
  let kind := ruleKind lib.toRuntime expr
  let target := trimSpace rule.targetGroupName
  let parts := split expr ','
  let val := trimSpace (parts.getD 1 "")
  if isMatchRule lib.toRuntime expr then
    if parts.length > 1 then mihomoError loc kind "MATCH rule does not accept parameters"
    else .ok (⟨"MATCH", none, target, false⟩, providers)
  else if val = "" then mihomoError loc kind "routing rule value is required"
  else if containsAny val " \t\r\n" then mihomoError loc kind ("invalid whitespace in " ++ kind ++ " rule value")
  else renderValueRule lib loc kind val target parts providers

def renderMihomoRules (index : ℕ) (providers : RuleProviders) :
    List ResolvedRule → Except CapabilityError (List MihomoRule × RuleProviders)
  | [] => .ok ([], providers)
  | rule :: rest => do
    let (line, providers) ← renderMihomoRule lib index rule providers
    let (lines, providers) ← renderMihomoRules (index+1) providers rest
    .ok (line :: lines, providers)

end

section

variable {lib : Libraries}

/-- Only rule sets have providers, and a provider that is known keeps its URL. -/
def KeepsProviders (lib : Libraries) (loc kind : String) (args : List String) (line : MihomoRule)
    (providers providers' : RuleProviders) : Prop :=
  (line.kind ≠ "RULE-SET" ∧ providers' = providers) ∨ ∃ name url noResolve, kind = "RULE-SET" ∧
    parseMihomoRuleSetExpr lib loc args providers = .ok (name, url, noResolve) ∧
    (∀ p ∈ providers.lookup name, p.url = url) ∧ line.value = some name ∧ providers' = (name, ⟨url⟩) :: providers

theorem renderValueRule_eq_ok {loc kind val target : String} {parts : List String}
    {providers providers' : RuleProviders} {line : MihomoRule}
    (h : renderValueRule lib loc kind val target parts providers = .ok (line, providers')) :
    line.target = target ∧ KeepsProviders lib loc kind (parts.drop 1) line providers providers' := by
  -- the branches that return a line with an option
  have ho (extra : List String) (hk : kind ≠ "RULE-SET")
      (h : (parseOptionalNoResolve lib loc kind extra >>= fun b => .ok (⟨kind, some val, target, b⟩, providers)) =
        .ok (line, providers')) : line.target = target ∧ line.kind ≠ "RULE-SET" ∧ providers' = providers := by
    obtain ⟨b, -, hb⟩ := bind_eq_ok_iff.mp h
    cases hb
    exact ⟨rfl, hk, rfl⟩
  have hne {kinds : List String} (hk : kind ∈ kinds) (hr : "RULE-SET" ∉ kinds) : kind ≠ "RULE-SET" :=
    fun he => hr (he ▸ hk)
  unfold renderValueRule at h
  split_ifs at h with hn hl hg hc hpo hl hs
  · simp [renderValueRule.unsupported, mihomoError] at h
  · cases h
    exact ⟨rfl, .inl ⟨hne hn (by decide), rfl⟩⟩
  · exact (ho _ (by simp [hg]) h).imp_right .inl
  · cases hp : lib.parsePrefix val with
    | none => simp [hp, mihomoError] at h
    | some p =>
      simp only [hp] at h
      split_ifs at h
      · simp [mihomoError] at h
      · simp [mihomoError] at h
      · exact (ho _ (hne hc (by decide)) h).imp_right .inl
  · simp [renderValueRule.unsupported, mihomoError] at h
  · obtain ⟨-, -, h⟩ := bind_eq_ok_iff.mp h
    cases h
    refine ⟨rfl, .inl ⟨?_, rfl⟩⟩
    rw [renderedKind]
    split_ifs
    · simp
    · exact hne hpo (by decide)
  · obtain ⟨⟨name, url, noResolve⟩, hp, h⟩ := bind_eq_ok_iff.mp h
    dsimp only at h
    split_ifs at h with hu
    · simp [mihomoError] at h
    · cases h
      refine ⟨rfl, .inr ⟨name, url, noResolve, hs, hp, ?_, rfl, rfl⟩⟩
      intro p hm
      simpa [Option.mem_def.mp hm] using hu
  · simp [mihomoError] at h

theorem renderMihomoRule_eq_ok {i : ℕ} {rule : ResolvedRule} {providers providers' : RuleProviders}
    {line : MihomoRule} (h : renderMihomoRule lib i rule providers = .ok (line, providers')) :
    line.target = trimSpace rule.targetGroupName ∧
      KeepsProviders lib (ruleLocation i) (ruleKind lib.toRuntime (trimSpace rule.expression))
        ((split (trimSpace rule.expression) ',').drop 1) line providers providers' := by
  unfold renderMihomoRule at h
  dsimp only at h
  split_ifs at h
  · simp [mihomoError] at h
  · cases h
    exact ⟨rfl, .inl ⟨by simp, rfl⟩⟩
  · simp [mihomoError] at h
  · simp [mihomoError] at h
  · exact renderValueRule_eq_ok h

/-- The lines stand in the order of the rules and go to their groups. -/
theorem targets_of_renderMihomoRules {rules : List ResolvedRule} : ∀ {i : ℕ} {providers providers' : RuleProviders}
    {lines : List MihomoRule}, renderMihomoRules lib i providers rules = .ok (lines, providers') →
    lines.map (·.target) = rules.map (fun r => trimSpace r.targetGroupName) := by
  induction rules with
  | nil =>
    intro i providers providers' lines h
    cases h
    rfl
  | cons rule rest ih =>
    intro i providers providers' lines h
    obtain ⟨⟨line, ps⟩, hl, h⟩ := bind_eq_ok_iff.mp h
    obtain ⟨⟨tail, ps'⟩, ht, h⟩ := bind_eq_ok_iff.mp h
    cases h
    rw [List.map_cons, List.map_cons, (renderMihomoRule_eq_ok hl).1, ih ht]

end

end ClashSubParser
