import ClashSubParser.MihomoRules

/-! Where the URLs of rule sets come from: from the rule itself, or from an earlier rule that gives the same
provider its URL. -/
namespace ClashSubParser

open FirstError List Strings

section

variable (lib : Libraries)

def canonicalRuleSetURL (raw : String) : Option String := (validateRuleSetURL lib "" raw).toOption

/-- The provider for which the arguments of a rule hold a URL, with the canonical form of that URL. -/
def writtenProvider (args : List String) : Option (String × String) :=
  let first := trimSpace (args.getD 0 "")
  let second := trimSpace (args.getD 1 "")
  if isRuleSetURLCandidate lib first then
    (canonicalRuleSetURL lib first).map (fun url => (sanitizeRuleSetProviderName lib url, url))
  else if 2 ≤ args.length ∧ isRuleSetSecondArgURLOrPath lib second then
    (canonicalRuleSetURL lib second).map (fun url => (first, url))
  else none

def ruleSetArgs (rule : ResolvedRule) : List String := (split (trimSpace rule.expression) ',').drop 1

def Writes (rule : ResolvedRule) (name url : String) : Prop :=
  ruleKind lib.toRuntime (trimSpace rule.expression) = "RULE-SET" ∧
    writtenProvider lib (ruleSetArgs rule) = some (name, url)

/-- The URL is written in the rule, or the rule only names a provider that an earlier rule gave the URL. -/
def ReadsFrom (earlier : List ResolvedRule) (rule : ResolvedRule) (name url : String) : Prop :=
  Writes lib rule name url ∨ (writtenProvider lib (ruleSetArgs rule) = none ∧
    name = trimSpace ((ruleSetArgs rule).getD 0 "") ∧ ∃ r ∈ earlier, Writes lib r name url)

def Backed (done : List ResolvedRule) (providers : RuleProviders) : Prop :=
  ∀ name p, providers.lookup name = some p → ∃ r ∈ done, Writes lib r name p.url

variable {lib}

theorem canonicalRuleSetURL_eq_some {loc raw url : String} (h : validateRuleSetURL lib loc raw = .ok url) :
    canonicalRuleSetURL lib raw = some url := by
  have hl : validateRuleSetURL lib "" raw = .ok url := by
    rw [validateRuleSetURL] at h ⊢
    cases hu : lib.parseURL (trimSpace raw) with
    | none => simp [hu, mihomoError] at h
    | some u =>
      simp only [hu, mihomoError, ite_reject_eq_ok] at h ⊢
      exact h
  rw [canonicalRuleSetURL, hl]
  rfl

theorem parseMihomoRuleSetExpr_eq_ok {loc name url : String} {args : List String} {existing : RuleProviders}
    {noResolve : Bool} (h : parseMihomoRuleSetExpr lib loc args existing = .ok (name, url, noResolve)) :
    writtenProvider lib args = some (name, url) ∨ (writtenProvider lib args = none ∧
      name = trimSpace (args.getD 0 "") ∧ existing.lookup name = some ⟨url⟩) := by
  rw [parseMihomoRuleSetExpr] at h
  split_ifs at h with he hu hv hs
  · simp [mihomoError] at h
  · obtain ⟨valid, hc, h⟩ := bind_eq_ok_iff.mp h
    obtain ⟨_, -, h⟩ := bind_eq_ok_iff.mp h
    cases h
    left
    rw [writtenProvider, if_pos hu, canonicalRuleSetURL_eq_some hc]
    rfl
  · simp [mihomoError] at h
  · obtain ⟨valid, hc, h⟩ := bind_eq_ok_iff.mp h
    obtain ⟨_, -, h⟩ := bind_eq_ok_iff.mp h
    cases h
    left
    rw [writtenProvider, if_neg hu, if_pos hs, canonicalRuleSetURL_eq_some hc]
    rfl
  · obtain ⟨_, -, h⟩ := bind_eq_ok_iff.mp h
    right
    refine ⟨by rw [writtenProvider, if_neg hu, if_neg hs], ?_⟩
    cases hl : existing.lookup (trimSpace (args.getD 0 "")) with
    | none => simp only [hl, parseMihomoRuleSetExpr.noURL, mihomoError, reject_ne_ok] at h
    | some p =>
      simp only [hl] at h
      split_ifs at h
      · cases h
        exact ⟨rfl, hl⟩
      · simp [parseMihomoRuleSetExpr.noURL, mihomoError] at h

section

variable {i : ℕ} {rule : ResolvedRule} {line : MihomoRule} {done : List ResolvedRule}
  {providers providers' : RuleProviders} (h : renderMihomoRule lib i rule providers = .ok (line, providers'))
include h

theorem lookup_of_renderMihomoRule {name : String} {p : MihomoRuleProvider} (hp : providers.lookup name = some p) :
    providers'.lookup name = some p := by
  rcases (renderMihomoRule_eq_ok h).2 with ⟨-, rfl⟩ | ⟨given, url, _, -, -, hu, -, rfl⟩
  · exact hp
  · by_cases hn : name = given
    · subst hn
      rw [lookup_cons_self, ← hu p hp]
    · rw [lookup_cons, beq_false_of_ne hn]
      exact hp

theorem Backed.renderMihomoRule (hb : Backed lib done providers) : Backed lib (done ++ [rule]) providers' ∧
    (line.kind = "RULE-SET" → ∃ name url, line.value = some name ∧ providers'.lookup name = some ⟨url⟩ ∧
      ReadsFrom lib done rule name url) := by
  have hold (name p) (hp : providers.lookup name = some p) : ∃ r ∈ done ++ [rule], Writes lib r name p.url := by
    obtain ⟨r, hr, hw⟩ := hb name p hp
    exact ⟨r, mem_append_left _ hr, hw⟩
  rcases (renderMihomoRule_eq_ok h).2 with ⟨hk, rfl⟩ | ⟨given, url, _, hk, hp, -, hv, rfl⟩
  · exact ⟨hold, fun he => absurd he hk⟩
  · have hreads : ReadsFrom lib done rule given url := by
      rcases parseMihomoRuleSetExpr_eq_ok hp with hw | ⟨hn, he, hl⟩
      · exact .inl ⟨hk, hw⟩
      · exact .inr ⟨hn, he, hb given ⟨url⟩ hl⟩
    refine ⟨?_, fun _ => ⟨given, url, hv, lookup_cons_self, hreads⟩⟩
    intro name p hp
    by_cases hn : name = given
    · subst hn
      rw [lookup_cons_self] at hp
      cases hp
      rcases hreads with hw | ⟨-, -, r, hr, hw⟩
      · exact ⟨rule, mem_append_right _ mem_cons_self, hw⟩
      · exact ⟨r, mem_append_left _ hr, hw⟩
    · rw [lookup_cons, beq_false_of_ne hn] at hp
      exact hold name p hp

end

theorem ruleSets_of_renderMihomoRules {rules : List ResolvedRule} : ∀ {i : ℕ} (done : List ResolvedRule)
    {providers providers' : RuleProviders} {lines : List MihomoRule},
    renderMihomoRules lib i providers rules = .ok (lines, providers') → Backed lib done providers →
    (∀ name p, providers.lookup name = some p → providers'.lookup name = some p) ∧
    ∀ k rule line, rules[k]? = some rule → lines[k]? = some line → line.kind = "RULE-SET" →
      ∃ name url, line.value = some name ∧ providers'.lookup name = some ⟨url⟩ ∧
        ReadsFrom lib (done ++ rules.take k) rule name url := by
  induction rules with
  | nil =>
    intro i done providers providers' lines h _
    cases h
    exact ⟨fun _ _ hp => hp, fun k _ _ hr => by simp at hr⟩
  | cons first rest ih =>
    intro i done providers providers' lines h hb
    obtain ⟨⟨line₀, ps⟩, hl, h⟩ := bind_eq_ok_iff.mp h
    obtain ⟨⟨tail, ps'⟩, ht, h⟩ := bind_eq_ok_iff.mp h
    cases h
    obtain ⟨hb', hset⟩ := hb.renderMihomoRule hl
    obtain ⟨hkeep, hrest⟩ := ih (done ++ [first]) ht hb'
    refine ⟨fun name p hp => hkeep name p (lookup_of_renderMihomoRule hl hp), ?_⟩
    intro k rule line hr hline hk
    cases k with
    | zero =>
      cases hr
      cases hline
      obtain ⟨name, url, hv, hp, hread⟩ := hset hk
      refine ⟨name, url, hv, hkeep name _ hp, ?_⟩
      rw [take_zero, append_nil]
      exact hread
    | succ k =>
      obtain ⟨name, url, hv, hp, hread⟩ := hrest k rule line hr hline hk
      rw [append_assoc] at hread
      exact ⟨name, url, hv, hp, hread⟩

/-- Every rule set line names a provider of the document, and reads the URL that stands in its rule or in an
earlier one. -/
theorem ruleSets_read_written_urls (lib : Libraries) (rules : List ResolvedRule) (lines : List MihomoRule)
    (providers : RuleProviders) (hrender : renderMihomoRules lib 0 [] rules = .ok (lines, providers)) :
    lines.length = rules.length ∧
    ∀ k rule line, rules[k]? = some rule → lines[k]? = some line → line.kind = "RULE-SET" →
      ∃ name url, line.value = some name ∧ providers.lookup name = some ⟨url⟩ ∧
        ReadsFrom lib (rules.take k) rule name url := by
  have hlen := congrArg length (targets_of_renderMihomoRules hrender)
  rw [length_map, length_map] at hlen
  exact ⟨hlen, (ruleSets_of_renderMihomoRules [] hrender nofun).2⟩

/-- `url.Parse` on `https` URLs that have only a host name and a path of plain characters. It refuses other
texts. -/
def parseListURL (s : String) : Option ParsedURL :=
  let rest := s.toList.drop 8
  let host := String.ofList (rest.takeWhile (· ≠ '/'))
  let path := String.ofList (rest.dropWhile (· ≠ '/'))
  if hasPrefix s "https://" ∧ host ≠ "" ∧ rest.all (fun c => c.isAlphanum || c = '.' || c = '-' || c = '/') then
    some ⟨"https", "", none, host, host, "", path, .empty, "", fun scheme host => scheme ++ "://" ++ host ++ path⟩
  else none

def listLibraries : Libraries := { asciiLibraries with parseURL := parseListURL }

def ruleSetRule (expression : String) : ResolvedRule := ⟨"r", "g", "G", expression, 0, false⟩

/-- The second rule only names the provider of the first. -/
theorem ruleSets_read_written_urls_named : ∃ url, ReadsFrom listLibraries
    [ruleSetRule "RULE-SET,https://A.example/ads.yaml"] (ruleSetRule "RULE-SET,ads") "ads" url := by
  let rules := [ruleSetRule "RULE-SET,https://A.example/ads.yaml", ruleSetRule "RULE-SET,ads"]
  let line : MihomoRule := ⟨"RULE-SET", some "ads", "G", false⟩
  let entry : String × MihomoRuleProvider := ("ads", ⟨"https://a.example/ads.yaml"⟩)
  have hr : renderMihomoRules listLibraries 0 [] rules = .ok ([line, line], [entry, entry]) := by decide +kernel
  obtain ⟨name, url, hv, -, h⟩ := (ruleSets_read_written_urls listLibraries rules _ _ hr).2 1 _ line rfl rfl rfl
  cases hv
  exact ⟨url, h⟩

/-- Rendering adds no provider that no rule writes. -/
theorem providers_written_by_rules {rules done : List ResolvedRule} {i : ℕ} {providers providers' : RuleProviders}
    {lines : List MihomoRule} (hb : Backed lib done providers)
    (h : renderMihomoRules lib i providers rules = .ok (lines, providers')) :
    Backed lib (done ++ rules) providers' := by
  induction rules generalizing i done providers lines with
  | nil =>
    cases h
    rwa [append_nil]
  | cons rule rest ih =>
    obtain ⟨⟨_, _⟩, hl, h⟩ := bind_eq_ok_iff.mp h
    obtain ⟨⟨_, _⟩, ht, h⟩ := bind_eq_ok_iff.mp h
    cases h
    rw [append_cons]
    exact ih (hb.renderMihomoRule hl).1 ht

/-- Two lists, one of which is named again before the other is given a name of its own. -/
theorem providers_written_by_rules_named :
    let rules := [ruleSetRule "RULE-SET,https://A.example/ads.yaml", ruleSetRule "RULE-SET,ads",
      ruleSetRule "RULE-SET,cn,https://b.example/lists/china.list"]
    Backed listLibraries rules [("cn", ⟨"https://b.example/lists/china.list"⟩), ("ads", ⟨"https://a.example/ads.yaml"⟩),
      ("ads", ⟨"https://a.example/ads.yaml"⟩)] := by
  intro rules
  have hb : Backed listLibraries [] [] := nofun
  have hr : renderMihomoRules listLibraries 0 [] rules =
      .ok ([⟨"RULE-SET", some "ads", "G", false⟩, ⟨"RULE-SET", some "ads", "G", false⟩,
        ⟨"RULE-SET", some "cn", "G", false⟩],
        [("cn", ⟨"https://b.example/lists/china.list"⟩), ("ads", ⟨"https://a.example/ads.yaml"⟩),
          ("ads", ⟨"https://a.example/ads.yaml"⟩)]) := by decide +kernel
  exact providers_written_by_rules hb hr

end

end ClashSubParser
