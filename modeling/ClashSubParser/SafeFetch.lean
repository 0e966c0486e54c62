import ClashSubParser.FetchPolicy
import Mathlib.Tactic.Linarith

/-! One call of the fetcher: redirects and addresses that others choose, and the limits on the body. -/
namespace ClashSubParser

open List FirstError Strings

structure FetchOptions where
  url : String
  fetchProxyURL : String := ""
  maxResponseBytes : Int := 0
  maxDecompressedBytes : Int := 0
  maxRedirects : Int := 0

structure HTTPResponse where
  statusCode : Int
  location : String := ""
  contentLength : Int := -1
  contentEncoding : String := ""
  body : ByteStream
deriving DecidableEq

/-- What resolvers and servers do during a call. -/
structure FetchWorld where
  /-- the resolver of the policy, asked first for the proxy and then at every hop -/
  lookupIPAddr : ℕ → String → Except String (List NetIP)
  /-- the addresses a dialer connects to for a host name, at a hop -/
  dial : ℕ → String → List NetIP
  /-- the response at a hop, or the error that `Fetch` makes of a failed request -/
  reply : ℕ → Except GoError HTTPResponse

/-- A request that was sent: the addresses `ValidateIP` accepted for it and those connected to. -/
structure Hop where
  accepted : List NetIP
  connections : List NetIP
deriving DecidableEq

section

variable (lib : FetchLibraries) (policy : FetchPolicy)

def checkTarget (currURL : FetchURL) : Except GoError String :=
  let scheme := toLower lib.toRuntime currURL.scheme
  let targetHost := trimSpace currURL.hostname
  if scheme ≠ "http" ∧ scheme ≠ "https" then
    insecure lib.toRuntime "unsupported_scheme" ("unsupported scheme " ++ Strconv.quote lib.toRuntime currURL.scheme ++
      ", only http and https are allowed")
  else if targetHost = "" then invalid lib.toRuntime "invalid_url" "URL is missing a host"
  else if hasSuffix targetHost "." then
    invalid lib.toRuntime "invalid_url"
      ("target host " ++ Strconv.quote lib.toRuntime targetHost ++ " has a trailing dot")
  else if isObfuscatedIP lib targetHost then
    insecure lib.toRuntime "ssrf_blocked" ("target host " ++ targetHost ++ " is an obfuscated IP format")
  else if looksMapped lib targetHost then
    insecure lib.toRuntime "ssrf_blocked" ("target host " ++ targetHost ++ " is an IPv4-mapped IPv6 address")
  else .ok targetHost

variable (lookup : String → Except String (List NetIP))

def pinAddress (currURL : FetchURL) (targetHost : String) :
    Except GoError (NetIP × List NetIP) := do
  let answer := resolvedIPs lib "dns_resolution_failed" "" targetHost (lookup targetHost)
  if isHostAllowed lib policy targetHost || isHostAllowed lib policy currURL.host then
    match lib.addressOf targetHost with
    | some ip => .ok (ip, [])
    | none => let ips ← answer; .ok (ips.headD .nil, [])
  else
    match lib.addressOf targetHost with
    | some ip =>
      if ip.is4 && contains targetHost ":" then
        insecure lib.toRuntime "ssrf_blocked" ("target IP " ++ targetHost ++ " is blocked by SSRF policy")
      else
        validateIP lib policy ip
        .ok (ip, [ip])
    | none =>
      let ips ← answer
      forEach (validateIP lib policy) ips
      .ok ((ips.find? (·.is4)).getD (ips.headD .nil), ips)

def hopTarget (currentURL : String) :
    Except GoError (FetchURL × NetIP × List NetIP) :=
  match lib.parseURL currentURL with
  | .error err => invalid lib.toRuntime "invalid_url" ("malformed URL: " ++ err)
  | .ok currURL => do
    let targetHost ← checkTarget lib currURL
    let pinned ← pinAddress lib policy lookup currURL targetHost
    .ok (currURL, pinned)

/-- The addresses the transport of a hop connects to: the pinned one, or whatever the proxy's host stands
for by then. -/
def hopConnections (world : FetchWorld) (activeProxyURL : Option FetchURL) (hop : ℕ) (pinnedIP : NetIP) :
    List NetIP :=
  match activeProxyURL with
  | none => [pinnedIP]
  | some proxy => (lib.addressOf proxy.hostname).elim (world.dial hop proxy.hostname) ([·])

/-- The redirect loop, with the number of requests it may still send. -/
def redirectLoop (world : FetchWorld) (activeProxyURL : Option FetchURL) (maxRedirects : ℕ) :
    ℕ → ℕ → String → List Hop × Except GoError HTTPResponse
  | 0, _, _ => ([], insecure lib.toRuntime "too_many_redirects"
      ("exceeded maximum redirect limit of " ++ toString maxRedirects))
  | left+1, hop, currentURL =>
    match hopTarget lib policy (world.lookupIPAddr (hop+1)) currentURL with
    | .error err => ([], .error err)
    | .ok (currURL, pinnedIP, accepted) =>
      let sent : Hop := ⟨accepted, hopConnections lib world activeProxyURL hop pinnedIP⟩
      match world.reply hop with
      | .error err => ([sent], .error err)
      | .ok resp =>
        if resp.statusCode ∈ [301, 302, 303, 307, 308] then
          if resp.location = "" then
            ([sent], .error (.domain (newDomainError lib.toRuntime "http_error"
              ("redirect " ++ toString resp.statusCode ++ " missing Location header") .internal)))
          else
            match lib.resolveReference currURL resp.location with
            | .error err => ([sent], invalid lib.toRuntime "invalid_redirect"
                ("malformed redirect Location " ++ Strconv.quote lib.toRuntime resp.location ++ ": " ++ err))
            | .ok nextURL =>
              let rest := redirectLoop world activeProxyURL maxRedirects left (hop+1) nextURL.text
              (sent :: rest.1, rest.2)
        else ([sent], .ok resp)

end

section

variable (lib : FetchLibraries) (opts : FetchOptions)

def maxResponse : Int := if opts.maxResponseBytes ≤ 0 then 10485760 else opts.maxResponseBytes

def maxDecompressed : Int := if opts.maxDecompressedBytes ≤ 0 then maxResponse opts else opts.maxDecompressedBytes

/-- `io.ReadAll(io.LimitReader(r, limit+1))`, where the sum wraps around. -/
def readLimited (limit : Int) (r : ByteStream) : Except String (List (BitVec 8)) :=
  let n := ((limit+1).bmod (2^64)).toNat
  if n ≤ r.bytes.length then .ok (r.bytes.take n)
  else r.err.elim (.ok r.bytes) .error

variable (resp : HTTPResponse)

def isGzip (raw : List (BitVec 8)) : Bool :=
  toLower lib.toRuntime (trimSpace resp.contentEncoding) = "gzip" || raw.take 2 = [0x1f, 0x8b]

def isDeflate : Bool := toLower lib.toRuntime (trimSpace resp.contentEncoding) = "deflate"

def decompress (kind : String) (r : ByteStream) : Except GoError (List (BitVec 8)) :=
  match readLimited (maxDecompressed opts) r with
  | .error err => .error (.domain (newDomainError lib.toRuntime "decompression_failed"
      ("failed to decompress " ++ kind ++ " content: " ++ err) .internal))
  | .ok bytes =>
    if maxDecompressed opts < bytes.length then
      insecure lib.toRuntime "decompression_limit_exceeded"
        ("decompressed body exceeded limit of " ++ toString (maxDecompressed opts) ++ " bytes")
    else .ok bytes

/-- The bytes on the wire. -/
def readRaw : Except GoError (List (BitVec 8)) :=
  let limit := maxResponse opts
  if limit < resp.contentLength then
    insecure lib.toRuntime "response_too_large" ("content length " ++ toString resp.contentLength ++
      " exceeds limit of " ++ toString limit ++ " bytes")
  else
    match readLimited limit resp.body with
    | .error err => .error (.domain (newDomainError lib.toRuntime "read_error"
        ("failed to read response body: " ++ err) .internal))
    | .ok raw =>
      if limit < raw.length then
        insecure lib.toRuntime "response_too_large"
          ("response body size exceeded limit of " ++ toString limit ++ " bytes")
      else .ok raw

def readBody : Except GoError (List (BitVec 8)) :=
  if resp.statusCode < 200 ∨ 300 ≤ resp.statusCode then
    .error (.domain (newDomainError lib.toRuntime "http_error" ("request failed with status " ++
      toString resp.statusCode ++ ": " ++ lib.statusText resp.statusCode) .internal))
  else do
    let raw ← readRaw lib opts resp
    if isGzip lib resp raw then
      match lib.gzip raw with
      | .error err => invalid lib.toRuntime "invalid_gzip" ("failed to parse gzip stream: " ++ err)
      | .ok r => decompress lib opts "gzip" r
    else if isDeflate lib resp then decompress lib opts "deflate" ((lib.zlib raw).getD (lib.flate raw))
    else .ok raw

end

section

variable (lib : FetchLibraries) (policy : FetchPolicy) (world : FetchWorld) (opts : FetchOptions)

def effectiveMaxRedirects : ℕ :=
  if 0 < opts.maxRedirects then opts.maxRedirects.toNat
  else if 0 < policy.maxRedirects then policy.maxRedirects.toNat
  else 5

def validatedProxy : Except GoError (Option FetchURL) :=
  if opts.fetchProxyURL = "" then .ok none
  else
    match lib.parseURL opts.fetchProxyURL with
    | .error err => invalid lib.toRuntime "invalid_proxy_url" ("malformed proxy URL: " ++ err)
    | .ok proxyURL => do
      validateProxy lib policy (world.lookupIPAddr 0) proxyURL
      .ok (some proxyURL)

/-- The requests a call sends, with the body it returns and the response that came with it. -/
def fetch : List Hop × Except GoError (HTTPResponse × List (BitVec 8)) :=
  match validatedProxy lib policy world opts with
  | .error err => ([], .error err)
  | .ok activeProxyURL =>
    let n := effectiveMaxRedirects policy opts
    let run := redirectLoop lib policy world activeProxyURL n (n+1) 0 opts.url
    (run.1, do
      let resp ← run.2
      let body ← readBody lib opts resp
      .ok (resp, body))

end

section

variable {lib : FetchLibraries} {policy : FetchPolicy} {world : FetchWorld} {proxy : Option FetchURL} {n : ℕ}

/-- One round of the loop sends nothing, or one request for a target that passed the checks. -/
theorem redirectLoop_succ (left hop : ℕ) (url : String) :
    (redirectLoop lib policy world proxy n (left+1) hop url).1 = [] ∨
    ∃ currURL ip accepted rest, hopTarget lib policy (world.lookupIPAddr (hop+1)) url = .ok (currURL, ip, accepted) ∧
      (redirectLoop lib policy world proxy n (left+1) hop url).1 =
        ⟨accepted, hopConnections lib world proxy hop ip⟩ :: rest ∧
      (rest = [] ∨ ∃ next, rest = (redirectLoop lib policy world proxy n left (hop+1) next).1) := by
  rw [redirectLoop]
  cases htarget : hopTarget lib policy (world.lookupIPAddr (hop+1)) url with
  | error err => exact .inl rfl
  | ok found =>
    obtain ⟨currURL, ip, accepted⟩ := found
    refine .inr ⟨currURL, ip, accepted, ?_⟩
    dsimp only
    split
    · exact ⟨[], rfl, rfl, .inl rfl⟩
    · split_ifs
      · exact ⟨[], rfl, rfl, .inl rfl⟩
      · split
        · exact ⟨[], rfl, rfl, .inl rfl⟩
        · next nextURL _ => exact ⟨_, rfl, rfl, .inr ⟨nextURL.text, rfl⟩⟩
      · exact ⟨[], rfl, rfl, .inl rfl⟩

theorem length_redirectLoop : ∀ (left hop : ℕ) (url : String),
    (redirectLoop lib policy world proxy n left hop url).1.length ≤ left := by
  intro left
  induction left with
  | zero => exact fun _ _ => Nat.le_refl 0
  | succ left ih =>
    intro hop url
    rcases @redirectLoop_succ lib policy world proxy n left hop url with hn | ⟨_, _, _, rest, -, hs, hr⟩
    · simp [hn]
    · rw [hs, length_cons]
      rcases hr with rfl | ⟨next, rfl⟩
      · simp
      · exact Nat.succ_le_succ (ih (hop+1) next)

theorem exists_target_of_mem {sent : Hop} : ∀ (left hop : ℕ) (url : String),
    sent ∈ (redirectLoop lib policy world proxy n left hop url).1 →
    ∃ hop url currURL ip, hopTarget lib policy (world.lookupIPAddr (hop+1)) url = .ok (currURL, ip, sent.accepted) ∧
      sent.connections = hopConnections lib world proxy hop ip := by
  intro left
  induction left with
  | zero => exact fun _ _ h => absurd h not_mem_nil
  | succ left ih =>
    intro hop url hm
    rcases @redirectLoop_succ lib policy world proxy n left hop url with
      hnone | ⟨currURL, ip, accepted, rest, htg, hs, hr⟩
    · rw [hnone] at hm
      contradiction
    · rw [hs] at hm
      rcases mem_cons.mp hm with rfl | hm
      · exact ⟨hop, url, currURL, ip, htg, rfl⟩
      · rcases hr with rfl | ⟨next, rfl⟩
        · contradiction
        · exact ih _ _ hm

theorem pinAddress_eq_ok {lookup : String → Except String (List NetIP)} {url : FetchURL} {host : String}
    {ip : NetIP} {accepted : List NetIP} (hal : ∀ name, isHostAllowed lib policy name = false)
    (h : pinAddress lib policy lookup url host = .ok (ip, accepted)) :
    ip ∈ accepted ∧ ∀ a ∈ accepted, validateIP lib policy a = .ok () := by
  simp only [pinAddress, hal, Bool.or_self, Bool.false_eq_true, if_false] at h
  split at h
  · split_ifs at h
    · cases h
    · obtain ⟨hv, hp⟩ := bind_unit_eq_ok_iff.mp h
      cases hp
      simpa using hv
  · obtain ⟨ips, hi, h⟩ := bind_eq_ok_iff.mp h
    obtain ⟨hv, hp⟩ := bind_unit_eq_ok_iff.mp h
    cases hp
    refine ⟨?_, (forEach_ok_iff _).mp hv⟩
    -- the lookup has answered, so there is a first address
    have hne : accepted ≠ [] := by
      intro hn
      rw [hn, resolvedIPs.eq_def] at hi
      split at hi <;> simp [insecure] at hi
      contradiction
    cases hf : accepted.find? (·.is4) with
    | some four => exact mem_of_find?_eq_some hf
    | none =>
      obtain ⟨-, -, rfl⟩ := exists_cons_of_ne_nil hne
      exact mem_cons_self

theorem length_readRaw {opts : FetchOptions} {resp : HTTPResponse} {raw : List (BitVec 8)}
    (h : readRaw lib opts resp = .ok raw) : raw.length ≤ maxResponse opts := by
  rw [readRaw] at h
  split_ifs at h
  · cases h
  · split at h
    · cases h
    · split_ifs at h with hl
      · cases h
      · cases h
        exact not_lt.mp hl

theorem length_decompress {opts : FetchOptions} {kind : String} {r : ByteStream} {bytes : List (BitVec 8)}
    (h : decompress lib opts kind r = .ok bytes) : bytes.length ≤ maxDecompressed opts := by
  rw [decompress] at h
  split at h
  · cases h
  · split_ifs at h with hl
    · cases h
    · cases h
      exact not_lt.mp hl

theorem length_readBody {opts : FetchOptions} {resp : HTTPResponse} {body : List (BitVec 8)}
    (h : readBody lib opts resp = .ok body) : body.length ≤ maxDecompressed opts ∨
      isGzip lib resp body = false ∧ isDeflate lib resp = false ∧ body.length ≤ maxResponse opts := by
  rw [readBody] at h
  split at h
  · cases h
  · obtain ⟨raw, hr, h⟩ := bind_eq_ok_iff.mp h
    split_ifs at h with hg hd
    · split at h
      · cases h
      · exact .inl (length_decompress h)
    · exact .inl (length_decompress h)
    · cases h
      exact .inr ⟨Bool.not_eq_true _ ▸ hg, Bool.not_eq_true _ ▸ hd, length_readRaw hr⟩

end

/-- Without proxy and allowed hosts, whatever resolvers and servers do: a call connects only to addresses
accepted in the same hop, sends at most one request more than redirects are allowed, and returns a body
within the limit for decompressed ones, or within the limit for responses if the body came uncompressed. -/
theorem direct_fetch_contained (lib : FetchLibraries) (policy : FetchPolicy) (world : FetchWorld)
    (opts : FetchOptions) (hproxy : opts.fetchProxyURL = "") (hprivate : policy.allowPrivate = false)
    (hhosts : policy.allowedHosts = []) : (∀ sent ∈ (fetch lib policy world opts).1, ∀ ip ∈ sent.connections,
      ip ∈ sent.accepted ∧ validateIP lib policy ip = .ok ()) ∧
    (fetch lib policy world opts).1.length ≤ effectiveMaxRedirects policy opts + 1 ∧
    ∀ resp body, (fetch lib policy world opts).2 = .ok (resp, body) → body.length ≤ maxDecompressed opts ∨
      isGzip lib resp body = false ∧ isDeflate lib resp = false ∧ body.length ≤ maxResponse opts := by
  have hal (name : String) : isHostAllowed lib policy name = false := by
    simp [isHostAllowed, hprivate, hhosts]
  have hn : validatedProxy lib policy world opts = .ok none := if_pos hproxy
  rw [fetch, hn]
  refine ⟨?_, length_redirectLoop _ _ _, ?_⟩
  · intro sent hs ip hip
    obtain ⟨hop, url, currURL, pinned, htg, hc⟩ := exists_target_of_mem _ _ _ hs
    rw [hc, hopConnections, mem_singleton] at hip
    rw [hopTarget] at htg
    split at htg
    · simp at htg
    · obtain ⟨host, -, hp⟩ := bind_eq_ok_iff.mp htg
      obtain ⟨⟨pinned', accepted⟩, hp, hfd⟩ := bind_eq_ok_iff.mp hp
      cases hfd
      obtain ⟨hm, hv⟩ := pinAddress_eq_ok hal hp
      exact hip ▸ ⟨hm, hv _ hm⟩
  · intro resp body hrs
    obtain ⟨resp', -, hrs⟩ := bind_eq_ok_iff.mp hrs
    obtain ⟨body', hb, hpa⟩ := bind_eq_ok_iff.mp hrs
    cases hpa
    exact length_readBody hb

/-! ### The URLs of the samples -/

def sampleURL (scheme hostname port path : String) : FetchURL :=
  let host := if port = "" then hostname else hostname ++ ":" ++ port
  { scheme := scheme
    host := host
    hostname := hostname
    port := port
    path := path
    text := scheme ++ "://" ++ host ++ path }

def sampleURLs : List FetchURL :=
  [sampleURL "http" "sub.example" "" "/list", sampleURL "https" "cdn.example" "8443" "/list",
   sampleURL "http" "8.8.8.8" "8080" "", sampleURL "http" "relay.example" "8080" ""]

/-- `url.Parse` on the URLs of the samples. It refuses other texts. -/
def parseSampleURL (s : String) : Except String FetchURL :=
  match sampleURLs.find? (fun u => u.text = s) with
  | some u => .ok u
  | none => .error "unsupported URL"

def dottedText : NetIP → String
  | .v4 b => join ([24, 16, 8, 0].map (fun i => toString (b.extractLsb' i 8).toNat)) "."
  | _ => ""

/-- `net.ParseIP` on IPv4 addresses: what is read has to be written as it was, which excludes leading zeros
and parts above 255. -/
def readDotted (s : String) : Option NetIP :=
  match (s.toList.splitOn '.').map (fun part => Strconv.parseInt (String.ofList part)) with
  | [some a, some b, some c, some d] =>
    let ip := NetIP.v4 (BitVec.ofInt 8 a ++ BitVec.ofInt 8 b ++ BitVec.ofInt 8 c ++ BitVec.ofInt 8 d)
    if dottedText ip = s then some ip else none
  | _ => none

def sampleLibraries : FetchLibraries where
  toRuntime := asciiRuntime
  addressOf := readDotted
  addressText := dottedText
  parseURL := parseSampleURL
  resolveReference _ := parseSampleURL
  statusText _ := ""
  gzip _ := .error "gzip: invalid header"
  zlib _ := none
  flate raw := ⟨raw, none⟩

/-- The first server redirects to another host, and the second one sends two bytes. The resolver finds public
addresses, while dialers find the loopback one. -/
def redirectingWorld : FetchWorld where
  lookupIPAddr _ host := if host = "sub.example" then .ok [.v4 0x08080808] else .ok [.v4 0x01010101, .v4 0x08080404]
  dial _ _ := [.v4 0x7f000001]
  reply hop :=
    if hop = 0 then .ok { statusCode := 302, location := "https://cdn.example:8443/list", body := ⟨[], none⟩ }
    else .ok { statusCode := 200, body := ⟨[1, 2], none⟩ }

def shortBody : FetchOptions where
  url := "http://sub.example/list"
  maxResponseBytes := 2
  maxDecompressedBytes := 1

theorem direct_fetch_contained_redirected :
    (fetch sampleLibraries {} redirectingWorld shortBody).1 =
      [⟨[.v4 0x08080808], [.v4 0x08080808]⟩, ⟨[.v4 0x01010101, .v4 0x08080404], [.v4 0x01010101]⟩] ∧
    (∀ sent ∈ (fetch sampleLibraries {} redirectingWorld shortBody).1, ∀ ip ∈ sent.connections,
      ip ∈ sent.accepted ∧ validateIP sampleLibraries {} ip = .ok ()) ∧
    (fetch sampleLibraries {} redirectingWorld shortBody).1.length ≤ 6 ∧
    ∀ resp body, (fetch sampleLibraries {} redirectingWorld shortBody).2 = .ok (resp, body) →
      body.length ≤ (1 : Int) ∨ isGzip sampleLibraries resp body = false ∧
        isDeflate sampleLibraries resp = false ∧ body.length ≤ (2 : Int) :=
  ⟨by decide +kernel, direct_fetch_contained sampleLibraries {} redirectingWorld shortBody rfl rfl rfl⟩

/-- A body that comes uncompressed is not held to the limit for decompressed ones. -/
theorem plain_body_above_limit :
    ∃ resp body, (fetch sampleLibraries {} redirectingWorld shortBody).2 = .ok (resp, body) ∧
      maxDecompressed shortBody < body.length := by
  refine ⟨{ statusCode := 200, body := ⟨[1, 2], none⟩ }, [1, 2], ?_, by decide⟩
  decide +kernel

/-- `url.Parse` and `net.ParseIP` as far as proxies need them: the host of a URL, and of the endpoint
built from it, is read back as the same address or again as a name. -/
structure FetchLibraries.ReadsBack (lib : FetchLibraries) : Prop where
  text : ∀ s u v, lib.parseURL s = .ok u → lib.parseURL (trimSpace u.text) = .ok v →
    lib.addressOf v.hostname = lib.addressOf u.hostname
  endpoint : ∀ s u scheme (port : Int) v, lib.parseURL s = .ok u → scheme = "http" ∨ scheme = "https" →
    lib.parseURL (scheme ++ "://" ++ canonicalHost lib u.hostname ++ ":" ++ toString port) = .ok v →
    lib.addressOf v.hostname = lib.addressOf u.hostname

section

variable {lib : FetchLibraries} {policy : FetchPolicy}

theorem parseCanonicalProxyURL_eq_ok {raw canonical : String} (h : parseCanonicalProxyURL lib raw = .ok canonical) :
    ∃ u scheme, ∃ port : Int, lib.parseURL (trimSpace raw) = .ok u ∧ (scheme = "http" ∨ scheme = "https") ∧
      canonical = scheme ++ "://" ++ canonicalHost lib u.hostname ++ ":" ++ toString port := by
  simp only [parseCanonicalProxyURL, ite_invalid_eq_ok] at h
  obtain ⟨-, -, h⟩ := h
  cases hu : lib.parseURL (trimSpace raw) with
  | error err => simp [hu] at h
  | ok u =>
    simp only [hu, ite_invalid_eq_ok] at h
    obtain ⟨hs, -, -, -, -, -, h⟩ := h
    -- the other checks only refuse
    split_ifs at h
    iterate 5 · simp [insecure] at h
    split at h
    · simp at h
    · next port _ =>
      obtain ⟨-, hc⟩ := (ite_invalid_eq_ok ..).mp h
      refine ⟨u, _, port, rfl, ?_, (Except.ok.inj hc).symm⟩
      by_contra hnone
      exact hs (not_or.mp hnone)

theorem validateIP_of_validateProxy (hl : lib.ReadsBack) {s : String} {url : FetchURL} {ip : NetIP}
    {lookup : String → Except String (List NetIP)} (hur : lib.parseURL s = .ok url)
    (hli : ∀ canonical, parseCanonicalProxyURL lib url.text = .ok canonical →
      isProxyHostAllowed lib policy canonical = false)
    (hip : lib.addressOf url.hostname = some ip) (h : validateProxy lib policy lookup url = .ok ()) :
    validateIP lib policy ip = .ok () := by
  obtain ⟨canonical, hc, h⟩ := bind_eq_ok_iff.mp h
  rw [if_neg (by simp [hli canonical hc])] at h
  obtain ⟨u, scheme, port, hu, hsc, rfl⟩ := parseCanonicalProxyURL_eq_ok hc
  split at h
  · simp at h
  · next parsed hp =>
    have hs : lib.addressOf parsed.hostname = some ip :=
      (hl.endpoint _ u scheme port parsed hu hsc hp).trans ((hl.text s url u hur hu).trans hip)
    rw [hs] at h
    dsimp only at h
    split at h
    · next hv => exact hv
    · simp [insecure] at h

end

/-- For a proxy that is not trusted: every connection to it goes to an accepted address, whatever resolvers
and servers do, exactly when its host is a literal or no answers let a call get as far as a connection. -/
theorem proxied_fetch_guarded_iff (lib : FetchLibraries) (hlib : lib.ReadsBack) (policy : FetchPolicy)
    (opts : FetchOptions) (hproxy : opts.fetchProxyURL ≠ "")
    (hlisted : ∀ url canonical, lib.parseURL opts.fetchProxyURL = .ok url →
      parseCanonicalProxyURL lib url.text = .ok canonical → isProxyHostAllowed lib policy canonical = false) :
    (∀ world, ∀ sent ∈ (fetch lib policy world opts).1, ∀ ip ∈ sent.connections, validateIP lib policy ip = .ok ()) ↔
    ∀ url, lib.parseURL opts.fetchProxyURL = .ok url → (lib.addressOf url.hostname).isSome ∨
      ∀ first later, validateProxy lib policy first url = .ok () →
        ∀ found, hopTarget lib policy later opts.url ≠ .ok found := by
  constructor
  · intro hg url hu
    by_contra hno
    push Not at hno
    obtain ⟨hn, first, later, hv, ⟨currURL, ip, accepted⟩, htg⟩ := hno
    -- the dialer is told another address than the check
    let world : FetchWorld :=
      { lookupIPAddr := fun n => if n = 0 then first else later
        dial := fun _ _ => [.v4 0x7f000001]
        reply := fun _ => .error (.plain "") }
    have ha : validatedProxy lib policy world opts = .ok (some url) := by
      rw [validatedProxy, if_neg hproxy, hu]
      exact bind_unit_eq_ok_iff.mpr ⟨hv, rfl⟩
    have hs : (⟨accepted, [.v4 0x7f000001]⟩ : Hop) ∈ (fetch lib policy world opts).1 := by
      rw [fetch, ha]
      dsimp only
      rw [redirectLoop, show hopTarget lib policy (world.lookupIPAddr (0+1)) opts.url = _ from htg]
      simp [hopConnections, Option.not_isSome_iff_eq_none.mp hn, world]
    have hl := hg world _ hs _ (mem_singleton_self _)
    simp [validateIP, NetIP.isSpecial, insecure] at hl
  · intro hco world sent hs ip hip
    cases ha : validatedProxy lib policy world opts with
    | error err => simp [fetch, ha] at hs
    | ok active =>
      rw [validatedProxy, if_neg hproxy] at ha
      split at ha
      · simp at ha
      · next url hu =>
        obtain ⟨hv, hso⟩ := bind_unit_eq_ok_iff.mp ha
        cases hso
        have ha' : validatedProxy lib policy world opts = .ok (some url) := by
          rw [validatedProxy, if_neg hproxy, hu]
          exact ha
        rw [fetch, ha'] at hs
        rcases hco url hu with hli | hne
        · obtain ⟨address, had⟩ := Option.isSome_iff_exists.mp hli
          obtain ⟨hop, _, _, _, -, hc⟩ := exists_target_of_mem _ _ _ hs
          rw [hc, hopConnections, had, Option.elim_some, mem_singleton] at hip
          exact hip ▸ validateIP_of_validateProxy hlib hu (hlisted url · hu) had hv
        · rcases @redirectLoop_succ lib policy world (some url) (effectiveMaxRedirects policy opts)
            (effectiveMaxRedirects policy opts) 0 opts.url with he | ⟨_, _, _, _, htg, -⟩
          · rw [he] at hs
            contradiction
          · exact absurd htg (hne _ _ hv _)

theorem mem_sampleURLs {s : String} {u : FetchURL} (h : parseSampleURL s = .ok u) :
    u ∈ sampleURLs ∧ u.text = s := by
  rw [parseSampleURL] at h
  split at h
  · next hf =>
    cases h
    exact ⟨mem_of_find?_eq_some hf, by simpa using find?_some hf⟩
  · cases h

/-- The hosts of the samples are read back. -/
theorem sampleLibraries_readsBack : sampleLibraries.ReadsBack where
  text s u v hu hv := by
    have hback : ∀ u ∈ sampleURLs, ∀ v ∈ sampleURLs, v.text = trimSpace u.text → v.hostname = u.hostname := by
      decide +kernel
    obtain ⟨hm, ht⟩ := mem_sampleURLs hv
    rw [hback u (mem_sampleURLs hu).1 v hm ht]
  endpoint s u scheme port v hu hs hv := by
    have hback : ∀ u ∈ sampleURLs, ∀ v ∈ sampleURLs, ∀ scheme ∈ ["http", "https"],
        hasPrefix v.text (scheme ++ "://" ++ canonicalHost sampleLibraries u.hostname ++ ":") = true →
          v.hostname = u.hostname := by decide +kernel
    obtain ⟨hm, ht⟩ := mem_sampleURLs hv
    rw [hback u (mem_sampleURLs hu).1 v hm scheme (by simpa using hs) (by simp [ht, hasPrefix])]

/-- A proxy that is given by a public address. -/
def literalProxy : FetchOptions where
  url := "http://sub.example/list"
  fetchProxyURL := "http://8.8.8.8:8080"

theorem literal_proxy_guarded : literalProxy.fetchProxyURL ≠ "" ∧
    (fetch sampleLibraries {} redirectingWorld literalProxy).1 =
      [⟨[.v4 0x08080808], [.v4 0x08080808]⟩, ⟨[.v4 0x01010101, .v4 0x08080404], [.v4 0x08080808]⟩] ∧
    ∀ world, ∀ sent ∈ (fetch sampleLibraries {} world literalProxy).1, ∀ ip ∈ sent.connections,
      validateIP sampleLibraries {} ip = .ok () := by
  refine ⟨by decide, by decide +kernel,
    (proxied_fetch_guarded_iff _ sampleLibraries_readsBack {} literalProxy (by decide) ?_).mpr ?_⟩
  · intro url canonical _ _
    simp [isProxyHostAllowed]
    split <;> rfl
  · intro url hu
    have hip : ∀ u ∈ sampleURLs, u.text = literalProxy.fetchProxyURL →
        (sampleLibraries.addressOf u.hostname).isSome = true := by decide +kernel
    obtain ⟨hm, ht⟩ := mem_sampleURLs (s := literalProxy.fetchProxyURL) hu
    exact .inl (hip url hm ht)

/-- The proxy is given by a name. -/
def namedProxy : FetchOptions where
  url := "http://sub.example/list"
  fetchProxyURL := "http://relay.example:8080"

/-- The name of the proxy is checked at one address and dialled at another. -/
theorem proxy_rebinds_to_loopback : isProxyHostAllowed sampleLibraries {} namedProxy.fetchProxyURL = false ∧
    ∃ sent ∈ (fetch sampleLibraries {} redirectingWorld namedProxy).1, ∃ ip ∈ sent.connections,
      ip = .v4 0x7f000001 ∧ validateIP sampleLibraries {} ip ≠ .ok () := by
  refine ⟨by decide +kernel, ⟨[.v4 0x08080808], [.v4 0x7f000001]⟩, ?_, _, mem_singleton_self _, rfl, by decide +kernel⟩
  decide +kernel

end ClashSubParser
