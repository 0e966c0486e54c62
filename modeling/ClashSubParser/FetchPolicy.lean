import ClashSubParser.DomainError

/-! The policy of the fetcher: which addresses it accepts, and which proxies. -/
namespace ClashSubParser

open Strings

/-- A `net.IP`, told apart by `To4`. -/
inductive NetIP
  | nil
  | v4 (bits : BitVec 32)
  | v6 (bits : BitVec 128)
deriving DecidableEq

namespace NetIP

def is4 : NetIP → Bool
  | v4 _ => true
  | _ => false

/-- Loopback, private, link-local unicast, multicast (link-local or not) or unspecified. -/
def isSpecial : NetIP → Bool
  | nil => false
  | v4 b => b >>> 24 = 127 || (b >>> 24 = 10 || b >>> 20 = 0xac1 || b >>> 16 = 0xc0a8) || b >>> 16 = 0xa9fe ||
      b >>> 28 = 0xe || b = 0
  | v6 b => b = 1 || b >>> 121 = 0x7e || b >>> 118 = 0x3fa || b >>> 120 = 0xff || b = 0

end NetIP

/-- What is read of a `net.IPNet`. -/
structure IPNet where
  bits : ℕ
  contains : NetIP → Bool
  text : String

structure FetchPolicy where
  maxRedirects : Int := 5
  blockedCIDRs : List (Option IPNet) := []
  allowedHosts : List String := []
  allowedProxyHosts : List String := []
  allowPrivate : Bool := false

/-- What is read of a `url.URL`. -/
structure FetchURL where
  scheme : String
  host : String
  hostname : String
  port : String
  path : String := ""
  /-- `RawQuery` is not empty or `ForceQuery` is set -/
  hasQuery : Bool := false
  fragment : String := ""
  /-- `String()` -/
  text : String

/-- The bytes a reader gives, and the error it ends with. -/
structure ByteStream where
  bytes : List (BitVec 8)
  err : Option String := none
deriving DecidableEq

structure FetchLibraries extends Runtime where
  /-- `net.ParseIP` -/
  addressOf : String → Option NetIP
  /-- `String()` of an address -/
  addressText : NetIP → String
  parseURL : String → Except String FetchURL
  /-- the `Parse` method of a URL -/
  resolveReference : FetchURL → String → Except String FetchURL
  statusText : Int → String
  /-- `gzip.NewReader`, `zlib.NewReader` and `flate.NewReader` -/
  gzip : List (BitVec 8) → Except String ByteStream
  zlib : List (BitVec 8) → Option ByteStream
  flate : List (BitVec 8) → ByteStream

/-- Whether `strconv.ParseUint(s, base, 64)` succeeds, for base 10 or 16. -/
def isUint (base : ℕ) (s : List Char) : Bool :=
  let digit (c : Char) : ℕ := if c.isDigit then c.toNat - 48 else c.toLower.toNat - 87
  s ≠ [] && s.all (fun c => c.isDigit || base = 16 && 'a' ≤ c.toLower && c.toLower ≤ 'f') &&
    s.foldl (fun n c => base*n + digit c) 0 < 2^64

section

variable (lib : FetchLibraries) (p : FetchPolicy)

def isObfuscatedIP (host : String) : Bool :=
  let hex (s : List Char) : Bool := hasPrefix (toLower lib.toRuntime (String.ofList s)) "0x"
  let trimmed := (trimSpace host).toList
  let clean := if hasSuffix (trimSpace host) "." then trimmed.dropLast else trimmed
  if clean = [] then false
  else if isUint 10 clean || hex clean && isUint 16 (clean.drop 2) then true
  else
    let parts := (clean.splitOn '.').map fun part =>
      (toLower lib.toRuntime (trimSpace (String.ofList part))).toList
    '.' ∈ clean && parts.all (fun part => if hex part then isUint 16 (part.drop 2) else isUint 10 part) &&
      (parts.length ≤ 3 ||
        parts.length = 4 && parts.any (fun part => hex part || 1 < part.length && part.head? = some '0'))

def looksMapped (host : String) : Bool :=
  contains (toLower lib.toRuntime host) "::ffff:" || contains (toLower lib.toRuntime host) ":ffff:"

def canonicalHost (rawHost : String) : String :=
  match lib.addressOf rawHost with
  | some ip => if ip.is4 then lib.addressText ip else "[" ++ lib.addressText ip ++ "]"
  | none => toLower lib.toRuntime rawHost

def parseCanonicalProxyURL (raw : String) : Except GoError String :=
  let bad (message : String) : Except GoError String := invalid lib.toRuntime "invalid_proxy_url" message
  let quoted (s : String) := Strconv.quote lib.toRuntime s
  let clean := trimSpace raw
  let lower := toLower lib.toRuntime clean
  if clean = "" then bad "empty proxy endpoint"
  else if !hasPrefix lower "http://" && !hasPrefix lower "https://" then
    bad "only explicit HTTP/HTTPS proxy URLs are allowed"
  else
    match lib.parseURL clean with
    | .error _ => bad "malformed proxy URL"
    | .ok u =>
      let scheme := toLower lib.toRuntime u.scheme
      let rawHost := u.hostname
      let mapped := insecure lib.toRuntime "proxy_ssrf_blocked"
        ("proxy host " ++ quoted rawHost ++ " is an IPv4-mapped IPv6 address")
      if scheme ≠ "http" ∧ scheme ≠ "https" then bad "only HTTP/HTTPS proxy URLs are allowed"
      else if u.path ≠ "" ∧ u.path ≠ "/" then bad ("path " ++ quoted u.path ++ " in proxy endpoint is not allowed")
      else if u.hasQuery || u.fragment ≠ "" || contains clean "#" then
        bad "query or fragment in proxy endpoint is not allowed"
      else if rawHost = "" then bad "proxy endpoint missing host"
      else if hasSuffix rawHost "." then bad ("proxy host " ++ quoted rawHost ++ " has a trailing dot")
      else if contains rawHost "%" then bad ("proxy host " ++ quoted rawHost ++ " contains IPv6 zone ID")
      else if isObfuscatedIP lib rawHost then
        insecure lib.toRuntime "proxy_ssrf_blocked" ("proxy host " ++ quoted rawHost ++ " is an obfuscated IP format")
      else if looksMapped lib rawHost then mapped
      else if (lib.addressOf rawHost).any (·.is4) && contains rawHost ":" then mapped
      else if u.port = "" then bad "proxy endpoint must explicitly specify a port"
      else if 1 < u.port.length ∧ hasPrefix u.port "0" then
        bad ("invalid proxy port " ++ quoted u.port ++ ": leading zeros are not allowed")
      else
        match Strconv.parseInt u.port with
        | none => bad ("invalid proxy port " ++ quoted u.port)
        | some port =>
          if port < 1 ∨ 65535 < port then bad ("invalid proxy port " ++ quoted u.port)
          else .ok (scheme ++ "://" ++ canonicalHost lib rawHost ++ ":" ++ toString port)

def isHostAllowed (target : String) : Bool :=
  p.allowPrivate || p.allowedHosts.any fun allowed =>
    equalFold lib.toRuntime (toLower lib.toRuntime (trimSpace target)) (toLower lib.toRuntime (trimSpace allowed))

def isProxyHostAllowed (target : String) : Bool :=
  p.allowPrivate ||
    match parseCanonicalProxyURL lib (trimSpace target) with
    | .error _ => false
    | .ok canonical => p.allowedProxyHosts.contains canonical

def validateIP (ip : NetIP) : Except GoError Unit :=
  let message := "target IP " ++ lib.addressText ip ++ " is blocked by SSRF policy"
  if ip = .nil then insecure lib.toRuntime "invalid_ip" "nil IP address"
  else if ip.isSpecial then insecure lib.toRuntime "ssrf_blocked" message
  else
    -- an IPv4 address is compared with IPv4 networks only
    match p.blockedCIDRs.reduceOption.find? (fun block => (!ip.is4 || block.bits = 32) && block.contains ip) with
    | some block => insecure lib.toRuntime "ssrf_blocked" (message ++ " (" ++ block.text ++ ")")
    | none => .ok ()

def resolvedIPs (code what host : String) : Except String (List NetIP) → Except GoError (List NetIP)
  | .error err => insecure lib.toRuntime code ("failed to resolve " ++ what ++ host ++ ": " ++ err)
  | .ok [] => insecure lib.toRuntime code ("no IP addresses resolved for " ++ what ++ host)
  | .ok ips => .ok ips

def validateProxy (lookup : String → Except String (List NetIP)) (u : FetchURL) : Except GoError Unit := do
  let canonical ← parseCanonicalProxyURL lib u.text
  if isProxyHostAllowed lib p canonical then .ok ()
  else
    match lib.parseURL canonical with
    | .error err => invalid lib.toRuntime "invalid_proxy_url" err
    | .ok parsed =>
      let blocked (how : String) (ip : NetIP) : Except GoError Unit :=
        match validateIP lib p ip with
        | .ok _ => .ok ()
        | .error err => insecure lib.toRuntime "proxy_ssrf_blocked" ("proxy host " ++ parsed.hostname ++ how ++ err.error)
      match lib.addressOf parsed.hostname with
      | some ip => blocked " blocked by SSRF policy: " ip
      | none =>
        let ips ← resolvedIPs lib "proxy_dns_resolution_failed" "proxy host " parsed.hostname (lookup parsed.hostname)
        forEach (fun ip => blocked (" resolved to blocked IP " ++ lib.addressText ip ++ ": ") ip) ips

end

end ClashSubParser
