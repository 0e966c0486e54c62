import ClashSubParser.GoRuntime
import Mathlib

/-! What the parser and the compilers take from outside: network prefixes, URLs, and values without a static
type. -/
namespace ClashSubParser

def isAddressChar (c : Char) : Bool := "0123456789abcdef.:".toList.contains c

structure NetPrefix where
  is4 : Bool
  /-- `Addr().String()` -/
  addr : String
  /-- `String()` -/
  text : String
  addr_chars : ∀ c ∈ addr.toList, isAddressChar c = true
  text_chars : ∀ c ∈ text.toList, isAddressChar c = true ∨ c = '/'
  addr_ne : addr ≠ ""
  text_ne : text ≠ ""

/-- A value of type `any`. Of a float and of a value of another type the code reads no more than is
kept here; the entries of a map stand by increasing key. -/
inductive AnyValue
  | null
  | bool (b : Bool)
  | int (n : Int)
  /-- the value converted to `int`, and its text -/
  | float (whole : Int) (text : String)
  /-- a `json.Number` -/
  | number (text : String)
  | str (s : String)
  | list (items : List AnyValue)
  | map (entries : List (String × AnyValue))
  | other (text : String)

/-- A `map[string]any`. -/
abbrev AnyMap := List (String × AnyValue)

structure ParsedURL where
  scheme : String
  opaqueData : String
  /-- user name and password -/
  user : Option (String × Option String)
  host : String
  hostname : String
  port : String
  path : String
  query : GoMap (List String)
  fragment : String
  /-- `String()` after scheme and host have been set -/
  rebuilt : String → String → String

structure Libraries extends Runtime where
  /-- `netip.ParsePrefix` -/
  parsePrefix : String → Option NetPrefix
  /-- a prefix is read back from its text -/
  parsePrefix_text : ∀ s p, parsePrefix s = some p → parsePrefix p.text = some p
  /-- `netip.ParseAddr`, with the prefix of all bits of the address -/
  parseAddr : String → Option NetPrefix
  parseAddr_text : ∀ s p, parseAddr s = some p → parsePrefix p.text = some p
  /-- `url.Parse` -/
  parseURL : String → Option ParsedURL
  /-- `url.PathUnescape` -/
  pathUnescape : String → Option String
  /-- `DecodeString` of the standard, unpadded standard, URL and unpadded URL encodings -/
  base64 : Fin 4 → String → Option (List (BitVec 8))
  /-- `base64.RawURLEncoding.EncodeToString` -/
  base64RawURL : List (BitVec 8) → String
  /-- the text with these bytes -/
  textOf : List (BitVec 8) → String
  /-- `json.Marshal` of a map -/
  marshalJSON : AnyMap → Option String
  /-- `json.Decoder.Decode` into a map, with `UseNumber` -/
  unmarshalJSONMap : String → Option AnyMap
  /-- `json.Unmarshal` into a map, with floats -/
  unmarshalJSON : String → Option AnyMap
  /-- what `json.Unmarshal` leaves in a `map[string]string`, and whether it succeeds -/
  unmarshalJSONStrings : String → GoMap String × Bool

/-- The library functions on plain inputs: of the prefixes only IPv4 ones, and no URLs, JSON or Base64. -/
def asciiLibraries : Libraries where
  toRuntime := asciiRuntime
  parsePrefix s :=
    let addr := (Strings.splitTwo s "/").1
    if h : (∀ c ∈ addr.toList, isAddressChar c = true) ∧ (∀ c ∈ s.toList, isAddressChar c = true ∨ c = '/') ∧
        addr ≠ "" ∧ s ≠ "" ∧ (Strings.splitTwo s "/").2 ≠ "" then
      some ⟨true, addr, s, h.1, h.2.1, h.2.2.1, h.2.2.2.1⟩
    else none
  parsePrefix_text := by
    intro s p h
    dsimp only at h
    split_ifs at h with hs
    obtain rfl := (Option.some.inj h).symm
    exact dif_pos hs
  parseAddr _ := none
  parseAddr_text := by simp
  parseURL _ := none
  pathUnescape s := some s
  base64 _ _ := none
  base64RawURL _ := ""
  textOf _ := ""
  marshalJSON _ := none
  unmarshalJSONMap _ := none
  unmarshalJSON _ := none
  unmarshalJSONStrings _ := (GoMap.empty, false)

/-- `m[key]`, the empty string for a missing key. -/
def GoMap.value (m : GoMap String) (key : String) : String := (m.get? key).getD ""

def GoMap.singleton (key value : String) : GoMap String := ⟨[(key, value)], List.pairwise_singleton _ _⟩

/-- `strings.Split` at a single character. -/
def Strings.split (s : String) (sep : Char) : List String := (s.toList.splitOn sep).map String.ofList

def Strings.containsAny (s chars : String) : Bool := s.toList.any (fun c => chars.toList.contains c)

def joinHostPort (host port : String) : String :=
  if ':' ∈ host.toList ∨ '%' ∈ host.toList then "[" ++ host ++ "]:" ++ port else host ++ ":" ++ port

end ClashSubParser
