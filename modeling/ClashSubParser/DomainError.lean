import ClashSubParser.FirstError
import ClashSubParser.GoRuntime

namespace ClashSubParser

inductive ErrorCategory
  | validation | notFound | conflict | unauthorized | forbidden | security | internal
deriving DecidableEq

def ErrorCategory.text : ErrorCategory → String
  | validation => "validation"
  | notFound => "not_found"
  | conflict => "conflict"
  | unauthorized => "unauthorized"
  | forbidden => "forbidden"
  | security => "security"
  | internal => "internal"

structure DomainError where
  code : String
  message : String
  category : ErrorCategory
  /-- the entries of the details map by increasing key -/
  details : List (String × String) := []
  cyclePath : List String := []
  currentRevision : Option Int := none
  field : String := ""
deriving DecidableEq

namespace DomainError

def error (e : DomainError) : String :=
  let head := "[" ++ e.category.text ++ "/" ++ e.code ++ "] " ++ e.message
  if e.details = [] then head
  else head ++ " (details: map[" ++ Strings.join (e.details.map (fun d => d.1 ++ ":" ++ d.2)) " " ++ "])"

end DomainError

inductive GoError
  | domain (e : DomainError)
  /-- `fmt.Errorf` with the text before `%w` -/
  | wrapped (text : String) (inner : GoError)
  | plain (text : String)
  /-- no error of the source: the fuel of a recursion ran out -/
  | outOfFuel
deriving DecidableEq

namespace GoError

def error : GoError → String
  | domain e => e.error
  | wrapped text inner => text ++ inner.error
  | plain text => text
  | outOfFuel => ""

def asDomainError : GoError → Option DomainError
  | domain e => some e
  | wrapped _ inner => inner.asDomainError
  | plain _ => none
  | outOfFuel => none

def code? (e : GoError) : Option String := e.asDomainError.map (·.code)

end GoError

def errorCode? {α : Type} : Except GoError α → Option String
  | .ok _ => none
  | .error e => e.code?

section

variable (rt : Runtime)

def isIPRune (c : Char) : Bool := "0123456789abcdefABCDEF:".toList.contains c

/-- The replacement inside an IPv4 token: the matched text may have one other rune at each end. -/
def redactIPToken (token : String) : String :=
  let start := token.toList.takeWhile (fun c => !isIPRune c)
  let rest := token.toList.dropWhile (fun c => !isIPRune c)
  let core := rest.rdropWhile (fun c => !isIPRune c)
  if rt.parseIP (String.ofList core) then
    String.ofList start ++ "[REDACTED_IP]" ++ String.ofList (rest.drop core.length)
  else token

def redactCompleteIPs (input : String) : String :=
  let result := rt.replaceAllStringFunc
    "(?:^|[^0-9])((?:[0-9]\x7b1,3\x7d\\.)\x7b3\x7d[0-9]\x7b1,3\x7d)(?:$|[^0-9])" (redactIPToken rt) input
  rt.replaceAllStringFunc "(?i)[0-9a-f:]\x7b2,\x7d"
    (fun token => if rt.parseIP token then "[REDACTED_IP]" else token) result

def redactSensitiveInfo (input : String) : String :=
  if input = "" then ""
  else
    let result := rt.replaceAllString "(?i)(https?://)[^/@\\s\"'<>]+@" "$\x7b1\x7d***@" input
    let result := rt.replaceAllString "(?i)(bearer\\s+)[A-Za-z0-9._~+/=-]+" "$\x7b1\x7d***" result
    let result := rt.replaceAllString
      "(?i)([?&](?:token|secret|password|key|auth|api_key|access_token)=)[^&\\s\"'<>\\x60)\\]\x7d]+"
      "$\x7b1\x7d***" result
    let result := rt.replaceAllString "(?i)(\\bcookie\\s*:\\s*)[^\\r\\n]+" "$\x7b1\x7d[REDACTED]" result
    let result := rt.replaceAllString
      ("(?i)([\"']?(?:api[_-]?key|access[_-]?token|secret|password|token|cookie)[\"']?\\s*[:=]\\s*)" ++
        "(?:\"[^\"\\r\\n]*\"|'[^'\\r\\n]*'|[^\"',\\s\x7d&]+)")
      "$\x7b1\x7d***" result
    let result := rt.replaceAllString
      "-----BEGIN [A-Z ]*PRIVATE KEY-----[\\s\\S]*?-----END [A-Z ]*PRIVATE KEY-----"
      "[REDACTED_PRIVATE_KEY]" result
    Strings.trimSpace (redactCompleteIPs rt result)

end

section

variable (rt : Runtime)

def newDomainError (code message : String) (category : ErrorCategory) : DomainError where
  code := code
  message := redactSensitiveInfo rt message
  category := category

def newValidationError (code message : String) : DomainError :=
  newDomainError rt code message .validation

def newNotFoundError (code message : String) : DomainError :=
  newDomainError rt code message .notFound

def newConflictError (code message : String) : DomainError :=
  newDomainError rt code message .conflict

/-- Return a validation error, with the field it is about if the source sets one. -/
def invalid {α : Type} (code message : String) (field : String := "") : Except GoError α :=
  .error (.domain { newValidationError rt code message with field := field })

def insecure {α : Type} (code message : String) : Except GoError α :=
  .error (.domain (newDomainError rt code message .security))

@[simp] theorem invalid_ne_ok {α : Type} (code message field : String) (a : α) :
    invalid rt code message field ≠ .ok a := by simp [invalid]

@[simp] theorem ite_invalid_eq_ok {α : Type} (p : Prop) [Decidable p] (code message field : String)
    (x : Except GoError α) (a : α) : (if p then invalid rt code message field else x) = .ok a ↔ ¬p ∧ x = .ok a := by
  split_ifs with h <;> simp [h]

end

@[simp] theorem errorCode?_ok {α : Type} (a : α) : errorCode? (.ok a : Except GoError α) = none := rfl

@[simp] theorem errorCode?_invalid {α : Type} (rt : Runtime) (code message field : String) :
    errorCode? (invalid rt code message field : Except GoError α) = some code := rfl

def forEach {α : Type} (f : α → Except GoError Unit) : List α → Except GoError Unit
  | [] => .ok ()
  | a :: l =>
    match f a with
    | .error e => .error e
    | .ok _ => forEach f l

/-- The loop passes if every element does. -/
theorem forEach_ok_iff {α : Type} {f : α → Except GoError Unit} (l : List α) :
    forEach f l = .ok () ↔ ∀ a ∈ l, f a = .ok () := by
  induction l with
  | nil => simp [forEach]
  | cons a l ih =>
    cases h : f a with
    | error e => simp [forEach, h]
    | ok u => simp [forEach, h, ih]

theorem exists_of_forEach_error {α : Type} {f : α → Except GoError Unit} {e : GoError} (l : List α)
    (h : forEach f l = .error e) : ∃ a ∈ l, f a = .error e := by
  induction l with
  | nil => simp [forEach] at h
  | cons a l ih =>
    cases ha : f a with
    | error e' =>
      simp only [forEach, ha] at h
      exact ⟨a, List.mem_cons_self, ha.trans h⟩
    | ok u =>
      simp only [forEach, ha] at h
      obtain ⟨b, hb, hbe⟩ := ih h
      exact ⟨b, List.mem_cons_of_mem a hb, hbe⟩

end ClashSubParser
