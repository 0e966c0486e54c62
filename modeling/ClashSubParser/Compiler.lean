import ClashSubParser.MihomoRenderer
import ClashSubParser.QuantumultXRenderer
import ClashSubParser.SingBoxOptions
import ClashSubParser.SurgeRenderer

/-! `Compile`: the checks of a target, then its renderer. -/
namespace ClashSubParser

open FirstError Strings

section

variable (lib : Libraries)

def renderSingBoxNode (seen : List String) (index : ℕ) (node : ResolvedNode) : Except CapabilityError SingBoxNode :=
  let tag := trimSpace node.displayName
  if toLower lib.toRuntime (node.credentials.transport.value "network") = "xhttp" then
    reject .singBox (nodeLocation index ++ ".transport.network") "xhttp"
      "sing-box does not support xhttp transport protocol"
  else do
    validateCredentialEnvelope lib .singBox index node
    if tag ∈ seen then
      reject .singBox (nodeLocation index) tag "duplicate outbound/endpoint tag in sing-box configuration"
    else
      match buildExportNodeOption lib tag node with
      | .error err => reject .singBox (nodeLocation index) node.protocol.text err.error
      | .ok out => .ok out

def renderSingBoxNodes (index : ℕ) (seen : List String) : List ResolvedNode → Except CapabilityError (List SingBoxNode)
  | [] => .ok []
  | node :: rest => do
    let out ← renderSingBoxNode lib seen index node
    let outs ← renderSingBoxNodes (index + 1) (trimSpace node.displayName :: seen) rest
    .ok (out :: outs)

end

structure Encoders where
  /-- `yaml.Marshal` -/
  marshalYAML : MihomoConfig → Except GoError String
  /-- the JSON text of the endpoints and outbounds of these nodes -/
  encodeSingBox : List SingBoxNode → Except GoError String

def blankEncoders : Encoders where
  marshalYAML _ := .ok ""
  encodeSingBox _ := .ok ""

inductive CompileError
  | capability (e : CapabilityError)
  | other (e : GoError)

structure Result where
  content : String
  contentType : String
  filename : String
  target : CompilerTarget
  snapshotDigest : String
  contentDigest : String

section

variable (lib : Libraries) (enc : Encoders)

def located {α : Type} (x : Except CapabilityError α) : Except CompileError α := x.mapError .capability

def encoded {α : Type} (x : Except GoError α) : Except CompileError α := x.mapError .other

def render (snap : ResolvedPolicySnapshot) (target : CompilerTarget) : Except CompileError (String × String × String) :=
  match target with
  | .mihomo => do
    let config ← located (renderMihomo lib snap)
    let content ← encoded (enc.marshalYAML config)
    .ok (content, "application/yaml", "mihomo.yaml")
  | .singBox => do
    let nodes ← located (renderSingBoxNodes lib 0 [] snap.nodes)
    let content ← encoded (enc.encodeSingBox nodes)
    .ok (content, "application/json", "sing-box.json")
  | .surge => do
    let content ← located (renderSurge lib snap.nodes)
    .ok (content, "text/plain; charset=utf-8", "surge.conf")
  | .quantumultX => do
    let content ← located (renderQuantumultX lib snap.nodes)
    .ok (content, "text/plain; charset=utf-8", "quantumult-x.conf")
  | .other s _ => .error (.other (.plain ("unknown compiler target " ++ s)))

/-- `Compile`, with the error of its context if there is one. -/
def compile (ctxErr : Option GoError) (snap : ResolvedPolicySnapshot) (target : CompilerTarget) :
    Except CompileError Result :=
  match ctxErr, capabilityForTarget target with
  | some err, _ => .error (.other err)
  | none, none => .error (.capability ⟨target, "target", target.text, "unknown compiler target"⟩)
  | none, some capability => do
    located (validate lib snap target capability)
    located (checks (snap.nodes.mapIdx (validateCredentialEnvelope lib target)))
    let (content, contentType, filename) ← render lib enc snap target
    .ok
      { content := content
        contentType := contentType
        filename := filename
        target := target
        snapshotDigest := snap.snapshotDigest
        contentDigest := Strconv.hexEncode (lib.sha256 content) }

end

section

variable {lib : Libraries} {enc : Encoders} {snap : ResolvedPolicySnapshot}

theorem located_eq_ok_iff {α : Type} {x : Except CapabilityError α} {a : α} : located x = .ok a ↔ x = .ok a := by
  cases x with
  | error e | ok b => simp [located, Except.mapError]

theorem encoded_eq_ok_iff {α : Type} {x : Except GoError α} {a : α} : encoded x = .ok a ↔ x = .ok a := by
  cases x with
  | error e | ok b => simp [encoded, Except.mapError]

/-- A compiled Mihomo document is the encoding of what the renderer built. -/
theorem config_of_compile {ctxErr : Option GoError} {r : Result}
    (h : compile lib enc ctxErr snap .mihomo = .ok r) : validate lib snap .mihomo mihomoCapability = .ok () ∧
      ∃ config, renderMihomo lib snap = .ok config ∧ enc.marshalYAML config = .ok r.content := by
  cases ctxErr with
  | some err => simp [compile] at h
  | none =>
    simp only [compile, capabilityForTarget, render, bind_eq_ok_iff, located_eq_ok_iff, encoded_eq_ok_iff,
      Except.ok.injEq] at h
    obtain ⟨_, hv, _, -, _, ⟨config, hcf, content, hc, rfl⟩, rfl⟩ := h
    exact ⟨hv, config, hcf, hc⟩

def failure? {α : Type} : Except CompileError α → Option CapabilityError
  | .error (.capability e) => some e
  | _ => none

theorem failure?_eq_some_iff {α : Type} {x : Except CompileError α} {e : CapabilityError} :
    failure? x = some e ↔ x = .error (.capability e) := by
  rcases x with (e' | e') | a <;> simp [failure?]

def CompileError.Located (P : CapabilityError → Prop) : CompileError → Prop
  | .capability e => P e
  | .other _ => True

section

variable {P : CapabilityError → Prop}

theorem onlyErrors_iff_located {α : Type} {x : Except CompileError α} :
    OnlyErrors (CompileError.Located P) x ↔ ∀ e, x = .error (.capability e) → P e := by
  constructor
  · intro h e he
    exact h _ he
  · rintro h (e | e) he
    · exact h e he
    · trivial

@[simp] theorem onlyErrors_located {α : Type} (x : Except CapabilityError α) :
    OnlyErrors (CompileError.Located P) (located x) ↔ OnlyErrors P x := by
  cases x with
  | error e => simp [located, Except.mapError, CompileError.Located]
  | ok a => simp [located, Except.mapError]

@[simp] theorem onlyErrors_encoded {α : Type} (x : Except GoError α) :
    OnlyErrors (CompileError.Located P) (encoded x) := by
  cases x with
  | error e => simp [encoded, Except.mapError, CompileError.Located]
  | ok a => simp [encoded, Except.mapError]

theorem onlyErrors_compile {t : CompilerTarget} {cap : Capability}
    (h : capabilityForTarget t = some cap) :
    OnlyErrors (CompileError.Located P) (compile lib enc none snap t) ↔
      OnlyErrors P (validate lib snap t cap) ∧
      (validate lib snap t cap = .ok () →
        OnlyErrors P (checks (snap.nodes.mapIdx (validateCredentialEnvelope lib t))) ∧
        (checks (snap.nodes.mapIdx (validateCredentialEnvelope lib t)) = .ok () →
          OnlyErrors (CompileError.Located P) (render lib enc snap t))) := by
  simp only [compile, h, onlyErrors_bind_unit, onlyErrors_located, located_eq_ok_iff]
  simp only [onlyErrors_bind, onlyErrors_ok, implies_true, and_true]

end

end

end ClashSubParser
