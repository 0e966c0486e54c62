import ClashSubParser.QuantumultXRenderer

/-! The lines of a Quantumult X document: every value that is written has been checked or is harmless. -/
namespace ClashSubParser

open List DelimitedLines FirstError Strings

/-- The server and the port of an endpoint: the port is behind the last colon, and brackets around a server
with a colon or a percent sign do not belong to it. -/
def readEndpoint (endpoint : String) : String × String :=
  let (front, port) := cutLast ':' endpoint.toList
  let inner := front.tail.dropLast
  let server := if front.head? = some '[' ∧ front.getLast? = some ']' ∧ (':' ∈ inner ∨ '%' ∈ inner) then inner else front
  (String.ofList server, String.ofList port)

variable {lib : Libraries}

theorem readEndpoint_joinHostPort {server port : String} (hp : ':' ∉ port.toList) :
    readEndpoint (joinHostPort server port) = (server, port) := by
  rw [joinHostPort]
  split_ifs with hb
  · have hl : ("[" ++ server ++ "]:" ++ port).toList = ('[' :: server.toList ++ [']']) ++ ':' :: port.toList := by
      simp
    have hla : ('[' :: server.toList ++ [']']).getLast? = some ']' := getLast?_concat
    rw [readEndpoint, hl, cutLast_append _ hp]
    simp only [hla]
    simp [hb]
  · have hl : (server ++ ":" ++ port).toList = server.toList ++ ':' :: port.toList := by simp
    rw [readEndpoint, hl, cutLast_append _ hp]
    have hi : ¬(':' ∈ server.toList.tail.dropLast ∨ '%' ∈ server.toList.tail.dropLast) := by
      intro hin
      have hs : ∀ c ∈ server.toList.tail.dropLast, c ∈ server.toList := fun c hc =>
        mem_of_mem_tail (mem_of_mem_dropLast hc)
      exact hb (hin.imp (hs _) (hs _))
    simp [hi]

theorem plainText_of_unescaped {s : String} (hs : trimSpace s = s) (h : ¬hasUnsafeQXChars s = true) : PlainText s := by
  rw [Bool.not_eq_true, hasUnsafeQXChars] at h
  exact plainText_of_containsAny hs h (all_iff_forall_prop.mp (by decide))

structure QXTransport.Plain (t : QXTransport) : Prop where
  host : PlainText t.host
  sni : PlainText t.sni
  path : PlainText t.path

variable {t : QXTransport} {fields : List LineField}

theorem QXTransport.Plain.tlsHost (ht : t.Plain) : PlainText t.tlsHost := by
  apply plainText_firstNonEmpty
  simp only [forall_mem_cons, not_mem_nil, false_implies, implies_true, and_true]
  exact ⟨ht.sni, ht.host⟩

theorem safeParams_noVerification (t : QXTransport) : ∀ f ∈ t.noVerification, f.SafeParam := by
  apply safeParams_ite
  rw [forall_mem_singleton]
  exact ⟨by decide, by decide⟩

theorem plainText_mode (t : QXTransport) : PlainText t.mode := by
  rw [QXTransport.mode]
  split_ifs <;> decide

theorem safeParams_webSocket (ht : t.Plain) : ∀ f ∈ t.webSocket, f.SafeParam := by
  simp only [QXTransport.webSocket, forall_mem_append, forall_mem_singleton]
  refine ⟨⟨⟨⟨by decide, plainText_mode t⟩, ?_⟩, ?_⟩, ?_⟩
  · exact safeParams_nonEmptyParam (by decide) ht.host
  · exact safeParams_nonEmptyParam (by decide) ht.path
  · apply safeParams_ite
    rw [forall_mem_append]
    exact ⟨safeParams_nonEmptyParam (by decide) ht.tlsHost, safeParams_noVerification t⟩

theorem safeParams_plainHTTP (ht : t.Plain) : ∀ f ∈ t.plainHTTP, f.SafeParam := by
  simp only [QXTransport.plainHTTP, forall_mem_append, forall_mem_singleton]
  refine ⟨⟨⟨by decide, by decide⟩, ?_⟩, ?_⟩
  · exact safeParams_nonEmptyParam (by decide) ht.host
  · exact safeParams_nonEmptyParam (by decide) ht.path

theorem safeParams_obfuscation (ht : t.Plain) {mode : String} (hm : PlainText mode) :
    ∀ f ∈ t.obfuscation mode, f.SafeParam := by
  rw [QXTransport.obfuscation]
  by_cases he : mode = ""
  · simp [he]
  · rw [if_neg he]
    simp only [forall_mem_append, forall_mem_singleton]
    refine ⟨⟨⟨⟨by decide, hm⟩, ?_⟩, ?_⟩, ?_⟩
    · apply safeParams_nonEmptyParam (by decide)
      apply plainText_firstNonEmpty
      simp only [forall_mem_cons, not_mem_nil, false_implies, implies_true, and_true]
      exact ⟨ht.host, ht.sni⟩
    · exact safeParams_ite (safeParams_nonEmptyParam (by decide) ht.path)
    · exact safeParams_ite (safeParams_noVerification t)

theorem safeParam_verification (t : QXTransport) : t.verification.SafeParam := by
  refine ⟨by decide, ?_⟩
  split_ifs <;> decide

section

variable {fail : String → Except CapabilityError (List LineField)} (hfail : ∀ reason fields, fail reason ≠ .ok fields)
include hfail

theorem safeParams_qxSSTransport (ht : t.Plain) (h : qxSSTransport fail t = .ok fields) :
    ∀ f ∈ fields, f.SafeParam := by
  rw [qxSSTransport] at h
  split_ifs at h with htc ho htl hws hmo
  all_goals first | exact absurd h (hfail _ _) | obtain rfl := Except.ok.inj h
  · exact safeParams_obfuscation ht (by decide)
  · have hm : ∀ m ∈ ["", "http", "tls", "ws", "wss"], PlainText m := by decide
    exact safeParams_obfuscation ht (hm _ ho)
  · exact safeParams_webSocket ht

theorem safeParams_qxVMessTransport (ht : t.Plain) (h : qxVMessTransport fail t = .ok fields) :
    ∀ f ∈ fields, f.SafeParam := by
  rw [qxVMessTransport] at h
  split_ifs at h
  all_goals first | exact absurd h (hfail _ _) | obtain rfl := Except.ok.inj h
  · exact safeParams_plainHTTP ht
  · simp only [forall_mem_append, forall_mem_singleton]
    exact ⟨⟨⟨by decide, by decide⟩, safeParams_nonEmptyParam (by decide) ht.tlsHost⟩, safeParams_noVerification t⟩
  · simp
  · exact safeParams_plainHTTP ht
  · exact safeParams_webSocket ht

theorem safeParams_qxTrojanTransport (ht : t.Plain) (h : qxTrojanTransport fail t = .ok fields) :
    ∀ f ∈ fields, f.SafeParam := by
  rw [qxTrojanTransport] at h
  split_ifs at h
  all_goals first | exact absurd h (hfail _ _) | obtain rfl := Except.ok.inj h
  · simp only [forall_mem_append, forall_mem_singleton]
    exact ⟨⟨⟨by decide, by decide⟩, safeParams_nonEmptyParam (by decide) ht.tlsHost⟩, safeParam_verification t⟩
  · simp only [forall_mem_append, forall_mem_singleton]
    exact ⟨⟨⟨⟨⟨by decide, by decide⟩, safeParams_nonEmptyParam (by decide) ht.host⟩,
      safeParams_nonEmptyParam (by decide) ht.path⟩, safeParams_nonEmptyParam (by decide) ht.tlsHost⟩,
      safeParam_verification t⟩

end

def IsQuantumultXLine (endpoint tag : String) (fields : List LineField) : Prop :=
  ∃ kind params, (PlainText kind ∧ '=' ∉ kind.toList ∧ kind ≠ "") ∧
    fields = .head kind endpoint :: (params ++ [.param "tag" tag]) ∧ ∀ f ∈ params, f.SafeParam

theorem isQuantumultXLine_of_protocol {target : CompilerTarget} {loc feature endpoint tag : String}
    {protocol : Protocol} {c : InboundProtocolCredential} (ht : t.Plain)
    (h : qxProtocol (reject target loc feature) lib endpoint tag protocol c t = .ok fields) :
    IsQuantumultXLine endpoint tag fields := by
  have hfail : ∀ reason fields, reject (α := List LineField) target loc feature reason ≠ .ok fields := by simp
  rw [qxProtocol.eq_def] at h
  split at h
  · simp only [ite_reject_eq_ok, bind_eq_ok_iff, Except.ok.injEq, not_or, not_not] at h
    obtain ⟨⟨-, hpw⟩, hme, params, hpa, rfl⟩ := h
    have hc : ∀ m ∈ validQXSSCiphers, PlainText m := by decide
    refine ⟨"shadowsocks", [.param "method" (toLower lib.toRuntime (trimSpace c.method)),
      .param "password" (trimSpace c.password)] ++ params, by decide, by simp, ?_⟩
    simp only [forall_mem_append, forall_mem_cons, not_mem_nil, false_implies, implies_true, and_true]
    refine ⟨⟨⟨by decide, hc _ hme⟩, by decide, ?_⟩, safeParams_qxSSTransport hfail ht hpa⟩
    exact plainText_of_unescaped (trimSpace_trimSpace _) hpw
  · simp only [ite_reject_eq_ok, bind_eq_ok_iff, Except.ok.injEq, not_or, not_not] at h
    obtain ⟨⟨hu, -⟩, hme, params, hpa, rfl⟩ := h
    have hm : ∀ m ∈ validQXVMessMethods, PlainText m := by decide
    refine ⟨"vmess", [.param "method" _, .param "password" (trimSpace c.uuid)] ++ params, by decide, by simp; rfl, ?_⟩
    simp only [forall_mem_append, forall_mem_cons, not_mem_nil, false_implies, implies_true, and_true]
    refine ⟨⟨⟨by decide, hm _ hme⟩, by decide, ?_⟩, safeParams_qxVMessTransport hfail ht hpa⟩
    exact plainText_of_unescaped (trimSpace_trimSpace _) hu
  · simp only [ite_reject_eq_ok, bind_eq_ok_iff, Except.ok.injEq] at h
    obtain ⟨hpw, -, params, hpa, rfl⟩ := h
    refine ⟨"trojan", [.param "password" (trimSpace c.password)] ++ params, by decide, by simp, ?_⟩
    simp only [forall_mem_append, forall_mem_singleton]
    refine ⟨⟨by decide, ?_⟩, safeParams_qxTrojanTransport hfail ht hpa⟩
    exact plainText_of_unescaped (trimSpace_trimSpace _) hpw
  · simp at h

theorem plainText_joinHostPort {server : String} (hsv : PlainText server) (hne : server ≠ "") (port : Int) :
    PlainText (joinHostPort server (toString port)) := by
  have hp := plainText_toString port
  rw [joinHostPort]
  split_ifs
  · have hm : ',' ∉ (server ++ "]:").toList ∧ '\n' ∉ (server ++ "]:").toList ∧ '\r' ∉ (server ++ "]:").toList := by
      simp [hsv.comma, hsv.feed, hsv.ret]
    have hb : PlainText "[" := by decide
    have ha := hb.append hp (by decide) (toString_ne_empty port) _ hm
    rwa [← String.append_assoc] at ha
  · exact hsv.append hp hne (toString_ne_empty port) ":" (by decide)

/-- A rendered node gives a well formed line with its endpoint and its trimmed name. -/
theorem isQuantumultXLine_of_render {i : ℕ} {node : ResolvedNode} (h : renderQuantumultXNode lib i node = .ok fields) :
    IsQuantumultXLine (joinHostPort (trimSpace node.server) (toString node.port)) (trimSpace node.displayName) fields ∧
      WellFormedLine fields := by
  simp only [renderQuantumultXNode, renderQuantumultXServerLine, ite_reject_eq_ok, bind_eq_ok_iff, not_or] at h
  obtain ⟨-, -, ⟨hta, hne, htc, hsv⟩, -, -, -, -, ⟨hh, hs, hp, -⟩, h⟩ := h
  have ht : (qxTransportOf lib node.credentials.transport).Plain :=
    ⟨plainText_of_unescaped (trimSpace_trimSpace _) hh, plainText_of_unescaped (trimSpace_trimSpace _) hs,
      plainText_of_unescaped (trimSpace_trimSpace _) hp⟩
  have hli := isQuantumultXLine_of_protocol ht h
  refine ⟨hli, ?_⟩
  obtain ⟨kind, params, hk, rfl, hpa⟩ := hli
  have hs' := plainText_of_unescaped (trimSpace_trimSpace node.server) hsv
  have he := plainText_joinHostPort hs' hne node.port
  have hen : joinHostPort (trimSpace node.server) (toString node.port) ≠ "" := by
    intro hem
    have hl := congrArg String.length hem
    rw [joinHostPort] at hl
    split_ifs at hl <;> simp [String.length_append] at hl
  have htp : (LineField.param "tag" (trimSpace node.displayName)).SafeParam :=
    ⟨by decide, plainText_of_unescaped (trimSpace_trimSpace _) htc⟩
  refine ⟨?_, _, _, _, rfl, ?_⟩
  · simp only [forall_mem_append, forall_mem_cons, not_mem_nil, false_implies, implies_true, and_true]
    exact ⟨⟨hk, he, hen⟩, fun f hf => (hpa f hf).safe, htp.safe⟩
  · simp only [forall_mem_append, forall_mem_cons, not_mem_nil, false_implies, implies_true, and_true]
    exact ⟨fun f hf => (hpa f hf).isHead, rfl⟩

end ClashSubParser
