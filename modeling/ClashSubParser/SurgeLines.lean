import ClashSubParser.SurgeRenderer

/-! The lines of a Surge document: every value that is written has been checked or is harmless. -/
namespace ClashSubParser

open List DelimitedLines FirstError Strings Except

variable {lib : Libraries}

theorem plainText_of_surgeSafeValue {s : String} (hs : trimSpace s = s) (h : ¬isSurgeSafeValue s = false) :
    PlainText s := by
  rw [Bool.not_eq_false, isSurgeSafeValue, Bool.and_eq_true, Bool.not_eq_true'] at h
  exact plainText_of_containsAny hs h.2 (all_iff_forall_prop.mp (by decide))

theorem trimSpace_surgeFirstNonEmpty (values : List String) :
    trimSpace (surgeFirstNonEmpty values) = surgeFirstNonEmpty values := by
  rw [surgeFirstNonEmpty]
  obtain hempty | hm := firstNonEmpty_cases (values.map trimSpace)
  · rw [hempty]
    rfl
  · obtain ⟨v, -, hv⟩ := mem_map.mp hm
    rw [← hv]
    exact trimSpace_trimSpace v

theorem safeParams_surgeOptional {loc feature reason key value : String} {fields : List LineField}
    (h : surgeOptional loc feature reason key value = .ok fields) (hvl : trimSpace value = value)
    (hk : PlainText key ∧ '=' ∉ key.toList) : ∀ f ∈ fields, f.SafeParam := by
  rw [surgeOptional, surgeError] at h
  split_ifs at h with he hs
  · have hfs : [] = fields := ok.inj h
    simp [← hfs]
  · simp at h
  · have hfs : [.param key value] = fields := ok.inj h
    rw [← hfs]
    have hpl := plainText_of_surgeSafeValue hvl hs
    simpa using ⟨hk, hpl⟩

theorem safeParams_surgeSkipCertVerify (transport : GoMap String) :
    ∀ f ∈ surgeSkipCertVerify lib transport, f.SafeParam := by
  apply safeParams_ite
  rw [forall_mem_singleton]
  exact ⟨by decide, by decide⟩

theorem trimSpace_join {pieces : List String} (h : ∀ p ∈ pieces, trimSpace p = p ∧ p ≠ "") :
    trimSpace (join pieces ":") = join pieces ":" := by
  have hne {p : String} (hp : p ≠ "") : p.toList ≠ [] := fun hn => hp (String.toList_inj.mp hn)
  -- a join of at least one piece is trimmed and not empty
  have hj : ∀ (p : String) (ps : List String), (∀ q ∈ p :: ps, trimSpace q = q ∧ q ≠ "") →
      Trimmed isSpace (join (p :: ps) ":").toList ∧ (join (p :: ps) ":").toList ≠ [] := by
    intro p ps ha
    induction ps generalizing p with
    | nil =>
      have hp := ha p mem_cons_self
      have hs : join [p] ":" = p := by simp [join]
      exact ⟨trimmed_iff.mp hp.1, hne hp.2⟩
    | cons q ps ih =>
      have hp := ha p mem_cons_self
      have hre := ih q fun r hr => ha r (mem_cons_of_mem p hr)
      have hc : (join (p :: q :: ps) ":").toList = p.toList ++ ":".toList ++ (join (q :: ps) ":").toList := by
        rw [toList_join, toList_join, map_cons, map_cons, intercalate_cons_cons]
      rw [hc]
      refine ⟨(trimmed_iff.mp hp.1).append hre.1 (hne hp.2) hre.2 _, ?_⟩
      simp
  cases pieces with
  | nil => rfl
  | cons p ps => exact trimmed_iff.mpr (hj p ps h).1

theorem surgeALPN_trimmed {c : InboundProtocolCredential} : ∀ p ∈ surgeALPN c, trimSpace p = p ∧ p ≠ "" := by
  have hf : ∀ l : List String, ∀ p ∈ (l.map trimSpace).filter (· ≠ ""), trimSpace p = p ∧ p ≠ "" := by
    intro l p hp
    rw [mem_filter, mem_map] at hp
    obtain ⟨⟨q, -, rfl⟩, hne⟩ := hp
    exact ⟨trimSpace_trimSpace q, by simpa using hne⟩
  intro p hp
  rw [surgeALPN] at hp
  split_ifs at hp <;> exact hf _ p hp

def IsSurgeLine (name server : String) (port : Int) (fields : List LineField) : Prop :=
  ∃ kind params, (PlainText kind ∧ kind ≠ "") ∧ fields = surgeHead name kind server port ++ params ∧
    ∀ f ∈ params, f.SafeParam

section

variable {loc name server : String} {port : Int} {c : InboundProtocolCredential} {fields : List LineField}

theorem safeParam_checked {key value : String} (hk : PlainText key ∧ '=' ∉ key.toList)
    (h : ¬isSurgeSafeValue (trimSpace value) = false) : (LineField.param key (trimSpace value)).SafeParam :=
  ⟨hk, plainText_of_surgeSafeValue (trimSpace_trimSpace value) h⟩

theorem safeParams_surgeDownloadBandwidth {transport : GoMap String}
    (h : surgeDownloadBandwidth lib loc transport = .ok fields) : ∀ f ∈ fields, f.SafeParam := by
  rw [surgeDownloadBandwidth, surgeError] at h
  split_ifs at h
  · have hfs : [] = fields := ok.inj h
    simp [← hfs]
  · cases hp : parseSurgeBandwidthMbps lib (trimSpace (transport.value "down")) with
    | none => simp [hp] at h
    | some downMbps =>
      rw [hp] at h
      have hfs : [.param "download-bandwidth" (toString downMbps)] = fields := ok.inj h
      rw [← hfs]
      simp only [mem_singleton, forall_eq]
      exact ⟨by decide, plainText_toString downMbps⟩

theorem isSurgeLine_password {kind : String} {params opt : List LineField} (hk : PlainText kind ∧ kind ≠ "")
    (hpw : ¬isSurgeSafeValue (trimSpace c.password) = false) (hp : ∀ f ∈ params, f.SafeParam)
    (hs : ∀ f ∈ opt, f.SafeParam) : IsSurgeLine name server port (surgeHead name kind server port ++
      [.param "password" (trimSpace c.password)] ++ params ++ opt ++ surgeSkipCertVerify lib c.transport) := by
  refine ⟨kind, [.param "password" (trimSpace c.password)] ++ params ++ opt ++ surgeSkipCertVerify lib c.transport, hk,
    by simp only [append_assoc], ?_⟩
  simp only [forall_mem_append, forall_mem_singleton]
  exact ⟨⟨⟨safeParam_checked (by decide) hpw, hp⟩, hs⟩, safeParams_surgeSkipCertVerify c.transport⟩

theorem isSurgeLine_hysteria2 (h : renderSurgeHysteria2Proxy lib loc name server port c = .ok fields) :
    IsSurgeLine name server port fields := by
  simp only [renderSurgeHysteria2Proxy, surgeError, ite_reject_eq_ok, bind_eq_ok_iff, ok.injEq] at h
  obtain ⟨hpw, -, -, down, hd, sni, hs, rfl⟩ := h
  exact isSurgeLine_password (by decide) hpw (safeParams_surgeDownloadBandwidth hd)
    (safeParams_surgeOptional hs (trimSpace_surgeFirstNonEmpty _) (by decide))

theorem isSurgeLine_tuic (h : renderSurgeTUICProxy lib loc name server port c = .ok fields) :
    IsSurgeLine name server port fields := by
  simp only [renderSurgeTUICProxy, surgeError, ite_reject_eq_ok, bind_eq_ok_iff, ok.injEq, not_or] at h
  obtain ⟨⟨hu, hpw⟩, -, -, sni, hs, alpn, ha, rfl⟩ := h
  refine ⟨"tuic", [.param "uuid" (trimSpace c.uuid), .param "password" (trimSpace c.password)] ++ sni ++ alpn ++
    surgeSkipCertVerify lib c.transport, by decide, by simp only [append_assoc], ?_⟩
  simp only [forall_mem_append, forall_mem_cons, not_mem_nil, false_implies, implies_true, and_true]
  refine ⟨⟨⟨⟨?_, ?_⟩, ?_⟩, ?_⟩, ?_⟩
  · exact safeParam_checked (by decide) hu
  · exact safeParam_checked (by decide) hpw
  · exact safeParams_surgeOptional hs (trimSpace_surgeFirstNonEmpty _) (by decide)
  · exact safeParams_surgeOptional ha (trimSpace_join surgeALPN_trimmed) (by decide)
  · exact safeParams_surgeSkipCertVerify c.transport

theorem plainText_surgeSelfIPs {addrs : List String} {selfIP selfIPv6 : String} {ips : String × String}
    (h : surgeSelfIPs lib loc selfIP selfIPv6 addrs = .ok ips) (hIP : PlainText selfIP) (hIPv6 : PlainText selfIPv6) :
    PlainText ips.1 ∧ PlainText ips.2 := by
  induction addrs generalizing selfIP selfIPv6 with
  | nil =>
    obtain rfl : (selfIP, selfIPv6) = ips := ok.inj h
    exact ⟨hIP, hIPv6⟩
  | cons raw rest ih =>
    rw [surgeSelfIPs] at h
    cases hp : lib.parsePrefix (trimSpace raw) with
    | none => simp [hp, surgeError] at h
    | some pfx =>
      have hf {ip : String} (hip : PlainText ip) : PlainText (if ip = "" then pfx.addr else ip) := by
        split_ifs
        · exact plainText_address pfx
        · exact hip
      rw [hp] at h
      by_cases h4 : pfx.is4
      · exact ih ((if_pos h4).symm.trans h) (hf hIP) hIPv6
      · exact ih ((if_neg h4).symm.trans h) hIP (hf hIPv6)

theorem safeParams_surgeClientID (reserved : List (BitVec 8)) : ∀ f ∈ surgeClientID reserved, f.SafeParam := by
  rw [surgeClientID.eq_def]
  split
  · rename_i a b c
    simp only [mem_singleton, forall_eq]
    refine ⟨by decide, plainText_of_chars ?_⟩
    intro x hx
    simp only [String.toList_append, mem_append] at hx
    have hnu {n : ℕ} (hn : x ∈ (toString n).toList) : isSpace x = false ∧ x ≠ ',' := by
      have hr := integerChar_range (integerChar_of_mem_repr hn)
      refine ⟨isSpace_of_range (by omega), ?_⟩
      rintro rfl
      exact absurd hr (by decide)
    have hsl (hs : x ∈ "/".toList) : isSpace x = false ∧ x ≠ ',' := by
      have : x = '/' := by simpa using hs
      rw [this]
      decide
    obtain (((ha | hs) | hb) | hs) | hc := hx
    · exact hnu ha
    · exact hsl hs
    · exact hnu hb
    · exact hsl hs
    · exact hnu hc
  · simp

theorem isSurgeLine_wireguard (h : renderSurgeWireGuardProxy lib loc name server port c = .ok fields) :
    IsSurgeLine name server port fields := by
  simp only [renderSurgeWireGuardProxy, surgeError, ite_reject_eq_ok, bind_eq_ok_iff, ok.injEq, not_or] at h
  obtain ⟨⟨hp, hpu⟩, ips, hi, psk, hps, rfl⟩ := h
  have hpl := plainText_surgeSelfIPs hi plainText_empty plainText_empty
  refine ⟨"wireguard", nonEmptyParam "self-ip" ips.1 ++ nonEmptyParam "self-ip-v6" ips.2 ++
    [.param "private-key" (trimSpace c.privateKey), .param "peer-public-key" (trimSpace c.publicKey)] ++ psk ++
    surgeClientID c.reserved ++ (if c.mtu > 0 then [.param "mtu" (toString c.mtu)] else []), by decide,
    by simp only [append_assoc], ?_⟩
  simp only [forall_mem_append, forall_mem_cons, not_mem_nil, false_implies, implies_true, and_true]
  refine ⟨⟨⟨⟨⟨?_, ?_⟩, ?_, ?_⟩, ?_⟩, ?_⟩, ?_⟩
  · exact safeParams_nonEmptyParam (by decide) hpl.1
  · exact safeParams_nonEmptyParam (by decide) hpl.2
  · exact safeParam_checked (by decide) hp
  · exact safeParam_checked (by decide) hpu
  · exact safeParams_surgeOptional hps (trimSpace_trimSpace _) (by decide)
  · exact safeParams_surgeClientID c.reserved
  · apply safeParams_ite
    rw [forall_mem_singleton]
    exact ⟨by decide, plainText_toString c.mtu⟩

theorem safeParams_surgeSSObfs {transport : GoMap String} (h : surgeSSObfs lib loc transport = .ok fields) :
    ∀ f ∈ fields, f.SafeParam := by
  simp only [surgeSSObfs, surgeError] at h
  split_ifs at h with ho hmo hpl
  · simp at h
  · simp only [bind_eq_ok_iff, ok.injEq] at h
    obtain ⟨host, hh, path, hp, rfl⟩ := h
    simp only [forall_mem_append, forall_mem_singleton]
    refine ⟨⟨⟨by decide, ?_⟩, ?_⟩, ?_⟩
    · have hm : toLower lib.toRuntime (trimSpace (transport.value "obfs")) ∈ ["http", "tls"] := by
        simp only [mem_cons, not_mem_nil, or_false]
        by_contra hnone
        exact hmo (not_or.mp hnone)
      have ha : ∀ m ∈ ["http", "tls"], PlainText m := by decide
      exact ha _ hm
    · exact safeParams_surgeOptional hh (trimSpace_trimSpace _) (by decide)
    · exact safeParams_surgeOptional hp (trimSpace_trimSpace _) (by decide)
  · simp at h
  · have hfs : [] = fields := ok.inj h
    simp [← hfs]

theorem isSurgeLine_ss (h : renderSurgeSSProxy lib loc name server port c = .ok fields) :
    IsSurgeLine name server port fields := by
  simp only [renderSurgeSSProxy, surgeError, ite_reject_eq_ok, bind_eq_ok_iff, ok.injEq, not_not] at h
  obtain ⟨hci, hpw, -, -, -, -, obfs, ho, rfl⟩ := h
  refine ⟨"ss", [.param "encrypt-method" (toLower lib.toRuntime (trimSpace c.method)),
    .param "password" (trimSpace c.password)] ++ obfs, by decide, by simp only [append_assoc], ?_⟩
  have hc : ∀ m ∈ surgeSupportedSSCiphers, PlainText m := by decide
  simp only [forall_mem_append, forall_mem_cons, not_mem_nil, false_implies, implies_true, and_true]
  refine ⟨⟨⟨by decide, hc _ hci⟩, ?_⟩, ?_⟩
  · exact safeParam_checked (by decide) hpw
  · exact safeParams_surgeSSObfs ho

theorem safeParams_buildSurgeWSParams {feature netMode : String} {transport : GoMap String}
    (h : buildSurgeWSParams loc feature netMode transport = .ok fields) : ∀ f ∈ fields, f.SafeParam := by
  have hws : (LineField.param "ws" "true").SafeParam := ⟨by decide, by decide⟩
  simp only [buildSurgeWSParams, surgeError] at h
  split_ifs at h with hm hpl he hhe
  · simp at h
  · have hfs : [] = fields := ok.inj h
    simp [← hfs]
  · simp only [bind_eq_ok_iff, ok.injEq] at h
    obtain ⟨path, hp, rfl⟩ := h
    simp only [forall_mem_append, forall_mem_singleton]
    exact ⟨hws, safeParams_surgeOptional hp (trimSpace_trimSpace _) (by decide)⟩
  · simp only [bind_eq_ok_iff, reject_ne_ok, and_false, exists_false] at h
  · simp only [bind_eq_ok_iff, ok.injEq] at h
    obtain ⟨path, hp, rfl⟩ := h
    have hh := (not_or.mp hhe).1
    simp only [forall_mem_append, forall_mem_singleton]
    refine ⟨⟨hws, safeParams_surgeOptional hp (trimSpace_trimSpace _) (by decide)⟩, by decide, ?_⟩
    have hpl := plainText_of_surgeSafeValue (trimSpace_trimSpace (transport.value "host")) hh
    have hl : PlainText "Host:" := by decide
    have ha := hl.append hpl (by decide) he "" (by decide)
    rwa [String.append_empty] at ha

theorem isSurgeLine_vmess (h : renderSurgeVMessProxy lib loc name server port c = .ok fields) :
    IsSurgeLine name server port fields := by
  simp only [renderSurgeVMessProxy, surgeError, ite_reject_eq_ok, bind_eq_ok_iff, ok.injEq] at h
  obtain ⟨hu, -, -, -, -, ws, hws, sni, hs, rfl⟩ := h
  refine ⟨"vmess", [.param "username" (trimSpace c.uuid),
    .param "vmess-aead" (if c.alterID > 0 then "false" else "true")] ++ ws ++
    (if hasSurgeTLS lib c.transport then [.param "tls" "true"] else []) ++ sni ++ surgeSkipCertVerify lib c.transport,
    by decide, by simp only [append_assoc], ?_⟩
  simp only [forall_mem_append, forall_mem_cons, not_mem_nil, false_implies, implies_true, and_true]
  refine ⟨⟨⟨⟨⟨?_, by decide, ?_⟩, ?_⟩, ?_⟩, ?_⟩, ?_⟩
  · exact safeParam_checked (by decide) hu
  · split_ifs <;> decide
  · exact safeParams_buildSurgeWSParams hws
  · apply safeParams_ite
    rw [forall_mem_singleton]
    exact ⟨by decide, by decide⟩
  · exact safeParams_surgeOptional hs (trimSpace_surgeFirstNonEmpty _) (by decide)
  · exact safeParams_surgeSkipCertVerify c.transport

theorem isSurgeLine_trojan (h : renderSurgeTrojanProxy lib loc name server port c = .ok fields) :
    IsSurgeLine name server port fields := by
  simp only [renderSurgeTrojanProxy, surgeError, ite_reject_eq_ok, bind_eq_ok_iff, ok.injEq] at h
  obtain ⟨hpw, -, -, -, ws, hws, sni, hs, rfl⟩ := h
  exact isSurgeLine_password (by decide) hpw (safeParams_buildSurgeWSParams hws)
    (safeParams_surgeOptional hs (trimSpace_surgeFirstNonEmpty _) (by decide))

/-- A rendered node gives a well formed line with its name, server and port. -/
theorem isSurgeLine_of_render {i : ℕ} {node : ResolvedNode} (h : renderSurgeProxyLine lib i node = .ok fields) :
    IsSurgeLine (trimSpace node.displayName) (trimSpace node.server) node.port fields ∧ WellFormedLine fields := by
  simp only [renderSurgeProxyLine, surgeError, ite_reject_eq_ok, bind_eq_ok_iff] at h
  obtain ⟨-, -, hn, hsv, -, h⟩ := h
  have hl : IsSurgeLine (trimSpace node.displayName) (trimSpace node.server) node.port fields := by
    rw [renderSurgeProtocol.eq_def] at h
    split at h
    · exact isSurgeLine_ss h
    · exact isSurgeLine_vmess h
    · exact isSurgeLine_trojan h
    · exact isSurgeLine_hysteria2 h
    · exact isSurgeLine_tuic h
    · exact isSurgeLine_wireguard h
    · simp [surgeError] at h
  refine ⟨hl, ?_⟩
  obtain ⟨kind, params, hk, rfl, hpa⟩ := hl
  rw [Bool.not_eq_false, isSurgeSafeIdentifier, Bool.and_eq_true, Bool.not_eq_true'] at hn
  rw [Bool.not_eq_false, isSurgeSafeToken, Bool.and_eq_true, Bool.not_eq_true'] at hsv
  have hh : (LineField.head (trimSpace node.displayName) kind).Safe := by
    refine ⟨⟨plainText_of_containsAny (trimSpace_trimSpace _) hn.2 (all_iff_forall_prop.mp (by decide)), ?_,
      by simpa using hn.1⟩, hk⟩
    exact not_mem_of_containsAny hn.2 (by decide)
  have hb : (LineField.bare (trimSpace node.server)).Safe :=
    ⟨plainText_of_containsAny (trimSpace_trimSpace _) hsv.2 (all_iff_forall_prop.mp (by decide)),
      not_mem_of_containsAny hsv.2 (by decide)⟩
  have hp : (LineField.bare (toString node.port)).Safe :=
    ⟨plainText_toString node.port, not_mem_toString (by decide)⟩
  refine ⟨?_, _, _, [.bare (trimSpace node.server), .bare (toString node.port)] ++ params, rfl, ?_⟩
  · simp only [surgeHead, forall_mem_append, forall_mem_cons, not_mem_nil, false_implies, implies_true, and_true]
    exact ⟨⟨hh, hb, hp⟩, fun f hf => (hpa f hf).safe⟩
  · simp only [forall_mem_append, forall_mem_cons, not_mem_nil, false_implies, implies_true, and_true]
    exact ⟨⟨rfl, rfl⟩, fun f hf => (hpa f hf).isHead⟩

end

end ClashSubParser
