import DepaKms.ReleasedKeys

set_option autoImplicit false

/-!
# The forms of a PEM key

A key may be sent with real newlines or with escaped ones. What each release endpoint
makes of the text: the hash it compares, and the bytes under which it wraps.
-/
namespace DepaKms

theorem unescapeNewlines_cons_cons (c d : Char) (cs : List Char) :
    unescapeNewlines (c :: d :: cs) =
      if c.toNat = 92 ∧ d = 'n' then Char.ofNat 10 :: unescapeNewlines cs
      else c :: unescapeNewlines (d :: cs) := by
  rw [unescapeNewlines]

theorem length_unescapeNewlines (cs : List Char) : (unescapeNewlines cs).length ≤ cs.length := by
  induction cs using unescapeNewlines.induct with
  | case1 => exact le_rfl
  | case2 c => exact le_rfl
  | case3 c d cs hc ih =>
    rw [unescapeNewlines_cons_cons, if_pos hc]
    simp only [List.length_cons]
    omega
  | case4 c d cs hc ih =>
    rw [unescapeNewlines_cons_cons, if_neg hc]
    simp only [List.length_cons] at ih ⊢
    omega

theorem backslash_iff (c : Char) : c.toNat = 92 ↔ c = '\\' := by
  constructor
  · intro hc
    rw [← Char.ofNat_toNat c, hc]
  · rintro rfl
    rfl

/-- Where there is an escaped newline, it is replaced. -/
theorem unescapeNewlines_eq_self_iff (cs : List Char) :
    unescapeNewlines cs = cs ↔ ¬ ['\\', 'n'] <:+: cs := by
  induction cs using unescapeNewlines.induct with
  | case1 => simp [unescapeNewlines]
  | case2 c => simp [unescapeNewlines, List.infix_cons_iff, List.prefix_cons_iff]
  | case3 c d cs hc ih =>
    obtain ⟨hbackslash, rfl⟩ := hc
    have hlength := length_unescapeNewlines cs
    refine iff_of_false (fun he => ?_) (fun hnot => hnot ?_)
    · rw [unescapeNewlines_cons_cons, if_pos ⟨hbackslash, rfl⟩] at he
      have := congrArg List.length he
      simp only [List.length_cons] at this
      omega
    · rw [(backslash_iff c).mp hbackslash]
      exact ⟨[], cs, rfl⟩
  | case4 c d cs hc ih =>
    rw [unescapeNewlines_cons_cons, if_neg hc, List.cons.injEq, List.infix_cons_iff, ih]
    have hfront : ¬ ['\\', 'n'] <+: c :: d :: cs := by
      rintro ⟨rest, he⟩
      simp only [List.cons_append, List.cons.injEq] at he
      exact hc ⟨(backslash_iff c).mpr he.1.symm, he.2.1.symm⟩
    tauto

theorem head_unescapeNewlines (d : Char) (cs : List Char) :
    ∃ e rest, unescapeNewlines (d :: cs) = e :: rest ∧ (e = d ∨ e = Char.ofNat 10) := by
  cases cs with
  | nil => exact ⟨d, [], rfl, .inl rfl⟩
  | cons e cs =>
    rw [unescapeNewlines_cons_cons]
    split_ifs with hc
    · exact ⟨_, _, rfl, .inr rfl⟩
    · exact ⟨_, _, rfl, .inl rfl⟩

/-- Replacing them makes no new ones. -/
theorem not_infix_unescapeNewlines (cs : List Char) :
    ¬ ['\\', 'n'] <:+: unescapeNewlines cs := by
  induction cs using unescapeNewlines.induct with
  | case1 => simp [unescapeNewlines]
  | case2 c => simp [unescapeNewlines, List.infix_cons_iff, List.prefix_cons_iff]
  | case3 c d cs hc ih =>
    rw [unescapeNewlines_cons_cons, if_pos hc, List.infix_cons_iff]
    rintro (⟨rest, he⟩ | hinfix)
    · cases (List.cons.inj he).1
    · exact ih hinfix
  | case4 c d cs hc ih =>
    rw [unescapeNewlines_cons_cons, if_neg hc, List.infix_cons_iff]
    rintro (⟨rest, he⟩ | hinfix)
    · obtain ⟨e, rest', hhead, hed⟩ := head_unescapeNewlines d cs
      rw [hhead] at he
      simp only [List.cons_append, List.cons.injEq] at he
      rcases hed with rfl | rfl
      · exact hc ⟨(backslash_iff c).mpr he.1.symm, he.2.1.symm⟩
      · exact absurd he.2.1 (by decide)
    · exact ih hinfix

/-- `key.includes("\\n")`, with a backslash. -/
def hasEscapedNewline (key : String) : Bool := occurs "\\n" key

theorem normalized_eq_self_iff (s : String) : normalized s = s ↔ hasEscapedNewline s = false := by
  have hpattern : ("\\n" : String).toList = ['\\', 'n'] := by decide
  have hlist : normalized s = s ↔ unescapeNewlines s.toList = s.toList := by
    constructor
    · intro hs
      rw [← String.toList_ofList (l := unescapeNewlines s.toList)]
      exact congrArg String.toList hs
    · intro hs
      rw [normalized, hs, String.ofList_toList]
  rw [hlist, unescapeNewlines_eq_self_iff, hasEscapedNewline, occurs, hpattern,
    decide_eq_false_iff_not]

theorem normalized_normalized (s : String) : normalized (normalized s) = normalized s := by
  have hlist : (normalized s).toList = unescapeNewlines s.toList := String.toList_ofList
  have hself := (unescapeNewlines_eq_self_iff _).mpr (not_infix_unescapeNewlines s.toList)
  calc normalized (normalized s) = String.ofList (unescapeNewlines (normalized s).toList) := rfl
    _ = String.ofList (unescapeNewlines s.toList) := by rw [hlist, hself]
    _ = normalized s := rfl

theorem strToBuf_injective : Function.Injective strToBuf := by
  intro s s' hs
  unfold strToBuf at hs
  have harray : s.toUTF8.data = s'.toUTF8.data := Array.toList_inj.mp hs
  exact String.toByteArray_inj.mp (ByteArray.ext harray)

structure KeyUse where
  hash : String
  bytes : Bytes

def KeyUse.ofBytes (h : Host) (bytes : Bytes) : KeyUse :=
  ⟨KeyGeneration.calculateHexHash h bytes, bytes⟩

theorem KeyUse.ofBytes_injective (h : Host) : Function.Injective (KeyUse.ofBytes h) :=
  fun _ _ he => congrArg KeyUse.bytes he

section Uses

variable (h : Host) (t : Moment) (kv : Kv) (request : Request)

/-- The wrapping key of the request as `unwrapKey` takes it. -/
def unwrapKeyTaken : Handler (ServiceResult WrappingKey) := do
  let serviceRequest ← ServiceRequest.new h t kv (LogContext.new.appendScope "unwrapKey") request
  requestHasWrappingKey h serviceRequest.bodyValue none

/-- The wrapping key of the request as `unwrapKeyGcp` takes it. -/
def unwrapKeyGcpTaken : Handler String := do
  let serviceRequest ← ServiceRequest.new h t kv (LogContext.new.appendScope "unwrapKeyGcp") request
  let wrappingKey ← gcpWrappingKey serviceRequest request
  normalizeKey wrappingKey

def unwrapKeyUse : Option KeyUse :=
  match (unwrapKeyTaken h t kv request).result with
  | .ok taken => taken.body.map fun k => .ofBytes h k.wrappingKey
  | .error _ => none

def unwrapKeyGcpUse : Option KeyUse :=
  match (unwrapKeyGcpTaken h t kv request).result with
  | .ok text => some (.ofBytes h (strToBuf text))
  | .error _ => none

/-- The wrapping key that `unwrapKey` is sent is this text. -/
def SendsKey (pem : String) : Prop :=
  ∃ serviceRequest, ReadAs h t kv "unwrapKey" request serviceRequest ∧
    serviceRequest.bodyValue.get "wrappingKey" = .ok (.ofString pem)

def SendsGcpKey (pem : String) : Prop :=
  ∃ serviceRequest, ReadAs h t kv "unwrapKeyGcp" request serviceRequest ∧
    gcpWrappingKey serviceRequest request = .ok (.ofString pem)

end Uses

variable {h : Host} {t : Moment} {kv : Kv} {request : Request}

theorem requestHasWrappingKey_complete {body : JsValue} {pem : String} (hpem : IsPemPublicKey pem)
    (hkey : body.get "wrappingKey" = .ok (.ofString pem)) (logContextIn : Option LogContext) :
    ∃ found headers, (requestHasWrappingKey h body logContextIn).result =
        .ok (.success found headers) ∧ found.wrappingKey = strToBuf pem := by
  have hrender : (JsValue.ofString pem).render h.toEngine = .ok pem := rfl
  have hisPem : (isPemPublicKey h.toEngine (.ofString pem) none).result = .ok true := by
    rw [result_isPemPublicKey]
    exact congrArg Except.ok hpem
  have hbuffer : stringBuffer (.ofString pem) = .ok (strToBuf pem) := rfl
  unfold requestHasWrappingKey
  simp only [Logged.result_bind, Logged.result_lift, hkey, Logged.ok_bind, pem_truthy hpem, if_true,
    hrender, Logger.result_debug, hisPem, hbuffer, ServiceResult.result_succeeded]
  exact ⟨_, _, rfl, rfl⟩

theorem unwrapKeyUse_of_taken {serviceRequest : ServiceRequest}
    {wrapping : ServiceResult WrappingKey}
    (hread : ReadAs h t kv "unwrapKey" request serviceRequest)
    (hw : (requestHasWrappingKey h serviceRequest.bodyValue none).result = .ok wrapping) :
    unwrapKeyUse h t kv request = wrapping.body.map fun k => .ofBytes h k.wrappingKey := by
  unfold unwrapKeyUse unwrapKeyTaken
  rw [Logged.result_bind, hread, Logged.ok_bind, hw]

theorem unwrapKeyGcpUse_of_taken {serviceRequest : ServiceRequest} {wrappingKey : JsValue}
    {text : String} (hread : ReadAs h t kv "unwrapKeyGcp" request serviceRequest)
    (hkey : gcpWrappingKey serviceRequest request = .ok wrappingKey)
    (htext : normalizeKey wrappingKey = .ok text) :
    unwrapKeyGcpUse h t kv request = some (.ofBytes h (strToBuf text)) := by
  unfold unwrapKeyGcpUse unwrapKeyGcpTaken
  rw [Logged.result_bind, hread, Logged.ok_bind]
  simp only [Logged.result_bind, Logged.result_lift, hkey, Logged.ok_bind, htext]

theorem unwrapKeyUse_eq {pem : String} (hpem : IsPemPublicKey pem)
    (hs : SendsKey h t kv request pem) :
    unwrapKeyUse h t kv request = some (.ofBytes h (strToBuf pem)) := by
  obtain ⟨serviceRequest, hread, hkey⟩ := hs
  obtain ⟨found, headers, hfound, hbytes⟩ := requestHasWrappingKey_complete (h := h) hpem hkey none
  rw [unwrapKeyUse_of_taken hread hfound]
  change some (KeyUse.ofBytes h found.wrappingKey) = _
  rw [hbytes]

theorem unwrapKeyGcpUse_eq {pem : String} (hs : SendsGcpKey h t kv request pem) :
    unwrapKeyGcpUse h t kv request = some (.ofBytes h (strToBuf (normalized pem))) := by
  obtain ⟨serviceRequest, hread, hkey⟩ := hs
  exact unwrapKeyGcpUse_of_taken hread hkey rfl

/-- A 200 response of `unwrapKey` is bound to the hash and wrapped under the bytes. -/
theorem unwrapKey_uses {response : IUnwrapResponse}
    (hr : answered (unwrapKey h t kv request) = some response) :
    ∃ (use : KeyUse) (claims v : JsValue) (reportData : String) (payload : Bytes),
      unwrapKeyUse h t kv request = some use ∧
      claims.get "x-ms-sevsnpvm-reportdata" = .ok v ∧ reportDataText v = .ok reportData ∧
      startsWith reportData use.hash = true ∧ Wraps h payload use.bytes response.wrapped := by
  obtain ⟨serviceRequest, kid, stored, haccepted, -⟩ := of_answered (unwrapKey_accepted request) hr
  obtain ⟨wrapping, headers, claims, v, reportData, hwrapping, -, hv, htext, hstart, hwrapped⟩ :=
    haccepted.wrapped_bound
  obtain ⟨payload, -, hwraps⟩ := unwrapWrap_ensures _ _ stored.item _ hwrapped
  refine ⟨.ofBytes h wrapping.wrappingKey, claims, v, reportData, payload, ?_, hv, htext, hstart,
    hwraps⟩
  rw [unwrapKeyUse_of_taken haccepted.identified.read hwrapping]
  rfl

theorem unwrapKeyGcp_uses {response : IKeyResponse}
    (hr : answered (unwrapKeyGcp h t kv request) = some response) :
    ∃ (use : KeyUse) (claim : JsValue) (payload : Bytes), unwrapKeyGcpUse h t kv request = some use ∧
      eatNonce request = .ok claim ∧ expectedNonce claim = .ofString use.hash ∧
      Wraps h payload use.bytes response.wrapped := by
  obtain ⟨wrappingKey, claim, stored, hbound, hnewest⟩ :=
    of_answered (unwrapKeyGcp_ensures request) hr
  obtain ⟨serviceRequest, _, _, hnew, -, -, hkey⟩ := hbound.identified
  exact ⟨_, claim, _, unwrapKeyGcpUse_eq ⟨serviceRequest, hnew, hkey⟩, hbound.claimField,
    hbound.nonce, hnewest.wraps⟩

/-- The platform with another `wrapKey`. -/
def Host.wrappingBy (h : Host) (w : Bytes → Bytes → Except JsError Bytes) : Host :=
  { h with wrapKey := w }

section Asked

variable {w : Bytes → Bytes → Except JsError Bytes}

theorem logIssuers_wrappingBy (logContext : LogContext)
    (issuers : List (Sigma fun _ : String => KvText)) :
    JwtValidationPolicyMap.logIssuers (h.wrappingBy w) logContext issuers =
      JwtValidationPolicyMap.logIssuers h logContext issuers := by
  induction issuers with
  | nil => rfl
  | cons issuer issuers ih =>
    obtain ⟨name, info⟩ := issuer
    cases info with
    | json info =>
      simp only [JwtValidationPolicyMap.logIssuers, ih]
      rfl
    | raw text => rfl

theorem checkLoop_wrappingBy (payload : JsValue) (entries : List (String × Json)) :
    JwtValidator.checkLoop (h.wrappingBy w) payload entries =
      JwtValidator.checkLoop h payload entries := by
  induction entries with
  | nil => rfl
  | cons entry entries ih =>
    obtain ⟨key, expected⟩ := entry
    simp only [JwtValidator.checkLoop, ih]
    rfl

theorem read_wrappingBy (issuer : JsValue) (logContext : LogContext) :
    JwtValidationPolicyMap.read (h.wrappingBy w) kv issuer logContext =
      JwtValidationPolicyMap.read h kv issuer logContext := by
  unfold JwtValidationPolicyMap.read
  simp only [logIssuers_wrappingBy]
  rfl

theorem validate_wrappingBy (caller : Caller) :
    JwtValidator.validate (h.wrappingBy w) kv caller = JwtValidator.validate h kv caller := by
  unfold JwtValidator.validate
  simp only [read_wrappingBy, checkLoop_wrappingBy]
  rfl

theorem isAuthenticated_wrappingBy (r : ServiceRequest) :
    r.isAuthenticated (h.wrappingBy w) kv = r.isAuthenticated h kv := by
  have hvalidate (logContext : LogContext) (caller : Caller) :
      AuthenticationService.validate (h.wrappingBy w) kv logContext r.request caller =
        AuthenticationService.validate h kv logContext r.request caller := by
    unfold AuthenticationService.validate
    simp only [validate_wrappingBy]
    rfl
  unfold ServiceRequest.isAuthenticated AuthenticationService.isAuthenticated
  simp only [hvalidate]
  rfl

variable {bytes : Bytes}

theorem gcpRelease_wrappingBy (hw : ∀ payload, w payload bytes = h.wrapKey payload bytes)
    (logContext : LogContext) :
    gcpRelease (h.wrappingBy w) t kv logContext bytes = gcpRelease h t kv logContext bytes := by
  have hask (payload : Bytes) : (h.wrappingBy w).wrapKey payload bytes = h.wrapKey payload bytes :=
    hw payload
  unfold gcpRelease
  simp only [hask]
  rfl

theorem unwrapWrap_wrappingBy (hw : ∀ payload, w payload bytes = h.wrapKey payload bytes)
    (fmt : String) (item : IKeyItem) :
    unwrapWrap (h.wrappingBy w) fmt bytes item = unwrapWrap h fmt bytes item := by
  have hask (payload : Bytes) : (h.wrappingBy w).wrapKey payload bytes = h.wrapKey payload bytes :=
    hw payload
  unfold unwrapWrap KeyWrapper.createWrappedPrivateTinkKey KeyWrapper.wrapKeyJwt
    KeyWrapper.getEncryptedKeyMaterial
  simp only [hask]
  rfl

theorem unwrapBinding_wrappingBy (hw : ∀ payload, w payload bytes = h.wrapKey payload bytes)
    (logContext : LogContext) (attestation attestationProvider wrappedKid : JsValue)
    (fmt hash : String) :
    unwrapBinding (h.wrappingBy w) t kv logContext attestation attestationProvider wrappedKid fmt
        bytes hash =
      unwrapBinding h t kv logContext attestation attestationProvider wrappedKid fmt bytes
        hash := by
  unfold unwrapBinding unwrapRelease
  simp only [unwrapWrap_wrappingBy hw]
  rfl

/-- `unwrapKey` asks the platform to wrap under the bytes of the use and under no others. -/
theorem unwrapKey_asks {use : KeyUse} (hu : unwrapKeyUse h t kv request = some use)
    (hw : ∀ payload, w payload use.bytes = h.wrapKey payload use.bytes) :
    unwrapKey (h.wrappingBy w) t kv request = unwrapKey h t kv request := by
  unfold unwrapKey
  refine Logged.bind_congr fun serviceRequest hread => Logged.bind_congr fun attestation _ => ?_
  cases attestation with
  | none => rfl
  | some attestation =>
  dsimp only
  rw [isAuthenticated_wrappingBy]
  refine Logged.bind_congr fun identity _ => ?_
  split
  · rfl
  refine Logged.bind_congr fun wrappedKid _ => ?_
  split
  · rfl
  refine Logged.bind_congr fun wrapping hwrapping => ?_
  split
  · rfl
  refine Logged.bind_congr fun found hfound => ?_
  have hbytes : some (KeyUse.ofBytes h found.wrappingKey) = some use := by
    have hbody : wrapping.body = some found := required_iff.mp hfound
    refine Eq.trans ?_ hu
    refine Eq.trans ?_ (unwrapKeyUse_of_taken (h := h) hread hwrapping).symm
    rw [hbody]
    rfl
  cases hbytes
  refine Logged.bind_congr fun _ _ => Logged.bind_congr fun provider _ => ?_
  exact ite_congr rfl (fun _ => unwrapBinding_wrappingBy hw _ _ _ _ _ _) fun _ => rfl

theorem unwrapKeyGcp_asks {use : KeyUse} (hu : unwrapKeyGcpUse h t kv request = some use)
    (hw : ∀ payload, w payload use.bytes = h.wrapKey payload use.bytes) :
    unwrapKeyGcp (h.wrappingBy w) t kv request = unwrapKeyGcp h t kv request := by
  unfold unwrapKeyGcp
  refine Logged.bind_congr fun serviceRequest hread => ?_
  rw [isAuthenticated_wrappingBy]
  refine Logged.bind_congr fun identity _ => ?_
  split
  · rfl
  refine Logged.bind_congr fun wrappingKey hkey => ?_
  split_ifs
  swap
  · rfl
  refine Logged.bind_congr fun isPem _ => ?_
  split_ifs
  swap
  · rfl
  refine Logged.bind_congr fun claim _ => ?_
  split_ifs
  swap
  · rfl
  unfold gcpBinding
  refine Logged.bind_congr fun text htext => ?_
  have hbytes : some (KeyUse.ofBytes h (strToBuf text)) = some use :=
    (unwrapKeyGcpUse_of_taken hread hkey htext).symm.trans hu
  cases hbytes
  refine Logged.bind_congr fun expected _ => Logged.bind_congr fun _ _ => ?_
  exact ite_congr rfl (fun _ => Logged.bind_congr fun _ _ => gcpRelease_wrappingBy hw _)
    fun _ => rfl

end Asked

/-- The endpoints make the same of the key, and either of them the same of its rendering with
    real newlines. -/
structure TreatedAlike (h : Host) (pem : String) (use useGcp : Option KeyUse) : Prop where
  endpoints : use = useGcp
  unwrapKey : ∀ t kv request, SendsKey h t kv request (normalized pem) →
    unwrapKeyUse h t kv request = use
  unwrapKeyGcp : ∀ t kv request, SendsGcpKey h t kv request (normalized pem) →
    unwrapKeyGcpUse h t kv request = useGcp

/-- `unwrapKeyGcp` makes the same of both renderings. -/
theorem unwrapKeyGcp_forms {pem : String} {t' : Moment} {kv' : Kv} {request' : Request}
    (hs : SendsGcpKey h t kv request pem) (hs' : SendsGcpKey h t' kv' request' (normalized pem)) :
    unwrapKeyGcpUse h t' kv' request' = unwrapKeyGcpUse h t kv request := by
  rw [unwrapKeyGcpUse_eq hs, unwrapKeyGcpUse_eq hs', normalized_normalized]

/-- What `unwrapKey` does with the use of the key: it compares the hash with the report, and wraps
    under the bytes and under no others. -/
structure UsesKey (h : Host) (t : Moment) (kv : Kv) (request : Request) (use : Option KeyUse) :
    Prop where
  answers : ∀ response, answered (unwrapKey h t kv request) = some response →
    ∃ (found : KeyUse) (claims v : JsValue) (reportData : String) (payload : Bytes),
      use = some found ∧ claims.get "x-ms-sevsnpvm-reportdata" = .ok v ∧
      reportDataText v = .ok reportData ∧ startsWith reportData found.hash = true ∧
      Wraps h payload found.bytes response.wrapped
  asks : ∀ found, use = some found → ∀ w : Bytes → Bytes → Except JsError Bytes,
    (∀ payload, w payload found.bytes = h.wrapKey payload found.bytes) →
    unwrapKey (h.wrappingBy w) t kv request = unwrapKey h t kv request

/-- `unwrapKeyGcp` compares the hash with the nonce of the token. -/
structure UsesGcpKey (h : Host) (t : Moment) (kv : Kv) (request : Request) (use : Option KeyUse) :
    Prop where
  answers : ∀ response, answered (unwrapKeyGcp h t kv request) = some response →
    ∃ (found : KeyUse) (claim : JsValue) (payload : Bytes), use = some found ∧
      eatNonce request = .ok claim ∧ expectedNonce claim = .ofString found.hash ∧
      Wraps h payload found.bytes response.wrapped
  asks : ∀ found, use = some found → ∀ w : Bytes → Bytes → Except JsError Bytes,
    (∀ payload, w payload found.bytes = h.wrapKey payload found.bytes) →
    unwrapKeyGcp (h.wrappingBy w) t kv request = unwrapKeyGcp h t kv request

/-- An accepted key is treated alike just when its text has no escaped newline. What is compared
    here is what the endpoints use. -/
theorem treated_alike_iff (h : Host) (pem : String) (hpem : IsPemPublicKey pem)
    {t t' : Moment} {kv kv' : Kv} {request request' : Request}
    (hs : SendsKey h t kv request pem) (hs' : SendsGcpKey h t' kv' request' pem) :
    (TreatedAlike h pem (unwrapKeyUse h t kv request) (unwrapKeyGcpUse h t' kv' request') ↔
      hasEscapedNewline pem = false) ∧
    UsesKey h t kv request (unwrapKeyUse h t kv request) ∧
    UsesGcpKey h t' kv' request' (unwrapKeyGcpUse h t' kv' request') := by
  refine ⟨?_, ⟨fun _ => unwrapKey_uses, fun _ hu _ => unwrapKey_asks hu⟩,
    ⟨fun _ => unwrapKeyGcp_uses, fun _ hu _ => unwrapKeyGcp_asks hu⟩⟩
  rw [← normalized_eq_self_iff]
  constructor
  · intro halike
    have hsame := halike.endpoints
    rw [unwrapKeyUse_eq hpem hs, unwrapKeyGcpUse_eq hs', Option.some.injEq] at hsame
    exact (strToBuf_injective (KeyUse.ofBytes_injective h hsame)).symm
  · intro hself
    refine ⟨?_, fun _ _ _ hreal => ?_, fun _ _ _ hreal => unwrapKeyGcp_forms hs' hreal⟩
    · rw [unwrapKeyUse_eq hpem hs, unwrapKeyGcpUse_eq hs', hself]
    · rw [hself] at hreal
      rw [unwrapKeyUse_eq hpem hs, unwrapKeyUse_eq hpem hreal]

def keyRequest (pem : String) : Request :=
  requestOf (.obj [("wrappingKey", .str pem)]) none

theorem keyRequest_sends (pem : String) :
    SendsKey sampleHost (sampleMoment 0) Kv.empty (keyRequest pem) pem := by
  refine ⟨_, rfl, rfl⟩

theorem keyRequest_sendsGcp {pem : String} (hpem : IsPemPublicKey pem) :
    SendsGcpKey sampleHost (sampleMoment 0) Kv.empty (keyRequest pem) pem := by
  refine ⟨_, rfl, ?_⟩
  have hkey : (Json.obj [("wrappingKey", .str pem)]).get "wrappingKey" = .ok (.ofString pem) := rfl
  unfold gcpWrappingKey
  simp only [keyRequest, requestOf, hkey, Logged.ok_bind, pem_truthy hpem, if_true]
  rfl

theorem sample_treated_alike : TreatedAlike sampleHost samplePem
    (unwrapKeyUse sampleHost (sampleMoment 0) Kv.empty (keyRequest samplePem))
    (unwrapKeyGcpUse sampleHost (sampleMoment 0) Kv.empty (keyRequest samplePem)) :=
  (treated_alike_iff sampleHost samplePem (by decide) (keyRequest_sends _)
    (keyRequest_sendsGcp (by decide))).1.mpr (by decide)

/-- The sample key with its newlines escaped. -/
def escapedPem : String := "-----BEGIN PUBLIC KEY-----\\nAAAA\\n-----END PUBLIC KEY-----\\n"

def escapedUnwrapRequest : Request :=
  requestOf (.obj [("wrappedKid", .str sampleKid), ("wrappingKey", .str escapedPem),
    ("attestation", .obj [("evidence", .str (base64Text samplePemDigest)),
      ("endorsements", .str "AAAA"), ("uvm_endorsements", .str "AAAA"),
      ("endorsed_tcb", .str "")])]) none

def escapedGcpRequest : Request :=
  { gcpRequest with bodyJson := .ok (.obj [("wrappingKey", .str escapedPem)]) }

/-- The two endpoints take the escaped form for different keys: evidence for the key with real
    newlines is enough for `unwrapKeyGcp` and is refused by `unwrapKey`. -/
theorem escaped_key_differs : IsPemPublicKey escapedPem ∧ normalized escapedPem = samplePem ∧
    ¬ TreatedAlike sampleHost escapedPem
      (unwrapKeyUse sampleHost (sampleMoment 0) Kv.empty (keyRequest escapedPem))
      (unwrapKeyGcpUse sampleHost (sampleMoment 0) Kv.empty (keyRequest escapedPem)) ∧
    answered (unwrapKey sampleHost (sampleMoment 0) sampleKv escapedUnwrapRequest) = none ∧
    (answered (unwrapKeyGcp sampleHost (sampleMoment 0) sampleKv escapedGcpRequest)).isSome := by
  have hpem : IsPemPublicKey escapedPem := by decide
  have hnormal : normalized escapedPem = samplePem := by decide
  have hrefused : (answered (unwrapKey sampleHost (sampleMoment 0) sampleKv
      escapedUnwrapRequest)).isSome = false := by decide +kernel
  refine ⟨hpem, hnormal, fun halike => ?_, ?_, by decide +kernel⟩
  · have hsame := halike.endpoints
    rw [unwrapKeyUse_eq hpem (keyRequest_sends _),
      unwrapKeyGcpUse_eq (keyRequest_sendsGcp hpem), Option.some.injEq, hnormal] at hsame
    exact absurd (strToBuf_injective (KeyUse.ofBytes_injective _ hsame)) (by decide)
  · exact Option.not_isSome_iff_eq_none.mp (by rw [hrefused]; decide)

end DepaKms
