import DepaKms.KeyEndpoint

set_option autoImplicit false

/-!
# What a released key rests on

Each release endpoint is followed once, to the evidence behind its 200 responses:
the verified report or the token, the wrapping key it is bound to, the stored key,
and the bytes that were wrapped.
-/
namespace DepaKms

def Answers {α : Type} (P : α → Prop) (r : ServiceResult α) : Prop :=
  ∀ body headers, r = .success body headers → P body

section Answers

variable {α : Type} {P : α → Prop} {E : Engine}

theorem answers_failed (error : ErrorResponse) (code : ℕ) (logContext : LogContext)
    (headers : Headers) :
    Logged.Ensures (ServiceResult.failed E error code logContext headers) (Answers P) := by
  intro r hr body headers' hb
  cases hr
  cases hb

theorem answers_failure (error : ErrorResponse) (code : ℕ) (headers : Headers) :
    Logged.Ensures (pure (.failure error code headers) : Handler (ServiceResult α))
      (Answers P) := by
  intro r hr body headers' hb
  cases hr
  cases hb

theorem answers_accepted (logContext : LogContext) :
    Logged.Ensures (ServiceResult.accepted E logContext) (Answers P) := by
  intro r hr body headers' hb
  cases hr
  cases hb

theorem answers_succeeded [Serializable α] {body : α} (hP : P body) (logContext : LogContext)
    (headers : Option Headers) :
    Logged.Ensures (ServiceResult.succeeded E body logContext headers) (Answers P) := by
  intro r hr body' headers' hb
  cases hr
  cases hb
  exact hP

end Answers

variable {h : Host} {t : Moment} {kv : Kv} {request : Request}

theorem parseBody_ensures (logContext : LogContext) (request : Request) :
    Logged.Ensures (ServiceRequest.parseBody h.toEngine logContext request)
      fun body => ∀ v, body = some v → request.bodyJson = .ok v := by
  refine .tryCatch (.read fun v hv => .pure ?_) fun _ => .skip fun _ => .pure (by simp)
  intro w hw
  cases hw
  exact hv

def BodyOf (request : Request) (r : ServiceRequest) : Prop :=
  ∀ v, r.body = some v → request.bodyJson = .ok v

theorem construct_ensures (logContext : LogContext) (request : Request) (settings : Json) :
    Logged.Ensures (ServiceRequest.construct h t logContext request settings)
      (BodyOf request) := by
  unfold ServiceRequest.construct
  refine .skip fun _ => .skip fun _ => ?_
  dsimp only
  split_ifs
  · refine .skip fun _ => .skip fun _ => .bind (parseBody_ensures _ request) fun body hb => ?_
    exact .skip fun _ => .skip fun _ => .pure hb
  · refine .skip fun _ => .bind (parseBody_ensures _ request) fun body hb => ?_
    exact .skip fun _ => .skip fun _ => .pure hb

theorem new_ensures (logContext : LogContext) (request : Request) :
    Logged.Ensures (ServiceRequest.new h t kv logContext request) (BodyOf request) := by
  refine .skip fun settings => ?_
  cases settings with
  | ok settings => exact construct_ensures logContext request settings
  | error e => exact .pure (by simp [BodyOf])

theorem body_of_get {request : Request} {r : ServiceRequest} (hb : BodyOf request r)
    {key : String} {v : JsValue} (hv : r.bodyValue.get key = .ok v) :
    ∃ body, request.bodyJson = .ok body ∧ r.bodyValue = .json body ∧ body.get key = .ok v := by
  unfold ServiceRequest.bodyValue at hv ⊢
  cases hbody : r.body with
  | none =>
    rw [hbody] at hv
    cases hv
  | some body =>
    rw [hbody] at hv
    exact ⟨body, hb body hbody, rfl, hv⟩

/-- The request as the endpoint of that name sees it. -/
def ReadAs (h : Host) (t : Moment) (kv : Kv) (name : String) (request : Request)
    (serviceRequest : ServiceRequest) : Prop :=
  (ServiceRequest.new h t kv (LogContext.new.appendScope name) request).result = .ok serviceRequest

/-- The caller of the request, as the endpoint of that name reads it, is authenticated. -/
structure Identified (h : Host) (t : Moment) (kv : Kv) (name : String) (request : Request)
    (serviceRequest : ServiceRequest) : Prop where
  read : ReadAs h t kv name request serviceRequest
  identity : ∃ caller identity, (serviceRequest.isAuthenticated h kv).result =
    .ok (caller, identity) ∧ identity.isFailure = false

theorem identified_of_answer {name : String} {serviceRequest : ServiceRequest} {caller : Option Caller}
    {identity : ServiceResult JsValue} (hread : ReadAs h t kv name request serviceRequest)
    (hidentity : (serviceRequest.isAuthenticated h kv).result = .ok (caller, identity))
    (hnot : ∀ caller' error code headers,
      (caller, identity) = (caller', .failure error code headers) → False) :
    Identified h t kv name request serviceRequest := by
  refine ⟨hread, caller, identity, hidentity, ?_⟩
  cases identity with
  | failure error code headers => exact absurd rfl (hnot caller error code headers)
  | success body headers => rfl
  | pending headers => rfl

theorem requestAttestation_ok {body : JsValue} {attestation : JsValue}
    (ha : requestAttestation body = .ok (some attestation)) :
    body.get "attestation" = .ok attestation := by
  unfold requestAttestation at ha
  split_ifs at ha
  · rw [Logged.bind_ok_iff] at ha
    obtain ⟨v, hv, hsome⟩ := ha
    split_ifs at hsome <;> cases hsome
    exact hv
  · cases ha

/-- The body carries an attestation that passes validation, with these claims. -/
def Attested (h : Host) (kv : Kv) (body : JsValue) (claims : JsValue) : Prop :=
  ∃ attestation provider headers, requestAttestation body = .ok (some attestation) ∧
    requestProvider body = .ok provider ∧
    (validateAttestation h kv attestation provider).result = .ok (.success claims headers)

theorem endpointAttestation_ensures {α : Type} {name : String} {logContext : LogContext}
    {attestation provider : JsValue}
    {failureHeaders : ℕ → Except JsError Headers} {exceptionHeaders : JsError → Headers} :
    Logged.Ensures (endpointAttestation h kv name logContext attestation provider
        failureHeaders exceptionHeaders :
        Handler (Except (ServiceResult α) (ServiceResult JsValue)))
      (fun outcome =>
        (∀ P : α → Prop, ∀ failed, outcome = .error failed → Answers P failed) ∧
        ∀ r, outcome = .ok r → ∃ claims headers, r = .success claims headers ∧
          (validateAttestation h kv attestation provider).result =
            .ok (.success claims headers)) := by
  have hfailed (failed : ServiceResult α) (hf : failed.isFailure = true) :
      Logged.Ensures (pure (.error failed) :
        Handler (Except (ServiceResult α) (ServiceResult JsValue)))
      (fun outcome =>
        (∀ P : α → Prop, ∀ failed, outcome = .error failed → Answers P failed) ∧
        ∀ r, outcome = .ok r → ∃ claims headers, r = .success claims headers ∧
          (validateAttestation h kv attestation provider).result =
            .ok (.success claims headers)) := by
    refine .pure ⟨fun P f he => ?_, by simp⟩
    cases he
    intro body headers hb
    rw [hb] at hf
    cases hf
  refine .tryCatch (.step fun r hr => ?_) fun exception => ?_
  · have haccepted := validateAttestation_ensures kv attestation provider r hr
    cases r with
    | failure error code headers =>
      refine .skip fun _ => .step fun failed hf => hfailed failed ?_
      cases hf
      rfl
    | success claims headers =>
      refine .pure ⟨by simp, fun r he => ?_⟩
      cases he
      exact ⟨claims, headers, rfl, hr⟩
    | pending headers =>
      obtain ⟨⟨report, headers', -, hsuccess⟩, -⟩ := haccepted.2 rfl
      cases hsuccess
  · refine .skip fun _ => .step fun failed hf => hfailed failed ?_
    cases hf
    rfl

theorem lookup_claim (name key : String) (v : Option Json) :
    (SnpAttestationClaims.claim name v).lookup key = if key = name then v else none := by
  unfold SnpAttestationClaims.claim
  cases v with
  | none => simp
  | some j =>
    by_cases hk : key = name
    · simp [hk]
    · have hb : (key == name) = false := by simpa using hk
      simp [List.lookup_cons, hk, hb]

theorem lookup_reportData (E : Engine) (report : SnpAttestationResult) :
    (SnpAttestationClaims.getClaims E report).lookup "x-ms-sevsnpvm-reportdata" =
      (report.attestation.bind SnpReport.report_data).map fun b => .str (hexString b) := by
  simp [SnpAttestationClaims.getClaims, SnpAttestationClaims.hexClaim, List.lookup_append,
    lookup_claim]

theorem reportData_of_text {report : SnpAttestationResult} {v : JsValue} {text : String}
    (hv : (reportClaims h.toEngine report).get "x-ms-sevsnpvm-reportdata" = .ok v)
    (ht : reportDataText v = .ok text) :
    ∃ data, report.attestation.bind SnpReport.report_data = some data ∧ text = hexString data := by
  simp only [reportClaims, JsValue.get, Json.get, lookup_reportData] at hv
  cases hd : report.attestation.bind SnpReport.report_data with
  | some data =>
    rw [hd] at hv
    cases hv
    cases ht
    exact ⟨data, rfl, rfl⟩
  | none =>
    rw [hd] at hv
    cases hv
    cases ht

theorem take_of_startsWith {data hash : Bytes} (hl : hash.length = 32)
    (hs : startsWith (hexString data) (hexString hash) = true) : data.take 32 = hash := by
  have hp : hash <+: data := hexString_prefix (of_decide_eq_true hs)
  rw [← hl]
  exact (List.prefix_iff_eq_take.mp hp).symm

theorem lookup_of_get {kid : JsValue} {item : IKeyItem}
    (hg : KeyStore.get kv kid = .ok (some item)) :
    ∃ name stored, kid = .ofString name ∧ kv.hpkeKeys.lookup name = some stored ∧
      stored.item = item := by
  unfold KeyStore.get at hg
  rw [Logged.bind_ok_iff] at hg
  obtain ⟨name, hname, hlookup⟩ := hg
  simp only [pure, Except.pure, Except.ok.injEq, Option.map_eq_some_iff] at hlookup
  obtain ⟨stored, hs, hi⟩ := hlookup
  match kid, hname with
  | .json (.str s), hname =>
    cases hname
    exact ⟨name, stored, rfl, hs, hi⟩

/-- The outcome of the lookup of the transaction that last wrote the key. -/
def receiptOf (t : Moment) (kid : String) (stored : StoredItem) : Option String :=
  t.getStateRange (KeyStore.calcVersion kid) stored.version

theorem result_receiptOf {kid : String} {stored : StoredItem}
    (hlookup : kv.hpkeKeys.lookup kid = some stored) :
    (KeyStore.receipt h.toEngine t kv kid).result = .ok (receiptOf t kid stored) := by
  rw [KeyStore.result_receipt, hlookup]
  rfl

theorem get_of_lookup {kid : String} {stored : StoredItem}
    (hlookup : kv.hpkeKeys.lookup kid = some stored) :
    KeyStore.get kv (.ofString kid) = .ok (some stored.item) := by
  simp only [KeyStore.get, JsValue.ofString, stringKey, Logged.ok_bind, hlookup]
  rfl

def Fresh (h : Host) (t : Moment) (kv : Kv) (item : IKeyItem) : Prop :=
  ∃ deprecated, ∀ logContext,
    (KeyRotationPolicy.isExpired h.toEngine t kv.keyRotation item logContext).result =
      .ok (false, deprecated)

theorem fresh_of_isExpired {item : IKeyItem} {logContext : LogContext} {expired deprecated : Bool}
    (hexpiry : (KeyRotationPolicy.isExpired h.toEngine t kv.keyRotation item logContext).result =
      .ok (expired, deprecated)) (hnot : ¬ expired = true) : Fresh h t kv item := by
  have hvalid : expired = false := Bool.eq_false_of_not_eq_true hnot
  rw [hvalid] at hexpiry
  exact ⟨deprecated, KeyRotationPolicy.isExpired_ok_context h.toEngine hexpiry⟩

def Payload (h : Host) (fmt : String) (item : IKeyItem) (payload : Bytes) : Prop :=
  if fmt = "tink" then
    ∃ d privateKey, item.d = some d ∧ h.base64Decode d = .ok privateKey ∧
      payload = h.keysetToBinary (KeyWrapper.tinkKeyset h privateKey)
  else payload = strToBuf (KeyWrapper.payloadText h item)

def Wraps (h : Host) (payload key : Bytes) (wrapped : String) : Prop :=
  ∃ bytes, h.wrapKey payload key = .ok bytes ∧ wrapped = h.base64Encode bytes

theorem unwrapWrap_ensures (fmt : String) (key : Bytes) (item : IKeyItem) :
    Logged.Ensures (unwrapWrap h fmt key item)
      (fun wrapped => ∃ payload, Payload h fmt item payload ∧ Wraps h payload key wrapped) := by
  unfold unwrapWrap Payload
  refine .ite (fun hf => ?_) fun hf => ?_
  · simp only [if_pos hf]
    unfold KeyWrapper.createWrappedPrivateTinkKey
    refine .skip fun _ => ?_
    cases hd : item.d with
    | none => exact .throw _
    | some d =>
      refine .read fun privateKey hk => .skip fun _ => .skip fun _ => .read fun bytes hb => ?_
      exact .pure ⟨_, ⟨d, privateKey, rfl, hk, rfl⟩, bytes, hb, rfl⟩
  · simp only [if_neg hf]
    unfold KeyWrapper.wrapKeyJwt KeyWrapper.getEncryptedKeyMaterial
    refine .bind (Q := fun p => Wraps h (strToBuf (KeyWrapper.payloadText h item)) key p.1)
      (.skip fun _ => .read fun bytes hb => .pure ⟨bytes, hb, rfl⟩) fun p hp => ?_
    exact .pure ⟨_, rfl, hp⟩

/-- The request passes every check of `key`, and this is the key that it is for. -/
structure KeyChecked (h : Host) (t : Moment) (kv : Kv) (request : Request)
    (serviceRequest : ServiceRequest) (kid : String) (stored : StoredItem) : Prop where
  identified : Identified h t kv "key" request serviceRequest
  attested : ∃ claims, Attested h kv serviceRequest.bodyValue claims
  selected : ∃ id, keySelection kv serviceRequest.query = .ok (id, some kid)
  fmt : requestFmt serviceRequest = "jwk" ∨ requestFmt serviceRequest = "tink"
  lookup : kv.hpkeKeys.lookup kid = some stored

/-- What the end of `unwrapKey` adds: the key released is stored, fresh and wrapped. -/
def StoredRelease (h : Host) (t : Moment) (kv : Kv) (kid fmt : String) (key : Bytes)
    (wrapped : String) : Prop :=
  ∃ stored payload, kv.hpkeKeys.lookup kid = some stored ∧ Fresh h t kv stored.item ∧
    Payload h fmt stored.item payload ∧ Wraps h payload key wrapped

/-- What a 200 response of `unwrapKey` rests on. -/
structure UnwrapEvidence (h : Host) (t : Moment) (kv : Kv) (request : Request)
    (response : IUnwrapResponse) where
  body : Json
  attestation : JsValue
  wrappingKey : String
  report : SnpAttestationResult
  reportData : Bytes
  kid : String
  fmt : String
  bodyJson : request.bodyJson = .ok body
  attestationField : body.get "attestation" = .ok attestation
  wrappingKeyField : body.get "wrappingKey" = .ok (.ofString wrappingKey)
  kidField : body.get "wrappedKid" = .ok (.ofString kid)
  isPem : IsPemPublicKey wrappingKey
  verified : VerifiedReport h attestation report
  reportDataField : report.attestation.bind SnpReport.report_data = some reportData
  bound : reportData.take 32 = h.sha256 (strToBuf wrappingKey)
  released : StoredRelease h t kv kid fmt (strToBuf wrappingKey) response.wrapped

/-- The request passes the checks of `unwrapKey` that come before the key, and asks for this
    kid. -/
structure UnwrapAsked (h : Host) (t : Moment) (kv : Kv) (request : Request)
    (serviceRequest : ServiceRequest) (kid : String) : Prop where
  identified : Identified h t kv "unwrapKey" request serviceRequest
  kidField : serviceRequest.bodyValue.get "wrappedKid" = .ok (.ofString kid)
  bound : ∃ wrapping headers claims v reportData,
    (requestHasWrappingKey h serviceRequest.bodyValue none).result =
      .ok (.success wrapping headers) ∧
    Attested h kv serviceRequest.bodyValue claims ∧
    claims.get "x-ms-sevsnpvm-reportdata" = .ok v ∧ reportDataText v = .ok reportData ∧
    startsWith reportData (KeyGeneration.calculateHexHash h wrapping.wrappingKey) = true
  fmt : requestFmt serviceRequest = "jwk" ∨ requestFmt serviceRequest = "tink"

/-- The request passes every check of `unwrapKey`, and this is the key that it is for. -/
structure UnwrapChecked (h : Host) (t : Moment) (kv : Kv) (request : Request)
    (serviceRequest : ServiceRequest) (kid : String) (stored : StoredItem) : Prop extends
    UnwrapAsked h t kv request serviceRequest kid where
  lookup : kv.hpkeKeys.lookup kid = some stored
  fresh : Fresh h t kv stored.item

/-- The request passes every check of `unwrapKey`, which makes this text of the key. -/
structure UnwrapAccepted (h : Host) (t : Moment) (kv : Kv) (request : Request)
    (serviceRequest : ServiceRequest) (kid : String) (stored : StoredItem) (wrapped : String) :
    Prop extends UnwrapChecked h t kv request serviceRequest kid stored where
  wraps : ∃ wrapping headers,
    (requestHasWrappingKey h serviceRequest.bodyValue none).result =
      .ok (.success wrapping headers) ∧
    (unwrapWrap h (requestFmt serviceRequest) wrapping.wrappingKey stored.item).result =
      .ok wrapped

/-- The key that the report is bound to is the one that the stored key is wrapped to. -/
theorem UnwrapAccepted.wrapped_bound {serviceRequest : ServiceRequest} {kid wrapped : String}
    {stored : StoredItem}
    (ha : UnwrapAccepted h t kv request serviceRequest kid stored wrapped) :
    ∃ wrapping headers claims v reportData,
      (requestHasWrappingKey h serviceRequest.bodyValue none).result =
        .ok (.success wrapping headers) ∧
      Attested h kv serviceRequest.bodyValue claims ∧
      claims.get "x-ms-sevsnpvm-reportdata" = .ok v ∧ reportDataText v = .ok reportData ∧
      startsWith reportData (KeyGeneration.calculateHexHash h wrapping.wrappingKey) = true ∧
      (unwrapWrap h (requestFmt serviceRequest) wrapping.wrappingKey stored.item).result =
        .ok wrapped := by
  obtain ⟨wrapping, headers, claims, v, reportData, hwrapping, hattested, hv, htext, hstart⟩ :=
    ha.bound
  obtain ⟨wrapping', headers', hwrapping', hwrapped⟩ := ha.wraps
  rw [hwrapping] at hwrapping'
  cases hwrapping'
  exact ⟨wrapping, headers, claims, v, reportData, hwrapping, hattested, hv, htext, hstart,
    hwrapped⟩

/-- The receipt on the item is no part of what is wrapped. -/
theorem result_unwrapWrap (fmt : String) (wrappingKey : Bytes) (item : IKeyItem)
    (receipt : Option String) :
    (unwrapWrap h fmt wrappingKey { item with receipt }).result =
      (unwrapWrap h fmt wrappingKey item).result := by
  unfold unwrapWrap
  split_ifs
  · rfl
  · unfold KeyWrapper.wrapKeyJwt KeyWrapper.getEncryptedKeyMaterial
    have hsame : KeyWrapper.payloadText h { item with receipt } = KeyWrapper.payloadText h item :=
      rfl
    simp only [Logged.result_bind, Logger.result_debug, Logged.ok_bind, Logged.result_lift, hsame]
    cases h.wrapKey (strToBuf (KeyWrapper.payloadText h item)) wrappingKey <;> rfl

theorem unwrapRelease_ensures (logContext : LogContext) (wrappedKid : JsValue) (fmt : String)
    (wrappingKey : Bytes) :
    Logged.Ensures (unwrapRelease h t kv logContext wrappedKid fmt wrappingKey)
      (Answers fun response => ∃ kid stored, wrappedKid = .ofString kid ∧
        kv.hpkeKeys.lookup kid = some stored ∧ Fresh h t kv stored.item ∧
        (unwrapWrap h fmt wrappingKey stored.item).result = .ok response.wrapped ∧
        response.receipt = (receiptOf t kid stored).getD "") := by
  refine .step fun kidText hkidText => .skip fun _ => .read fun found hfound => ?_
  cases found with
  | none => exact answers_failed _ _ _ _
  | some item =>
    obtain ⟨kid, stored, hkid, hlookup, rfl⟩ := lookup_of_get hfound
    have hname : kidText = kid := by
      rw [hkid] at hkidText
      cases hkidText
      rfl
    refine .step fun expiry hexpiry => ?_
    obtain ⟨expired, deprecated⟩ := expiry
    refine .ite (fun _ => answers_failed _ _ _ _) fun hnot => ?_
    have hfresh : Fresh h t kv stored.item := fresh_of_isExpired hexpiry hnot
    refine .step fun receipt hreceipt => .skip fun _ => .tryCatch ?_
      fun _ => answers_failed _ _ _ _
    rw [hname, result_receiptOf hlookup] at hreceipt
    cases hreceipt
    refine .step fun wrapped hwrapped => ?_
    rw [result_unwrapWrap] at hwrapped
    exact answers_succeeded ⟨kid, stored, hkid, hlookup, hfresh, hwrapped, rfl⟩ _ _

theorem unwrapBinding_ensures {logContext : LogContext} {attestation provider wrappedKid : JsValue}
    {fmt hash : String} {wrappingKey : Bytes} :
    Logged.Ensures (unwrapBinding h t kv logContext attestation provider wrappedKid fmt
        wrappingKey hash)
      (Answers fun response => ∃ claims headers v reportData kid stored,
        (validateAttestation h kv attestation provider).result = .ok (.success claims headers) ∧
        claims.get "x-ms-sevsnpvm-reportdata" = .ok v ∧ reportDataText v = .ok reportData ∧
        startsWith reportData hash = true ∧ wrappedKid = .ofString kid ∧
        kv.hpkeKeys.lookup kid = some stored ∧ Fresh h t kv stored.item ∧
        (unwrapWrap h fmt wrappingKey stored.item).result = .ok response.wrapped ∧
        response.receipt = (receiptOf t kid stored).getD "") := by
  refine .step fun outcome houtcome => ?_
  obtain ⟨hfailed, hpassed⟩ := endpointAttestation_ensures outcome houtcome
  cases outcome with
  | error failed => exact .pure (hfailed _ failed rfl)
  | ok r =>
    obtain ⟨claims, headers, rfl, hvalid⟩ := hpassed r rfl
    refine .read fun found hclaims => .read fun v hv => .read fun reportData htext => ?_
    cases hclaims
    refine .ite (fun hstart => ?_) fun _ => answers_failed _ _ _ _
    refine (unwrapRelease_ensures logContext wrappedKid fmt wrappingKey).mono
      fun r hr response headers' he => ?_
    obtain ⟨kid, stored, hkid, hreleased⟩ := hr response headers' he
    exact ⟨claims, headers, v, reportData, kid, stored, hvalid, hv, htext, hstart, hkid, hreleased⟩

theorem unwrapKey_accepted (request : Request) :
    Logged.Ensures (unwrapKey h t kv request) (Answers fun response => ∃ serviceRequest kid stored,
      UnwrapAccepted h t kv request serviceRequest kid stored response.wrapped ∧
        response.receipt = (receiptOf t kid stored).getD "") := by
  refine .step fun serviceRequest hread => .read fun attestation hatt => ?_
  cases attestation with
  | none => exact answers_failed _ _ _ _
  | some attestation =>
  refine .step fun identity hidentity => ?_
  obtain ⟨caller, identity⟩ := identity
  split
  · exact answers_failure _ _ _
  next hnot =>
  have hidentified := identified_of_answer hread hidentity hnot
  refine .read fun wrappedKid hkid => ?_
  split
  · exact .skip fun _ => answers_failed _ _ _ _
  refine .step fun wrapping hwrapping => ?_
  split
  · exact .skip fun _ => .skip fun _ => answers_failed _ _ _ _
  refine .read fun key hkey => .skip fun _ => .read fun provider hprovider => .ite (fun hfmt => ?_)
    fun _ => answers_failed _ _ _ _
  refine unwrapBinding_ensures.mono fun r hr response headers he => ?_
  obtain ⟨claims, headers', v, reportData, kid, stored, hvalid, hv, htext, hstart, rfl, hlookup,
    hfresh, hwrapped, hreceipt⟩ := hr response headers he
  cases wrapping with
  | failure error code headers => cases hkey
  | pending headers => cases hkey
  | success found headers'' =>
    cases hkey
    have hasked : UnwrapAsked h t kv request serviceRequest kid :=
      ⟨hidentified, hkid, ⟨key, headers'', claims, v, reportData, hwrapping,
        ⟨attestation, provider, headers', hatt, hprovider, hvalid⟩, hv, htext, hstart⟩, hfmt⟩
    exact ⟨serviceRequest, kid, stored,
      ⟨⟨hasked, hlookup, hfresh⟩, key, headers'', hwrapping, hwrapped⟩, hreceipt⟩

/-- What was sent to `unwrapKey`, as it stands in the body of the request. -/
theorem UnwrapAsked.sent {serviceRequest : ServiceRequest} {kid : String} {attestation : JsValue}
    {wrapping : WrappingKey} {headers : Headers}
    (ha : UnwrapAsked h t kv request serviceRequest kid)
    (hwrapping : (requestHasWrappingKey h serviceRequest.bodyValue none).result =
      .ok (.success wrapping headers))
    (hatt : requestAttestation serviceRequest.bodyValue = .ok (some attestation)) :
    ∃ body key, request.bodyJson = .ok body ∧ serviceRequest.bodyValue = .json body ∧
      body.get "attestation" = .ok attestation ∧ body.get "wrappingKey" = .ok (.ofString key) ∧
      body.get "wrappedKid" = .ok (.ofString kid) ∧ IsPemPublicKey key ∧
      wrapping.wrappingKey = strToBuf key := by
  have hbody : BodyOf request serviceRequest :=
    new_ensures _ request serviceRequest ha.identified.read
  have hkid := ha.kidField
  obtain ⟨key, hkey, hpem, hbytes, -⟩ :=
    requestHasWrappingKey_ensures h _ none _ hwrapping wrapping rfl
  obtain ⟨body, hjson, hvalue, hattField⟩ := body_of_get hbody (requestAttestation_ok hatt)
  rw [hvalue] at hkey hkid
  exact ⟨body, key, hjson, hvalue, hattField, hkey, hkid, hpem, hbytes⟩

theorem UnwrapAccepted.evidence {serviceRequest : ServiceRequest} {kid : String}
    {stored : StoredItem} {response : IUnwrapResponse}
    (ha : UnwrapAccepted h t kv request serviceRequest kid stored response.wrapped) :
    ∃ e : UnwrapEvidence h t kv request response, e.fmt = requestFmt serviceRequest := by
  obtain ⟨wrapping, headers, claims, v, reportData, hwrapping,
    ⟨attestation, provider, headers', hatt, -, hvalid⟩, hv, htext, hstart, hwrapped⟩ :=
    ha.wrapped_bound
  obtain ⟨body, s, hjson, -, hattField, hs, hkid, hpem, hbytes⟩ :=
    ha.toUnwrapAsked.sent hwrapping hatt
  obtain ⟨⟨report, headers'', hverified, hclaims⟩, -⟩ :=
    (validateAttestation_ensures kv attestation provider _ hvalid).2 rfl
  cases hclaims
  obtain ⟨data, hdata, rfl⟩ := reportData_of_text hv htext
  have htake := take_of_startsWith (h.sha256_length wrapping.wrappingKey) hstart
  obtain ⟨payload, hpayload, hwraps⟩ := unwrapWrap_ensures _ _ stored.item _ hwrapped
  rw [hbytes] at htake hwraps
  exact ⟨⟨body, attestation, s, report, data, kid, _, hjson, hattField, hs, hkid, hpem, hverified,
    hdata, htake, stored, payload, ha.lookup, ha.fresh, hpayload, hwraps⟩, rfl⟩

theorem unwrapKey_ensures (request : Request) :
    Logged.Ensures (unwrapKey h t kv request)
      (Answers fun response => ∃ e : UnwrapEvidence h t kv request response,
        ∃ serviceRequest, ReadAs h t kv "unwrapKey" request serviceRequest ∧
          e.fmt = requestFmt serviceRequest) := by
  refine (unwrapKey_accepted request).mono fun r hr response headers he => ?_
  obtain ⟨serviceRequest, kid, stored, ha, -⟩ := hr response headers he
  obtain ⟨e, hfmt⟩ := ha.evidence
  exact ⟨e, serviceRequest, ha.identified.read, hfmt⟩

def gcpHash (h : Host) (wrappingKey : String) : String :=
  hexString (h.sha256 (strToBuf (normalized wrappingKey)))

/-- The request passes every check of `unwrapKeyGcp`. -/
structure GcpBound (h : Host) (t : Moment) (kv : Kv) (request : Request) (wrappingKey : String)
    (claim : JsValue) : Prop where
  identified : ∃ serviceRequest caller identity,
    (ServiceRequest.new h t kv (LogContext.new.appendScope "unwrapKeyGcp") request).result =
      .ok serviceRequest ∧
    (serviceRequest.isAuthenticated h kv).result = .ok (caller, identity) ∧
    identity.isFailure = false ∧
    gcpWrappingKey serviceRequest request = .ok (.ofString wrappingKey)
  isPem : IsPemPublicKey wrappingKey
  claimField : eatNonce request = .ok claim
  nonce : expectedNonce claim = .ofString (gcpHash h wrappingKey)

structure NewestWrapped (h : Host) (kv : Kv) (kid : String) (stored : StoredItem)
    (wrappingKey wrapped : String) : Prop where
  latest : ∃ id, LastestItemStore.latestItem kv = .ok (id, some kid)
  lookup : kv.hpkeKeys.lookup kid = some stored
  wraps : Wraps h (strToBuf (KeyWrapper.payloadText h stored.item))
    (strToBuf (normalized wrappingKey)) wrapped

theorem gcpRelease_ensures (logContext : LogContext) (wrappingKey : String) :
    Logged.Ensures (gcpRelease h t kv logContext (strToBuf (normalized wrappingKey)))
      (Answers fun response => ∃ stored,
        NewestWrapped h kv response.wrappedKid stored wrappingKey response.wrapped) := by
  refine .read fun latest hlatest => ?_
  obtain ⟨id, kid⟩ := latest
  cases kid with
  | none => exact answers_failed _ _ _ _
  | some kid =>
  refine .read fun found hfound => ?_
  cases found with
  | none => exact answers_failed _ _ _ _
  | some item =>
  obtain ⟨name, stored, hkid, hlookup, rfl⟩ := lookup_of_get hfound
  cases hkid
  refine .skip fun receipt => .tryCatch ?_ fun _ => answers_failed _ _ _ _
  refine .read fun bytes hbytes => ?_
  exact answers_succeeded ⟨stored, ⟨id, hlatest⟩, hlookup, bytes, hbytes, rfl⟩ _ _

theorem strictEq_ofString {v : JsValue} {s : String} (hv : v.strictEq (.ofString s) = true) :
    v = .ofString s := by
  cases v with
  | json w =>
    have hw := (Json.strictEq_iff (.str s)).mp hv
    rw [hw]
    rfl
  | _ => cases hv

theorem unwrapKeyGcp_ensures (request : Request) :
    Logged.Ensures (unwrapKeyGcp h t kv request)
      (Answers fun response => ∃ wrappingKey claim stored,
        GcpBound h t kv request wrappingKey claim ∧
        NewestWrapped h kv response.wrappedKid stored wrappingKey response.wrapped) := by
  refine .step fun serviceRequest hnew => .step fun identity hauth => ?_
  obtain ⟨caller, identity⟩ := identity
  split
  · exact answers_failure _ _ _
  next hnot =>
  have hidentified : Identified h t kv "unwrapKeyGcp" request serviceRequest :=
    identified_of_answer hnew hauth hnot
  obtain ⟨caller', identity', hauth', hidentity⟩ := hidentified.identity
  refine .read fun key hkey => .ite (fun _ => ?_) fun _ => answers_failed _ _ _ _
  refine .step fun isPem hpem => .ite (fun hp => ?_) fun _ => .skip fun _ => answers_failed _ _ _ _
  refine .read fun claim hclaim => .ite (fun _ => ?_) fun _ => answers_failed _ _ _ _
  refine .read fun text htext => .skip fun _ => .skip fun _ => ?_
  refine .ite (fun heq => .skip fun _ => ?_) fun _ => answers_failed _ _ _ _
  match key, hkey, hpem, htext with
  | .json (.str s), hkey, hpem, htext =>
    cases htext
    rw [result_isPemPublicKey] at hpem
    simp only [JsValue.render, Json.render, Except.map, Except.ok.injEq] at hpem
    refine (gcpRelease_ensures _ s).mono fun r hr response headers hresponse => ?_
    obtain ⟨stored, hstored⟩ := hr response headers hresponse
    exact ⟨s, claim, stored, ⟨⟨serviceRequest, caller', identity', hnew, hauth', hidentity, hkey⟩,
      hpem.trans hp, hclaim, strictEq_ofString heq⟩, hstored⟩

theorem pem_truthy {s : String} (hs : IsPemPublicKey s) : (JsValue.ofString s).truthy = true := by
  have hne : s ≠ "" := by
    rintro rfl
    exact absurd hs (by decide)
  simpa [JsValue.ofString, JsValue.truthy, Json.truthy] using hne

theorem gcpHash_ne (h : Host) (wrappingKey : String) : gcpHash h wrappingKey ≠ "" := by
  unfold gcpHash hexString
  cases hb : h.sha256 (strToBuf (normalized wrappingKey)) with
  | nil =>
    have hl := h.sha256_length (strToBuf (normalized wrappingKey))
    rw [hb] at hl
    cases hl
  | cons b bs =>
    rw [List.flatMap_cons, hexByte]
    intro he
    have hl := congrArg String.toList he
    rw [String.toList_ofList] at hl
    cases hl

theorem claim_truthy {h : Host} {wrappingKey : String} {claim : JsValue}
    (hc : expectedNonce claim = .ofString (gcpHash h wrappingKey)) : claim.truthy = true := by
  have hne := gcpHash_ne h wrappingKey
  match claim, hc with
  | .json (.arr _), _ => rfl
  | .json (.str s), hc =>
    cases hc
    simpa [JsValue.truthy, Json.truthy] using hne

theorem gcpRelease_complete {kid : String} {stored : StoredItem} {wrappingKey wrapped : String}
    (hn : NewestWrapped h kv kid stored wrappingKey wrapped) (logContext : LogContext) :
    ∃ receipt headers, (gcpRelease h t kv logContext (strToBuf (normalized wrappingKey))).result =
      .ok (.success ⟨kid, wrapped, receipt⟩ headers) := by
  obtain ⟨id, hlatest⟩ := hn.latest
  obtain ⟨bytes, hbytes, rfl⟩ := hn.wraps
  unfold gcpRelease
  simp only [Logged.result_bind, Logged.result_lift, hlatest, Logged.ok_bind,
    get_of_lookup hn.lookup,
    KeyStore.result_receipt, Logged.result_tryCatch, hbytes, ServiceResult.result_succeeded]
  exact ⟨_, _, rfl⟩

/-- An identified request with a PEM key gets to the binding when its token has a claim. -/
theorem result_unwrapKeyGcp {serviceRequest : ServiceRequest} {wrappingKey : String}
    {claim : JsValue} (hi : Identified h t kv "unwrapKeyGcp" request serviceRequest)
    (hkey : gcpWrappingKey serviceRequest request = .ok (.ofString wrappingKey))
    (hpem : IsPemPublicKey wrappingKey) (hclaim : eatNonce request = .ok claim) :
    (unwrapKeyGcp h t kv request).result =
      if claim.truthy then
        (gcpBinding h t kv serviceRequest.logContext (.ofString wrappingKey) claim).result
      else
        (ServiceResult.failed h.toEngine
          (.of "unwrapKeyGcp: JWT missing eat_nonce — client must hash the wrappingKey and embed it as a nonce when requesting the OIDC token")
          400 serviceRequest.logContext
          [("x-ms-kms-error-code", .str "MISSING_EAT_NONCE")]).result := by
  obtain ⟨caller, identity, hauth, hidentity⟩ := hi.identity
  have hread : (ServiceRequest.new h t kv (LogContext.new.appendScope "unwrapKeyGcp")
      request).result = .ok serviceRequest := hi.read
  have hisPem : (isPemPublicKey h.toEngine (.ofString wrappingKey) none).result = .ok true := by
    rw [result_isPemPublicKey]
    exact congrArg Except.ok hpem
  unfold unwrapKeyGcp
  rw [Logged.result_bind, hread, Logged.ok_bind, Logged.result_bind, hauth, Logged.ok_bind]
  cases identity with
  | failure error code headers => cases hidentity
  | success body headers =>
    simp only [Logged.result_bind, Logged.result_lift, hkey, Logged.ok_bind, pem_truthy hpem,
      if_true, hisPem, hclaim, Logged.result_ite]
  | pending headers =>
    simp only [Logged.result_bind, Logged.result_lift, hkey, Logged.ok_bind, pem_truthy hpem,
      if_true, hisPem, hclaim, Logged.result_ite]

/-- The binding of a claim whose nonce is a text. -/
theorem result_gcpBinding {wrappingKey nonce : String} {claim : JsValue}
    (hn : expectedNonce claim = .ofString nonce) (logContext : LogContext) :
    (gcpBinding h t kv logContext (.ofString wrappingKey) claim).result =
      if nonce = gcpHash h wrappingKey then
        (gcpRelease h t kv logContext (strToBuf (normalized wrappingKey))).result
      else
        (ServiceResult.failed h.toEngine
          (.of "unwrapKeyGcp: wrappingKey hash does not match eat_nonce in JWT") 400 logContext
          (errorHeaders "EAT_NONCE_MISMATCH"
            s!"got:{substringFrom0 16 (gcpHash h wrappingKey)}...,expected:{substringFrom0 16 nonce}...")).result := by
  have hnormal : normalizeKey (.ofString wrappingKey) = .ok (normalized wrappingKey) := rfl
  have hfront : noncePrefix (.ofString nonce) = .ok (substringFrom0 16 nonce) := rfl
  have hhash : KeyGeneration.calculateHexHash h (strToBuf (normalized wrappingKey)) =
      gcpHash h wrappingKey := rfl
  have heq : (JsValue.ofString nonce).strictEq (.ofString (gcpHash h wrappingKey)) = true ↔
      nonce = gcpHash h wrappingKey := by
    simp [JsValue.ofString, JsValue.strictEq, Json.strictEq]
  unfold gcpBinding
  simp only [Logged.result_bind, Logged.result_lift, hnormal, Logged.ok_bind, hn, hfront, hhash,
    Logger.result_debug, heq, Logged.result_ite]

/-- The checks of `unwrapKeyGcp` are all there is between a request and the newest key. -/
theorem unwrapKeyGcp_complete {request : Request} {kid : String} {stored : StoredItem}
    {wrappingKey wrapped : String} {claim : JsValue} (hb : GcpBound h t kv request wrappingKey claim)
    (hn : NewestWrapped h kv kid stored wrappingKey wrapped) :
    ∃ receipt headers, (unwrapKeyGcp h t kv request).result =
      .ok (.success ⟨kid, wrapped, receipt⟩ headers) := by
  obtain ⟨serviceRequest, caller, identity, hnew, hauth, hidentity, hkey⟩ := hb.identified
  have hidentified : Identified h t kv "unwrapKeyGcp" request serviceRequest :=
    ⟨hnew, caller, identity, hauth, hidentity⟩
  rw [result_unwrapKeyGcp hidentified hkey hb.isPem hb.claimField,
    if_pos (claim_truthy hb.nonce), result_gcpBinding hb.nonce, if_pos rfl]
  exact gcpRelease_complete hn serviceRequest.logContext

end DepaKms
