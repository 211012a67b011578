import DepaKms.ServiceReleases
import DepaKms.NonceBinding

set_option autoImplicit false

/-!
# The private endpoints and requests of the wrong type

The endpoints for private keys read fields of the body and of the token without looking at
their types. Where these are texts, a request is answered or refused, with one exception.
-/
namespace DepaKms

variable {h : Host} {t : Moment} {kv : Kv} {xs : List Transaction} {request : Request}

theorem returns_step {α β : Type} {x : Handler α} {f : α → Handler β} (hx : Returns x)
    (hf : ∀ a, x.result = .ok a → Returns (f a)) : Returns (x >>= f) := by
  obtain ⟨a, ha⟩ := hx
  obtain ⟨b, hb⟩ := hf a ha
  refine ⟨b, ?_⟩
  rw [Logged.result_bind, ha]
  exact hb

theorem returns_read {α β : Type} {x : Except JsError α} {a : α} {f : α → Handler β}
    (hx : x = .ok a) (hf : Returns (f a)) : Returns (do let r ← x; f r) := by
  obtain ⟨b, hb⟩ := hf
  refine ⟨b, ?_⟩
  rw [Logged.result_bind, Logged.result_lift, hx]
  exact hb

theorem returns_failed {α : Type} (error : ErrorResponse) (code : ℕ) (logContext : LogContext)
    (headers : Headers) :
    Returns (ServiceResult.failed h.toEngine error code logContext headers :
      Handler (ServiceResult α)) := ⟨_, rfl⟩

theorem get_of_truthy {v : JsValue} (hv : v.truthy = true) (key : String) :
    ∃ w, v.get key = .ok w := by
  cases v with
  | undefined => cases hv
  | builtin name => exact ⟨_, rfl⟩
  | json w =>
    cases w with
    | null => cases hv
    | obj fields =>
      cases hl : fields.lookup key with
      | none => exact ⟨inherited key, by simp only [JsValue.get, Json.get, hl]⟩
      | some w => exact ⟨.json w, Json.get_own hl⟩
    | _ => exact ⟨_, rfl⟩

theorem returns_checkFields {logContext : LogContext} {attestation : JsValue}
    {next : Handler (ServiceResult JsValue)} (ht : attestation.truthy = true)
    (hnext : Returns next) (fields : List (String × String)) :
    Returns (checkFields h logContext attestation next fields) := by
  induction fields with
  | nil => exact hnext
  | cons f fields ih =>
    obtain ⟨field, errorMessage⟩ := f
    obtain ⟨value, hvalue⟩ := get_of_truthy ht field
    refine returns_read hvalue ?_
    split_ifs
    · exact returns_failed _ _ _ _
    · exact ih

theorem returns_decodeField {logContext : LogContext} {attestation : JsValue} {field : String}
    {next : Bytes → Handler (ServiceResult JsValue)} (hnext : ∀ bytes, Returns (next bytes)) :
    Returns (decodeField h logContext attestation field next) := by
  unfold decodeField
  cases attestation.get field >>= base64ToUint8Array h with
  | ok bytes => exact hnext bytes
  | error e => exact returns_failed _ _ _ _

theorem returns_withBuffers {logContext : LogContext} {attestation : JsValue}
    {checks : List (String × String)}
    {next : Bytes → Bytes → Bytes → Handler (ServiceResult JsValue)}
    (hnext : ∀ evidence endorsements uvm, Returns (next evidence endorsements uvm)) :
    Returns (withBuffers h logContext attestation checks next) := by
  unfold withBuffers
  split_ifs with ht
  · exact returns_checkFields ht (returns_decodeField fun evidence => returns_decodeField
      fun endorsements => returns_decodeField fun uvm => hnext evidence endorsements uvm) checks
  · exact returns_failed _ _ _ _

/-- Whatever the attestation is, its validation only needs the text of the provider. -/
theorem returns_validateAttestation (kv : Kv) (attestation : JsValue) {provider : JsValue}
    {text : String}
    (hp : (providerOrDefault provider).render h.toEngine = .ok text) :
    Returns (validateAttestation h kv attestation provider) := by
  refine returns_read hp (returns_step ⟨_, rfl⟩ fun _ _ => ?_)
  split_ifs
  · exact returns_step ⟨_, rfl⟩ fun _ _ => returns_withBuffers fun _ _ _ =>
      returns_tryCatch fun _ => returns_failed _ _ _ _
  · exact returns_withBuffers fun _ _ _ => returns_tryCatch fun _ => returns_failed _ _ _ _

theorem returns_endpointAttestation {α : Type} {name : String} {logContext : LogContext}
    {attestation provider : JsValue} {failureHeaders : ℕ → Except JsError Headers}
    {exceptionHeaders : JsError → Headers} {text : String}
    (hp : (providerOrDefault provider).render h.toEngine = .ok text)
    (hheaders : ∀ code, ∃ headers, failureHeaders code = .ok headers) :
    Returns (endpointAttestation h kv name logContext attestation provider failureHeaders
      exceptionHeaders : Handler (Except (ServiceResult α) (ServiceResult JsValue))) := by
  obtain ⟨r, hr⟩ := returns_validateAttestation kv attestation hp
  unfold Returns endpointAttestation
  rw [Logged.result_tryCatch, Logged.result_bind, hr, Logged.ok_bind]
  cases r with
  | failure error code headers =>
    obtain ⟨found, hfound⟩ := hheaders code
    simp only [Logged.result_bind, Logged.result_lift, hfound, Logged.ok_bind]
    exact ⟨_, rfl⟩
  | success _ _ | pending _ => exact ⟨_, rfl⟩

/-- The field is absent or a text. -/
def TextOrAbsent (body : Json) (field : String) : Prop :=
  body.get field = .ok .undefined ∨ ∃ s, body.get field = .ok (.ofString s)

/-- The fields of the body that name something are texts, where there are any. The body itself may
    be missing, no JSON, or null. -/
structure WellTyped (request : Request) : Prop where
  attestationType : ∀ body, request.bodyJson = .ok body → body ≠ .null →
    TextOrAbsent body "attestationType"
  wrappingKey : ∀ body, request.bodyJson = .ok body → body ≠ .null →
    TextOrAbsent body "wrappingKey"
  wrappedKid : ∀ body, request.bodyJson = .ok body → body ≠ .null →
    TextOrAbsent body "wrappedKid"

theorem read_of_service {name : String} {serviceRequest : ServiceRequest}
    (hread : (ServiceRequest.new h t (serviceAfter h kv xs) (LogContext.new.appendScope name)
      request).result = .ok serviceRequest) :
    serviceRequest = received h t (LogContext.new.appendScope name) request := by
  rw [result_new (settingsAre_of_service h kv xs)] at hread
  exact (Except.ok.inj hread).symm

theorem bodyValue_received (h : Host) (t : Moment) (logContextIn : LogContext) (request : Request) :
    (received h t logContextIn request).bodyValue = Json.ofOption request.bodyJson.toOption := rfl

/-- A truthy body is the parsed one. -/
theorem body_of_truthy (hv : (Json.ofOption request.bodyJson.toOption).truthy = true) :
    ∃ body, request.bodyJson = .ok body ∧ body ≠ .null ∧
      Json.ofOption request.bodyJson.toOption = .json body := by
  cases hb : request.bodyJson with
  | error e =>
    rw [hb] at hv
    cases hv
  | ok body =>
    rw [hb] at hv
    refine ⟨body, rfl, ?_, rfl⟩
    rintro rfl
    cases hv

theorem requestAttestation_cases (v : JsValue) :
    requestAttestation v = .ok none ∨
      ∃ attestation, requestAttestation v = .ok (some attestation) ∧ v.truthy = true ∧
        attestation.truthy = true := by
  unfold requestAttestation
  split_ifs with hv
  · obtain ⟨w, hw⟩ := get_of_truthy hv "attestation"
    rw [hw, Logged.ok_bind]
    cases hw' : w.truthy with
    | false => exact .inl rfl
    | true => exact .inr ⟨w, rfl, hv, hw'⟩
  · exact .inl rfl

theorem provider_of_text {body : Json} (ht : TextOrAbsent body "attestationType") :
    ∃ s, requestProvider (.json body) = .ok (.ofString s) := by
  unfold requestProvider
  rcases ht with hv | ⟨s, hv⟩
  · have hget : (JsValue.json body).get "attestationType" = .ok .undefined := hv
    rw [hget]
    exact ⟨"azure", rfl⟩
  · have hget : (JsValue.json body).get "attestationType" = .ok (.ofString s) := hv
    rw [hget, Logged.ok_bind]
    split_ifs
    · exact ⟨s, rfl⟩
    · exact ⟨"azure", rfl⟩

theorem keySelection_of_service (h : Host) (kv : Kv) (xs : List Transaction)
    (query : Option Query) : ∃ p, keySelection (serviceAfter h kv xs) query = .ok p := by
  obtain ⟨l, -, hr, -⟩ := represents_service h kv xs
  unfold keySelection
  cases queryGet query "kid" with
  | some kid => exact ⟨_, rfl⟩
  | none =>
    rw [hr.keys.latestItem]
    exact ⟨_, rfl⟩

theorem get_of_kid (kv : Kv) (kid : String) :
    ∃ item, KeyStore.get kv (.ofString kid) = .ok item := ⟨_, rfl⟩

theorem returns_receipt (kv : Kv) (kid : String) :
    Returns (KeyStore.receipt h.toEngine t kv kid) := ⟨_, KeyStore.result_receipt _ _ _ _⟩

/-- A provider that is a text is rendered as that text. -/
theorem provider_render (E : Engine) (provider : String) :
    (providerOrDefault (.ofString provider)).render E = .ok provider := rfl

theorem returns_keyRelease {logContext : LogContext} {attestation : JsValue} {provider fmt : String}
    {id : Option ℕ} {kid : String} :
    Returns (keyRelease h t kv logContext attestation (.ofString provider) fmt id kid) := by
  refine returns_step (returns_endpointAttestation (provider_render _ provider) fun _ => ⟨_, rfl⟩)
    fun outcome _ => ?_
  cases outcome with
  | error failed => exact ⟨_, rfl⟩
  | ok r =>
    obtain ⟨item, hitem⟩ := get_of_kid kv kid
    refine returns_step ⟨_, rfl⟩ fun _ _ => returns_read hitem ?_
    cases item with
    | none => exact returns_failed _ _ _ _
    | some item =>
      refine returns_step (returns_receipt kv kid) fun receipt _ => ?_
      split_ifs
      · exact ⟨_, rfl⟩
      · exact returns_tryCatch fun _ => returns_failed _ _ _ _

theorem returns_key (hw : WellTyped request) :
    Returns (key h t (serviceAfter h kv xs) request) := by
  refine returns_step ⟨_, result_new (settingsAre_of_service h kv xs) t _ request⟩
    fun serviceRequest hread => ?_
  rw [read_of_service hread]
  dsimp only
  rw [bodyValue_received]
  rcases requestAttestation_cases (Json.ofOption request.bodyJson.toOption) with
    hnone | ⟨attestation, hatt, hbody, -⟩
  · exact returns_read hnone (returns_failed _ _ _ _)
  · refine returns_read hatt (returns_step (returns_isAuthenticated _ _) fun p _ => ?_)
    obtain ⟨body, hjson, hnull, hvalue⟩ := body_of_truthy hbody
    obtain ⟨provider, hprovider⟩ := provider_of_text (hw.attestationType body hjson hnull)
    obtain ⟨selected, hselected⟩ := keySelection_of_service h kv xs
      (received h t (LogContext.new.appendScope "key") request).query
    obtain ⟨caller, identity⟩ := p
    split
    · exact ⟨_, rfl⟩
    · rw [hvalue]
      refine returns_read hprovider (returns_read hselected ?_)
      obtain ⟨id, kid⟩ := selected
      cases kid with
      | none => exact returns_failed _ _ _ _
      | some kid =>
        dsimp only
        split_ifs
        · exact returns_keyRelease
        · exact returns_failed _ _ _ _

/-- The reports that the platform verifies say what data they were made for. -/
def ReportsHaveData (h : Host) : Prop :=
  ∀ evidence endorsements uvm_endorsements endorsed_tcb report,
    h.verifySnpAttestation evidence endorsements uvm_endorsements endorsed_tcb = .ok report →
    ∃ data, report.attestation.bind SnpReport.report_data = some data

theorem returns_isExpired (item : IKeyItem) (logContext : LogContext) :
    Returns (KeyRotationPolicy.isExpired h.toEngine t (serviceAfter h kv xs).keyRotation item
      logContext) := by
  have hgoverns := rotation_of_service h kv xs
  cases hperiods : rotationInForce (acceptedEdits h kv xs .keyRotation) with
  | none =>
    rw [hperiods] at hgoverns
    exact ⟨_, isExpired_ungoverned hgoverns item logContext⟩
  | some periods =>
    rw [hperiods] at hgoverns
    exact ⟨_, Rotates.isExpired hgoverns item logContext⟩

theorem returns_unwrapRelease {logContext : LogContext} {kid fmt : String} {wrappingKey : Bytes} :
    Returns (unwrapRelease h t (serviceAfter h kv xs) logContext (.ofString kid) fmt wrappingKey) := by
  obtain ⟨item, hitem⟩ := get_of_kid (serviceAfter h kv xs) kid
  have htext : (JsValue.ofString kid).render h.toEngine = .ok kid := rfl
  refine returns_read htext (returns_step ⟨_, rfl⟩ fun _ _ => returns_read hitem ?_)
  cases item with
  | none => exact returns_failed _ _ _ _
  | some item =>
    refine returns_step (returns_isExpired item logContext) fun expiry _ => ?_
    obtain ⟨expired, deprecated⟩ := expiry
    dsimp only
    split_ifs
    · exact returns_failed _ _ _ _
    · exact returns_step (returns_receipt _ _) fun receipt _ => returns_step ⟨_, rfl⟩ fun _ _ =>
        returns_tryCatch fun _ => returns_failed _ _ _ _

theorem reportData_of_verified {attestation : JsValue} {claims : JsValue} {headers : Headers}
    {provider : JsValue} (hd : ReportsHaveData h)
    (hvalid : (validateAttestation h kv attestation provider).result =
      .ok (.success claims headers)) :
    ∃ v text, claims.get "x-ms-sevsnpvm-reportdata" = .ok v ∧ reportDataText v = .ok text := by
  obtain ⟨⟨report, headers', ⟨evidence, endorsements, uvm, tcb, -, -, -, -, hverified⟩, hclaims⟩, -⟩ :=
    (validateAttestation_ensures _ attestation provider _ hvalid).2 rfl
  cases hclaims
  obtain ⟨data, hdata⟩ := hd _ _ _ _ _ hverified
  refine ⟨.ofString (hexString data), hexString data, ?_, rfl⟩
  simp only [reportClaims, JsValue.get, Json.get, lookup_reportData, hdata]
  rfl

theorem returns_unwrapBinding (hd : ReportsHaveData h) {logContext : LogContext}
    {attestation : JsValue} (ht : attestation.truthy = true) {provider kid fmt hash : String}
    {wrappingKey : Bytes} :
    Returns (unwrapBinding h t (serviceAfter h kv xs) logContext attestation (.ofString provider)
      (.ofString kid) fmt wrappingKey hash) := by
  obtain ⟨evidence, hevidence⟩ := get_of_truthy ht "evidence"
  obtain ⟨endorsements, hendorsements⟩ := get_of_truthy ht "endorsements"
  have hheaders (code : ℕ) : ∃ headers, attestationFailureHeaders attestation code = .ok headers := by
    unfold attestationFailureHeaders
    rw [hevidence, hendorsements]
    exact ⟨_, rfl⟩
  refine returns_step (returns_endpointAttestation (provider_render _ provider) hheaders)
    fun outcome houtcome => ?_
  obtain ⟨-, hpassed⟩ := endpointAttestation_ensures outcome houtcome
  cases outcome with
  | error failed => exact ⟨_, rfl⟩
  | ok r =>
    obtain ⟨claims, headers, rfl, hvalid⟩ := hpassed r rfl
    obtain ⟨v, text, hv, htext⟩ := reportData_of_verified hd hvalid
    refine returns_read rfl (returns_read hv (returns_read htext ?_))
    split_ifs
    · exact returns_unwrapRelease
    · exact returns_failed _ _ _ _

theorem missingKidHeaders_of_truthy {body : Json} (hv : (JsValue.json body).truthy = true) :
    ∃ headers, missingKidHeaders (.json body) = .ok headers := by
  obtain ⟨wrappingKey, hkey⟩ := get_of_truthy hv "wrappingKey"
  obtain ⟨attestation, hatt⟩ := get_of_truthy hv "attestation"
  unfold missingKidHeaders
  rw [hkey, hatt]
  cases body with
  | null => cases hv
  | _ => exact ⟨_, rfl⟩

theorem wrappingKeyHeaders_of_text {body : Json} (ht : TextOrAbsent body "wrappingKey")
    (existing : Headers) (code : ℕ) :
    ∃ v headers, body.get "wrappingKey" = .ok v ∧ wrappingKeyHeaders h existing code v = .ok headers := by
  rcases ht with hv | ⟨s, hv⟩
  · exact ⟨_, _, hv, rfl⟩
  · unfold wrappingKeyHeaders
    refine ⟨.ofString s, ?_⟩
    split_ifs
    · exact ⟨_, hv, rfl⟩
    · exact ⟨_, hv, rfl⟩

/-- A wrapping key that is a text, or none, is accepted or refused. -/
theorem wrappingKey_of_text {body : Json} (ht : TextOrAbsent body "wrappingKey") :
    ∃ r, (requestHasWrappingKey h (.json body) none).result = .ok r ∧
      (r.isFailure = false → ∃ k, r.body = some k) := by
  unfold requestHasWrappingKey
  rcases ht with hv | ⟨s, hv⟩
  · have hget : (JsValue.json body).get "wrappingKey" = .ok .undefined := hv
    rw [Logged.result_bind, Logged.result_lift, hget, Logged.ok_bind]
    exact ⟨_, rfl, by simp [ServiceResult.isFailure]⟩
  · have hget : (JsValue.json body).get "wrappingKey" = .ok (.ofString s) := hv
    have hrender : (JsValue.ofString s).render h.toEngine = .ok s := rfl
    have hbuffer : stringBuffer (.ofString s) = .ok (strToBuf s) := rfl
    rw [Logged.result_bind, Logged.result_lift, hget, Logged.ok_bind]
    split_ifs
    · simp only [Logged.result_bind, Logged.result_lift, hrender, Logged.ok_bind,
        Logger.result_debug, result_isPemPublicKey, Except.map]
      split_ifs
      · simp only [Logged.result_bind, Logged.result_lift, hbuffer, Logged.ok_bind,
          Logger.result_debug]
        exact ⟨_, rfl, fun _ => ⟨_, rfl⟩⟩
      · exact ⟨_, rfl, by simp [ServiceResult.isFailure]⟩
    · exact ⟨_, rfl, by simp [ServiceResult.isFailure]⟩

theorem returns_unwrapKey (hd : ReportsHaveData h) (hw : WellTyped request) :
    Returns (unwrapKey h t (serviceAfter h kv xs) request) := by
  refine returns_step ⟨_, result_new (settingsAre_of_service h kv xs) t _ request⟩
    fun serviceRequest hread => ?_
  rw [read_of_service hread]
  dsimp only
  rw [bodyValue_received]
  rcases requestAttestation_cases (Json.ofOption request.bodyJson.toOption) with
    hnone | ⟨attestation, hatt, hbody, htruthy⟩
  · exact returns_read hnone (returns_failed _ _ _ _)
  · refine returns_read hatt (returns_step (returns_isAuthenticated _ _) fun p _ => ?_)
    obtain ⟨body, hjson, hnull, hvalue⟩ := body_of_truthy hbody
    obtain ⟨provider, hprovider⟩ := provider_of_text (hw.attestationType body hjson hnull)
    obtain ⟨r, hwrapping, hsome⟩ := wrappingKey_of_text (h := h) (hw.wrappingKey body hjson hnull)
    rw [hvalue] at hbody ⊢
    obtain ⟨caller, identity⟩ := p
    split
    · exact ⟨_, rfl⟩
    · rcases hw.wrappedKid body hjson hnull with hkid | ⟨kid, hkid⟩
      · obtain ⟨headers, hheaders⟩ := missingKidHeaders_of_truthy hbody
        refine returns_read hkid ?_
        exact returns_read hheaders (returns_failed _ _ _ _)
      · refine returns_read hkid (returns_step ⟨r, hwrapping⟩ fun r' hr' => ?_)
        cases hwrapping.symm.trans hr'
        cases r with
        | failure error code existing =>
          obtain ⟨v, headers, hv, hheaders⟩ :=
            wrappingKeyHeaders_of_text (h := h) (hw.wrappingKey body hjson hnull) existing code
          exact returns_read hv (returns_read hheaders (returns_failed _ _ _ _))
        | success wrapping headers =>
          refine returns_read rfl (returns_step ⟨_, rfl⟩ fun _ _ => returns_read hprovider ?_)
          split_ifs
          · exact returns_unwrapBinding hd htruthy
          · exact returns_failed _ _ _ _
        | pending headers =>
          obtain ⟨k, hk⟩ := hsome rfl
          cases hk

/-- The nonce of the token is a text or a list of them, where there is one. -/
def NonceTyped (request : Request) : Prop :=
  eatNonce request = .ok .undefined ∨ ∃ claim : NonceClaim, eatNonce request = .ok claim.value

theorem gcpWrappingKey_of_text (hw : WellTyped request) (hnull : request.bodyJson ≠ .ok .null)
    (logContextIn : LogContext) :
    gcpWrappingKey (received h t logContextIn request) request = .ok .undefined ∨
      ∃ s, gcpWrappingKey (received h t logContextIn request) request = .ok (.ofString s) := by
  unfold gcpWrappingKey
  rw [bodyValue_received]
  cases hb : request.bodyJson with
  | error e => exact .inl rfl
  | ok body =>
    have htext := hw.wrappingKey body hb fun he => hnull (hb.trans (congrArg Except.ok he))
    have hoptional : (Json.ofOption (Except.ok body : Except JsError Json).toOption).getOptional
        "wrappingKey" = body.get "wrappingKey" := by
      rcases htext with hv | ⟨s, hv⟩ <;> cases body <;> first | rfl | cases hv
    dsimp only
    rw [hoptional]
    rcases htext with hv | ⟨s, hv⟩
    · rw [hv]
      exact .inl rfl
    · rw [hv, Logged.ok_bind]
      exact .inr ⟨s, by split_ifs <;> rfl⟩

theorem returns_gcpRelease (logContext : LogContext) (wrappingKey : Bytes) :
    Returns (gcpRelease h t (serviceAfter h kv xs) logContext wrappingKey) := by
  obtain ⟨l, -, hr, -⟩ := represents_service h kv xs
  refine returns_read hr.keys.latestItem ?_
  dsimp only
  cases (serviceAfter h kv xs).hpkeKeyIds.lookup l.keys.length with
  | none => exact returns_failed _ _ _ _
  | some kid =>
    obtain ⟨item, hitem⟩ := get_of_kid (serviceAfter h kv xs) kid
    refine returns_read hitem ?_
    cases item with
    | none => exact returns_failed _ _ _ _
    | some item =>
      exact returns_step (returns_receipt _ _) fun receipt _ =>
        returns_tryCatch fun _ => returns_failed _ _ _ _

theorem throws_of_no_nonces {serviceRequest : ServiceRequest} {wrappingKey : String}
    (hc : ComesToBinding h t kv request serviceRequest wrappingKey (.list [])) :
    ∃ e, (unwrapKeyGcp h t kv request).result = .error e := by
  rw [result_unwrapKeyGcp hc.identified hc.key hc.isPem hc.claimField]
  exact ⟨_, rfl⟩

/-- Outside the `try`, the wrapping key of a body that is null cannot be read. -/
theorem throws_of_null_body {serviceRequest : ServiceRequest}
    (hi : Identified h t kv "unwrapKeyGcp" request serviceRequest)
    (hnull : request.bodyJson = .ok .null) :
    ∃ e, (unwrapKeyGcp h t kv request).result = .error e := by
  obtain ⟨caller, identity, hauth, hidentity⟩ := hi.identity
  have hread : (ServiceRequest.new h t kv (LogContext.new.appendScope "unwrapKeyGcp")
      request).result = .ok serviceRequest := hi.read
  have hthrows : ∃ e, gcpWrappingKey serviceRequest request = .error e := by
    unfold gcpWrappingKey
    rw [hnull]
    exact ⟨_, rfl⟩
  obtain ⟨e, hthrows⟩ := hthrows
  refine ⟨e, ?_⟩
  unfold unwrapKeyGcp
  rw [Logged.result_bind, hread, Logged.ok_bind, Logged.result_bind, hauth, Logged.ok_bind]
  cases identity with
  | failure error code headers => cases hidentity
  | success _ _ | pending _ =>
    rw [Logged.result_bind, Logged.result_lift, hthrows]
    rfl

theorem returns_gcpBinding {logContext : LogContext} {wrappingKey : String} {claim : NonceClaim}
    (hne : claim ≠ .list []) :
    Returns (gcpBinding h t (serviceAfter h kv xs) logContext (.ofString wrappingKey)
      claim.value) := by
  obtain ⟨nonce, hnonce⟩ : ∃ nonce, expectedNonce claim.value = .ofString nonce := by
    cases claim with
    | text nonce => exact ⟨nonce, rfl⟩
    | list nonces =>
      cases nonces with
      | nil => exact absurd rfl hne
      | cons nonce nonces => exact ⟨nonce, rfl⟩
  unfold Returns
  rw [result_gcpBinding hnonce]
  split_ifs
  · exact returns_gcpRelease _ _
  · exact returns_failed _ _ _ _

/-- An authenticated caller sends no key at all, but null in place of the body. -/
def SendsNull (h : Host) (t : Moment) (kv : Kv) (request : Request) : Prop :=
  (∃ serviceRequest, Identified h t kv "unwrapKeyGcp" request serviceRequest) ∧
    request.bodyJson = .ok .null

/-- An authenticated caller sends a key, with a token that has an empty list of nonces. -/
def SendsNoNonce (h : Host) (t : Moment) (kv : Kv) (request : Request) : Prop :=
  ∃ serviceRequest wrappingKey,
    ComesToBinding h t kv request serviceRequest wrappingKey (.list [])

theorem returns_unwrapKeyGcp (hw : WellTyped request) (hn : NonceTyped request)
    (hnull : ¬ SendsNull h t (serviceAfter h kv xs) request)
    (hne : ¬ SendsNoNonce h t (serviceAfter h kv xs) request) :
    Returns (unwrapKeyGcp h t (serviceAfter h kv xs) request) := by
  refine returns_step ⟨_, result_new (settingsAre_of_service h kv xs) t _ request⟩
    fun serviceRequest hread => returns_step (returns_isAuthenticated _ _) fun p hidentity => ?_
  have hreceived := read_of_service hread
  obtain ⟨caller, identity⟩ := p
  split
  · exact ⟨_, rfl⟩
  next hnot =>
    have hi : Identified h t (serviceAfter h kv xs) "unwrapKeyGcp" request serviceRequest :=
      identified_of_answer hread hidentity hnot
    have hbody : request.bodyJson ≠ .ok .null := fun hb => hnull ⟨⟨serviceRequest, hi⟩, hb⟩
    rcases gcpWrappingKey_of_text hw hbody (LogContext.new.appendScope "unwrapKeyGcp") with
      hkey | ⟨s, hkey⟩
    · rw [← hreceived] at hkey
      exact returns_read hkey (returns_failed _ _ _ _)
    · rw [← hreceived] at hkey
      refine returns_read hkey ?_
      split_ifs
      · refine returns_step ⟨_, result_isPemPublicKey _ (.ofString s) none⟩ fun isPem hresult => ?_
        rw [result_isPemPublicKey] at hresult
        split_ifs with hpem
        · have hpem : IsPemPublicKey s := (Except.ok.inj hresult).trans hpem
          rcases hn with hnone | ⟨claim, hclaim⟩
          · exact returns_read hnone (returns_failed _ _ _ _)
          · refine returns_read hclaim ?_
            split_ifs
            · refine returns_gcpBinding fun hempty => hne ⟨serviceRequest, s, hi, hkey, hpem, ?_⟩
              rw [hclaim, hempty]
            · exact returns_failed _ _ _ _
        · have hlength : lengthText h.toEngine (.ofString s) = .ok (toString (utf16Length s)) := rfl
          exact returns_read hlength (returns_failed _ _ _ _)
      · exact returns_failed _ _ _ _

/-- With fields of the right type, no request makes `key` or `unwrapKey` throw. -/
theorem private_endpoints_answer (h : Host) (kv : Kv) (xs : List Transaction) (t : Moment)
    (request : Request) (hd : ReportsHaveData h) (hw : WellTyped request) :
    Returns (key h t (serviceAfter h kv xs) request) ∧
      Returns (unwrapKey h t (serviceAfter h kv xs) request) :=
  ⟨returns_key hw, returns_unwrapKey hd hw⟩

theorem unwrapRequest_typed : WellTyped unwrapRequest where
  attestationType body hb _ := by
    cases hb
    exact .inl rfl
  wrappingKey body hb _ := by
    cases hb
    exact .inr ⟨samplePem, rfl⟩
  wrappedKid body hb _ := by
    cases hb
    exact .inr ⟨sampleKid, rfl⟩

theorem sample_private_answer :
    Returns (key governedHost (sampleMoment 1000) (serviceAfter governedHost .empty governedCalls)
      unwrapRequest) ∧
    Returns (unwrapKey governedHost (sampleMoment 1000)
      (serviceAfter governedHost .empty governedCalls) unwrapRequest) := by
  refine private_endpoints_answer governedHost .empty governedCalls (sampleMoment 1000)
    unwrapRequest ?_ unwrapRequest_typed
  intro evidence endorsements uvm_endorsements endorsed_tcb report hr
  cases hr
  exact ⟨_, rfl⟩

/-- With a nonce of the right type as well, `unwrapKeyGcp` throws just when a caller it has
    authenticated sends null for the body, or a key with a token that has an empty list of
    nonces. -/
theorem unwrapKeyGcp_answers_iff (h : Host) (kv : Kv) (xs : List Transaction) (t : Moment)
    (request : Request) (hw : WellTyped request) (hn : NonceTyped request) :
    Returns (unwrapKeyGcp h t (serviceAfter h kv xs) request) ↔
      ¬ SendsNull h t (serviceAfter h kv xs) request ∧
        ¬ SendsNoNonce h t (serviceAfter h kv xs) request := by
  constructor
  · rintro ⟨r, hr⟩
    constructor
    · rintro ⟨⟨serviceRequest, hi⟩, hnull⟩
      obtain ⟨e, he⟩ := throws_of_null_body hi hnull
      cases hr.symm.trans he
    · rintro ⟨serviceRequest, wrappingKey, hc⟩
      obtain ⟨e, he⟩ := throws_of_no_nonces hc
      cases hr.symm.trans he
  · rintro ⟨hnull, hne⟩
    exact returns_unwrapKeyGcp hw hn hnull hne

theorem nonceRequest_typed (claim : NonceClaim) :
    WellTyped (nonceRequest claim) ∧ NonceTyped (nonceRequest claim) := by
  refine ⟨⟨fun body hb _ => ?_, fun body hb _ => ?_, fun body hb _ => ?_⟩, .inr ⟨claim, rfl⟩⟩ <;>
    cases hb
  · exact .inl rfl
  · exact .inr ⟨samplePem, rfl⟩
  · exact .inl rfl

def nullRequest : Request := { nonceRequest (.text sampleHash) with bodyJson := .ok .null }

theorem nullRequest_typed : WellTyped nullRequest ∧ NonceTyped nullRequest := by
  refine ⟨⟨fun body hb hne => ?_, fun body hb hne => ?_, fun body hb hne => ?_⟩,
    .inr ⟨.text sampleHash, rfl⟩⟩ <;> cases hb <;> exact absurd rfl hne

/-- A nonce that does not match is refused; null for the body makes the endpoint throw. -/
theorem sample_gcp_answers :
    Returns (unwrapKeyGcp governedHost (sampleMoment 1000)
      (serviceAfter governedHost .empty governedCalls) (nonceRequest (.list ["other"]))) ∧
    ¬ Returns (unwrapKeyGcp governedHost (sampleMoment 1000)
      (serviceAfter governedHost .empty governedCalls) nullRequest) := by
  constructor
  · obtain ⟨hw, hn⟩ := nonceRequest_typed (.list ["other"])
    refine (unwrapKeyGcp_answers_iff governedHost .empty governedCalls (sampleMoment 1000) _ hw
      hn).mpr ⟨?_, ?_⟩
    · rintro ⟨-, hb⟩
      cases hb
    · rintro ⟨serviceRequest, wrappingKey, hc⟩
      cases hc.claimField
  · obtain ⟨hw, hn⟩ := nullRequest_typed
    have hauthenticated : ((received governedHost (sampleMoment 1000)
        (LogContext.new.appendScope "unwrapKeyGcp") nullRequest).isAuthenticated governedHost
          (serviceAfter governedHost .empty governedCalls)).result.toOption.map
        (fun p => p.2.isFailure) = some false := by
      decide +kernel
    obtain ⟨⟨caller, identity⟩, hresult, hok⟩ := Option.map_eq_some_iff.mp hauthenticated
    have hidentity := toOption_eq_some_iff.mp hresult
    intro hreturns
    exact ((unwrapKeyGcp_answers_iff governedHost .empty governedCalls (sampleMoment 1000) _ hw
      hn).mp hreturns).1 ⟨⟨_, result_new (settingsAre_of_service _ _ _) _ _ _, caller, identity,
        hidentity, hok⟩, rfl⟩

end DepaKms
