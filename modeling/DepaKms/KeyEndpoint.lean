import DepaKms.ServiceRequest
import DepaKms.Attestation
import DepaKms.KeyRotationPolicy
import DepaKms.WrappingKey

set_option autoImplicit false

/-!
# The endpoints for private keys
-/
namespace DepaKms

structure IKeyResponse where
  wrappedKid : String
  wrapped : String
  receipt : String

structure IUnwrapResponse where
  wrapped : String
  receipt : String

instance : Serializable IKeyResponse :=
  ⟨fun r => .json (.obj [("wrappedKid", .str r.wrappedKid), ("wrapped", .str r.wrapped),
    ("receipt", .str r.receipt)])⟩

instance : Serializable IUnwrapResponse :=
  ⟨fun r => .json (.obj [("wrapped", .str r.wrapped), ("receipt", .str r.receipt)])⟩

variable (h : Host) (t : Moment) (kv : Kv)

def ServiceRequest.bodyValue (r : ServiceRequest) : JsValue := Json.ofOption r.body

/-- `body && body["attestation"]`, where it is truthy. -/
def requestAttestation (body : JsValue) : Except JsError (Option JsValue) :=
  if body.truthy then do
    let attestation ← body.get "attestation"
    pure (if attestation.truthy then some attestation else none)
  else pure none

def requestProvider (body : JsValue) : Except JsError JsValue := do
  let attestationType ← body.get "attestationType"
  pure (if attestationType.truthy then attestationType else .ofString "azure")

def requestFmt (r : ServiceRequest) : String :=
  ((queryGet r.query "fmt").filter fun s => s ≠ "").getD "jwk"

def endpointAttestation {α : Type} (name : String) (logContext : LogContext)
    (attestation attestationProvider : JsValue)
    (failureHeaders : ℕ → Except JsError Headers) (exceptionHeaders : JsError → Headers) :
    Handler (Except (ServiceResult α) (ServiceResult JsValue)) :=
  tryCatch
    (do
      let validateAttestationResult ← validateAttestation h kv attestation attestationProvider
      match validateAttestationResult with
      | .failure error code _ => do
        let headers ← failureHeaders code
        let failed ← ServiceResult.failed h.toEngine error code logContext headers
        pure (.error failed)
      | _ => pure (.ok validateAttestationResult))
    fun exception => do
      let attestationText ← attestation.render h.toEngine
      let failed ← ServiceResult.failed h.toEngine
        (.of s!"{name}: Error in validating attestation ({attestationText}): {exception.message}")
        500 logContext (exceptionHeaders exception)
      pure (.error failed)

def keySelection (query : Option Query) : Except JsError (Option ℕ × Option String) :=
  match queryGet query "kid" with
  | some kid => .ok (none, some kid)
  | none => do
    let (id, kid) ← LastestItemStore.latestItem kv
    pure (some id, kid)

def keyWrap (fmt : String) (keyItem : IKeyItem) : Handler String :=
  if fmt = "tink" then do
    let wrapped ← KeyWrapper.wrapKeyTink h t none keyItem
    pure ((wrappedJson wrapped).stringify h.toEngine)
  else KeyWrapper.wrapKeyJwt h none keyItem

def keyRelease (logContext : LogContext) (attestation attestationProvider : JsValue)
    (fmt : String) (id : Option ℕ) (kid : String) : Handler (ServiceResult IKeyResponse) := do
  let outcome ← endpointAttestation h kv "key" logContext attestation attestationProvider
    (fun _ => .ok []) (fun _ => [])
  match outcome with
  | .error failed => pure failed
  | .ok validateAttestationResult => do
    Logger.debug h.toEngine s!"Get key with kid {kid}" none []
    let keyItem ← KeyStore.get kv (.ofString kid)
    match keyItem with
    | none =>
      ServiceResult.failed h.toEngine (.of s!"key: kid {kid} not found in store") 404 logContext []
    | some keyItem => do
      let receipt ← KeyStore.receipt h.toEngine t kv kid
      if validateAttestationResult.statusCode = 202 then
        ServiceResult.accepted h.toEngine logContext
      else
        tryCatch
          (do
            let wrapped ← keyWrap h t fmt keyItem
            ServiceResult.succeeded h.toEngine (IKeyResponse.mk kid wrapped (receipt.getD ""))
              logContext none)
          fun exception =>
            let idText := undefinedText (id.map toString)
            ServiceResult.failed h.toEngine
              (.of s!"key: Error Key ({idText}): {exception.message}") 500 logContext []

def key (request : Request) : Handler (ServiceResult IKeyResponse) := do
  let serviceRequest ← ServiceRequest.new h t kv (LogContext.new.appendScope "key") request
  let logContext := serviceRequest.logContext
  let body := serviceRequest.bodyValue
  match ← requestAttestation body with
  | none =>
    ServiceResult.failed h.toEngine
      (.of s!"key: The body is not a key request: {body.stringify h.toEngine}") 400 logContext []
  | some attestation => do
    match ← serviceRequest.isAuthenticated h kv with
    | (_, .failure error code headers) => pure (.failure error code headers)
    | _ => do
      let attestationProvider ← requestProvider body
      match ← keySelection kv serviceRequest.query with
      | (_, none) =>
        ServiceResult.failed h.toEngine (.of "key: No keys in store") 400 logContext []
      | (id, some kid) =>
        let fmt := requestFmt serviceRequest
        if fmt = "jwk" ∨ fmt = "tink" then
          keyRelease h t kv logContext attestation attestationProvider fmt id kid
        else
          ServiceResult.failed h.toEngine
            (.of s!"key: Wrong fmt query parameter '{fmt}'. Must be jwt or tink.") 400 logContext []

def errorHeaders (code details : String) : Headers :=
  [("x-ms-kms-error-code", .str code), ("x-ms-kms-error-details", .str details)]

def missingKidHeaders (body : JsValue) : Except JsError Headers := do
  let entries ← match body with
    | .json v => v.ownEntries
    | _ => .error noObject
  let keys := String.intercalate "," (entries.map Prod.fst)
  let wrappingKey ← body.get "wrappingKey"
  let attestation ← body.get "attestation"
  pure (errorHeaders "MISSING_WRAPPED_KID" s!"body_keys:{keys}" ++
    [("x-ms-kms-has-wrapping-key", .str (boolText wrappingKey.truthy)),
      ("x-ms-kms-has-attestation", .str (boolText attestation.truthy))])

def headerOr (existing : Headers) (name : String) (other : Json) : Json :=
  match existing.lookup name with
  | some v => if v.truthy then v else other
  | none => other

def wrappingKeyHeaders (existing : Headers) (code : ℕ) (wrappingKey : JsValue) :
    Except JsError Headers := do
  let length ← if wrappingKey.truthy then
      (wrappingKey.render h.toEngine).map fun s => Json.num (utf16Length s)
    else pure (Json.str "0")
  let headers := assign existing "x-ms-kms-error-code"
    (headerOr existing "x-ms-kms-error-code" (.str "WRAPPING_KEY_ERROR"))
  let headers := assign headers "x-ms-kms-error-details"
    (headerOr existing "x-ms-kms-error-details" (.str s!"status_code:{code}"))
  let headers := assign headers "x-ms-kms-wrapping-key-exists" (.str (boolText wrappingKey.truthy))
  pure (assign headers "x-ms-kms-wrapping-key-length" length)

def attestationFailureHeaders (attestation : JsValue) (code : ℕ) : Except JsError Headers := do
  let evidence ← attestation.get "evidence"
  let endorsements ← attestation.get "endorsements"
  pure (errorHeaders "ATTESTATION_VALIDATION_FAILED" s!"status_code:{code}" ++
    [("x-ms-kms-attestation-has-evidence", .str (boolText evidence.truthy)),
      ("x-ms-kms-attestation-has-endorsements", .str (boolText endorsements.truthy))])

def reportDataText : JsValue → Except JsError String
  | .json (.str s) => .ok s
  | .undefined => .error (cannotRead "startsWith" "undefined")
  | .json .null => .error (cannotRead "startsWith" "null")
  | _ => .error notAFunction

def startsWith (s start : String) : Bool := decide (start.toList <+: s.toList)

def unwrapWrap (fmt : String) (wrappingKey : Bytes) (keyItem : IKeyItem) : Handler String :=
  if fmt = "tink" then do
    Logger.debug h.toEngine "Retrieve key in tink format" none []
    KeyWrapper.createWrappedPrivateTinkKey h (some wrappingKey) keyItem
  else KeyWrapper.wrapKeyJwt h (some wrappingKey) keyItem

def unwrapRelease (logContext : LogContext) (wrappedKid : JsValue) (fmt : String)
    (wrappingKey : Bytes) : Handler (ServiceResult IUnwrapResponse) := do
  let kidText ← wrappedKid.render h.toEngine
  Logger.debug h.toEngine s!"Get key with kid {kidText}" none []
  let keyItem ← KeyStore.get kv wrappedKid
  match keyItem with
  | none =>
    ServiceResult.failed h.toEngine (.of s!"unwrapKey:kid {kidText} not found in store") 404
      logContext (errorHeaders "KEY_NOT_FOUND" s!"wrapped_kid:{kidText}")
  | some keyItem => do
    let (expired, _) ← KeyRotationPolicy.isExpired h.toEngine t kv.keyRotation keyItem logContext
    if expired then
      ServiceResult.failed h.toEngine (.of s!"unwrapKey:kid {kidText} has expired") 410
        logContext (errorHeaders "KEY_EXPIRED" s!"wrapped_kid:{kidText}")
    else do
      let receipt ← KeyStore.receipt h.toEngine t kv kidText
      -- An absent receipt has become the empty text, so the 202 branch is never taken.
      let receipt := receipt.getD ""
      let keyItem := { keyItem with receipt := some receipt }
      Logger.debug h.toEngine s!"Key->Receipt: {receipt}" none []
      tryCatch
        (do
          let wrapped ← unwrapWrap h fmt wrappingKey keyItem
          ServiceResult.succeeded h.toEngine (IUnwrapResponse.mk wrapped receipt) logContext none)
        fun exception =>
          ServiceResult.failed h.toEngine
            (.of s!"unwrapKey: Error ({kidText}): {exception.message}") 500 logContext
            (errorHeaders "WRAP_KEY_EXCEPTION"
              s!"wrapped_kid:{kidText},fmt:{fmt},exception:{exception.message}")

/-- The report's data must start with the hash of the wrapping key. -/
def unwrapBinding (logContext : LogContext) (attestation attestationProvider wrappedKid : JsValue)
    (fmt : String) (wrappingKey : Bytes) (wrappingKeyHash : String) :
    Handler (ServiceResult IUnwrapResponse) := do
  let outcome ← endpointAttestation h kv "unwrapKey" logContext attestation attestationProvider
    (attestationFailureHeaders attestation)
    (fun exception => errorHeaders "ATTESTATION_VALIDATION_EXCEPTION"
      s!"exception:{exception.message}")
  match outcome with
  | .error failed => pure failed
  | .ok validateAttestationResult => do
    let claims ← required "x-ms-sevsnpvm-reportdata" validateAttestationResult.body
    let reportDataValue ← claims.get "x-ms-sevsnpvm-reportdata"
    let reportData ← reportDataText reportDataValue
    if startsWith reportData wrappingKeyHash then
      unwrapRelease h t kv logContext wrappedKid fmt wrappingKey
    else
      let expected := substringFrom0 16 wrappingKeyHash
      let actual := substringFrom0 16 reportData
      ServiceResult.failed h.toEngine
        (.of s!"unwrapKey:wrapping key hash {reportData} does not match wrappingKey") 400 logContext
        (errorHeaders "WRAPPING_KEY_HASH_MISMATCH"
          s!"expected_prefix:{expected}...,actual_prefix:{actual}...")

def unwrapKey (request : Request) : Handler (ServiceResult IUnwrapResponse) := do
  let serviceRequest ← ServiceRequest.new h t kv (LogContext.new.appendScope "unwrapKey") request
  let logContext := serviceRequest.logContext
  let body := serviceRequest.bodyValue
  match ← requestAttestation body with
  | none =>
    ServiceResult.failed h.toEngine
      (.of s!"unwrapKey: The body is not a unwrapKey request: {body.stringify h.toEngine}") 400
      logContext []
  | some attestation => do
    match ← serviceRequest.isAuthenticated h kv with
    | (_, .failure error code headers) => pure (.failure error code headers)
    | _ => do
      match ← body.get "wrappedKid" with
      | .undefined => do
        let headers ← missingKidHeaders body
        ServiceResult.failed h.toEngine
          (.of s!"unwrapKey: Missing  unwrapKey wrappedKid in request: {body.stringify h.toEngine}")
          400 logContext headers
      | wrappedKid => do
        match ← requestHasWrappingKey h body none with
        | .failure error code existing => do
          let wrappingKey ← body.get "wrappingKey"
          let headers ← wrappingKeyHeaders h existing code wrappingKey
          ServiceResult.failed h.toEngine error code logContext headers
        | wrappingKeyFromRequest => do
          let wrapping ← required "wrappingKey" wrappingKeyFromRequest.body
          let wrappingKeyHash := KeyGeneration.calculateHexHash h wrapping.wrappingKey
          Logger.debug h.toEngine s!"unwrapKey->wrapping key hash: {wrappingKeyHash}" none []
          let attestationProvider ← requestProvider body
          let fmt := requestFmt serviceRequest
          if fmt = "jwk" ∨ fmt = "tink" then
            unwrapBinding h t kv logContext attestation attestationProvider wrappedKid fmt
              wrapping.wrappingKey wrappingKeyHash
          else
            ServiceResult.failed h.toEngine
              (.of s!"unwrapKey: Wrong fmt query parameter '{fmt}'. Must be jwt or tink.") 400
              logContext (errorHeaders "INVALID_FMT_PARAMETER"
                s!"fmt_received:{fmt},fmt_valid:jwk,tink")

/-- `body.wrappingKey || serviceRequest.body?.["wrappingKey"]`; the body is read a second time. -/
def gcpWrappingKey (serviceRequest : ServiceRequest) (request : Request) :
    Except JsError JsValue := do
  let body := match request.bodyJson with
    | .ok v => v
    | .error _ => .obj []
  let wrappingKey ← body.get "wrappingKey"
  if wrappingKey.truthy then pure wrappingKey
  else serviceRequest.bodyValue.getOptional "wrappingKey"

/-- `caller?.jwt?.payload?.["eat_nonce"]`. -/
def eatNonce (request : Request) : Except JsError JsValue :=
  match request.caller.bind Caller.jwt with
  | none => .ok .undefined
  | some jwt => jwt.payload.getOptional "eat_nonce"

def expectedNonce : JsValue → JsValue
  | .json (.arr []) => .undefined
  | .json (.arr (v :: _)) => .json v
  | v => v

def noncePrefix : JsValue → Except JsError String
  | .json (.str s) => .ok (substringFrom0 16 s)
  | .undefined => .error (cannotRead "substring" "undefined")
  | .json .null => .error (cannotRead "substring" "null")
  | _ => .error notAFunction

def gcpRelease (logContext : LogContext) (wrappingKey : Bytes) :
    Handler (ServiceResult IKeyResponse) := do
  let (_, kid) ← LastestItemStore.latestItem kv
  match kid with
  | none =>
    ServiceResult.failed h.toEngine (.of "unwrapKeyGcp: No keys in store") 400 logContext []
  | some kid => do
    let keyItem ← KeyStore.get kv (.ofString kid)
    match keyItem with
    | none =>
      ServiceResult.failed h.toEngine (.of "unwrapKeyGcp: kid not found") 404 logContext []
    | some keyItem => do
      let receipt ← KeyStore.receipt h.toEngine t kv kid
      tryCatch
        (do
          let unwrappedJwtKey := KeyWrapper.payloadText h keyItem
          let wrappedBuf ← h.wrapKey (strToBuf unwrappedJwtKey) wrappingKey
          let wrapped := h.base64Encode wrappedBuf
          ServiceResult.succeeded h.toEngine (IKeyResponse.mk kid wrapped (receipt.getD ""))
            logContext
            (some [("x-ms-kms-debug-bufLen", .str (toString wrappingKey.length)),
              ("x-ms-kms-debug-payloadLen", .str (toString (utf16Length unwrappedJwtKey))),
              ("x-ms-kms-debug-wrappedLen", .str (toString (utf16Length wrapped)))]))
        fun exception =>
          ServiceResult.failed h.toEngine (.of s!"unwrapKeyGcp: {exception.message}") 500 logContext
            [("x-ms-kms-debug-exception", .str exception.message)]

/-- The token's nonce must be the hash of the wrapping key with its newlines unescaped. -/
def gcpBinding (logContext : LogContext) (wrappingKey eatNonceClaim : JsValue) :
    Handler (ServiceResult IKeyResponse) := do
  let nonce := expectedNonce eatNonceClaim
  let wrappingKeyNormalized ← normalizeKey wrappingKey
  let wrappingKeyHash := KeyGeneration.calculateHexHash h (strToBuf wrappingKeyNormalized)
  let got := substringFrom0 16 wrappingKeyHash
  let expected ← noncePrefix nonce
  Logger.debug h.toEngine
    s!"unwrapKeyGcp: wrappingKeyHash={got}..., eat_nonce={expected}..." (some logContext) []
  if nonce.strictEq (.ofString wrappingKeyHash) then do
    Logger.debug h.toEngine "unwrapKeyGcp: eat_nonce binding verified" (some logContext) []
    gcpRelease h t kv logContext (strToBuf wrappingKeyNormalized)
  else
    ServiceResult.failed h.toEngine
      (.of "unwrapKeyGcp: wrappingKey hash does not match eat_nonce in JWT") 400 logContext
      (errorHeaders "EAT_NONCE_MISMATCH" s!"got:{got}...,expected:{expected}...")

def unwrapKeyGcp (request : Request) : Handler (ServiceResult IKeyResponse) := do
  let serviceRequest ← ServiceRequest.new h t kv (LogContext.new.appendScope "unwrapKeyGcp") request
  let logContext := serviceRequest.logContext
  match ← serviceRequest.isAuthenticated h kv with
  | (_, .failure error code headers) => pure (.failure error code headers)
  | _ => do
    let wrappingKey ← gcpWrappingKey serviceRequest request
    if wrappingKey.truthy then do
      let isPem ← isPemPublicKey h.toEngine wrappingKey none
      if isPem then do
        let eatNonceClaim ← eatNonce request
        if eatNonceClaim.truthy then gcpBinding h t kv logContext wrappingKey eatNonceClaim
        else
          ServiceResult.failed h.toEngine
            (.of "unwrapKeyGcp: JWT missing eat_nonce — client must hash the wrappingKey and embed it as a nonce when requesting the OIDC token")
            400 logContext [("x-ms-kms-error-code", .str "MISSING_EAT_NONCE")]
      else do
        let length ← lengthText h.toEngine wrappingKey
        ServiceResult.failed h.toEngine (.of "unwrapKeyGcp: Invalid PEM") 400 logContext
          [("x-ms-kms-debug", .str "invalid-pem"), ("x-ms-kms-key-len", .str length)]
    else
      ServiceResult.failed h.toEngine (.of "unwrapKeyGcp: Missing wrappingKey") 400 logContext
        [("x-ms-kms-debug", .str "no-wrapping-key")]

end DepaKms
