import DepaKms.ServiceRequest
import DepaKms.KeyRotationPolicy
import DepaKms.KeyMaterial

set_option autoImplicit false

/-!
# The endpoints for public keys, and the one that makes new keys
-/
namespace DepaKms

variable (h : Host) (t : Moment) (kv : Kv)

/-- An error that an endpoint catches is written to the console before it is answered. -/
def caughtError {α : Type} (logContext : LogContext) (errorMessage : String) :
    Handler (ServiceResult α) := do
  .emit (.consoleError errorMessage)
  ServiceResult.failed h.toEngine (.of errorMessage) 500 logContext []

/-- The latest key on offer: the latest one old enough, or else the latest one. -/
def offeredKey (logContext : LogContext) : Handler (ℕ × Option String) := do
  let latestExposable ← KeyRotationPolicy.getLatestExposableKey h.toEngine t kv.keyRotation
    (LastestItemStore.size kv) (LastestItemStore.get kv)
    (fun k => KeyStore.get kv (.ofString k)) logContext
  match latestExposable with
  | some (id, kid) => pure (id, some kid)
  | none => LastestItemStore.latestItem kv

def listpubkeysBody (logContext : LogContext) : Handler (ServiceResult ITinkPublicKeySet) := do
  let (_, kid) ← offeredKey h t kv logContext
  match kid with
  | none =>
    ServiceResult.failed h.toEngine (.of "listpubkeys: No keys in store") 400 logContext []
  | some kid => do
    let keyItem ← KeyStore.get kv (.ofString kid)
    match keyItem with
    | none =>
      ServiceResult.failed h.toEngine (.of s!"listpubkeys: kid {kid} not found in store") 404
        logContext []
    | some keyItem => do
      let publicKey ← tinkPublicKey h { keyItem with d := none }
      ServiceResult.succeeded h.toEngine publicKey logContext (some (setKeyHeaders h.toEngine t))

def listpubkeys (request : Request) : Handler (ServiceResult ITinkPublicKeySet) := do
  let serviceRequest ← ServiceRequest.new h t kv (LogContext.new.appendScope "listpubkeys") request
  let logContext := serviceRequest.logContext
  match ← serviceRequest.isAuthenticated h kv with
  | (_, .failure error code headers) => pure (.failure error code headers)
  | _ =>
    tryCatch (listpubkeysBody h t kv logContext) fun exception =>
      caughtError h logContext s!"listpubkeys: Error: {exception.message}"

inductive PublicKeyResponse where
  | jwk (keyItem : IKeyItem)
  | tink (keySet : ITinkKeySet)

instance : Serializable PublicKeyResponse :=
  ⟨fun
    | .jwk keyItem => .json keyItem.toJson
    | .tink keySet => Serializable.toJson keySet⟩

def pubkeySelection (query : Option Query) (logContext : LogContext) :
    Handler (Option ℕ × Option String) :=
  match (queryGet query "kid").filter fun s => s ≠ "" with
  | some kid => pure (none, some kid)
  | none => do
    let (id, kid) ← offeredKey h t kv logContext
    pure (some id, kid)

def pubkeyAnswer (logContext : LogContext) (fmt : String) (keyItem : IKeyItem) (receipt : String) :
    Handler (ServiceResult PublicKeyResponse) := do
  Logger.debug h.toEngine s!"pubkey->Receipt: {receipt}" none []
  let keyItem := { keyItem with receipt := some receipt, d := none }
  if fmt = "tink" then do
    let headers := setKeyHeaders h.toEngine t
    Logger.debug h.toEngine "response headers: " none [.json (.obj headers), .json keyItem.toJson]
    Logger.debug h.toEngine "tinkKey: " none [.json (.obj [("keyItem", .arr [keyItem.toJson])])]
    let publicKey ← tinkKey h keyItem
    ServiceResult.succeeded h.toEngine (.tink { publicKey with receipt := some receipt }) logContext
      (some headers)
  else ServiceResult.succeeded h.toEngine (.jwk keyItem) logContext none

def pubkeyBody (serviceRequest : ServiceRequest) (kid : Option String) :
    Handler (ServiceResult PublicKeyResponse) := do
  let logContext := serviceRequest.logContext
  match kid with
  | none =>
    ServiceResult.failed h.toEngine (.of "pubkey: No keys in store") 400 logContext []
  | some kid =>
    let fmt := ((queryGet serviceRequest.query "fmt").filter fun s => s ≠ "").getD "jwk"
    if fmt = "jwk" ∨ fmt = "tink" then do
      Logger.debug h.toEngine s!"Get key with kid {kid}" none []
      let keyItem ← KeyStore.get kv (.ofString kid)
      match keyItem with
      | none =>
        ServiceResult.failed h.toEngine (.of s!"kid {kid} not found in store") 404 logContext []
      | some keyItem => do
        let receipt ← KeyStore.receipt h.toEngine t kv kid
        match receipt with
        | some receipt => pubkeyAnswer h t logContext fmt keyItem receipt
        | none => ServiceResult.accepted h.toEngine logContext
    else
      ServiceResult.failed h.toEngine
        (.of s!"pubkey: Wrong fmt query parameter '{fmt}'. Must be jwt or tink.") 400 logContext []

/-- What `pubkey` does for an authenticated caller. The id is known to the handler of errors
    once the selection has returned. -/
def pubkeyServe (serviceRequest : ServiceRequest) : Handler (ServiceResult PublicKeyResponse) := do
  let logContext := serviceRequest.logContext
  let selection ← tryCatch
    (do
      let (id, kid) ← pubkeySelection h t kv serviceRequest.query logContext
      pure (Except.ok (id, kid)))
    fun exception => do
      let failed ← caughtError h logContext s!"pubkey: Error (undefined): {exception.message}"
      pure (Except.error failed)
  match selection with
  | .error failed => pure failed
  | .ok (id, kid) =>
    tryCatch (pubkeyBody h t kv serviceRequest kid) fun exception =>
      let idText := undefinedText (id.map toString)
      caughtError h logContext s!"pubkey: Error ({idText}): {exception.message}"

def pubkey (request : Request) : Handler (ServiceResult PublicKeyResponse) := do
  let serviceRequest ← ServiceRequest.new h t kv (LogContext.new.appendScope "pubkey") request
  match ← serviceRequest.isAuthenticated h kv with
  | (_, .failure error code headers) => pure (.failure error code headers)
  | _ => pubkeyServe h t kv serviceRequest

def refreshBody (keys : CryptoKeyPair) (logContext : LogContext) (expiry : Option ℚ) :
    Handler (ServiceResult IKeyItem × Kv) := do
  let id := LastestItemStore.size kv + 1
  let generated ← KeyGeneration.generateKeyItem h t keys (id % 90 + 10) expiry
  let kid := s!"{undefinedText generated.kid}_{id}"
  let keyItem := { generated with kid := some kid }
  let kv ← LastestItemStore.storeItem kv id kid
  let kv := KeyStore.storeItem kv kid keyItem
  Logger.info h.toEngine s!"Key item with id {id} and kid {kid} stored" (some logContext) []
  let ret ← ServiceResult.succeeded h.toEngine { keyItem with d := none } logContext none
  pure (ret, kv)

/-- The response, and the maps as the call leaves them. -/
def refresh (keys : CryptoKeyPair) (request : Request) : Handler (ServiceResult IKeyItem × Kv) := do
  let serviceRequest ← ServiceRequest.new h t kv (LogContext.new.appendScope "refresh") request
  let logContext := serviceRequest.logContext
  match ← serviceRequest.isAuthenticated h kv with
  | (_, .failure error code headers) => pure (.failure error code headers, kv)
  | _ => do
    Logger.info h.toEngine s!"Creation time: {h.numberToString t.now}" (some logContext) []
    let times ← KeyRotationPolicy.getKeyItemExpiryTime h.toEngine t kv.keyRotation (some t.now)
      logContext
    match times with
    | some times =>
      Logger.info h.toEngine
        s!"refresh: Key rotation policy defined. Expiry: {numberText h.toEngine times.expiryTimeMs}"
        (some logContext) []
    | none =>
      Logger.info h.toEngine "refresh: Key rotation policy not defined" (some logContext) []
    tryCatch (refreshBody h t kv keys logContext (times.bind IExpiryTimes.expiryTimeMs))
      fun exception => do
        let failed ← caughtError h logContext s!"refresh: Error: {exception.message}"
        pure (failed, kv)

end DepaKms
