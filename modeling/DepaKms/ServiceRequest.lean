import DepaKms.Settings
import DepaKms.Authentication

set_option autoImplicit false

/-!
# The request as the handlers see it
-/
namespace DepaKms

structure ServiceRequest where
  success : Bool
  body : Option Json
  query : Option Query
  error : Option ErrorResponse
  requestId : Option String
  /-- The context the handler goes on with: the constructor sets its request id. -/
  logContext : LogContext
  request : Request

namespace ServiceRequest

def requestIdHeaderList : List String :=
  ["x-ms-kms-request-id", "x-ms-request-id", "x-request-id", "request-id", "requestid"]

def requestIdFromHeader (logContext : LogContext) (request : Request) : Option String :=
  match logContext.activeRequestId with
  | some requestId => some requestId
  | none =>
    (requestIdHeaderList.findSome? fun header => request.headers.lookup header).filter
      fun s => s ≠ ""

def shownHeaders (request : Request) : List (String × Json) :=
  let isAuthorization (name : String) : Bool := name == "Authorization" || name == "authorization"
  let otherHeaders := request.headers.filter fun f => !isAuthorization f.1
  let hasAuthorization := request.headers.any fun f => isAuthorization f.1 && f.2 != ""
  otherHeaders.map (fun f => (f.1, .str f.2)) ++
    if hasAuthorization then [("authorization", .str "token deleted for logging")] else []

/-- The request as it is logged, without the token. -/
def requestWithoutAuth (request : Request) (body : Option Json) : Json :=
  .obj (request.properties ++ [("headers", .obj (shownHeaders request))] ++
    body.toList.map fun v => ("body", v))

def parseBody (E : Engine) (logContext : LogContext) (request : Request) :
    Handler (Option Json) :=
  tryCatch
    (do
      let body ← request.bodyJson
      pure (some body))
    fun _ => do
      Logger.info E "No JSON body found" (some logContext) []
      pure none

def construct (h : Host) (t : Moment) (logContextIn : LogContext) (request : Request)
    (settings : Json) : Handler ServiceRequest := do
  Settings.setLogLevelFromSettings settings
  Settings.logSettings h.toEngine settings
  let requestId := (requestIdFromHeader logContextIn request).getD (h.numberToString t.now)
  if (requestIdFromHeader logContextIn request).isNone then
    Logger.warn h.toEngine
      s!"Request ID not provided. Using current timestamp as request ID: {requestId}"
      (some logContextIn) []
  let logContext := logContextIn.setRequestId requestId
  Logger.info h.toEngine "ServiceRequest" (some logContext) []
  let body ← parseBody h.toEngine logContext request
  Logger.debug h.toEngine "Request:" (some logContext)
    [.ofString ((requestWithoutAuth request body).pretty h.toEngine "")]
  let query ← queryParams h.toEngine request (some logContext)
  pure ⟨true, body, some query, none, some requestId, logContext, request⟩

def new (h : Host) (t : Moment) (kv : Kv) (logContextIn : LogContext) (request : Request) :
    Handler ServiceRequest := do
  let settings ← tryCatch
    (do
      let settings ← Settings.loadSettingsFromMap h kv.settings logContextIn
      pure (Except.ok settings))
    fun error => do
      let scope ← logContextIn.getBaseScope.render h.toEngine
      let errorMessage := s!"{scope}: Error loading settings: {error.render}"
      Logger.error h.toEngine errorMessage (some logContextIn) []
      pure (Except.error (ErrorResponse.of errorMessage))
  match settings with
  | .ok settings => construct h t logContextIn request settings
  | .error error => pure ⟨false, none, none, some error, none, logContextIn, request⟩

def isAuthenticated (h : Host) (kv : Kv) (r : ServiceRequest) :
    Handler (Option Caller × ServiceResult JsValue) := do
  let (policy, isValidIdentity) ← AuthenticationService.isAuthenticated h kv r.logContext r.request
  Logger.debug h.toEngine
    s!"Authorization: isAuthenticated-> {isValidIdentity.toJson.stringify h.toEngine}"
    (some r.logContext) []
  pure (policy, isValidIdentity)

end ServiceRequest

end DepaKms
