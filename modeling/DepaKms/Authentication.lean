import DepaKms.Tooling

set_option autoImplicit false

/-!
# Authentication of the caller
-/
namespace DepaKms

instance : Serializable Bool := ⟨fun b => .json (.bool b)⟩

def authenticationError (errorMessage : String) : ErrorResponse :=
  ⟨errorMessage, some "AuthenticationError"⟩

def required {α : Type} (key : String) : Option α → Except JsError α
  | some a => .ok a
  | none => .error (cannotRead key "undefined")

theorem required_iff {α : Type} {key : String} {o : Option α} {a : α} :
    required key o = .ok a ↔ o = some a := by
  cases o <;> simp [required]

def bufferKey : Option String → Except JsError String
  | some s => .ok s
  | none => .error ⟨"Argument must be a string"⟩

def idValue : Option String → JsValue
  | some id => .ofString id
  | none => .undefined

namespace UserCertValidator

def isUser (h : Host) (kv : Kv) (logContext : LogContext) (userId : Option String) :
    Handler (ServiceResult Bool) := do
  let userId ← bufferKey userId
  ServiceResult.succeeded h.toEngine (decide (userId ∈ kv.usersCerts)) logContext none

def validate (h : Host) (kv : Kv) (logContext : LogContext) (caller : Caller) :
    Handler (ServiceResult JsValue) := do
  let isValid ← isUser h kv logContext caller.id
  if isValid.body = some true then
    ServiceResult.succeeded h.toEngine (idValue caller.id) logContext none
  else
    ServiceResult.failed h.toEngine (authenticationError
      s!"Error: invalid caller identity (UserCertValidator)->{isValid.toJson.stringify h.toEngine}")
      400 logContext []

end UserCertValidator

namespace MemberCertValidator

def activeMember (memberInfo : Json) (isMember : Bool) : Except JsError JsValue :=
  if memberInfo.truthy then do
    let status ← memberInfo.get "status"
    pure (.json (.bool (status.strictEq (.ofString "Active") && isMember)))
  else pure (.json memberInfo)

def isActiveMember (h : Host) (kv : Kv) (logContext : LogContext) (memberId : Option String) :
    Handler (ServiceResult JsValue) := do
  let memberId ← bufferKey memberId
  match kv.membersInfo.lookup memberId with
  | some (.json memberInfo) => do
    let active ← activeMember memberInfo (decide (memberId ∈ kv.membersCerts))
    ServiceResult.succeeded h.toEngine active logContext none
  | some (.raw _) => throw ⟨"Failed to parse JSON"⟩
  | none =>
    ServiceResult.failed h.toEngine (.of "Member information is undefined.") 400 logContext []

def validate (h : Host) (kv : Kv) (logContext : LogContext) (caller : Caller) :
    Handler (ServiceResult JsValue) := do
  let isValid ← isActiveMember h kv logContext caller.id
  if (isValid.body.map JsValue.truthy) = some true then
    ServiceResult.succeeded h.toEngine (idValue caller.id) logContext none
  else
    ServiceResult.failed h.toEngine (authenticationError
      s!"Error: invalid caller identity (MemberCertValidator)->{isValid.toJson.stringify h.toEngine}")
      400 logContext []

end MemberCertValidator

namespace UserCoseValidator

def isUser (h : Host) (kv : Kv) (logContext : LogContext) (userId : Option String) :
    Handler (ServiceResult Bool) := UserCertValidator.isUser h kv logContext userId

/-- `caller.policy === policy`; a list of policies is no string. -/
def hasPolicy (caller : Caller) (policy : String) : Bool :=
  match caller.policy with
  | .one p => p == policy
  | .all _ => false

def validate (h : Host) (kv : Kv) (logContext : LogContext) (request : Request) :
    Handler (ServiceResult JsValue) :=
  match request.caller with
  | none =>
    ServiceResult.failed h.toEngine (.of "No caller provided for COSE signature") 401 logContext []
  | some caller =>
    if hasPolicy caller "user_cose_sign1" then do
      let empty ← if request.body.length > 0 then
          (required "content" caller.coseContent).map fun content => content.length == 0
        else pure false
      if empty then
        ServiceResult.failed h.toEngine (.of "No cose content to validate") 401 logContext []
      else do
        let isValid ← isUser h kv logContext caller.id
        if isValid.isFailure then
          ServiceResult.failed h.toEngine (authenticationError
            s!"Error: invalid caller identity (UserCoseValidator)->{isValid.toJson.stringify h.toEngine}")
            401 logContext []
        else ServiceResult.succeeded h.toEngine (idValue caller.id) logContext none
    else
      ServiceResult.failed h.toEngine (.of "Policy is not user_cose_sign1") 401 logContext []

end UserCoseValidator

namespace JwtValidationPolicyMap

def logIssuers (h : Host) (logContext : LogContext) :
    List (Sigma fun _ : String => KvText) → Handler Unit
  | [] => pure ()
  | ⟨issuer, .json info⟩ :: issuers => do
    Logger.debug h.toEngine s!"Issuer: {issuer}: {info.stringify h.toEngine}" (some logContext) []
    logIssuers h logContext issuers
  | ⟨_, .raw _⟩ :: _ => throw ⟨"Failed to parse JSON"⟩

def read (h : Host) (kv : Kv) (issuer : JsValue) (logContextIn : LogContext) :
    Handler (Option Json) := do
  let logContext := LogContext.within (some logContextIn) "JwtValidationPolicyMap"
  logIssuers h logContext kv.jwtIssuers.entries
  let issuer ← stringKey issuer
  match kv.jwtValidation.lookup issuer with
  | none => do
    Logger.error h.toEngine s!"No JWT validation Policy for issuer: {issuer}" (some logContext) []
    pure none
  | some policy => do
    Logger.debug h.toEngine
      s!"JWT validation: Policy: {policy.bufToStr h.toEngine} for issuer: {issuer}"
      (some logContext) []
    match policy with
    | .json v => pure (some v)
    | .raw _ => throw ⟨"unexpected token"⟩

end JwtValidationPolicyMap

namespace JwtValidator

def logContext : LogContext := LogContext.new.appendScope "JwtValidator"

/-- A list is met by one of its elements, anything else by itself; both are `===`. -/
def compliant (expected : Json) (jwtProp : JsValue) : Bool :=
  match expected, jwtProp with
  | .arr xs, .json v => Json.includes xs v
  | .arr _, _ => false
  | e, v => v.strictEq (.json e)

def checkLoop (h : Host) (payload : JsValue) :
    List (String × Json) → Handler (Option (ServiceResult JsValue))
  | [] => pure none
  | (key, expected) :: entries => do
    let jwtProp ← payload.get key
    let expectedText ← expected.render h.toEngine
    let found ← jwtProp.render h.toEngine
    Logger.debug h.toEngine
      s!"isValidJwtToken: {key}, expected: {expectedText}, found: {found}, {compliant expected jwtProp}"
      (some logContext) []
    if compliant expected jwtProp then checkLoop h payload entries
    else do
      let errorMessage := s!"The JWT has no valid {key}, expected: {expectedText}, found: {found}"
      Logger.error h.toEngine errorMessage (some logContext) []
      let failure ← ServiceResult.failed h.toEngine (authenticationError errorMessage) 401
        logContext []
      pure (some failure)

def validate (h : Host) (kv : Kv) (caller : Caller) : Handler (ServiceResult JsValue) := do
  let jwt ← required "keyIssuer" caller.jwt
  Logger.debug h.toEngine s!"Authorization: JWT jwtCaller (JwtValidator)-> {jwt.keyIssuer}"
    (some logContext) []
  let issuer ← jwt.payload.getOptional "iss"
  if issuer.truthy then do
    let policy ← JwtValidationPolicyMap.read h kv issuer logContext
    let issuerText ← issuer.render h.toEngine
    match policy with
    | none => do
      let errorMessage := s!"issuer {issuerText} is not defined in the policy"
      Logger.error h.toEngine errorMessage (some logContext) []
      ServiceResult.failed h.toEngine (authenticationError errorMessage) 500 logContext []
    | some policy => do
      Logger.debug h.toEngine
        s!"Validate JWT policy for issuer {issuerText}: {policy.stringify h.toEngine}"
        (some logContext) []
      let entries ← policy.ownEntries
      match ← checkLoop h jwt.payload entries with
      | some failure => pure failure
      | none => do
        let identityId ← jwt.payload.getOptional "oid"
        Logger.debug h.toEngine
          s!"Authorization: JWT validation result (JwtValidator) for provider {jwt.keyIssuer}-> success"
          (some logContext) []
        ServiceResult.succeeded h.toEngine identityId logContext none
  else
    ServiceResult.failed h.toEngine (authenticationError "The JWT has no valid iss") 400
      logContext []

end JwtValidator

def CallerPolicy.render : CallerPolicy → String
  | .one policy => policy
  | .all policies => String.intercalate "," policies

namespace AuthenticationService

def logContext (logContextIn : LogContext) : LogContext :=
  LogContext.within (some logContextIn) "AuthenticationService"

/-- The validator registered for the policy; without one the call throws. -/
def validate (h : Host) (kv : Kv) (logContext : LogContext) (request : Request)
    (caller : Caller) : Handler (ServiceResult JsValue) :=
  match caller.policy with
  | .one "jwt" => JwtValidator.validate h kv caller
  | .one "user_cert" =>
    UserCertValidator.validate h kv (LogContext.within (some logContext) "UserCertValidator") caller
  | .one "member_cert" =>
    MemberCertValidator.validate h kv
      (LogContext.within (some logContext) "MemberCertValidator") caller
  | .one "user_cose_sign1" =>
    UserCoseValidator.validate h kv
      (LogContext.within (some logContext) "UserCoseValidator") request
  | _ => throw (cannotRead "validate" "undefined")

def isAuthenticated (h : Host) (kv : Kv) (logContextIn : LogContext) (request : Request) :
    Handler (Option Caller × ServiceResult JsValue) :=
  let logContext := logContext logContextIn
  tryCatch
    (match request.caller with
    | none => do
      let anonymous ← ServiceResult.succeeded h.toEngine (JsValue.ofString "") logContext none
      pure (none, anonymous)
    | some caller => do
      Logger.debug h.toEngine
        s!"Authorization: isAuthenticated result (AuthenticationService)-> {caller.policy.render},{caller.text}"
        (some logContext) []
      let identity ← validate h kv logContext request caller
      pure (some caller, identity))
    fun ex => do
      let failure ← ServiceResult.failed h.toEngine (authenticationError
        s!"Error: invalid caller identity (AuthenticationService)-> {ex.render}") 400 logContext []
      pure (none, failure)

end AuthenticationService

end DepaKms
