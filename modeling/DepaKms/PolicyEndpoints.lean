import DepaKms.Actions
import DepaKms.ServiceRequest

set_option autoImplicit false

/-!
# The endpoints of the service itself, and those that show the policies
-/
namespace DepaKms

structure IAuthResponse where
  auth : Option Caller

structure IHeartbeatResponse where
  status : String

/-- In the log the identity stands as its text. -/
instance : Serializable IAuthResponse :=
  ⟨fun r => .json (.obj (r.auth.toList.map fun caller => ("auth", .str caller.text)))⟩

instance : Serializable IHeartbeatResponse := ⟨fun r => .json (.obj [("status", .str r.status)])⟩

instance : Serializable IKeyReleasePolicy := ⟨fun p => .json p.toJson⟩

instance : Serializable Json := ⟨.json⟩

variable (h : Host) (t : Moment) (kv : Kv)

def auth (request : Request) : Handler (ServiceResult IAuthResponse) := do
  let serviceRequest ← ServiceRequest.new h t kv (LogContext.new.appendScope "authEndpoint") request
  match ← serviceRequest.isAuthenticated h kv with
  | (_, .failure error code headers) => pure (.failure error code headers)
  | (policy, _) =>
    ServiceResult.succeeded h.toEngine (IAuthResponse.mk policy) serviceRequest.logContext none

def heartbeat (request : Request) : Handler (ServiceResult IHeartbeatResponse) := do
  let serviceRequest ← ServiceRequest.new h t kv (LogContext.new.appendScope "heartbeatEndpoint")
    request
  ServiceResult.succeeded h.toEngine (IHeartbeatResponse.mk "Service is running")
    serviceRequest.logContext none

/-- What the three endpoints share: a caller that is authenticated is shown the policy that is
    read, and an error of the reading is answered. -/
def showPolicy {α : Type} [Serializable α] (scope : String)
    (read : LogContext → Handler α) (request : Request) : Handler (ServiceResult α) := do
  let serviceRequest ← ServiceRequest.new h t kv (LogContext.new.appendScope scope) request
  let logContext := serviceRequest.logContext
  match ← serviceRequest.isAuthenticated h kv with
  | (_, .failure error code headers) => pure (.failure error code headers)
  | _ =>
    tryCatch
      (do
        let result ← read logContext
        ServiceResult.succeeded h.toEngine result logContext none)
      fun error => ServiceResult.failed h.toEngine (.of error.message) 500 logContext []

def settingsPolicy (request : Request) : Handler (ServiceResult Json) :=
  showPolicy h t kv "settingsPolicyEndpoint"
    (fun logContext => Settings.loadSettingsFromMap h kv.settings logContext) request

def keyReleasePolicy (request : Request) : Handler (ServiceResult IKeyReleasePolicy) :=
  showPolicy h t kv "keyReleasePolicyEndpoint"
    (fun logContext =>
      KeyReleasePolicy.getKeyReleasePolicyFromMap h.toEngine kv.keyRelease (some logContext))
    request

/-- The loop over the issuers. A policy that does not parse is left out. -/
def collectPolicies (E : Engine) (logContext : LogContext) (allPolicies : Json) :
    List (Sigma fun _ : String => KvText) → Handler Json
  | [] => pure allPolicies
  | ⟨issuerKey, .json policy⟩ :: entries => do
    let allPolicies ← setProperty allPolicies issuerKey policy
    Logger.debug E s!"JWT validation policy for issuer {issuerKey}: {policy.stringify E}"
      (some logContext) []
    collectPolicies E logContext allPolicies entries
  | ⟨issuerKey, .raw _⟩ :: entries => do
    Logger.error E s!"Failed to parse policy for issuer {issuerKey}: unexpected token"
      (some logContext) []
    collectPolicies E logContext allPolicies entries

def jwtValidationPolicy (request : Request) : Handler (ServiceResult Json) :=
  showPolicy h t kv "jwtValidationPolicyEndpoint"
    (fun logContext =>
      collectPolicies h.toEngine logContext (.obj []) kv.jwtValidation.entries) request

end DepaKms
