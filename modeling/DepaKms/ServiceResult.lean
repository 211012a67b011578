import DepaKms.Logger

set_option autoImplicit false

/-!
# Results of a service

The three constructors are the three factory methods of the source, so a result
with an error and status 200, or a body and a failure, cannot be built.
-/
namespace DepaKms

/-- Bodies as the log shows them; `undefined` for a body without JSON. -/
class Serializable (α : Type) where
  toJson : α → JsValue

instance : Serializable JsValue := ⟨id⟩

structure ErrorResponse where
  errorMessage : String
  errorType : Option String

/-- Only `AuthenticationError` is ever given a type. -/
def ErrorResponse.of (errorMessage : String) : ErrorResponse := ⟨errorMessage, none⟩

def ErrorResponse.toJson (e : ErrorResponse) : Json :=
  .obj (("errorMessage", .str e.errorMessage) ::
    e.errorType.toList.map fun t => ("errorType", .str t))

abbrev Headers : Type := List (String × Json)

inductive ServiceResult (α : Type) where
  | success (body : α) (headers : Headers)
  | pending (headers : Headers)
  | failure (error : ErrorResponse) (code : ℕ) (headers : Headers)

namespace ServiceResult

variable {α : Type}

def statusCode : ServiceResult α → ℕ
  | success _ _ => 200
  | pending _ => 202
  | failure _ code _ => code

def body : ServiceResult α → Option α
  | success b _ => some b
  | _ => none

def headers : ServiceResult α → Headers
  | success _ hs | pending hs | failure _ _ hs => hs

def isFailure : ServiceResult α → Bool
  | failure _ _ _ => true
  | _ => false

def toJson [Serializable α] (r : ServiceResult α) : Json :=
  let shownBody :=
    match r.body.map Serializable.toJson with
    | some (.json v) => [("body", v)]
    | _ => []
  let shownError :=
    match r with
    | failure error _ _ => [("error", error.toJson)]
    | _ => []
  .obj (shownBody ++ shownError ++
    [("success", .bool !r.isFailure), ("failure", .bool r.isFailure),
      ("statusCode", .num r.statusCode), ("status", .str (if r.isFailure then "Error" else "Success")),
      ("headers", .obj r.headers)])

def KMS_REQUEST_ID_HEADER : String := "x-ms-kms-request-id"

def withRequestId (logContext : LogContext) (headers : Headers) : Headers :=
  match logContext.activeRequestId with
  | some requestId => assign headers KMS_REQUEST_ID_HEADER (.str requestId)
  | none => headers

def responseJson [Serializable α] (body : α) (logContext : LogContext)
    (headers : Option Headers) : Json :=
  let shown :=
    match logContext.activeRequestId with
    | some _ => some (withRequestId logContext (headers.getD []))
    | none => headers
  .obj ((shown.toList.map fun hs => ("headers", .obj hs)) ++
    match Serializable.toJson body with
    | .json v => [("body", v)]
    | _ => [])

def succeeded (E : Engine) [Serializable α] (body : α) (logContext : LogContext)
    (headers : Option Headers) : Handler (ServiceResult α) := do
  Logger.info E "Response Succeeded: 200" (some logContext) []
  Logger.debug E "Response: " (some logContext) [.json (responseJson body logContext headers)]
  pure (success body (withRequestId logContext (headers.getD [])))

def accepted (E : Engine) (logContext : LogContext) : Handler (ServiceResult α) := do
  Logger.debug E "Response Accepted: 202" (some logContext) []
  pure (pending (withRequestId logContext [("retry-after", .num 3)]))

def failed (E : Engine) (error : ErrorResponse) (statusCode : ℕ) (logContext : LogContext)
    (headers : Headers) : Handler (ServiceResult α) := do
  Logger.error E s!"Failed result: {statusCode}," (some logContext) [.json error.toJson]
  pure (failure
    { error with errorMessage := s!"{logContext.toString} {error.errorMessage}" } statusCode
    (withRequestId logContext headers))

variable (E : Engine) [Serializable α]

@[simp] theorem result_succeeded (body : α) (logContext : LogContext) (headers : Option Headers) :
    (succeeded E body logContext headers).result =
      .ok (success body (withRequestId logContext (headers.getD []))) := rfl

omit [Serializable α] in
@[simp] theorem result_accepted (logContext : LogContext) :
    (accepted E logContext : Handler (ServiceResult α)).result =
      .ok (pending (withRequestId logContext [("retry-after", .num 3)])) := rfl

omit [Serializable α] in
@[simp] theorem result_failed (error : ErrorResponse) (statusCode : ℕ) (logContext : LogContext)
    (headers : Headers) :
    (failed E error statusCode logContext headers : Handler (ServiceResult α)).result =
      .ok (failure
        { error with errorMessage := s!"{logContext.toString} {error.errorMessage}" } statusCode
        (withRequestId logContext headers)) := rfl

end ServiceResult

end DepaKms
