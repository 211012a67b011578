import DepaKms.ReleasedKeys

set_option autoImplicit false

/-!
# The nonce of a token

A token carries one nonce or a list of them. The binding of `unwrapKeyGcp` looks at the
first one only.
-/
namespace DepaKms

variable {h : Host} {t : Moment} {kv : Kv} {request : Request}

inductive NonceClaim where
  | text (nonce : String)
  | list (nonces : List String)

namespace NonceClaim

def json : NonceClaim → Json
  | text nonce => .str nonce
  | list nonces => .arr (nonces.map .str)

def value (claim : NonceClaim) : JsValue := .json claim.json

def nonces : NonceClaim → List String
  | text nonce => [nonce]
  | list nonces => nonces

/-- The nonce that is compared. -/
def first (claim : NonceClaim) : Option String := claim.nonces.head?

theorem expectedNonce_value {claim : NonceClaim} {nonce : String}
    (hf : claim.first = some nonce) : expectedNonce claim.value = .ofString nonce := by
  cases claim with
  | text s =>
    cases hf
    rfl
  | list xs =>
    obtain ⟨rest, rfl⟩ := List.head?_eq_some_iff.mp hf
    rfl

end NonceClaim

/-- The request comes to the binding with this key and this claim. -/
structure ComesToBinding (h : Host) (t : Moment) (kv : Kv) (request : Request)
    (serviceRequest : ServiceRequest) (wrappingKey : String) (claim : NonceClaim) : Prop where
  identified : Identified h t kv "unwrapKeyGcp" request serviceRequest
  key : gcpWrappingKey serviceRequest request = .ok (.ofString wrappingKey)
  isPem : IsPemPublicKey wrappingKey
  claimField : eatNonce request = .ok claim.value

/-- The request passes the binding: what follows is the release of the newest key. -/
def PassesBinding (h : Host) (t : Moment) (kv : Kv) (request : Request)
    (serviceRequest : ServiceRequest) (wrappingKey : String) : Prop :=
  (unwrapKeyGcp h t kv request).result =
    (gcpRelease h t kv serviceRequest.logContext (strToBuf (normalized wrappingKey))).result

def errorCode {α : Type} (r : ServiceResult α) : Option Json :=
  r.headers.lookup "x-ms-kms-error-code"

/-- The request is refused with 400 for its nonce. -/
def RefusedForNonce (h : Host) (t : Moment) (kv : Kv) (request : Request) : Prop :=
  ∃ refusal, (unwrapKeyGcp h t kv request).result = .ok refusal ∧ refusal.isFailure = true ∧
    refusal.statusCode = 400 ∧ (errorCode refusal = some (.str "EAT_NONCE_MISMATCH") ∨
      errorCode refusal = some (.str "MISSING_EAT_NONCE"))

theorem lookup_withRequestId (logContext : LogContext) (headers : Headers) {name : String}
    (hname : name ≠ ServiceResult.KMS_REQUEST_ID_HEADER) :
    (ServiceResult.withRequestId logContext headers).lookup name = headers.lookup name := by
  unfold ServiceResult.withRequestId
  cases logContext.activeRequestId with
  | none => rfl
  | some requestId => rw [lookup_assign, if_neg hname]

theorem errorCode_failed {α : Type} (E : Engine) (error : ErrorResponse) (code : ℕ)
    (logContext : LogContext) (headers : Headers) :
    Logged.Ensures (ServiceResult.failed E error code logContext headers : Handler (ServiceResult α))
      fun r => errorCode r = headers.lookup "x-ms-kms-error-code" := by
  intro r hr
  cases hr
  exact lookup_withRequestId logContext headers (by decide)

theorem errorCode_succeeded {α : Type} [Serializable α] (E : Engine) (body : α)
    (logContext : LogContext) (headers : Option Headers) :
    Logged.Ensures (ServiceResult.succeeded E body logContext headers)
      fun r => errorCode r = (headers.getD []).lookup "x-ms-kms-error-code" := by
  intro r hr
  cases hr
  exact lookup_withRequestId logContext _ (by decide)

/-- The release gives no error codes. -/
theorem gcpRelease_errorCode (logContext : LogContext) (wrappingKey : Bytes) :
    Logged.Ensures (gcpRelease h t kv logContext wrappingKey) fun r => errorCode r = none := by
  refine .skip fun latest => ?_
  obtain ⟨id, kid⟩ := latest
  cases kid with
  | none => exact (errorCode_failed _ _ _ _ _).mono fun r hr => hr
  | some kid =>
  refine .skip fun found => ?_
  cases found with
  | none => exact (errorCode_failed _ _ _ _ _).mono fun r hr => hr
  | some item =>
  refine .skip fun receipt => .tryCatch (.skip fun bytes => ?_) fun exception => ?_
  · exact (errorCode_succeeded _ _ _ _).mono fun r hr => hr
  · exact (errorCode_failed _ _ _ _ _).mono fun r hr => hr

theorem not_passes_of_refused {serviceRequest : ServiceRequest} {wrappingKey : String}
    (hr : RefusedForNonce h t kv request) :
    ¬ PassesBinding h t kv request serviceRequest wrappingKey := by
  intro hp
  obtain ⟨refusal, hresult, -, -, hcode⟩ := hr
  rw [hp] at hresult
  rw [gcpRelease_errorCode _ _ refusal hresult] at hcode
  rcases hcode with hcode | hcode
  · cases hcode
  · cases hcode

theorem refused_of_failed {error : ErrorResponse} {logContext : LogContext} {headers : Headers}
    (hr : (unwrapKeyGcp h t kv request).result =
      (ServiceResult.failed h.toEngine error 400 logContext headers).result)
    (hcode : headers.lookup "x-ms-kms-error-code" = some (.str "EAT_NONCE_MISMATCH") ∨
      headers.lookup "x-ms-kms-error-code" = some (.str "MISSING_EAT_NONCE")) :
    RefusedForNonce h t kv request := by
  refine ⟨_, hr, rfl, rfl, ?_⟩
  rw [errorCode_failed h.toEngine error 400 logContext headers _ rfl]
  exact hcode

section Binding

variable {serviceRequest : ServiceRequest} {wrappingKey nonce : String} {claim : NonceClaim}

theorem passes_of_hash (hc : ComesToBinding h t kv request serviceRequest wrappingKey claim)
    (hf : claim.first = some (gcpHash h wrappingKey)) :
    PassesBinding h t kv request serviceRequest wrappingKey := by
  have hnonce := NonceClaim.expectedNonce_value hf
  unfold PassesBinding
  rw [result_unwrapKeyGcp hc.identified hc.key hc.isPem hc.claimField,
    if_pos (claim_truthy hnonce), result_gcpBinding hnonce, if_pos rfl]

theorem refused_of_other (hc : ComesToBinding h t kv request serviceRequest wrappingKey claim)
    (hf : claim.first = some nonce) (hne : nonce ≠ gcpHash h wrappingKey) :
    RefusedForNonce h t kv request := by
  have hresult := result_unwrapKeyGcp hc.identified hc.key hc.isPem hc.claimField
  split_ifs at hresult with htruthy
  · rw [result_gcpBinding (NonceClaim.expectedNonce_value hf), if_neg hne] at hresult
    exact refused_of_failed hresult (.inl rfl)
  · exact refused_of_failed hresult (.inr rfl)

/-- The binding is passed just when the first nonce is the hash of the key, and refused with 400
    otherwise; the other nonces make no difference. -/
theorem binding_passed_iff (h : Host) (t : Moment) (kv : Kv) (request : Request)
    (serviceRequest : ServiceRequest) (wrappingKey nonce : String) (claim : NonceClaim)
    (hc : ComesToBinding h t kv request serviceRequest wrappingKey claim)
    (hf : claim.first = some nonce) :
    (PassesBinding h t kv request serviceRequest wrappingKey ↔ nonce = gcpHash h wrappingKey) ∧
      (¬ PassesBinding h t kv request serviceRequest wrappingKey ↔
        RefusedForNonce h t kv request) := by
  by_cases heq : nonce = gcpHash h wrappingKey
  · subst heq
    have hpasses := passes_of_hash hc hf
    exact ⟨iff_of_true hpasses rfl,
      iff_of_false (not_not_intro hpasses) fun hr => not_passes_of_refused hr hpasses⟩
  · have hrefused := refused_of_other hc hf heq
    have hnot : ¬ PassesBinding h t kv request serviceRequest wrappingKey :=
      not_passes_of_refused hrefused
    exact ⟨iff_of_false hnot heq, iff_of_true hnot hrefused⟩

end Binding

def nonceRequest (claim : NonceClaim) : Request :=
  requestOf (.obj [("wrappingKey", .str samplePem)])
    (some ⟨.one "jwt", none,
      some ⟨"issuer", .json (.obj [("iss", .str "issuer"), ("eat_nonce", claim.json)])⟩, none,
      "\x7b\x7d"⟩)

theorem nonceRequest_comes (claim : NonceClaim) :
    ∃ serviceRequest, ComesToBinding sampleHost (sampleMoment 0) sampleKv (nonceRequest claim)
      serviceRequest samplePem claim := by
  exact ⟨_, ⟨rfl, _, _, rfl, rfl⟩, rfl, by decide, rfl⟩

theorem sampleHash_eq : sampleHash = gcpHash sampleHost samplePem := by decide +kernel

theorem sample_binding_passed : ∃ serviceRequest, PassesBinding sampleHost (sampleMoment 0)
    sampleKv (nonceRequest (.list [sampleHash, "other"])) serviceRequest samplePem := by
  obtain ⟨serviceRequest, hc⟩ := nonceRequest_comes (.list [sampleHash, "other"])
  exact ⟨serviceRequest, (binding_passed_iff _ _ _ _ _ _ _ _ hc rfl).1.mpr sampleHash_eq⟩

/-- The hash as the second of two nonces is refused, as the first of them it is not; with no
    nonces at all the check throws. -/
theorem later_nonce_refused :
    gcpHash sampleHost samplePem ∈ (NonceClaim.list ["other", sampleHash]).nonces ∧
      RefusedForNonce sampleHost (sampleMoment 0) sampleKv
        (nonceRequest (.list ["other", sampleHash])) ∧
      (∃ serviceRequest, PassesBinding sampleHost (sampleMoment 0) sampleKv
        (nonceRequest (.list [sampleHash, "other"])) serviceRequest samplePem) ∧
      ∃ e, (unwrapKeyGcp sampleHost (sampleMoment 0) sampleKv
        (nonceRequest (.list []))).result = .error e := by
  obtain ⟨refused, hrefused⟩ := nonceRequest_comes (.list ["other", sampleHash])
  obtain ⟨passed, hpassed⟩ := nonceRequest_comes (.list [sampleHash, "other"])
  have hother : "other" ≠ gcpHash sampleHost samplePem := by
    rw [← sampleHash_eq]
    decide +kernel
  refine ⟨?_, refused_of_other hrefused rfl hother, ⟨passed, passes_of_hash hpassed ?_⟩, _, rfl⟩
  · rw [← sampleHash_eq]
    simp [NonceClaim.nonces]
  · exact congrArg some sampleHash_eq

end DepaKms
