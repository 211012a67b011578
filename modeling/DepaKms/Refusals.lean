import DepaKms.ReleasedKeys

set_option autoImplicit false

/-!
# Refusals of expired keys

The status 410 stands for one thing only: the key asked for is stored and expired.
-/
namespace DepaKms

variable {h : Host} {t : Moment} {kv : Kv} {α : Type}

def GoneOnlyIf (P : Prop) (r : ServiceResult α) : Prop := r.statusCode = 410 → P

theorem gone_failed {P : Prop} {code : ℕ} (hc : code ≠ 410) (error : ErrorResponse)
    (logContext : LogContext) (headers : Headers) :
    Logged.Ensures (ServiceResult.failed h.toEngine error code logContext headers :
      Handler (ServiceResult α)) (GoneOnlyIf P) := by
  intro r hr
  cases hr
  exact fun hgone => absurd hgone hc

theorem gone_succeeded [Serializable α] {P : Prop} (body : α) (logContext : LogContext)
    (headers : Option Headers) :
    Logged.Ensures (ServiceResult.succeeded h.toEngine body logContext headers)
      (GoneOnlyIf P) := by
  intro r hr
  cases hr
  exact fun hgone => absurd hgone (by simp [ServiceResult.statusCode])

section Authentication

variable {P : Prop}

theorem checkLoop_gone (payload : JsValue) (entries : List (String × Json)) :
    Logged.Ensures (JwtValidator.checkLoop h payload entries)
      fun o => ∀ r, o = some r → GoneOnlyIf P r := by
  induction entries with
  | nil => exact .pure (by simp)
  | cons e entries ih =>
    refine .skip fun _ => .skip fun _ => .skip fun _ => .skip fun _ => .ite (fun _ => ih) fun _ => ?_
    refine .skip fun _ => .bind (gone_failed (P := P) (by decide) _ _ _) fun failure hf => .pure ?_
    intro r hr
    cases hr
    exact hf

theorem jwtValidator_gone (caller : Caller) :
    Logged.Ensures (JwtValidator.validate h kv caller) (GoneOnlyIf P) := by
  refine .skip fun jwt => .skip fun _ => .skip fun issuer => .ite (fun _ => ?_)
    fun _ => gone_failed (by decide) _ _ _
  refine .skip fun policy => .skip fun _ => ?_
  cases policy with
  | none => exact .skip fun _ => gone_failed (by decide) _ _ _
  | some policy =>
    refine .skip fun _ => .skip fun entries => .bind (checkLoop_gone (P := P) _ _) fun o ho => ?_
    cases o with
    | some failure => exact .pure (ho failure rfl)
    | none => exact .skip fun _ => .skip fun _ => gone_succeeded _ _ _

theorem userCoseValidator_gone (logContext : LogContext) (request : Request) :
    Logged.Ensures (UserCoseValidator.validate h kv logContext request) (GoneOnlyIf P) := by
  unfold UserCoseValidator.validate
  cases request.caller with
  | none => exact gone_failed (by decide) _ _ _
  | some caller =>
    refine .ite (fun _ => ?_) fun _ => gone_failed (by decide) _ _ _
    dsimp only
    split_ifs
    · refine .skip fun _ => .ite (fun _ => gone_failed (by decide) _ _ _) fun _ => ?_
      exact .skip fun _ => .ite (fun _ => gone_failed (by decide) _ _ _)
        fun _ => gone_succeeded _ _ _
    · refine .skip fun _ => .ite (fun _ => gone_failed (by decide) _ _ _) fun _ => ?_
      exact .skip fun _ => .ite (fun _ => gone_failed (by decide) _ _ _)
        fun _ => gone_succeeded _ _ _

theorem validate_gone (logContext : LogContext) (request : Request) (caller : Caller) :
    Logged.Ensures (AuthenticationService.validate h kv logContext request caller)
      (GoneOnlyIf P) := by
  unfold AuthenticationService.validate
  split
  · exact jwtValidator_gone caller
  · exact .skip fun _ => .ite (fun _ => gone_succeeded _ _ _) fun _ => gone_failed (by decide) _ _ _
  · exact .skip fun _ => .ite (fun _ => gone_succeeded _ _ _) fun _ => gone_failed (by decide) _ _ _
  · exact userCoseValidator_gone _ request
  · exact .throw _

theorem isAuthenticated_gone (r : ServiceRequest) :
    Logged.Ensures (r.isAuthenticated h kv) fun p => GoneOnlyIf P p.2 := by
  refine .bind (Q := fun p => GoneOnlyIf P p.2) (.tryCatch ?_ fun _ => ?_)
    fun p hp => .skip fun _ => .pure hp
  · cases r.request.caller with
    | none => exact .bind (gone_succeeded (P := P) _ _ _) fun anonymous ha => .pure ha
    | some caller =>
      exact .skip fun _ => .bind (validate_gone (P := P) _ _ caller) fun identity hi => .pure hi
  · exact .bind (gone_failed (P := P) (by decide) _ _ _) fun failure hf => .pure hf

end Authentication

def NamesExpired (h : Host) (t : Moment) (kv : Kv) (request : Request) : Prop :=
  ∃ body kid stored, request.bodyJson = .ok body ∧ body.get "wrappedKid" = .ok (.ofString kid) ∧
    kv.hpkeKeys.lookup kid = some stored ∧ ¬ Fresh h t kv stored.item

theorem endpointAttestation_gone {P : Prop} {name : String} {logContext : LogContext}
    {attestation attestationProvider : JsValue}
    {failureHeaders : ℕ → Except JsError Headers} {exceptionHeaders : JsError → Headers} :
    Logged.Ensures (endpointAttestation h kv name logContext attestation attestationProvider
        failureHeaders exceptionHeaders :
        Handler (Except (ServiceResult α) (ServiceResult JsValue)))
      fun outcome => ∀ failed, outcome = .error failed → GoneOnlyIf P failed := by
  have herror {failed : ServiceResult α} (hf : GoneOnlyIf P failed) :
      Logged.Ensures (pure (.error failed) :
        Handler (Except (ServiceResult α) (ServiceResult JsValue)))
      fun outcome => ∀ failed, outcome = .error failed → GoneOnlyIf P failed := by
    refine .pure fun failed' he => ?_
    cases he
    exact hf
  refine .tryCatch (.bind (validateAttestation_ensures kv attestation attestationProvider)
    fun r hr => ?_) fun exception => ?_
  · cases r with
    | failure error code headers =>
      exact .skip fun _ => .bind (gone_failed (P := P) hr.1 _ _ _) fun failed hf => herror hf
    | success body headers => exact .pure (by simp)
    | pending headers => exact .pure (by simp)
  · exact .skip fun _ => .bind (gone_failed (P := P) (by decide) _ _ _) fun failed hf => herror hf

theorem unwrapRelease_gone (logContext : LogContext) (wrappedKid : JsValue) (fmt : String)
    (key : Bytes) :
    Logged.Ensures (unwrapRelease h t kv logContext wrappedKid fmt key)
      (GoneOnlyIf (∃ kid stored, wrappedKid = .ofString kid ∧
        kv.hpkeKeys.lookup kid = some stored ∧ ¬ Fresh h t kv stored.item)) := by
  refine .skip fun kidText => .skip fun _ => .read fun found hfound => ?_
  cases found with
  | none => exact gone_failed (by decide) _ _ _
  | some item =>
    obtain ⟨kid, stored, hkid, hlookup, rfl⟩ := lookup_of_get hfound
    refine .step fun expiry hexp => ?_
    obtain ⟨expired, deprecated⟩ := expiry
    refine .ite (fun hyes => ?_) fun _ => ?_
    · intro r _ _
      refine ⟨kid, stored, hkid, hlookup, ?_⟩
      rintro ⟨_, hfresh⟩
      rw [hfresh logContext] at hexp
      cases hexp
      cases hyes
    · refine .skip fun receipt => .skip fun _ => .tryCatch ?_ fun _ => gone_failed (by decide) _ _ _
      exact .skip fun wrapped => gone_succeeded _ _ _

theorem unwrapBinding_gone {logContext : LogContext}
    {attestation attestationProvider wrappedKid : JsValue} {fmt : String} {key : Bytes}
    {wrappingKeyHash : String} :
    Logged.Ensures (unwrapBinding h t kv logContext attestation attestationProvider wrappedKid fmt
        key wrappingKeyHash)
      (GoneOnlyIf (∃ kid stored, wrappedKid = .ofString kid ∧
        kv.hpkeKeys.lookup kid = some stored ∧ ¬ Fresh h t kv stored.item)) := by
  refine .bind (endpointAttestation_gone (P := ∃ kid stored, wrappedKid = .ofString kid ∧
    kv.hpkeKeys.lookup kid = some stored ∧ ¬ Fresh h t kv stored.item)) fun outcome hfailed => ?_
  cases outcome with
  | error failed => exact .pure (hfailed failed rfl)
  | ok r =>
    refine .skip fun claims => .skip fun v => .skip fun text => ?_
    exact .ite (fun _ => unwrapRelease_gone _ _ _ _) fun _ => gone_failed (by decide) _ _ _

theorem requestHasWrappingKey_gone {P : Prop} (body : JsValue) :
    Logged.Ensures (requestHasWrappingKey h body none) (GoneOnlyIf P) := by
  refine .skip fun _ => .ite (fun _ => ?_) fun _ => gone_failed (by decide) _ _ _
  refine .skip fun _ => .skip fun _ => .skip fun _ => .ite (fun _ => ?_) fun _ => ?_
  · exact .skip fun _ => .skip fun _ => gone_succeeded _ _ _
  · exact .skip fun _ => gone_failed (by decide) _ _ _

/-- `unwrapKey` answers 410 to a request only when the key it names is expired. -/
theorem unwrapKey_gone (request : Request) :
    Logged.Ensures (unwrapKey h t kv request) (GoneOnlyIf (NamesExpired h t kv request)) := by
  refine .bind (new_ensures _ request) fun serviceRequest hbody => ?_
  refine .skip fun attestation => ?_
  cases attestation with
  | none => exact gone_failed (by decide) _ _ _
  | some attestation =>
  refine .bind (isAuthenticated_gone (P := NamesExpired h t kv request) _) fun identity hidentity => ?_
  split
  · exact .pure hidentity
  refine .read fun wrappedKid hkid => ?_
  split
  · exact .skip fun _ => gone_failed (by decide) _ _ _
  refine .bind (requestHasWrappingKey_gone (P := False) _) fun wrapping hw => ?_
  split
  · exact .skip fun _ => .skip fun _ => gone_failed hw _ _ _
  refine .skip fun key => .skip fun _ => .skip fun provider => .ite (fun _ => ?_)
    fun _ => gone_failed (by decide) _ _ _
  refine unwrapBinding_gone.mono fun r hr hgone => ?_
  obtain ⟨kid, stored, rfl, hlookup, hexpired⟩ := hr hgone
  obtain ⟨body, hjson, -, hfield⟩ := body_of_get hbody hkid
  exact ⟨body, kid, stored, hjson, hfield, hlookup, hexpired⟩

end DepaKms
