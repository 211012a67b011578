import DepaKms.TokenPolicy

set_option autoImplicit false

/-!
# Authenticated callers

Whom the service takes for whom they say they are. Users and members are looked up in the
tables of the platform; for a signed document the outcome of that lookup is not used.
-/
namespace DepaKms

variable {h : Host} {kv : Kv}

/-- The member with this id is listed as active. -/
def ActiveMember (kv : Kv) (id : String) (info : Json) : Prop :=
  id ∈ kv.membersCerts ∧ kv.membersInfo.lookup id = some (.json info) ∧
    info.get "status" = .ok (.ofString "Active")

/-- The tables bear out the identity that the caller presents. -/
inductive Identifies (kv : Kv) (caller : Caller) : Prop
  | user {id : String}
      (hpolicy : caller.policy = .one "user_cert" ∨ caller.policy = .one "user_cose_sign1")
      (hid : caller.id = some id) (huser : id ∈ kv.usersCerts)
  | member {id : String} {info : Json} (hpolicy : caller.policy = .one "member_cert")
      (hid : caller.id = some id) (hmember : ActiveMember kv id info)
  | token {jwt : Jwt} {policy : Json} (hpolicy : caller.policy = .one "jwt")
      (hjwt : caller.jwt = some jwt) (hmeets : MeetsPolicy kv jwt.payload policy)

variable (h kv) in
theorem result_isUser (logContext : LogContext) (id : String) :
    ∃ headers, (UserCertValidator.isUser h kv logContext (some id)).result =
      .ok (.success (decide (id ∈ kv.usersCerts)) headers) := ⟨_, rfl⟩

theorem isUser_ensures (logContext : LogContext) (userId : Option String) :
    Logged.Ensures (UserCertValidator.isUser h kv logContext userId) fun r =>
      ∃ id headers, userId = some id ∧ r = .success (decide (id ∈ kv.usersCerts)) headers := by
  intro r hr
  cases userId with
  | none => cases hr
  | some id =>
    obtain ⟨headers, hresult⟩ := result_isUser h kv logContext id
    rw [hresult] at hr
    cases hr
    exact ⟨id, headers, rfl, rfl⟩

theorem userCert_sound (logContext : LogContext) (caller : Caller) :
    Logged.Ensures (UserCertValidator.validate h kv logContext caller) fun r =>
      r.isFailure = false → ∃ id, caller.id = some id ∧ id ∈ kv.usersCerts := by
  refine .bind (isUser_ensures logContext caller.id) fun isValid hv => .ite (fun hbody => ?_)
    fun _ => failed_vacuous h _ _ _ _
  obtain ⟨id, headers, hid, rfl⟩ := hv
  intro r _ _
  exact ⟨id, hid, by simpa [ServiceResult.body] using hbody⟩

theorem activeMember_truthy {memberInfo : Json} {isMember : Bool} {active : JsValue}
    (ha : MemberCertValidator.activeMember memberInfo isMember = .ok active)
    (htruthy : active.truthy = true) :
    isMember = true ∧ memberInfo.get "status" = .ok (.ofString "Active") := by
  unfold MemberCertValidator.activeMember at ha
  split_ifs at ha with hinfo
  · obtain ⟨status, hstatus, ha⟩ := Logged.bind_ok_iff.mp ha
    cases ha
    simp only [JsValue.truthy, Json.truthy, Bool.and_eq_true] at htruthy
    obtain ⟨hactive, hmember⟩ := htruthy
    obtain ⟨v, rfl, hmet⟩ := (strictEq_iff_metBy (by simp) status).mp hactive
    cases hmet with
    | itself _ => exact ⟨hmember, hstatus⟩
  · cases ha
    exact absurd htruthy hinfo

theorem bufferKey_iff {o : Option String} {id : String} : bufferKey o = .ok id ↔ o = some id := by
  cases o <;> simp [bufferKey]

theorem isActiveMember_ensures (logContext : LogContext) (memberId : Option String) :
    Logged.Ensures (MemberCertValidator.isActiveMember h kv logContext memberId) fun r =>
      (r.body.map JsValue.truthy) = some true →
        ∃ id info, memberId = some id ∧ ActiveMember kv id info := by
  refine .read fun id hid => ?_
  cases hinfo : kv.membersInfo.lookup id with
  | none =>
    intro r hr hbody
    cases hr
    cases hbody
  | some text =>
    cases text with
    | raw s => exact .throw _
    | json info =>
      refine .read fun active hactive r hr htruthy => ?_
      cases hr
      obtain ⟨hmember, hstatus⟩ := activeMember_truthy hactive (Option.some_inj.mp htruthy)
      exact ⟨id, info, bufferKey_iff.mp hid, by simpa using hmember, hinfo, hstatus⟩

theorem memberCert_sound (logContext : LogContext) (caller : Caller) :
    Logged.Ensures (MemberCertValidator.validate h kv logContext caller) fun r =>
      r.isFailure = false → ∃ id info, caller.id = some id ∧ ActiveMember kv id info := by
  refine .bind (isActiveMember_ensures logContext caller.id) fun isValid hv => .ite (fun hbody => ?_)
    fun _ => failed_vacuous h _ _ _ _
  intro r _ _
  exact hv hbody

/-- A request with a body comes with the content that was signed. -/
def ContentAccepted (request : Request) (caller : Caller) : Prop :=
  request.body.length > 0 → ∃ content, caller.coseContent = some content ∧ content.length ≠ 0

theorem hasPolicy_iff {caller : Caller} {policy : String} :
    UserCoseValidator.hasPolicy caller policy = true ↔ caller.policy = .one policy := by
  unfold UserCoseValidator.hasPolicy
  cases caller.policy <;> simp

theorem userCose_sound (logContext : LogContext) {request : Request} {caller : Caller}
    (hcaller : request.caller = some caller) :
    Logged.Ensures (UserCoseValidator.validate h kv logContext request) fun r =>
      r.isFailure = false → caller.policy = .one "user_cose_sign1" ∧
        ContentAccepted request caller ∧ ∃ id, caller.id = some id := by
  unfold UserCoseValidator.validate
  rw [hcaller]
  refine .ite (fun hpolicy => ?_) fun _ => failed_vacuous h _ _ _ _
  dsimp only
  split_ifs with hbody
  · refine .read fun empty hempty => .ite (fun _ => failed_vacuous h _ _ _ _) fun hnonempty => ?_
    refine .bind (isUser_ensures logContext caller.id) fun isValid hv =>
      .ite (fun _ => failed_vacuous h _ _ _ _) fun _ r _ _ => ?_
    obtain ⟨id, -, hid, -⟩ := hv
    refine ⟨hasPolicy_iff.mp hpolicy, fun _ => ?_, id, hid⟩
    cases hcontent : caller.coseContent with
    | none =>
      rw [hcontent] at hempty
      cases hempty
    | some content =>
      rw [hcontent] at hempty
      cases hempty
      exact ⟨content, rfl, by simpa using hnonempty⟩
  · refine .skip fun empty => .ite (fun _ => failed_vacuous h _ _ _ _) fun _ => ?_
    refine .bind (isUser_ensures logContext caller.id) fun isValid hv =>
      .ite (fun _ => failed_vacuous h _ _ _ _) fun _ r _ _ => ?_
    obtain ⟨id, -, hid, -⟩ := hv
    exact ⟨hasPolicy_iff.mp hpolicy, fun hlength => absurd hlength hbody, id, hid⟩

variable (h kv) in
/-- Any signer is taken for a user. -/
theorem userCose_complete (logContext : LogContext) {request : Request} {caller : Caller}
    (hcaller : request.caller = some caller) (hpolicy : caller.policy = .one "user_cose_sign1")
    (hcontent : ContentAccepted request caller) {id : String} (hid : caller.id = some id) :
    Succeeds (UserCoseValidator.validate h kv logContext request) := by
  have huser : (UserCoseValidator.isUser h kv logContext caller.id).result = .ok
      (.success (decide (id ∈ kv.usersCerts)) (ServiceResult.withRequestId logContext [])) := by
    rw [hid]
    rfl
  unfold Succeeds UserCoseValidator.validate
  rw [hcaller]
  dsimp only
  rw [if_pos (hasPolicy_iff.mpr hpolicy)]
  split_ifs with hbody
  · obtain ⟨content, hsome, hnonempty⟩ := hcontent hbody
    have hempty : (content.length == 0) = false := by simpa using hnonempty
    simp only [hsome, required, Logged.result_bind, Logged.result_monadLift, Except.map, hempty,
      Logged.ok_bind, Bool.false_eq_true, if_false, huser, ServiceResult.isFailure]
    exact ⟨_, rfl, rfl⟩
  · simp only [Logged.result_bind, Logged.result_pure, Logged.ok_bind, Bool.false_eq_true, if_false,
      huser, ServiceResult.isFailure]
    exact ⟨_, rfl, rfl⟩

section Service

variable (h) (kv) (logContext : LogContext) (request : Request) (caller : Caller)

def Fails : Prop :=
  ∃ c r, (AuthenticationService.isAuthenticated h kv logContext request).result = .ok (c, r) ∧
    r.isFailure = true

/-- Only a caller whose identity the tables bear out is authenticated. -/
structure AuthenticatesSoundly : Prop where
  sound : ∀ c r, (AuthenticationService.isAuthenticated h kv logContext request).result =
    .ok (c, r) → r.isFailure = false → Identifies kv caller
  others : (∀ policy ∈ ["user_cert", "user_cose_sign1", "member_cert", "jwt"],
    caller.policy ≠ .one policy) → Fails h kv logContext request
  thrown : ∀ e, (AuthenticationService.validate h kv (AuthenticationService.logContext logContext)
    request caller).result = .error e → Fails h kv logContext request

end Service

section Service

variable {logContext : LogContext} {request : Request} {caller : Caller}
  (hcaller : request.caller = some caller)
include hcaller

theorem isAuthenticated_answer {identity : ServiceResult JsValue}
    (hi : (AuthenticationService.validate h kv (AuthenticationService.logContext logContext)
      request caller).result = .ok identity) :
    (AuthenticationService.isAuthenticated h kv logContext request).result =
      .ok (some caller, identity) := by
  unfold AuthenticationService.isAuthenticated
  rw [Logged.result_tryCatch, hcaller]
  dsimp only
  rw [Logged.result_bind, Logger.result_debug, Logged.ok_bind, Logged.result_bind, hi]
  rfl

theorem isAuthenticated_thrown {e : JsError}
    (he : (AuthenticationService.validate h kv (AuthenticationService.logContext logContext)
      request caller).result = .error e) : Fails h kv logContext request := by
  unfold Fails AuthenticationService.isAuthenticated
  rw [Logged.result_tryCatch, hcaller]
  dsimp only
  rw [Logged.result_bind, Logger.result_debug, Logged.ok_bind, Logged.result_bind, he]
  exact ⟨_, _, rfl, rfl⟩

omit hcaller in
theorem validate_unknown (hunknown : ∀ policy ∈ ["user_cert", "user_cose_sign1", "member_cert", "jwt"],
    caller.policy ≠ .one policy) :
    (AuthenticationService.validate h kv logContext request caller).result =
      .error (cannotRead "validate" "undefined") := by
  unfold AuthenticationService.validate
  split
  · exact absurd ‹_› (hunknown "jwt" (by simp))
  · exact absurd ‹_› (hunknown "user_cert" (by simp))
  · exact absurd ‹_› (hunknown "member_cert" (by simp))
  · exact absurd ‹_› (hunknown "user_cose_sign1" (by simp))
  · rfl

theorem validate_identifies
    (husers : caller.policy = .one "user_cose_sign1" → ContentAccepted request caller →
      ∀ id, caller.id = some id → id ∈ kv.usersCerts) :
    Logged.Ensures (AuthenticationService.validate h kv logContext request caller) fun r =>
      r.isFailure = false → Identifies kv caller := by
  unfold AuthenticationService.validate
  split
  · rename_i hpolicy
    refine (validate_sound h kv caller).mono fun r hr hsucceeds => ?_
    obtain ⟨jwt, policy, hjwt, hmeets, -⟩ := hr hsucceeds
    exact .token hpolicy hjwt hmeets
  · rename_i hpolicy
    refine (userCert_sound _ caller).mono fun r hr hsucceeds => ?_
    obtain ⟨id, hid, huser⟩ := hr hsucceeds
    exact .user (.inl hpolicy) hid huser
  · rename_i hpolicy
    refine (memberCert_sound _ caller).mono fun r hr hsucceeds => ?_
    obtain ⟨id, info, hid, hmember⟩ := hr hsucceeds
    exact .member hpolicy hid hmember
  · refine (userCose_sound _ hcaller).mono fun r hr hsucceeds => ?_
    obtain ⟨hpolicy, hcontent, id, hid⟩ := hr hsucceeds
    exact .user (.inr hpolicy) hid (husers hpolicy hcontent id hid)
  · exact .throw _

/-- The service is sound but for signers who are no users. -/
theorem authentication_sound_iff :
    AuthenticatesSoundly h kv logContext request caller ↔
      (caller.policy = .one "user_cose_sign1" → ContentAccepted request caller →
        ∀ id, caller.id = some id → id ∈ kv.usersCerts) := by
  constructor
  · intro hsound hpolicy hcontent id hid
    obtain ⟨r, hr, hsucceeds⟩ := userCose_complete h kv
      (LogContext.within (some (AuthenticationService.logContext logContext)) "UserCoseValidator")
      hcaller hpolicy hcontent hid
    have hvalidate : (AuthenticationService.validate h kv
        (AuthenticationService.logContext logContext) request caller).result = .ok r := by
      unfold AuthenticationService.validate
      rw [hpolicy]
      exact hr
    have hidentifies := hsound.sound _ r (isAuthenticated_answer hcaller hvalidate) hsucceeds
    cases hidentifies with
    | user _ hid' huser =>
      cases hid.symm.trans hid'
      exact huser
    | member hpolicy' _ _ => simp [hpolicy] at hpolicy'
    | token hpolicy' _ _ => simp [hpolicy] at hpolicy'
  · intro husers
    refine ⟨fun c r hr hsucceeds => ?_, fun hunknown => ?_, fun e he => ?_⟩
    · cases hvalidate : (AuthenticationService.validate h kv
          (AuthenticationService.logContext logContext) request caller).result with
      | ok identity =>
        have hanswer := isAuthenticated_answer hcaller hvalidate
        cases hr.symm.trans hanswer
        exact validate_identifies hcaller husers r hvalidate hsucceeds
      | error e =>
        obtain ⟨c', r', hr', hfails⟩ := isAuthenticated_thrown hcaller hvalidate
        cases hr.symm.trans hr'
        rw [hfails] at hsucceeds
        cases hsucceeds
    · exact isAuthenticated_thrown hcaller (validate_unknown hunknown)
    · exact isAuthenticated_thrown hcaller he

end Service

def signer : Caller := ⟨.one "user_cose_sign1", some "ab12", none, some [1], "\x7b\x7d"⟩

/-- A document of this signer. -/
def signedRequest : Request :=
  ⟨[], "", [0xd2, 0x84, 0x41, 0xa0, 0xa0, 0x41, 1, 0x41, 0], .error ⟨"unexpected token"⟩,
    some signer, []⟩

/-- The signer is the one user. -/
def signerKnown : Kv := { Kv.empty with usersCerts := AList.singleton "ab12" [] }

theorem sample_authentication_sound :
    AuthenticatesSoundly sampleHost signerKnown LogContext.new signedRequest signer ∧
      Identifies signerKnown signer ∧
      ∃ r, (AuthenticationService.isAuthenticated sampleHost signerKnown LogContext.new
        signedRequest).result = .ok (some signer, r) ∧ r.isFailure = false := by
  have hknown : "ab12" ∈ signerKnown.usersCerts := List.mem_singleton_self _
  have hsound : AuthenticatesSoundly sampleHost signerKnown LogContext.new signedRequest signer := by
    refine (authentication_sound_iff rfl).mpr fun _ _ id hid => ?_
    cases hid
    exact hknown
  exact ⟨hsound, .user (.inr rfl) rfl hknown, _, rfl, rfl⟩

/-- No table knows the signer. -/
theorem stranger_authenticated :
    ∃ caller, signedRequest.caller = some caller ∧ ¬ Identifies Kv.empty caller ∧
      ∃ r, (AuthenticationService.isAuthenticated sampleHost Kv.empty LogContext.new
        signedRequest).result = .ok (some caller, r) ∧ r.isFailure = false := by
  refine ⟨_, rfl, fun hidentifies => ?_, _, rfl, rfl⟩
  cases hidentifies with
  | user _ hid huser => cases huser
  | member hpolicy _ _ => simp [signer] at hpolicy
  | token hpolicy _ _ => simp [signer] at hpolicy

end DepaKms
