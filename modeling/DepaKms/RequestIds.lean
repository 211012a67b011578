import DepaKms.ServicePolicies

set_option autoImplicit false

/-!
# Request ids

The id that a request brings along stands in the headers of its response, on every path
through the endpoints but one: a token is refused by a validator that logs in a context
of its own.
-/
namespace DepaKms

variable {α β : Type}

/-- The response carries the id in its header. -/
def Carries (id : String) (r : ServiceResult α) : Prop :=
  r.headers.lookup ServiceResult.KMS_REQUEST_ID_HEADER = some (.str id)

/-- The context goes with the request. -/
def LogContext.Names (c : LogContext) (id : String) : Prop := c.activeRequestId = some id

theorem LogContext.names_setRequestId {id : String} (hid : id ≠ "") (c : LogContext) :
    (c.setRequestId id).Names id := by
  unfold Names activeRequestId setRequestId
  simp [hid]

theorem LogContext.Names.within {c : LogContext} {id : String} (hc : c.Names id) (scope : String) :
    (LogContext.within (some c) scope).Names id := by
  have hid : id ≠ "" := by
    have hmem := Option.mem_filter_iff.mp (show id ∈ c.activeRequestId from hc)
    exact of_decide_eq_true hmem.2
  have hclone : c.clone.requestId = some id := hc
  change (c.clone.appendScope scope).activeRequestId = some id
  unfold appendScope activeRequestId
  simp [hclone, hid]

theorem requestId_withRequestId {c : LogContext} {id : String} (hc : c.Names id) (headers : Headers) :
    (ServiceResult.withRequestId c headers).lookup ServiceResult.KMS_REQUEST_ID_HEADER =
      some (.str id) := by
  unfold ServiceResult.withRequestId
  rw [hc]
  dsimp only
  rw [lookup_assign, if_pos rfl]

variable {h : Host} {t : Moment} {kv : Kv} {request : Request} {id : String} {c : LogContext}

/-- The caller's token is refused. That answer is made without the id. -/
def TokenRefused (h : Host) (kv : Kv) (request : Request) (r : ServiceResult α) : Prop :=
  ∃ caller error code, request.caller = some caller ∧ caller.policy = .one "jwt" ∧
    (JwtValidator.validate h kv caller).result = .ok (.failure error code []) ∧
    r = .failure error code []

/-- A refusal by the validator has no headers. -/
def Bare (r : ServiceResult JsValue) : Prop := r.isFailure = true → r.headers = []

theorem bare_failed (error : ErrorResponse) (code : ℕ) :
    Logged.Ensures (ServiceResult.failed h.toEngine error code JwtValidator.logContext []) Bare := by
  intro r hr _
  cases hr
  rfl

theorem bare_checkLoop (payload : JsValue) (entries : List (String × Json)) :
    Logged.Ensures (JwtValidator.checkLoop h payload entries) fun outcome =>
      ∀ r, outcome = some r → Bare r := by
  induction entries with
  | nil => exact .pure (by simp)
  | cons entry entries ih =>
    obtain ⟨key, expected⟩ := entry
    refine .skip fun _ => .skip fun _ => .skip fun _ => .skip fun _ => .ite (fun _ => ih) fun _ => ?_
    refine .skip fun _ => .bind (bare_failed _ _) fun r hr => .pure fun r' he => ?_
    cases he
    exact hr

theorem bare_validate (caller : Caller) :
    Logged.Ensures (JwtValidator.validate h kv caller) Bare := by
  refine .skip fun jwt => .skip fun _ => .skip fun issuer => .ite (fun _ => ?_) fun _ =>
    bare_failed _ _
  refine .skip fun policy => .skip fun _ => ?_
  cases policy with
  | none => exact .skip fun _ => bare_failed _ _
  | some policy =>
    refine .skip fun _ => .skip fun entries => .bind (bare_checkLoop _ entries) fun outcome ho => ?_
    cases outcome with
    | some r => exact .pure (ho r rfl)
    | none =>
      refine .skip fun _ => .skip fun _ => ?_
      intro r hr hfail
      cases hr
      cases hfail

/-- The response carries the id, or it is the refusal of a token. -/
def Attributed (h : Host) (kv : Kv) (request : Request) (id : String) (r : ServiceResult α) : Prop :=
  Carries id r ∨ TokenRefused h kv request r

theorem Attributed.failure {error : ErrorResponse} {code : ℕ} {headers : Headers}
    (ha : Attributed h kv request id (.failure error code headers : ServiceResult α)) :
    Attributed h kv request id (.failure error code headers : ServiceResult β) := by
  rcases ha with hcarries | ⟨caller, error', code', hcaller, hpolicy, hvalidate, he⟩
  · exact .inl hcarries
  · cases he
    exact .inr ⟨caller, error, code, hcaller, hpolicy, hvalidate, rfl⟩

theorem attributed_failed (hc : c.Names id) (error : ErrorResponse) (code : ℕ)
    (headers : Headers) :
    Logged.Ensures (ServiceResult.failed h.toEngine error code c headers)
      (Attributed (α := α) h kv request id) := by
  intro r hr
  cases hr
  exact .inl (requestId_withRequestId hc headers)

theorem attributed_succeeded [Serializable α] (hc : c.Names id) (body : α)
    (headers : Option Headers) :
    Logged.Ensures (ServiceResult.succeeded h.toEngine body c headers)
      (Attributed h kv request id) := by
  intro r hr
  cases hr
  exact .inl (requestId_withRequestId hc _)

theorem attributed_accepted (hc : c.Names id) :
    Logged.Ensures (ServiceResult.accepted h.toEngine c) (Attributed (α := α) h kv request id) := by
  intro r hr
  cases hr
  exact .inl (requestId_withRequestId hc _)

theorem attributed_caught (hc : c.Names id) (errorMessage : String) :
    Logged.Ensures (caughtError h c errorMessage) (Attributed (α := α) h kv request id) :=
  .skip fun _ => attributed_failed hc _ _ _

/-- Where a part ends the whole with a response of its own, that response carries the id. -/
def EndsAttributed (h : Host) (kv : Kv) (request : Request) (id : String)
    (outcome : Except (ServiceResult α) β) : Prop :=
  ∀ failed, outcome = .error failed → Attributed h kv request id failed

theorem endsAttributed_ok (b : β) :
    EndsAttributed h kv request id (.ok b : Except (ServiceResult α) β) := by
  intro failed he
  cases he

theorem endsAttributed_error {x : Handler (ServiceResult α)}
    (hx : Logged.Ensures x (Attributed h kv request id)) :
    Logged.Ensures (x >>= fun failed => pure (.error failed))
      (EndsAttributed (β := β) h kv request id) := by
  refine .bind hx fun failed hf => .pure fun failed' he => ?_
  cases he
  exact hf

/-- A caller that is not let in is told so under the id. -/
def Refuses (h : Host) (kv : Kv) (request : Request) (id : String)
    (identity : ServiceResult JsValue) : Prop :=
  identity.isFailure = true → Attributed h kv request id identity

theorem refuses_userCert (hc : c.Names id) (caller : Caller) :
    Logged.Ensures (UserCertValidator.validate h kv c caller) (Attributed h kv request id) :=
  .skip fun _ => .ite (fun _ => attributed_succeeded hc _ _) fun _ => attributed_failed hc _ _ _

theorem refuses_memberCert (hc : c.Names id) (caller : Caller) :
    Logged.Ensures (MemberCertValidator.validate h kv c caller) (Attributed h kv request id) :=
  .skip fun _ => .ite (fun _ => attributed_succeeded hc _ _) fun _ => attributed_failed hc _ _ _

theorem refuses_userCose (hc : c.Names id) :
    Logged.Ensures (UserCoseValidator.validate h kv c request) (Attributed h kv request id) := by
  unfold UserCoseValidator.validate
  cases request.caller with
  | none => exact attributed_failed hc _ _ _
  | some caller =>
    refine .ite (fun _ => ?_) fun _ => attributed_failed hc _ _ _
    dsimp only
    split_ifs
    all_goals
      refine .skip fun empty => .ite (fun _ => attributed_failed hc _ _ _) fun _ => ?_
      exact .skip fun _ => .ite (fun _ => attributed_failed hc _ _ _) fun _ =>
        attributed_succeeded hc _ _

theorem refuses_validate (hc : c.Names id) {caller : Caller} (hcaller : request.caller = some caller) :
    Logged.Ensures (AuthenticationService.validate h kv c request caller)
      (Refuses h kv request id) := by
  unfold AuthenticationService.validate
  split
  · next hpolicy =>
    intro r hr hfail
    have hbare := bare_validate caller r hr hfail
    cases r with
    | failure error code headers =>
      cases hbare
      exact .inr ⟨caller, error, code, hcaller, hpolicy, hr, rfl⟩
    | success body headers => cases hfail
    | pending headers => cases hfail
  · exact (refuses_userCert (hc.within _) caller).mono fun r hr _ => hr
  · exact (refuses_memberCert (hc.within _) caller).mono fun r hr _ => hr
  · exact (refuses_userCose (hc.within _)).mono fun r hr _ => hr
  · exact .throw _

theorem refuses_isAuthenticated {r : ServiceRequest} (hc : r.logContext.Names id)
    (hr : r.request = request) :
    Logged.Ensures (r.isAuthenticated h kv) fun p => Refuses h kv request id p.2 := by
  subst hr
  refine .bind (Q := fun p => Refuses h kv r.request id p.2) (.tryCatch ?_ fun ex => ?_)
    fun p hp => .skip fun _ => .pure hp
  · split
    · exact .bind (attributed_succeeded (hc.within _) _ _) fun anonymous ha => .pure fun _ => ha
    · next caller hcaller =>
      exact .skip fun _ => .bind (refuses_validate (hc.within _) hcaller) fun identity hi => .pure hi
  · exact .bind (attributed_failed (hc.within _) _ _ _) fun failure hf => .pure fun _ => hf

/-- The caller is refused, or is served under the id. -/
theorem attributed_identified {Q : β → Prop} {r : ServiceRequest} (hc : r.logContext.Names id)
    (hr : r.request = request) {serve : Option Caller × ServiceResult JsValue → Handler β}
    (hrefused : ∀ caller error code headers,
      Attributed h kv request id (.failure error code headers : ServiceResult JsValue) →
        Logged.Ensures (serve (caller, .failure error code headers)) Q)
    (hserved : ∀ p, p.2.isFailure = false → Logged.Ensures (serve p) Q) :
    Logged.Ensures (r.isAuthenticated h kv >>= serve) Q := by
  refine .bind (refuses_isAuthenticated hc hr) fun p hp => ?_
  cases hfail : p.2.isFailure with
  | false => exact hserved p hfail
  | true =>
    obtain ⟨caller, identity⟩ := p
    cases identity with
    | failure error code headers => exact hrefused caller error code headers (hp rfl)
    | success body headers => cases hfail
    | pending headers => cases hfail

section Endpoints

variable {settings : Json} (hs : SettingsAre kv settings) (hid : requestIdOf h t .new request ≠ "")
include hs hid

/-- What an endpoint does once it has read the request is done under the id. -/
theorem attributed_new {scope : String} {Q : β → Prop} {serve : ServiceRequest → Handler β}
    (hserve : ∀ r, r.logContext.Names (requestIdOf h t .new request) → r.request = request →
      Logged.Ensures (serve r) Q) :
    Logged.Ensures
      (ServiceRequest.new h t kv (LogContext.new.appendScope scope) request >>= serve) Q := by
  refine .step fun r hr => ?_
  rw [result_new hs] at hr
  cases hr
  exact hserve _ (LogContext.names_setRequestId hid _) rfl

theorem attributed_heartbeat :
    Logged.Ensures (heartbeat h t kv request)
      (Attributed h kv request (requestIdOf h t .new request)) :=
  attributed_new hs hid fun _ hc _ => attributed_succeeded hc _ _

theorem attributed_auth :
    Logged.Ensures (auth h t kv request)
      (Attributed h kv request (requestIdOf h t .new request)) := by
  refine attributed_new hs hid fun r hc hr => attributed_identified hc hr
    (fun _ _ _ _ hrefused => .pure hrefused.failure) fun p hp => ?_
  split
  · cases hp
  · exact attributed_succeeded hc _ _

theorem attributed_showPolicy [Serializable α] (scope : String) (read : LogContext → Handler α) :
    Logged.Ensures (showPolicy h t kv scope read request)
      (Attributed h kv request (requestIdOf h t .new request)) := by
  refine attributed_new hs hid fun r hc hr => attributed_identified hc hr
    (fun _ _ _ _ hrefused => .pure hrefused.failure) fun p hp => ?_
  split
  · cases hp
  · exact .tryCatch (.skip fun _ => attributed_succeeded hc _ _) fun _ => attributed_failed hc _ _ _

omit hs hid in
theorem attributed_listpubkeysBody (hc : c.Names id) :
    Logged.Ensures (listpubkeysBody h t kv c) (Attributed h kv request id) := by
  refine .skip fun offered => ?_
  obtain ⟨n, kid⟩ := offered
  cases kid with
  | none => exact attributed_failed hc _ _ _
  | some kid =>
    refine .skip fun keyItem => ?_
    cases keyItem with
    | none => exact attributed_failed hc _ _ _
    | some keyItem => exact .skip fun _ => attributed_succeeded hc _ _

theorem attributed_listpubkeys :
    Logged.Ensures (listpubkeys h t kv request)
      (Attributed h kv request (requestIdOf h t .new request)) := by
  refine attributed_new hs hid fun r hc hr => attributed_identified hc hr
    (fun _ _ _ _ hrefused => .pure hrefused.failure) fun p hp => ?_
  split
  · cases hp
  · exact .tryCatch (attributed_listpubkeysBody hc) fun _ => attributed_caught hc _

omit hs hid in
theorem attributed_pubkeyBody {r : ServiceRequest} (hc : r.logContext.Names id)
    (kid : Option String) :
    Logged.Ensures (pubkeyBody h t kv r kid) (Attributed h kv request id) := by
  unfold pubkeyBody
  cases kid with
  | none => exact attributed_failed hc _ _ _
  | some kid =>
    refine .ite (fun _ => .skip fun _ => .skip fun keyItem => ?_) fun _ => attributed_failed hc _ _ _
    cases keyItem with
    | none => exact attributed_failed hc _ _ _
    | some keyItem =>
      refine .skip fun receipt => ?_
      cases receipt with
      | none => exact attributed_accepted hc
      | some receipt =>
        refine .skip fun _ => .ite (fun _ => ?_) fun _ => attributed_succeeded hc _ _
        exact .skip fun _ => .skip fun _ => .skip fun _ => attributed_succeeded hc _ _

omit hs hid in
theorem attributed_pubkeyServe {r : ServiceRequest} (hc : r.logContext.Names id) :
    Logged.Ensures (pubkeyServe h t kv r) (Attributed h kv request id) := by
  refine .bind (Q := EndsAttributed h kv request id) (.tryCatch ?_ fun _ => ?_)
    fun selection hends => ?_
  · exact .skip fun _ => .pure (endsAttributed_ok _)
  · exact endsAttributed_error (attributed_caught hc _)
  · cases selection with
    | error failed => exact .pure (hends failed rfl)
    | ok selected => exact .tryCatch (attributed_pubkeyBody hc _) fun _ => attributed_caught hc _

theorem attributed_pubkey :
    Logged.Ensures (pubkey h t kv request)
      (Attributed h kv request (requestIdOf h t .new request)) := by
  refine attributed_new hs hid fun r hc hr => attributed_identified hc hr
    (fun _ _ _ _ hrefused => .pure hrefused.failure) fun p hp => ?_
  split
  · cases hp
  · exact attributed_pubkeyServe hc

omit hs hid in
theorem endsAttributed_attestation {name : String} (hc : c.Names id) {attestation provider : JsValue}
    {failureHeaders : ℕ → Except JsError Headers} {exceptionHeaders : JsError → Headers} :
    Logged.Ensures (endpointAttestation h kv name c attestation provider failureHeaders
        exceptionHeaders)
      (EndsAttributed (α := α) h kv request id) := by
  refine .tryCatch (.skip fun r => ?_) fun _ => ?_
  · cases r with
    | failure error code headers =>
      exact .skip fun _ => endsAttributed_error (attributed_failed hc _ _ _)
    | success body headers => exact .pure (endsAttributed_ok _)
    | pending headers => exact .pure (endsAttributed_ok _)
  · exact .skip fun _ => endsAttributed_error (attributed_failed hc _ _ _)

omit hs hid in
theorem attributed_keyRelease (hc : c.Names id) (attestation provider : JsValue) (fmt : String)
    (n : Option ℕ) (kid : String) :
    Logged.Ensures (keyRelease h t kv c attestation provider fmt n kid)
      (Attributed h kv request id) := by
  refine .bind (Q := EndsAttributed h kv request id) (endsAttributed_attestation hc) fun outcome hends => ?_
  cases outcome with
  | error failed => exact .pure (hends failed rfl)
  | ok r =>
    refine .skip fun _ => .skip fun keyItem => ?_
    cases keyItem with
    | none => exact attributed_failed hc _ _ _
    | some keyItem =>
      refine .skip fun _ => .ite (fun _ => attributed_accepted hc) fun _ => .tryCatch ?_ fun _ =>
        attributed_failed hc _ _ _
      exact .skip fun _ => attributed_succeeded hc _ _

theorem attributed_key :
    Logged.Ensures (key h t kv request)
      (Attributed h kv request (requestIdOf h t .new request)) := by
  refine attributed_new hs hid fun r hc hr => .skip fun attestation => ?_
  cases attestation with
  | none => exact attributed_failed hc _ _ _
  | some attestation =>
    refine attributed_identified hc hr (fun _ _ _ _ hrefused => .pure hrefused.failure) fun p hp => ?_
    split
    · cases hp
    refine .skip fun provider => .skip fun selection => ?_
    obtain ⟨n, kid⟩ := selection
    cases kid with
    | none => exact attributed_failed hc _ _ _
    | some kid =>
      exact .ite (fun _ => attributed_keyRelease hc _ _ _ _ _) fun _ => attributed_failed hc _ _ _

omit hs hid in
theorem attributed_unwrapRelease (hc : c.Names id) (wrappedKid : JsValue) (fmt : String)
    (wrappingKey : Bytes) :
    Logged.Ensures (unwrapRelease h t kv c wrappedKid fmt wrappingKey)
      (Attributed h kv request id) := by
  refine .skip fun kidText => .skip fun _ => .skip fun keyItem => ?_
  cases keyItem with
  | none => exact attributed_failed hc _ _ _
  | some keyItem =>
    refine .skip fun expiry => .ite (fun _ => attributed_failed hc _ _ _) fun _ => ?_
    refine .skip fun _ => .skip fun _ => .tryCatch ?_ fun _ => attributed_failed hc _ _ _
    exact .skip fun _ => attributed_succeeded hc _ _

omit hs hid in
theorem attributed_unwrapBinding (hc : c.Names id) (attestation provider wrappedKid : JsValue)
    (fmt : String) (wrappingKey : Bytes) (wrappingKeyHash : String) :
    Logged.Ensures
      (unwrapBinding h t kv c attestation provider wrappedKid fmt wrappingKey wrappingKeyHash)
      (Attributed h kv request id) := by
  refine .bind (Q := EndsAttributed h kv request id) (endsAttributed_attestation hc) fun outcome hends => ?_
  cases outcome with
  | error failed => exact .pure (hends failed rfl)
  | ok r =>
    refine .skip fun _ => .skip fun _ => .skip fun _ => .ite (fun _ => ?_) fun _ =>
      attributed_failed hc _ _ _
    exact attributed_unwrapRelease hc _ _ _

theorem attributed_unwrapKey :
    Logged.Ensures (unwrapKey h t kv request)
      (Attributed h kv request (requestIdOf h t .new request)) := by
  refine attributed_new hs hid fun r hc hr => .skip fun attestation => ?_
  cases attestation with
  | none => exact attributed_failed hc _ _ _
  | some attestation =>
    refine attributed_identified hc hr (fun _ _ _ _ hrefused => .pure hrefused.failure) fun p hp => ?_
    split
    · cases hp
    refine .skip fun wrappedKid => ?_
    split
    · exact .skip fun _ => attributed_failed hc _ _ _
    refine .skip fun wrapping => ?_
    split
    · exact .skip fun _ => .skip fun _ => attributed_failed hc _ _ _
    refine .skip fun _ => .skip fun _ => .skip fun provider => .ite (fun _ => ?_) fun _ =>
      attributed_failed hc _ _ _
    exact attributed_unwrapBinding hc _ _ _ _ _ _

omit hs hid in
theorem attributed_gcpRelease (hc : c.Names id) (wrappingKey : Bytes) :
    Logged.Ensures (gcpRelease h t kv c wrappingKey) (Attributed h kv request id) := by
  refine .skip fun latest => ?_
  obtain ⟨n, kid⟩ := latest
  cases kid with
  | none => exact attributed_failed hc _ _ _
  | some kid =>
    refine .skip fun keyItem => ?_
    cases keyItem with
    | none => exact attributed_failed hc _ _ _
    | some keyItem =>
      refine .skip fun _ => .tryCatch ?_ fun _ => attributed_failed hc _ _ _
      exact .skip fun _ => attributed_succeeded hc _ _

theorem attributed_unwrapKeyGcp :
    Logged.Ensures (unwrapKeyGcp h t kv request)
      (Attributed h kv request (requestIdOf h t .new request)) := by
  refine attributed_new hs hid fun r hc hr => attributed_identified hc hr
    (fun _ _ _ _ hrefused => .pure hrefused.failure) fun p hp => ?_
  split
  · cases hp
  refine .skip fun wrappingKey => .ite (fun _ => .skip fun isPem => .ite (fun _ => ?_) fun _ => ?_)
    fun _ => attributed_failed hc _ _ _
  · refine .skip fun nonce => .ite (fun _ => ?_) fun _ => attributed_failed hc _ _ _
    refine .skip fun _ => .skip fun _ => .skip fun _ => .ite (fun _ => ?_) fun _ =>
      attributed_failed hc _ _ _
    exact .skip fun _ => attributed_gcpRelease hc _
  · exact .skip fun _ => attributed_failed hc _ _ _

/-- The same for an endpoint that also leaves a store behind. -/
def AttributedFst (h : Host) (kv : Kv) (request : Request) (id : String)
    (p : ServiceResult α × Kv) : Prop :=
  Attributed h kv request id p.1

theorem attributed_refresh (keys : CryptoKeyPair) :
    Logged.Ensures (refresh h t kv keys request)
      (AttributedFst h kv request (requestIdOf h t .new request)) := by
  refine attributed_new hs hid fun r hc hr => attributed_identified hc hr
    (fun _ _ _ _ hrefused => .pure hrefused.failure) fun p hp => ?_
  split
  · cases hp
  refine .skip fun _ => .skip fun times => ?_
  cases times
  all_goals
    refine .skip fun _ => .tryCatch ?_ fun _ => ?_
    · refine .skip fun generated => .skip fun _ => .skip fun _ => ?_
      exact .bind (attributed_succeeded hc _ _) fun ret hret => .pure hret
    · exact .bind (attributed_caught hc _) fun failed hf => .pure hf

omit hs hid in
theorem attributed_checkAcl (hc : c.Names id) :
    Logged.Ensures (checkAcl h kv c request) fun refused => ∀ failure, refused = some failure →
      Attributed h kv request id failure := by
  have hfailed (errorMessage : String) (code : ℕ) :
      Logged.Ensures
        (ServiceResult.failed h.toEngine (.of errorMessage) code c [] >>= fun failure =>
          pure (some failure) : Handler (Option ProposalResponse))
        fun refused => ∀ failure, refused = some failure → Attributed h kv request id failure := by
    refine .bind (Q := Attributed h kv request id) (attributed_failed hc _ _ _) fun failure hf =>
      .pure fun failure' he => ?_
    cases he
    exact hf
  refine .ite (fun _ => ?_) fun _ => .pure (by simp)
  refine .skip fun _ => .skip fun caller => .ite (fun _ => ?_) fun _ => hfailed _ _
  refine .skip fun callerId => ?_
  split
  · exact hfailed _ _
  refine .skip fun _ => .skip fun roles => .skip fun administrator => .skip fun contributor => ?_
  exact .ite (fun _ => .pure (by simp)) fun _ => hfailed _ _

omit hs hid in
theorem attributed_applyActions (hc : c.Names id) (caller : Caller) (proposalActions : List Json)
    (kv₁ : Kv) (results : List IProposalResult) :
    Logged.Ensures (applyActions h c caller kv₁ results proposalActions) fun p =>
      EndsAttributed h kv request id p.2 := by
  induction proposalActions generalizing kv₁ results with
  | nil => exact .pure (endsAttributed_ok _)
  | cons proposalAction rest ih =>
    refine .skip fun name => ?_
    split
    · refine .bind (Q := Attributed h kv request id) (attributed_failed hc _ _ _) fun failure hf =>
        .pure fun failure' he => ?_
      cases he
      exact hf
    · exact .skip fun args => .skip fun _ => .skip fun kv₂ => .skip fun digest => ih kv₂ _

omit hs hid in
theorem attributed_acceptProposal (hc : c.Names id) :
    Logged.Ensures (acceptProposal h c kv request) (AttributedFst h kv request id) := by
  refine .skip fun caller => .skip fun content => .skip fun body => .skip fun times => ?_
  refine .skip fun created => .skip fun last => .skip fun before => .ite (fun _ => ?_) fun _ => ?_
  · refine .skip fun current => .skip fun _ => ?_
    exact .bind (attributed_failed hc _ _ _) fun failure hf => .pure hf
  · refine .skip fun proposalActions => ?_
    refine .bind (Q := fun p => EndsAttributed h kv request id p.2)
      (attributed_applyActions hc caller proposalActions kv []) fun p hends => ?_
    obtain ⟨kv₁, outcome⟩ := p
    cases outcome with
    | error failure => exact .pure (hends failure rfl)
    | ok results =>
      exact .skip fun _ => .bind (attributed_succeeded hc _ _) fun response hr => .pure hr

theorem attributed_postProposals :
    Logged.Ensures (postProposals h t kv request)
      (AttributedFst h kv request (requestIdOf h t .new request)) := by
  refine attributed_new hs hid fun r hc hr => attributed_identified hc hr
    (fun _ _ _ _ hrefused => .pure hrefused.failure) fun p hp => ?_
  split
  · cases hp
  refine .bind (attributed_checkAcl hc) fun refused hrefused => ?_
  cases refused with
  | some failure => exact .pure (hrefused failure rfl)
  | none => exact attributed_acceptProposal hc

omit hs hid in
theorem Attributed.sent [Serializable α] {r : ServiceResult α}
    (ha : Attributed h kv request id r) : Attributed h kv request id r.sent := by
  cases r with
  | failure error code headers => exact ha.failure
  | success body headers =>
    rcases ha with hcarries | ⟨caller, error, code, -, -, -, he⟩
    · exact .inl hcarries
    · cases he
  | pending headers =>
    rcases ha with hcarries | ⟨caller, error, code, -, -, -, he⟩
    · exact .inl hcarries
    · cases he

omit hs hid in
theorem attributed_answering [Serializable α] {handler : Handler (ServiceResult α)}
    (ha : Logged.Ensures handler (Attributed h kv request id)) :
    Logged.Ensures (answering kv handler) (AttributedFst h kv request id) :=
  .bind ha fun _ hr => .pure hr.sent

omit hs hid in
theorem attributed_sent [Serializable α] {handler : Handler (ServiceResult α × Kv)}
    (ha : Logged.Ensures handler (AttributedFst h kv request id)) :
    Logged.Ensures (handler >>= fun p => pure (p.1.sent, p.2)) (AttributedFst h kv request id) :=
  .bind ha fun _ hp => .pure (Attributed.sent hp)

theorem attributed_respond {operation : Operation} (hop : operation ≠ .getProposals) :
    Logged.Ensures (Transaction.respond h kv ⟨operation, t, request⟩)
      (AttributedFst h kv request (requestIdOf h t .new request)) := by
  cases operation with
  | keys call =>
    cases call with
    | refresh keys => exact attributed_sent (attributed_refresh hs hid keys)
    | key => exact attributed_answering (attributed_key hs hid)
    | unwrapKey => exact attributed_answering (attributed_unwrapKey hs hid)
    | unwrapKeyGcp => exact attributed_answering (attributed_unwrapKeyGcp hs hid)
    | pubkey => exact attributed_answering (attributed_pubkey hs hid)
    | listpubkeys => exact attributed_answering (attributed_listpubkeys hs hid)
  | auth => exact attributed_answering (attributed_auth hs hid)
  | heartbeat => exact attributed_answering (attributed_heartbeat hs hid)
  | settingsPolicy => exact attributed_answering (attributed_showPolicy hs hid _ _)
  | keyReleasePolicy => exact attributed_answering (attributed_showPolicy hs hid _ _)
  | jwtValidationPolicy => exact attributed_answering (attributed_showPolicy hs hid _ _)
  | postProposals => exact attributed_sent (attributed_postProposals hs hid)
  | getProposals => exact absurd rfl hop

end Endpoints

/-- Whatever was called before, the response to a request carries the id of the request, but for
    the refusal of a token, which has no headers at all. -/
theorem responses_carry_request_id (h : Host) (kv : Kv) (xs : List Transaction) (x : Transaction)
    (hx : x.operation ≠ .getProposals) (hid : requestIdOf h x.moment .new x.request ≠ "")
    (response : ServiceResult JsValue) (kv' : Kv)
    (hr : (x.respond h (serviceAfter h kv xs)).result = .ok (response, kv')) :
    Carries (requestIdOf h x.moment .new x.request) response ↔
      ¬ TokenRefused h (serviceAfter h kv xs) x.request response := by
  have hattributed : Attributed h (serviceAfter h kv xs) x.request _ response :=
    attributed_respond (settingsAre_of_service h kv xs) hid hx _ hr
  constructor
  · rintro hcarries ⟨caller, error, code, -, -, -, rfl⟩
    cases hcarries
  · intro hnot
    exact hattributed.resolve_right hnot

def namedRequest : Request :=
  ⟨[("request-id", "7a")], "kid=k1", [], .error ⟨"Unexpected end of JSON input"⟩, none, []⟩

/-- Also a request for a key that there is not. -/
theorem missing_key_carries_request_id :
    ∃ response kv', (Transaction.respond sampleHost (serviceAfter sampleHost .empty [])
        ⟨.keys .pubkey, sampleMoment 0, namedRequest⟩).result = .ok (response, kv') ∧
      response.statusCode = 404 ∧ Carries "7a" response := by
  refine ⟨_, _, rfl, rfl, ?_⟩
  refine (responses_carry_request_id sampleHost .empty []
    ⟨.keys .pubkey, sampleMoment 0, namedRequest⟩ nofun (by decide) _ _ rfl).mpr ?_
  rintro ⟨caller, error, code, hcaller, -⟩
  cases hcaller

end DepaKms
