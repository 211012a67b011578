import DepaKms.ReleaseEvidence

set_option autoImplicit false

/-!
# Log levels

Which of the recorded lines reach the console, and where the level can change: the
settings are read once, in front of every request, and nothing later touches it.
-/
namespace DepaKms

/-- The numbers of the levels. -/
def LogLevel.rank : LogLevel → ℕ
  | ERROR => 0
  | WARN => 1
  | INFO => 2
  | DEBUG => 3

theorem debug_le_rank_iff (level : LogLevel) :
    LogLevel.DEBUG.rank ≤ level.rank ↔ level = .DEBUG := by
  cases level <;> decide

namespace Logger

/-- The lines that reach the console when the level starts out as `level`. -/
def written : LogLevel → List LogEvent → List String
  | _, [] => []
  | level, .line l text :: es =>
    if l.rank ≤ level.rank then text :: written level es else written level es
  | level, .setLogLevel l :: es =>
    s!"Setting log level ({tag level}) to {tag l}" :: written l es
  | level, .consoleError _ :: es => written level es

def levelAfter : LogLevel → List LogEvent → LogLevel
  | level, [] => level
  | _, .setLogLevel l :: es => levelAfter l es
  | level, .line _ _ :: es => levelAfter level es
  | level, .consoleError _ :: es => levelAfter level es

theorem levelAfter_append (level : LogLevel) (es es' : List LogEvent) :
    levelAfter level (es ++ es') = levelAfter (levelAfter level es) es' := by
  induction es generalizing level with
  | nil => rfl
  | cons e es ih => cases e <;> exact ih _

theorem written_append (level : LogLevel) (es es' : List LogEvent) :
    written level (es ++ es') = written level es ++ written (levelAfter level es) es' := by
  induction es generalizing level with
  | nil => rfl
  | cons e es ih =>
    cases e with
    | line l text =>
      simp only [List.cons_append, written, levelAfter, ih]
      split_ifs
      · rfl
      · rfl
    | setLogLevel l => simp only [List.cons_append, written, levelAfter, ih]
    | consoleError text => simp only [List.cons_append, written, levelAfter, ih]

/-- Runs that differ in one debug line are told apart at the debug level only. -/
theorem written_eq_iff (level : LogLevel) (before after : List LogEvent) (text text' : String) :
    written level (before ++ .line .DEBUG text :: after) =
        written level (before ++ .line .DEBUG text' :: after) ↔
      (levelAfter level before = .DEBUG → text = text') := by
  rw [written_append, written_append, List.append_cancel_left_eq, written, written]
  by_cases hlevel : levelAfter level before = .DEBUG
  · simp [hlevel]
  · have hhidden : ¬ LogLevel.DEBUG.rank ≤ (levelAfter level before).rank :=
      mt (debug_le_rank_iff _).mp hlevel
    simp [hlevel, hhidden]

end Logger

def LogEvent.Quiet : LogEvent → Prop
  | .setLogLevel _ => False
  | _ => True

abbrev Quiet {α : Type} (x : Handler α) : Prop := Logged.Emits LogEvent.Quiet x

theorem levelAfter_quiet {α : Type} {x : Handler α} (hx : Quiet x) (level : LogLevel) :
    Logger.levelAfter level x.events = level := by
  obtain ⟨result, events⟩ := x
  induction events with
  | nil => rfl
  | cons e es ih =>
    have hes := ih fun w hw => hx w (List.mem_cons_of_mem _ hw)
    cases e with
    | setLogLevel l => exact (hx _ List.mem_cons_self).elim
    | line l text => exact hes
    | consoleError text => exact hes

theorem levelAfter_bind {α β : Type} {x : Handler α} (hx : Quiet x) {a : α}
    (ha : x.result = .ok a) (f : α → Handler β) (level : LogLevel) :
    Logger.levelAfter level (x >>= f).events = Logger.levelAfter level (f a).events := by
  rw [Logged.events_bind_ok ha, Logger.levelAfter_append, levelAfter_quiet hx]

theorem quiet_log {E : Engine} {level : LogLevel} {message : String} {context : Option LogContext}
    {args : List JsValue} : Quiet (Logger.log E level message context args) := .emit trivial

section Results

variable {E : Engine} {α : Type} [Serializable α]

theorem quiet_succeeded {body : α} {logContext : LogContext} {headers : Option Headers} :
    Quiet (ServiceResult.succeeded E body logContext headers) :=
  .bind quiet_log fun _ => .bind quiet_log fun _ => .pure _

omit [Serializable α] in
theorem quiet_failed {error : ErrorResponse} {code : ℕ} {logContext : LogContext}
    {headers : Headers} :
    Quiet (ServiceResult.failed E error code logContext headers : Handler (ServiceResult α)) :=
  .bind quiet_log fun _ => .pure _

end Results

section Authentication

variable {h : Host} {kv : Kv}

theorem quiet_userCert (logContext : LogContext) (caller : Caller) :
    Quiet (UserCertValidator.validate h kv logContext caller) :=
  .bind (.read fun _ => quiet_succeeded) fun _ =>
    .ite (fun _ => quiet_succeeded) fun _ => quiet_failed

theorem quiet_memberCert (logContext : LogContext) (caller : Caller) :
    Quiet (MemberCertValidator.validate h kv logContext caller) := by
  refine .bind (.read fun memberId => ?_) fun _ =>
    .ite (fun _ => quiet_succeeded) fun _ => quiet_failed
  split
  · exact .read fun _ => quiet_succeeded
  · exact .throw _
  · exact quiet_failed

theorem quiet_userCose (logContext : LogContext) (request : Request) :
    Quiet (UserCoseValidator.validate h kv logContext request) := by
  have hisUser (userId : Option String) :
      Quiet (UserCoseValidator.isUser h kv logContext userId) :=
    .read fun _ => quiet_succeeded
  unfold UserCoseValidator.validate
  split
  · exact quiet_failed
  refine .ite (fun _ => ?_) fun _ => quiet_failed
  -- The body is looked into where there is one; what follows is the same.
  dsimp only
  split_ifs
  · refine .read fun _ => .ite (fun _ => quiet_failed) fun _ => ?_
    exact .bind (hisUser _) fun _ => .ite (fun _ => quiet_failed)
      fun _ => quiet_succeeded
  · refine .read fun _ => .ite (fun _ => quiet_failed) fun _ => ?_
    exact .bind (hisUser _) fun _ => .ite (fun _ => quiet_failed)
      fun _ => quiet_succeeded

theorem quiet_logIssuers (logContext : LogContext)
    (issuers : List (Sigma fun _ : String => KvText)) :
    Quiet (JwtValidationPolicyMap.logIssuers h logContext issuers) := by
  induction issuers with
  | nil => exact .pure _
  | cons issuer issuers ih =>
    obtain ⟨name, info⟩ := issuer
    cases info with
    | json info => exact .bind quiet_log fun _ => ih
    | raw text => exact .throw _

theorem quiet_read (issuer : JsValue) (logContext : LogContext) :
    Quiet (JwtValidationPolicyMap.read h kv issuer logContext) := by
  refine .bind (quiet_logIssuers _ _) fun _ => .read fun issuer => ?_
  split
  · exact .bind quiet_log fun _ => .pure _
  · refine .bind quiet_log fun _ => ?_
    split
    · exact .pure _
    · exact .throw _

theorem quiet_checkLoop (payload : JsValue) (entries : List (String × Json)) :
    Quiet (JwtValidator.checkLoop h payload entries) := by
  induction entries with
  | nil => exact .pure _
  | cons entry entries ih =>
    refine .read fun _ => .read fun _ => .read fun _ => ?_
    refine .bind quiet_log fun _ => .ite (fun _ => ih) fun _ => ?_
    exact .bind quiet_log fun _ => .bind (quiet_failed) fun _ => .pure _

theorem quiet_jwt (caller : Caller) : Quiet (JwtValidator.validate h kv caller) := by
  refine .read fun _ => .bind quiet_log fun _ => .read fun _ => ?_
  refine .ite (fun _ => ?_) fun _ => quiet_failed
  refine .bind (quiet_read _ _) fun policy => .read fun _ => ?_
  cases policy with
  | none => exact .bind quiet_log fun _ => quiet_failed
  | some policy =>
    refine .bind quiet_log fun _ => .read fun _ =>
      .bind (quiet_checkLoop _ _) fun failure => ?_
    cases failure with
    | some failure => exact .pure _
    | none =>
      exact .read fun _ => .bind quiet_log fun _ => quiet_succeeded

theorem quiet_isAuthenticated (r : ServiceRequest) : Quiet (r.isAuthenticated h kv) := by
  have hvalidate (logContext : LogContext) (caller : Caller) :
      Quiet (AuthenticationService.validate h kv logContext r.request caller) := by
    unfold AuthenticationService.validate
    split
    · exact quiet_jwt _
    · exact quiet_userCert _ _
    · exact quiet_memberCert _ _
    · exact quiet_userCose _ _
    · exact .throw _
  refine .bind (.tryCatch ?_ fun _ => .bind (quiet_failed) fun _ => .pure _)
    fun _ => .bind quiet_log fun _ => .pure _
  cases r.request.caller with
  | none => exact .bind (quiet_succeeded) fun _ => .pure _
  | some caller =>
    exact .bind quiet_log fun _ => .bind (hvalidate _ _) fun _ => .pure _

end Authentication

section Policy

variable {E : Engine} {logContext : LogContext}

theorem quiet_matching (attestationValue : JsValue) (ps : List Json) :
    Quiet (KeyReleasePolicy.matching E logContext attestationValue ps) := by
  induction ps with
  | nil => exact .pure _
  | cons p ps ih =>
    refine .read fun _ => .read fun _ => .bind quiet_log fun _ => ?_
    exact .read fun _ => .read fun _ => .bind ih fun _ => .pure _

theorem quiet_claimsLoop (attestationClaims : JsValue) (entries : List (String × Json)) :
    Quiet (KeyReleasePolicy.claimsLoop E logContext attestationClaims entries) := by
  induction entries with
  | nil => exact .pure _
  | cons entry entries ih =>
    refine .read fun _ => .read fun _ => .read fun _ => ?_
    refine .bind quiet_log fun _ => .ite (fun _ => ?_) fun _ => ?_
    · exact .bind (quiet_failed) fun _ => .pure _
    refine .read fun _ => .bind (quiet_matching _ _) fun _ => .ite (fun _ => ?_) fun _ => ih
    exact .bind (quiet_failed) fun _ => .pure _

theorem quiet_claims (claims : Json) (attestationClaims : JsValue) :
    Quiet (KeyReleasePolicy.validateKeyReleasePolicyClaims E logContext claims
      attestationClaims) := by
  refine .ite (fun _ => quiet_failed) fun _ => .ite (fun _ => quiet_failed)
    fun _ => .read fun _ => .bind (quiet_claimsLoop _ _) fun failure => ?_
  cases failure with
  | some failure => exact .pure _
  | none => exact quiet_succeeded

theorem quiet_operatorsLoop (op : KeyReleasePolicy.Operator) (attestationClaims : JsValue)
    (entries : List (String × Json)) :
    Quiet (KeyReleasePolicy.operatorsLoop E logContext op attestationClaims entries) := by
  induction entries with
  | nil => exact .pure _
  | cons entry entries ih =>
    refine .read fun _ => .read fun _ => .read fun _ => ?_
    refine .bind quiet_log fun _ => .ite (fun _ => ?_) fun _ => .ite (fun _ => ?_) fun _ => ?_
    · exact .bind (quiet_failed) fun _ => .pure _
    · exact .bind (quiet_failed) fun _ => .pure _
    split
    · exact .bind (quiet_failed) fun _ => .pure _
    · refine .read fun _ => .bind quiet_log fun _ => .ite (fun _ => ih) fun _ => ?_
      exact .bind (quiet_failed) fun _ => .pure _

theorem quiet_applyOperator (op : KeyReleasePolicy.Operator) (bounds : Option Json)
    (attestationClaims : JsValue) (r : ServiceResult JsValue) :
    Quiet (KeyReleasePolicy.applyOperator E logContext op bounds attestationClaims r) := by
  unfold KeyReleasePolicy.applyOperator
  split
  · exact .pure _
  · exact .pure _
  refine .bind quiet_log fun _ => .ite (fun _ => quiet_failed)
    fun _ => .ite (fun _ => quiet_failed) fun _ => .bind (.lift _)
    fun _ => .bind (quiet_operatorsLoop _ _ _) fun failure => ?_
  cases failure with
  | some failure => exact .pure _
  | none => exact quiet_succeeded

theorem quiet_evaluator (policy : IKeyReleasePolicy) (attestationClaims : JsValue)
    (logContextIn : Option LogContext) :
    Quiet (KeyReleasePolicy.validateKeyReleasePolicy E policy attestationClaims logContextIn) := by
  refine .read fun _ => .ite (fun _ => quiet_failed) fun _ => ?_
  refine .bind (quiet_claims _ _) fun _ => .ite (fun _ => .pure _) fun _ => ?_
  exact .bind (quiet_applyOperator _ _ _ _) fun _ => quiet_applyOperator _ _ _ _

theorem quiet_policyFromMap (map : KvMap String KvText) (logContextIn : Option LogContext) :
    Quiet (KeyReleasePolicy.getKeyReleasePolicyFromMap E map logContextIn) := by
  refine .read fun claims => ?_
  cases claims with
  | none => exact .throw _
  | some claims =>
    exact .read fun _ => .read fun _ => .bind quiet_log fun _ => .pure _

end Policy

section Attestation

variable {h : Host} {t : Moment} {kv : Kv}

theorem quiet_withBuffers {logContext : LogContext} {attestation : JsValue}
    {checks : List (String × String)}
    {next : Bytes → Bytes → Bytes → Handler (ServiceResult JsValue)}
    (hnext : ∀ evidence endorsements uvm, Quiet (next evidence endorsements uvm)) :
    Quiet (withBuffers h logContext attestation checks next) := by
  have hdecode {field : String} {next : Bytes → Handler (ServiceResult JsValue)}
      (hnext : ∀ bytes, Quiet (next bytes)) :
      Quiet (decodeField h logContext attestation field next) := by
    unfold decodeField
    split
    · exact hnext _
    · exact quiet_failed
  refine .ite (fun _ => ?_) fun _ => quiet_failed
  induction checks with
  | nil => exact hdecode fun _ => hdecode fun _ => hdecode fun _ => hnext _ _ _
  | cons check checks ih =>
    exact .read fun _ => .ite (fun _ => quiet_failed) fun _ => ih

theorem quiet_verifyGcpReport (logContext : LogContext) (attestation : JsValue)
    (evidence endorsements uvm : Bytes) :
    Quiet (verifyGcpReport h logContext attestation evidence endorsements uvm) := by
  refine .tryCatch ?_ fun _ => quiet_failed
  refine .read fun _ => .read fun _ => .bind quiet_log fun _ => ?_
  exact .bind quiet_log fun _ => quiet_succeeded

theorem quiet_verifyReport (logContext : LogContext) (attestation : JsValue)
    (evidence endorsements uvm : Bytes) :
    Quiet (verifyReport h kv logContext attestation evidence endorsements uvm) := by
  refine .tryCatch ?_ fun _ => quiet_failed
  refine .read fun _ => .read fun _ => .bind quiet_log fun _ => ?_
  refine .bind quiet_log fun _ => .read fun _ =>
    .bind quiet_log fun _ => ?_
  refine .bind (quiet_policyFromMap _ _) fun _ => .bind quiet_log fun _ => ?_
  exact quiet_evaluator _ _ _

theorem quiet_validateAttestation (attestation provider : JsValue) :
    Quiet (validateAttestation h kv attestation provider) := by
  refine .read fun _ => .bind quiet_log fun _ => .ite (fun _ => ?_) fun _ => ?_
  · exact .bind quiet_log fun _ => quiet_withBuffers (quiet_verifyGcpReport _ _)
  · exact quiet_withBuffers (quiet_verifyReport _ _)

theorem quiet_endpointAttestation {α : Type} (name : String) (logContext : LogContext)
    (attestation provider : JsValue) (failureHeaders : ℕ → Except JsError Headers)
    (exceptionHeaders : JsError → Headers) :
    Quiet (endpointAttestation h kv name logContext attestation provider failureHeaders
      exceptionHeaders : Handler (Except (ServiceResult α) (ServiceResult JsValue))) := by
  refine .tryCatch (.bind (quiet_validateAttestation _ _) fun r => ?_) fun _ => ?_
  · split
    · exact .read fun _ => .bind (quiet_failed) fun _ => .pure _
    · exact .pure _
  · exact .read fun _ => .bind (quiet_failed) fun _ => .pure _

theorem quiet_receipt (kid : String) : Quiet (KeyStore.receipt h.toEngine t kv kid) := by
  unfold KeyStore.receipt
  split
  · exact .bind quiet_log fun _ => .pure _
  · refine .bind quiet_log fun _ => .bind quiet_log fun _ => ?_
    split
    · exact .bind quiet_log fun _ => .pure _
    · exact .pure _

theorem quiet_requestHasWrappingKey (body : JsValue) (logContextIn : Option LogContext) :
    Quiet (requestHasWrappingKey h body logContextIn) := by
  refine .read fun _ => .ite (fun _ => ?_) fun _ => quiet_failed
  refine .read fun _ => .bind quiet_log fun _ => .bind ?_ fun _ =>
    .ite (fun _ => ?_) fun _ => .bind quiet_log fun _ => quiet_failed
  · exact .read fun _ => .bind quiet_log fun _ =>
      .bind quiet_log fun _ => .pure _
  · exact .read fun _ => .bind quiet_log fun _ => quiet_succeeded

theorem quiet_isExpired (map : KvMap String KvText) (item : IKeyItem) (logContext : LogContext) :
    Quiet (KeyRotationPolicy.isExpired h.toEngine t map item logContext) := by
  have hpolicy : Quiet (KeyRotationPolicy.getKeyRotationPolicyFromMap h.toEngine map logContext) := by
    refine .bind quiet_log fun _ => ?_
    split
    · exact .bind quiet_log fun _ => .pure _
    · exact .bind quiet_log fun _ => .pure _
    · exact .pure _
    · exact .bind quiet_log fun _ => .throw _
  refine .bind (.bind hpolicy fun policy => ?_) fun times => ?_
  · cases policy with
    | none => exact .bind quiet_log fun _ => .pure _
    | some policy =>
      refine .read fun _ => .read fun _ => .bind quiet_log fun _ => ?_
      exact .read fun _ => .read fun _ => .bind quiet_log fun _ => .pure _
  · cases times with
    | none => exact .pure _
    | some times =>
      exact .ite (fun _ => .bind quiet_log fun _ => .pure _) fun _ =>
        .ite (fun _ => .bind quiet_log fun _ => .pure _) fun _ => .pure _

end Attestation

/-- The settings a request is served with; a text that does not parse is refused. -/
def Settings.stored (settingsPolicyMap : KvMap String KvText) : Option Json :=
  match settingsPolicyMap.lookup "settings_policy" with
  | none | some (.raw "") => some defaultSettings
  | some (.json settings) => some settings
  | some (.raw _) => none

def Settings.debugSelected (settingsPolicyMap : KvMap String KvText) : Bool :=
  match (Settings.stored settingsPolicyMap).map fun settings => serviceField settings "debug" with
  | some (.ok debug) => debug.truthy
  | _ => false

/-- Requests are served at the debug level: it is in force already, or the settings select it. -/
def DebugInForce (level : LogLevel) (kv : Kv) : Prop :=
  level = .DEBUG ∨ Settings.debugSelected kv.settings = true

instance (level : LogLevel) (kv : Kv) : Decidable (DebugInForce level kv) := by
  unfold DebugInForce
  infer_instance

section Requests

variable {h : Host} {t : Moment} {kv : Kv} {logContext : LogContext} {request : Request}

theorem quiet_loadSettings (map : KvMap String KvText) :
    Quiet (Settings.loadSettingsFromMap h map logContext) := by
  refine .bind quiet_log fun _ => .bind quiet_log fun _ => ?_
  split
  · exact .bind quiet_log fun _ => .pure _
  · exact .bind quiet_log fun _ => .pure _
  · exact .pure _
  · exact .bind quiet_log fun _ => .throw _

theorem stored_of_load {map : KvMap String KvText} {settings : Json}
    (hload : (Settings.loadSettingsFromMap h map logContext).result = .ok settings) :
    Settings.stored map = some settings := by
  unfold Settings.loadSettingsFromMap at hload
  simp only [Logged.result_bind, Logger.result_info, Logger.result_debug, Logged.ok_bind] at hload
  unfold Settings.stored
  generalize map.lookup "settings_policy" = found at hload ⊢
  split at hload <;> cases hload <;> rfl

theorem quiet_queryParams (logContextIn : Option LogContext) :
    Quiet (queryParams h.toEngine request logContextIn) := by
  unfold queryParams
  generalize splitString '&' request.query = elements, ([] : Query) = query
  induction elements generalizing query with
  | nil => exact .pure _
  | cons element elements ih => exact .bind quiet_log fun _ => ih _

theorem quiet_logSettings (settings : Json) : Quiet (Settings.logSettings h.toEngine settings) := by
  refine .read fun _ => .read fun _ => .bind quiet_log fun _ => ?_
  refine .read fun _ => .read fun _ => .bind quiet_log fun _ => ?_
  refine .read fun _ => .read fun _ => .bind quiet_log fun _ => ?_
  exact .read fun _ => .read fun _ => quiet_log

theorem levelAfter_setLogLevel {settings : Json} (level : LogLevel)
    (hset : (Settings.setLogLevelFromSettings settings).result = .ok ()) :
    ∃ debug, Settings.serviceField settings "debug" = .ok debug ∧
      Logger.levelAfter level (Settings.setLogLevelFromSettings settings).events =
        if debug.truthy then .DEBUG else level := by
  unfold Settings.setLogLevelFromSettings at hset ⊢
  cases hdebug : Settings.serviceField settings "debug" with
  | error e =>
    rw [hdebug] at hset
    cases hset
  | ok debug =>
    refine ⟨debug, rfl, ?_⟩
    rw [Logged.events_bind_ok (a := debug) rfl]
    by_cases htruthy : debug.truthy = true
    · simp only [if_pos htruthy]
      rfl
    · simp only [if_neg htruthy]
      rfl

/-- The level changes at the start of a request and nowhere else. -/
theorem levelAfter_construct {settings : Json} {r : ServiceRequest} (level : LogLevel)
    (hr : (ServiceRequest.construct h t logContext request settings).result = .ok r) :
    ∃ debug, Settings.serviceField settings "debug" = .ok debug ∧
      Logger.levelAfter level
          (ServiceRequest.construct h t logContext request settings).events =
        if debug.truthy then .DEBUG else level := by
  have hbody (logContext : LogContext) :
      Quiet (ServiceRequest.parseBody h.toEngine logContext request) :=
    .tryCatch (.read fun _ => .pure _) fun _ => .bind quiet_log fun _ => .pure _
  unfold ServiceRequest.construct at hr ⊢
  rw [Logged.result_bind, Logged.bind_ok_iff] at hr
  obtain ⟨u, hset, -⟩ := hr
  obtain ⟨debug, hdebug, hlevel⟩ := levelAfter_setLogLevel level hset
  refine ⟨debug, hdebug, ?_⟩
  rw [Logged.events_bind_ok hset, Logger.levelAfter_append, hlevel, levelAfter_quiet]
  -- A warning comes first where the request names no id; the rest is the same.
  refine .bind (quiet_logSettings _) fun _ => ?_
  dsimp only
  split_ifs
  · refine .bind quiet_log fun _ => .bind quiet_log fun _ => .bind (hbody _) fun _ => ?_
    exact .bind quiet_log fun _ => .bind (quiet_queryParams _) fun _ => .pure _
  · refine .bind quiet_log fun _ => .bind (hbody _) fun _ => ?_
    exact .bind quiet_log fun _ => .bind (quiet_queryParams _) fun _ => .pure _

/-- A request whose body was read is served at the debug level just when it is in force. -/
theorem levelAfter_new {r : ServiceRequest} {level : LogLevel}
    (hr : (ServiceRequest.new h t kv logContext request).result = .ok r) (hb : r.body ≠ none) :
    Logger.levelAfter level (ServiceRequest.new h t kv logContext request).events = .DEBUG ↔
      DebugInForce level kv := by
  unfold ServiceRequest.new at hr ⊢
  rw [Logged.result_bind, Logged.bind_ok_iff] at hr
  obtain ⟨settings, hsettings, hr⟩ := hr
  rw [levelAfter_bind ?_ hsettings]
  · cases settings with
    | error e =>
      cases hr
      exact absurd rfl hb
    | ok settings =>
      obtain ⟨debug, hdebug, hlevel⟩ := levelAfter_construct level hr
      have hstored : Settings.stored kv.settings = some settings := by
        refine Logged.Ensures.tryCatch (Q := fun outcome : Except ErrorResponse Json => ∀ found,
          outcome = .ok found → Settings.stored kv.settings = some found) ?_ (fun _ => ?_)
          _ hsettings settings rfl
        · refine .step fun loaded hload => .pure fun found hfound => ?_
          cases hfound
          exact stored_of_load hload
        · exact .skip fun _ => .skip fun _ => .pure (by simp)
      have hselected : Settings.debugSelected kv.settings = debug.truthy := by
        simp only [Settings.debugSelected, hstored, Option.map_some, hdebug]
      rw [DebugInForce, hselected]
      simp only [hlevel]
      split_ifs with htruthy
      · simp [htruthy]
      · simp [htruthy]
  · refine .tryCatch (.bind (quiet_loadSettings _) fun _ => .pure _) fun _ => ?_
    exact .read fun _ => .bind quiet_log fun _ => .pure _

end Requests

end DepaKms
