import DepaKms.KeyExpiry
import DepaKms.Ledger

set_option autoImplicit false

/-!
# The policies of a running service

What the checks of the actions are good for: no policy that is accepted makes an
endpoint throw where it reads the policy.
-/
namespace DepaKms

variable {h : Host}

/-- The four fields that are read wherever a request comes in. -/
def ValidSettings (settings : Json) : Prop :=
  ∃ name description version debug,
    Settings.serviceField settings "name" = .ok (.json (.str name)) ∧
      Settings.serviceField settings "description" = .ok (.json (.str description)) ∧
      Settings.serviceField settings "version" = .ok (.json (.str version)) ∧
      Settings.serviceField settings "debug" = .ok (.json (.bool debug))

def proposedSettings (args : JsValue) : Json :=
  match args.get "settings_policy" with
  | .ok (.json settings) => settings
  | _ => .null

theorem bool_of_typeOf {value : JsValue} (ht : value.typeOf = "boolean") :
    ∃ b, value = .json (.bool b) := by
  unfold JsValue.typeOf at ht
  split at ht
  · simp at ht
  · split_ifs at ht <;> simp at ht
  · exact ⟨_, rfl⟩
  · simp at ht
  · simp at ht
  · simp at ht

theorem settings_change {map map' : KvMap String KvText} {args : JsValue}
    (hc : PolicyMap.settings.change h.toEngine map args = some map') :
    ValidSettings (proposedSettings args) ∧
      map' = map.insert "settings_policy" (.json (proposedSettings args)) := by
  obtain ⟨kv', henact, rfl⟩ := Option.map_eq_some_iff.mp hc
  obtain ⟨hv, happly⟩ := Action.enact_eq_some_iff.mp henact
  obtain ⟨policy, hpolicy, happly⟩ := Logged.bind_ok_iff.mp happly
  obtain ⟨text, htext, happly⟩ := Logged.bind_ok_iff.mp happly
  cases happly
  obtain ⟨policy', hpolicy', hv⟩ := Logged.bind_ok_iff.mp hv
  cases hpolicy.symm.trans hpolicy'
  obtain ⟨_, -, hv⟩ := Logged.bind_ok_iff.mp hv
  obtain ⟨service, hservice, hv⟩ := Logged.bind_ok_iff.mp hv
  obtain ⟨_, -, hv⟩ := Logged.bind_ok_iff.mp hv
  obtain ⟨name, hname, hv⟩ := Logged.bind_ok_iff.mp hv
  obtain ⟨_, hnameType, hv⟩ := Logged.bind_ok_iff.mp hv
  obtain ⟨description, hdescription, hv⟩ := Logged.bind_ok_iff.mp hv
  obtain ⟨_, hdescriptionType, hv⟩ := Logged.bind_ok_iff.mp hv
  obtain ⟨version, hversion, hv⟩ := Logged.bind_ok_iff.mp hv
  obtain ⟨_, hversionType, hv⟩ := Logged.bind_ok_iff.mp hv
  obtain ⟨debug, hdebug, hdebugType⟩ := Logged.bind_ok_iff.mp hv
  have hstring {value : JsValue} (ht : checkType value "string" none = .ok ()) :
      ∃ s, value = .json (.str s) :=
    string_of_typeOf (typeOf_of_checkType (by decide) (by decide) (by decide) ht)
  obtain ⟨name, rfl⟩ := hstring hnameType
  obtain ⟨description, rfl⟩ := hstring hdescriptionType
  obtain ⟨version, rfl⟩ := hstring hversionType
  obtain ⟨debug, rfl⟩ :=
    bool_of_typeOf (typeOf_of_checkType (by decide) (by decide) (by decide) hdebugType)
  cases policy with
  | undefined => cases htext
  | builtin name => cases htext
  | json settings =>
    cases htext
    have hproposed : proposedSettings args = settings := by
      unfold proposedSettings
      rw [hpolicy]
    have hfield {key : String} {v : JsValue} (hget : service.get key = .ok v) :
        Settings.serviceField settings key = .ok v := by
      change settings.get "service" = _ at hservice
      unfold Settings.serviceField
      rw [hservice, Logged.ok_bind, hget]
    rw [hproposed]
    exact ⟨⟨name, description, version, debug, hfield hname, hfield hdescription, hfield hversion,
      hfield hdebug⟩, rfl⟩

/-- The settings in force: those last accepted, or else the default ones. -/
def settingsInForce (edits : List JsValue) : Json :=
  match edits.getLast? with
  | some args => proposedSettings args
  | none => Settings.defaultSettings

theorem settings_of_service (h : Host) (kv : Kv) (xs : List Transaction) :
    (serviceAfter h kv xs).settings.lookup "settings_policy" =
        ((acceptedEdits h kv xs .settings).getLast?).map (fun args => .json (proposedSettings args)) ∧
      ∀ args ∈ acceptedEdits h kv xs .settings, ValidSettings (proposedSettings args) := by
  refine policy_keeps (m := .settings) (R := fun map history =>
    map.lookup "settings_policy" =
        history.getLast?.map (fun args => .json (proposedSettings args)) ∧
      ∀ args ∈ history, ValidSettings (proposedSettings args)) ⟨rfl, by simp⟩ ?_ kv xs
  rintro map history args map' ⟨-, hvalid⟩ hc
  obtain ⟨hargs, rfl⟩ := settings_change hc
  refine ⟨?_, forall_mem_snoc.mpr ⟨hvalid, hargs⟩⟩
  rw [AList.lookup_insert, List.getLast?_concat]
  rfl

theorem default_settings_valid : ValidSettings Settings.defaultSettings :=
  ⟨_, _, _, _, rfl, rfl, rfl, rfl⟩

theorem settingsInForce_valid {edits : List JsValue}
    (hvalid : ∀ args ∈ edits, ValidSettings (proposedSettings args)) :
    ValidSettings (settingsInForce edits) := by
  unfold settingsInForce
  cases hlast : edits.getLast? with
  | none => exact default_settings_valid
  | some args => exact hvalid args (List.mem_of_getLast? hlast)

/-- The periods of a proposed policy: the rotation interval and the grace period. -/
def proposedPeriods (args : JsValue) : Option (ℚ × ℚ) :=
  match args.get "key_rotation_policy" with
  | .ok policy =>
    match policy.get "rotation_interval_seconds", policy.get "grace_period_seconds" with
    | .ok (.json (.num R)), .ok (.json (.num G)) => some (R, G)
    | _, _ => none
  | .error _ => none

def rotationInForce (edits : List JsValue) : Option (ℚ × ℚ) := edits.getLast?.bind proposedPeriods

theorem rotation_change {kv : Kv} {map map' : KvMap String KvText} {args : JsValue}
    (hc : PolicyMap.keyRotation.change h.toEngine map args = some map')
    (hkv : kv.keyRotation = map') :
    ∃ R G : ℤ, proposedPeriods args = some ((R : ℚ), (G : ℚ)) ∧ Rotates kv R G := by
  obtain ⟨kv', henact, rfl⟩ := Option.map_eq_some_iff.mp hc
  obtain ⟨R, G, document, hlookup, hR, hG⟩ := rotates_of_enact henact
  refine ⟨R, G, ?_, document, by rw [hkv]; exact hlookup, hR, hG⟩
  obtain ⟨-, happly⟩ := Action.enact_eq_some_iff.mp henact
  obtain ⟨policy, hpolicy, happly⟩ := Logged.bind_ok_iff.mp happly
  obtain ⟨text, htext, happly⟩ := Logged.bind_ok_iff.mp happly
  cases happly
  have hstored : text = .json document := Option.some.inj ((AList.lookup_insert _).symm.trans hlookup)
  cases policy with
  | undefined => cases htext
  | builtin name => cases htext
  | json w =>
    cases htext
    cases hstored
    unfold proposedPeriods
    rw [hpolicy]
    change (match document.get "rotation_interval_seconds", document.get "grace_period_seconds" with
      | .ok (.json (.num R)), .ok (.json (.num G)) => some (R, G)
      | _, _ => none) = _
    rw [hR, hG]

theorem rotation_of_service (h : Host) (kv : Kv) (xs : List Transaction) :
    Governs (serviceAfter h kv xs) (rotationInForce (acceptedEdits h kv xs .keyRotation)) := by
  have hkeeps := policy_keeps (h := h) (m := .keyRotation) (R := fun map history =>
    ∀ kv : Kv, kv.keyRotation = map → Governs kv (rotationInForce history))
    (fun kv hkv => by
      unfold Governs rotationInForce
      rw [hkv]
      rfl) ?_ kv xs
  · exact hkeeps _ rfl
  · rintro map history args map' - hc kv hkv
    obtain ⟨R, G, hperiods, hrotates⟩ := rotation_change hc hkv
    unfold rotationInForce
    rw [List.getLast?_concat, Option.bind_some, hperiods]
    exact hrotates

def readQuery (query : String) : Query :=
  (splitString '&' query).foldl (fun obj element =>
    let param := splitString '=' element
    assign obj (undefinedText param[0]?) param[1]?) []

theorem result_queryParamsLoop (E : Engine) (logContext : LogContext) (obj : Query)
    (elements : List String) :
    (queryParamsLoop E logContext obj elements).result =
      .ok (elements.foldl (fun obj element =>
        let param := splitString '=' element
        assign obj (undefinedText param[0]?) param[1]?) obj) := by
  induction elements generalizing obj with
  | nil => rfl
  | cons element elements ih =>
    unfold queryParamsLoop
    rw [Logged.result_bind, Logger.result_debug, Logged.ok_bind]
    exact ih _

theorem result_queryParams (E : Engine) (request : Request) (logContextIn : Option LogContext) :
    (queryParams E request logContextIn).result = .ok (readQuery request.query) :=
  result_queryParamsLoop E _ [] _

/-- The id under which a request is logged and answered. -/
def requestIdOf (h : Host) (t : Moment) (logContextIn : LogContext) (request : Request) : String :=
  (ServiceRequest.requestIdFromHeader logContextIn request).getD (h.numberToString t.now)

/-- The request as the handlers see it, whatever the store is. -/
def received (h : Host) (t : Moment) (logContextIn : LogContext) (request : Request) :
    ServiceRequest :=
  let requestId := requestIdOf h t logContextIn request
  ⟨true, request.bodyJson.toOption, some (readQuery request.query), none, some requestId,
    logContextIn.setRequestId requestId, request⟩

theorem result_parseBody (E : Engine) (logContext : LogContext) (request : Request) :
    (ServiceRequest.parseBody E logContext request).result = .ok request.bodyJson.toOption := by
  unfold ServiceRequest.parseBody
  rw [Logged.result_tryCatch]
  cases request.bodyJson <;> rfl

theorem result_construct {settings : Json} (hv : ValidSettings settings) (t : Moment)
    (logContextIn : LogContext) (request : Request) :
    (ServiceRequest.construct h t logContextIn request settings).result =
      .ok (received h t logContextIn request) := by
  obtain ⟨name, description, version, debug, hname, hdescription, hversion, hdebug⟩ := hv
  have hlevel : (Settings.setLogLevelFromSettings settings).result = .ok () := by
    unfold Settings.setLogLevelFromSettings
    rw [hdebug]
    cases debug <;> rfl
  have hlog : (Settings.logSettings h.toEngine settings).result = .ok () := by
    unfold Settings.logSettings
    rw [hname, hdescription, hversion, hdebug]
    cases debug <;> rfl
  unfold ServiceRequest.construct
  rw [Logged.result_bind, hlevel, Logged.ok_bind, Logged.result_bind, hlog, Logged.ok_bind]
  dsimp only
  split_ifs
  · rw [Logged.result_bind, Logger.result_warn, Logged.ok_bind, Logged.result_bind,
      Logger.result_info, Logged.ok_bind, Logged.result_bind, result_parseBody, Logged.ok_bind,
      Logged.result_bind, Logger.result_debug, Logged.ok_bind, Logged.result_bind,
      result_queryParams]
    rfl
  · rw [Logged.result_bind, Logger.result_info, Logged.ok_bind, Logged.result_bind,
      result_parseBody, Logged.ok_bind, Logged.result_bind, Logger.result_debug, Logged.ok_bind,
      Logged.result_bind, result_queryParams]
    rfl

/-- The settings that are read from the store. -/
def SettingsAre (kv : Kv) (settings : Json) : Prop :=
  ValidSettings settings ∧ (kv.settings.lookup "settings_policy" = some (.json settings) ∨
    (kv.settings.lookup "settings_policy" = none ∧ settings = Settings.defaultSettings))

theorem result_loadSettings {kv : Kv} {settings : Json} (hs : SettingsAre kv settings)
    (logContextIn : LogContext) :
    (Settings.loadSettingsFromMap h kv.settings logContextIn).result = .ok settings := by
  unfold Settings.loadSettingsFromMap
  rw [Logged.result_bind, Logger.result_info, Logged.ok_bind, Logged.result_bind,
    Logger.result_debug, Logged.ok_bind]
  rcases hs with ⟨-, hlookup | ⟨hlookup, rfl⟩⟩
  · rw [hlookup]
    rfl
  · rw [hlookup]
    rfl

theorem result_new {kv : Kv} {settings : Json} (hs : SettingsAre kv settings) (t : Moment)
    (logContextIn : LogContext) (request : Request) :
    (ServiceRequest.new h t kv logContextIn request).result =
      .ok (received h t logContextIn request) := by
  unfold ServiceRequest.new
  rw [Logged.result_bind, Logged.result_tryCatch, Logged.result_bind, result_loadSettings hs,
    Logged.ok_bind]
  exact result_construct hs.1 t logContextIn request

theorem settingsAre_of_service (h : Host) (kv : Kv) (xs : List Transaction) :
    SettingsAre (serviceAfter h kv xs) (settingsInForce (acceptedEdits h kv xs .settings)) := by
  obtain ⟨hlookup, hvalid⟩ := settings_of_service h kv xs
  refine ⟨settingsInForce_valid hvalid, ?_⟩
  unfold settingsInForce
  cases hlast : (acceptedEdits h kv xs .settings).getLast? with
  | none =>
    rw [hlast] at hlookup
    exact .inr ⟨hlookup, rfl⟩
  | some args =>
    rw [hlast] at hlookup
    exact .inl hlookup

theorem result_isAuthenticated (kv : Kv) (r : ServiceRequest) : (r.isAuthenticated h kv).result =
    (AuthenticationService.isAuthenticated h kv r.logContext r.request).result := by
  unfold ServiceRequest.isAuthenticated
  rw [Logged.result_bind]
  cases (AuthenticationService.isAuthenticated h kv r.logContext r.request).result with
  | error e => rfl
  | ok p =>
    rw [Logged.ok_bind, Logged.result_bind, Logger.result_debug, Logged.ok_bind]
    rfl

def Returns {α : Type} (x : Handler α) : Prop := ∃ a, x.result = .ok a

theorem returns_tryCatch {α : Type} {x : Handler α} {handle : JsError → Handler α}
    (hh : ∀ e, Returns (handle e)) : Returns (tryCatch x handle) := by
  unfold Returns
  rw [Logged.result_tryCatch]
  cases x.result with
  | ok a => exact ⟨a, rfl⟩
  | error e => exact hh e

theorem returns_bind {α β : Type} {x : Handler α} {f : α → Handler β} (hx : Returns x)
    (hf : ∀ a, Returns (f a)) : Returns (x >>= f) := by
  obtain ⟨a, ha⟩ := hx
  obtain ⟨b, hb⟩ := hf a
  refine ⟨b, ?_⟩
  rw [Logged.result_bind, ha]
  exact hb

theorem returns_caught {α : Type} (logContext : LogContext) (errorMessage : String) :
    Returns (caughtError h logContext errorMessage : Handler (ServiceResult α)) := ⟨_, rfl⟩

theorem returns_isAuthenticated (kv : Kv) (r : ServiceRequest) :
    Returns (r.isAuthenticated h kv) := by
  unfold ServiceRequest.isAuthenticated
  exact returns_bind (returns_tryCatch fun e => ⟨_, rfl⟩) fun p => ⟨_, rfl⟩

section Endpoints

variable {kv : Kv} {settings : Json} (hs : SettingsAre kv settings) (t : Moment) (request : Request)
include hs

/-- The caller is authenticated or refused before anything else is done. -/
theorem returns_endpoint {α : Type} {scope : String}
    {serve : ServiceRequest → Option Caller × ServiceResult JsValue → Handler α}
    (hserve : ∀ r p, Returns (serve r p)) :
    Returns (do
      let r ← ServiceRequest.new h t kv (LogContext.new.appendScope scope) request
      let p ← r.isAuthenticated h kv
      serve r p) :=
  returns_bind ⟨_, result_new hs t _ request⟩ fun r =>
    returns_bind (returns_isAuthenticated kv r) (hserve r)

theorem returns_heartbeat : Returns (heartbeat h t kv request) :=
  returns_bind ⟨_, result_new hs t _ request⟩ fun _ => ⟨_, rfl⟩

theorem returns_auth : Returns (auth h t kv request) := by
  refine returns_endpoint hs t request fun r p => ?_
  obtain ⟨caller, identity⟩ := p
  cases identity <;> exact ⟨_, rfl⟩

theorem returns_showPolicy {α : Type} [Serializable α] (scope : String)
    (read : LogContext → Handler α) : Returns (showPolicy h t kv scope read request) := by
  refine returns_endpoint hs t request fun r p => ?_
  obtain ⟨caller, identity⟩ := p
  cases identity with
  | failure error code headers => exact ⟨_, rfl⟩
  | success body headers => exact returns_tryCatch fun _ => ⟨_, rfl⟩
  | pending headers => exact returns_tryCatch fun _ => ⟨_, rfl⟩

theorem returns_listpubkeys : Returns (listpubkeys h t kv request) := by
  refine returns_endpoint hs t request fun r p => ?_
  obtain ⟨caller, identity⟩ := p
  cases identity with
  | failure error code headers => exact ⟨_, rfl⟩
  | success body headers => exact returns_tryCatch fun _ => returns_caught _ _
  | pending headers => exact returns_tryCatch fun _ => returns_caught _ _

omit hs in
theorem returns_pubkeyServe (r : ServiceRequest) : Returns (pubkeyServe h t kv r) := by
  refine returns_bind (returns_tryCatch fun _ => ?_) fun selection => ?_
  · exact returns_bind (returns_caught _ _) fun failed => ⟨_, rfl⟩
  · cases selection with
    | error failed => exact ⟨_, rfl⟩
    | ok selected => exact returns_tryCatch fun _ => returns_caught _ _

theorem returns_pubkey : Returns (pubkey h t kv request) := by
  refine returns_endpoint hs t request fun r p => ?_
  obtain ⟨caller, identity⟩ := p
  cases identity with
  | failure error code headers => exact ⟨_, rfl⟩
  | success body headers => exact returns_pubkeyServe t r
  | pending headers => exact returns_pubkeyServe t r

omit hs in
/-- The times of a new key can be computed under any rotation policy that is accepted. -/
theorem returns_expiryTimes {periods : Option (ℚ × ℚ)} (hp : Governs kv periods)
    (creation : Option ℚ) (logContext : LogContext) :
    Returns (KeyRotationPolicy.getKeyItemExpiryTime h.toEngine t kv.keyRotation creation
      logContext) := by
  unfold Returns
  rw [KeyRotationPolicy.result_getKeyItemExpiryTime,
    KeyRotationPolicy.result_getKeyRotationPolicyFromMap]
  cases periods with
  | none =>
    have hnone : KeyRotationPolicy.storedPolicy kv.keyRotation = .ok none := by
      unfold KeyRotationPolicy.storedPolicy
      rw [show kv.keyRotation.lookup "key_rotation_policy" = none from hp]
    rw [hnone]
    exact ⟨_, rfl⟩
  | some p =>
    obtain ⟨policy, hstored, hperiods, -⟩ := Rotates.periods (h := h) hp
    rw [hstored]
    refine ⟨some (KeyRotationPolicy.expiryTimes creation (some p.1) (some p.2)), ?_⟩
    change (KeyRotationPolicy.periods h.toEngine policy >>= _) = _
    rw [hperiods]
    rfl

theorem returns_refresh {periods : Option (ℚ × ℚ)} (hp : Governs kv periods)
    (keys : CryptoKeyPair) : Returns (refresh h t kv keys request) := by
  refine returns_endpoint hs t request fun r p => ?_
  obtain ⟨caller, identity⟩ := p
  cases identity with
  | failure error code headers => exact ⟨_, rfl⟩
  | success _ _ | pending _ =>
    refine returns_bind ⟨_, rfl⟩ fun _ => returns_bind (returns_expiryTimes t hp _ _) fun times => ?_
    cases times <;> exact returns_bind ⟨_, rfl⟩ fun _ => returns_tryCatch fun _ =>
      returns_bind (returns_caught _ _) fun failed => ⟨_, rfl⟩

end Endpoints

/-- No policy that is ever accepted makes one of these endpoints throw: whatever was called
    before, every request is answered. -/
theorem service_always_answers (h : Host) (kv : Kv) (xs : List Transaction) (t : Moment)
    (request : Request) (keys : CryptoKeyPair) :
    Returns (heartbeat h t (serviceAfter h kv xs) request) ∧
      Returns (auth h t (serviceAfter h kv xs) request) ∧
      Returns (settingsPolicy h t (serviceAfter h kv xs) request) ∧
      Returns (keyReleasePolicy h t (serviceAfter h kv xs) request) ∧
      Returns (jwtValidationPolicy h t (serviceAfter h kv xs) request) ∧
      Returns (listpubkeys h t (serviceAfter h kv xs) request) ∧
      Returns (pubkey h t (serviceAfter h kv xs) request) ∧
      Returns (refresh h t (serviceAfter h kv xs) keys request) := by
  have hs := settingsAre_of_service h kv xs
  exact ⟨returns_heartbeat hs t request, returns_auth hs t request,
    returns_showPolicy hs t request _ _, returns_showPolicy hs t request _ _,
    returns_showPolicy hs t request _ _, returns_listpubkeys hs t request,
    returns_pubkey hs t request, returns_refresh hs t request (rotation_of_service h kv xs) keys⟩

end DepaKms
