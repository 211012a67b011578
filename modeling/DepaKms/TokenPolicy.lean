import DepaKms.Actions
import DepaKms.Authentication
import DepaKms.ReleaseDecision
import DepaKms.Runs
import DepaKms.SampleHost

set_option autoImplicit false

/-!
# Policies for tokens

A token is checked against the policy that was last accepted for its issuer. The texts in
the log are rendered on the way, and a list that has none makes the validator throw.
-/
namespace DepaKms

theorem render_scalar (E : Engine) {v : Json} (hv : v.IsScalar) : ∃ text, v.render E = .ok text := by
  cases hv <;> exact ⟨_, by rw [Json.render]⟩

/-- A scalar meets itself, and a list that has it. Nothing is converted. -/
inductive MetBy : Json → Json → Prop
  | itself {v : Json} (hv : v.IsScalar) : MetBy v v
  | listed {xs : List Json} {v : Json} (hv : v.IsScalar) (hmem : v ∈ xs) : MetBy (.arr xs) v

theorem MetBy.scalar {expected v : Json} (hmet : MetBy expected v) : v.IsScalar := by
  cases hmet with
  | itself hv => exact hv
  | listed hv _ => exact hv

theorem strictEq_iff_metBy {expected : Json} (hlist : ∀ xs, expected ≠ .arr xs)
    (jwtProp : JsValue) :
    jwtProp.strictEq (.json expected) = true ↔ ∃ v, jwtProp = .json v ∧ MetBy expected v := by
  constructor
  · intro heq
    cases jwtProp with
    | undefined => cases heq
    | builtin name => cases heq
    | json v =>
      have hv : v.IsScalar := Json.scalar_of_strictEq heq
      rw [← Json.eq_of_strictEq heq]
      exact ⟨v, rfl, .itself hv⟩
  · rintro ⟨v, rfl, hmet⟩
    cases hmet with
    | itself hv => exact (Json.strictEq_iff hv).mpr rfl
    | listed hv _ => exact absurd rfl (hlist _)

theorem includes_iff_metBy (xs : List Json) (v : Json) :
    Json.includes xs v = true ↔ MetBy (.arr xs) v := by
  constructor
  · intro hincludes
    obtain ⟨x, hx, heq⟩ := List.any_eq_true.mp hincludes
    have hscalar : x.IsScalar := Json.scalar_of_strictEq heq
    rw [← Json.eq_of_strictEq heq]
    exact .listed hscalar hx
  · intro hmet
    cases hmet with
    | itself hv => cases hv
    | listed hv hmem => exact (Json.includes_iff hv).mpr hmem

theorem compliant_iff (expected : Json) (jwtProp : JsValue) :
    JwtValidator.compliant expected jwtProp = true ↔ ∃ v, jwtProp = .json v ∧ MetBy expected v := by
  cases expected with
  | arr xs =>
    cases jwtProp with
    | undefined => simp [JwtValidator.compliant]
    | builtin name => simp [JwtValidator.compliant]
    | json v =>
      have hlist := includes_iff_metBy xs v
      simpa [JwtValidator.compliant] using hlist
  | null => exact strictEq_iff_metBy (by simp) jwtProp
  | bool b => exact strictEq_iff_metBy (by simp) jwtProp
  | num q => exact strictEq_iff_metBy (by simp) jwtProp
  | str s => exact strictEq_iff_metBy (by simp) jwtProp
  | obj fields => exact strictEq_iff_metBy (by simp) jwtProp

/-- The token's own value for the key meets what the entry expects. -/
def Meets (fields : List (String × Json)) (entry : String × Json) : Prop :=
  ∃ v, fields.lookup entry.1 = some v ∧ MetBy entry.2 v

/-- Every own entry of the policy is met. `null` has no entries to look at. -/
def Satisfies (fields : List (String × Json)) (policy : Json) : Prop :=
  ∃ entries, policy.ownEntries = .ok entries ∧ ∀ e ∈ entries, Meets fields e

/-- The policy is one that the validator can put into its log. -/
def Renders (E : Engine) (policy : Json) : Prop :=
  ∀ entries, policy.ownEntries = .ok entries → ∀ e ∈ entries, ∃ text, e.2.render E = .ok text

variable (h : Host)

theorem meets_iff {fields : List (String × Json)} {key : String} {expected : Json}
    {jwtProp : JsValue} (hget : JsValue.get (.json (.obj fields)) key = .ok jwtProp) :
    JwtValidator.compliant expected jwtProp = true ↔ Meets fields (key, expected) := by
  rw [compliant_iff]
  constructor
  · rintro ⟨v, rfl, hmet⟩
    exact ⟨v, Json.get_json_iff.mp hget, hmet⟩
  · rintro ⟨v, hv, hmet⟩
    exact ⟨v, Except.ok.inj (hget.symm.trans (Json.get_own hv)), hmet⟩

theorem checkLoop_sound (fields entries : List (String × Json)) :
    Logged.Ensures (JwtValidator.checkLoop h (.json (.obj fields)) entries) fun o =>
      (o = none → ∀ e ∈ entries, Meets fields e ∧ ∃ text, e.2.render h.toEngine = .ok text) ∧
      ∀ failure, o = some failure → failure.isFailure = true := by
  induction entries with
  | nil => exact .pure (by simp)
  | cons e entries ih =>
    obtain ⟨key, expected⟩ := e
    refine .read fun jwtProp hget => .read fun text htext => .skip fun found => .skip fun _ => ?_
    refine .ite (fun hcompliant => ih.mono fun o ho => ?_) fun _ => ?_
    · refine ⟨fun hnone => ?_, ho.2⟩
      rw [List.forall_mem_cons]
      exact ⟨⟨(meets_iff hget).mp hcompliant, text, htext⟩, ho.1 hnone⟩
    · refine .skip fun _ => .step fun failure hf => .pure ⟨by simp, ?_⟩
      intro failure' he
      cases hf
      cases he
      rfl

theorem checkLoop_complete {fields entries : List (String × Json)}
    (hall : ∀ e ∈ entries, Meets fields e ∧ ∃ text, e.2.render h.toEngine = .ok text) :
    (JwtValidator.checkLoop h (.json (.obj fields)) entries).result = .ok none := by
  induction entries with
  | nil => rfl
  | cons e entries ih =>
    obtain ⟨key, expected⟩ := e
    obtain ⟨⟨⟨v, hv, hmet⟩, text, htext⟩, hrest⟩ := List.forall_mem_cons.mp hall
    have hget : JsValue.get (.json (.obj fields)) key = .ok (.json v) := Json.get_own hv
    have hcompliant : JwtValidator.compliant expected (.json v) = true :=
      (compliant_iff _ _).mpr ⟨v, rfl, hmet⟩
    obtain ⟨found, hfound⟩ := render_scalar h.toEngine hmet.scalar
    have hfound : JsValue.render h.toEngine (.json v) = .ok found := hfound
    have hrest := ih hrest
    dsimp only at htext
    simp only [JwtValidator.checkLoop, Logged.result_bind, Logged.result_monadLift, hget, htext,
      hfound, Logged.ok_bind, Logger.result_debug, hcompliant, if_true, hrest]

/-- The payload names an issuer, and this policy, the one stored for it, is satisfied. -/
structure MeetsPolicy (kv : Kv) (payload : JsValue) (policy : Json) : Prop where
  claims : ∃ fields, payload = .json (.obj fields) ∧ Satisfies fields policy
  stored : ∃ iss, payload.get "iss" = .ok (.ofString iss) ∧ iss ≠ "" ∧
    kv.jwtValidation.lookup iss = some (.json policy)

theorem payload_of_issuer {payload : JsValue} {iss : String}
    (hiss : payload.getOptional "iss" = .ok (.ofString iss)) :
    payload.get "iss" = .ok (.ofString iss) ∧ ∃ fields, payload = .json (.obj fields) := by
  cases payload with
  | undefined => cases hiss
  | builtin name => cases hiss
  | json v =>
    cases v with
    | obj fields => exact ⟨hiss, fields, rfl⟩
    | null => cases hiss
    | bool b => cases hiss
    | num q => cases hiss
    | str s => cases hiss
    | arr xs => cases hiss

theorem read_ensures (kv : Kv) (issuer : JsValue) (logContextIn : LogContext) :
    Logged.Ensures (JwtValidationPolicyMap.read h kv issuer logContextIn) fun o =>
      ∀ policy, o = some policy → ∃ iss, issuer = .ofString iss ∧
        kv.jwtValidation.lookup iss = some (.json policy) := by
  refine .skip fun _ => .read fun iss hiss => ?_
  have hissuer : issuer = .ofString iss := by
    unfold stringKey at hiss
    split at hiss
    · cases hiss
      rfl
    · cases hiss
  cases hstored : kv.jwtValidation.lookup iss with
  | none => exact .skip fun _ => .pure (by simp)
  | some text =>
    refine .skip fun _ => ?_
    cases text with
    | raw s => exact .throw _
    | json v =>
      refine .pure fun policy hpolicy => ⟨iss, hissuer, ?_⟩
      cases hpolicy
      exact hstored

theorem failed_vacuous {α : Type} {P : Prop} (error : ErrorResponse) (code : ℕ)
    (logContext : LogContext) (headers : Headers) :
    Logged.Ensures (ServiceResult.failed h.toEngine error code logContext headers :
      Handler (ServiceResult α)) fun r => r.isFailure = false → P := by
  intro r hr
  cases hr
  exact fun hfail => by cases hfail

theorem validate_sound (kv : Kv) (caller : Caller) :
    Logged.Ensures (JwtValidator.validate h kv caller) fun r => r.isFailure = false →
      ∃ jwt policy, caller.jwt = some jwt ∧ MeetsPolicy kv jwt.payload policy ∧
        Renders h.toEngine policy := by
  refine .read fun jwt hjwt => .skip fun _ => .read fun issuer hissuer => .ite (fun htruthy => ?_)
    fun _ => failed_vacuous h _ _ _ _
  refine .bind (read_ensures h kv issuer _) fun o ho => .skip fun issuerText => ?_
  cases o with
  | none => exact .skip fun _ => failed_vacuous h _ _ _ _
  | some policy =>
    obtain ⟨iss, rfl, hstored⟩ := ho policy rfl
    obtain ⟨hiss, fields, hpayload⟩ := payload_of_issuer hissuer
    have hnonempty : iss ≠ "" := by simpa [JsValue.truthy, JsValue.ofString, Json.truthy] using htruthy
    refine .skip fun _ => .read fun entries hentries => ?_
    rw [hpayload]
    refine .bind (checkLoop_sound h fields entries) fun o ho => ?_
    cases o with
    | some failure =>
      refine .pure fun hfail => ?_
      rw [ho.2 failure rfl] at hfail
      cases hfail
    | none =>
      refine .skip fun identityId => .skip fun _ => ?_
      intro r _ _
      have hentry := ho.1 rfl
      have hsatisfies : Satisfies fields policy :=
        ⟨entries, hentries, fun e he => (hentry e he).1⟩
      refine ⟨jwt, policy, required_iff.mp hjwt, ⟨⟨fields, hpayload, hsatisfies⟩, iss, hiss,
        hnonempty, hstored⟩, fun entries' hentries' e he => ?_⟩
      cases hentries.symm.trans hentries'
      exact (hentry e he).2

theorem result_logIssuers {logContext : LogContext} {issuers : List (Sigma fun _ : String => KvText)}
    (hissuers : ∀ e ∈ issuers, ∃ v, e.2 = .json v) :
    (JwtValidationPolicyMap.logIssuers h logContext issuers).result = .ok () := by
  induction issuers with
  | nil => rfl
  | cons e issuers ih =>
    obtain ⟨issuer, info⟩ := e
    obtain ⟨⟨v, hv⟩, hrest⟩ := List.forall_mem_cons.mp hissuers
    dsimp only at hv
    rw [hv]
    unfold JwtValidationPolicyMap.logIssuers
    rw [Logged.result_bind, Logger.result_debug, Logged.ok_bind]
    exact ih hrest

theorem result_read {kv : Kv} (hissuers : ∀ e ∈ kv.jwtIssuers.entries, ∃ v, e.2 = .json v)
    {iss : String} {policy : Json} (hstored : kv.jwtValidation.lookup iss = some (.json policy))
    (logContextIn : LogContext) :
    (JwtValidationPolicyMap.read h kv (.ofString iss) logContextIn).result = .ok (some policy) := by
  unfold JwtValidationPolicyMap.read
  simp only [Logged.result_bind, result_logIssuers h hissuers, Logged.ok_bind, stringKey,
    JsValue.ofString, Logged.result_monadLift, hstored, Logger.result_debug, Logged.result_pure]

theorem validate_complete {kv : Kv} (hissuers : ∀ e ∈ kv.jwtIssuers.entries, ∃ v, e.2 = .json v)
    {caller : Caller} {jwt : Jwt} (hjwt : caller.jwt = some jwt) {policy : Json}
    (hmeets : MeetsPolicy kv jwt.payload policy) (hrenders : Renders h.toEngine policy) :
    Succeeds (JwtValidator.validate h kv caller) := by
  obtain ⟨⟨fields, hpayload, entries, hentries, hall⟩, iss, hiss, hnonempty, hstored⟩ := hmeets
  rw [hpayload] at hiss
  have hloop := checkLoop_complete h fun e he => ⟨hall e he, hrenders entries hentries e he⟩
  have htruthy : (JsValue.ofString iss).truthy = true := by
    simpa [JsValue.truthy, JsValue.ofString, Json.truthy] using hnonempty
  have htext : (JsValue.ofString iss).render h.toEngine = .ok iss := by
    simp only [JsValue.render, JsValue.ofString, Json.render]
  have hoid : JsValue.getOptional (.json (.obj fields)) "oid" =
      .ok (KeyReleasePolicy.attested fields "oid") := KeyReleasePolicy.get_record "oid"
  have hiss' : JsValue.getOptional (.json (.obj fields)) "iss" = .ok (.ofString iss) := hiss
  unfold Succeeds JwtValidator.validate
  simp only [required_iff.mpr hjwt, hpayload, Logged.result_bind, Logged.result_monadLift,
    Logged.ok_bind, Logger.result_debug, hiss', htruthy, if_true, result_read h hissuers hstored,
    htext, hentries, hloop, hoid]
  exact ⟨_, rfl, rfl⟩

theorem validate_succeeds_iff {kv : Kv}
    (hissuers : ∀ e ∈ kv.jwtIssuers.entries, ∃ v, e.2 = .json v) {caller : Caller} {jwt : Jwt}
    (hjwt : caller.jwt = some jwt) :
    Succeeds (JwtValidator.validate h kv caller) ↔
      ∃ policy, MeetsPolicy kv jwt.payload policy ∧ Renders h.toEngine policy := by
  constructor
  · rintro ⟨r, hr, hsucceeds⟩
    obtain ⟨jwt', policy, hjwt', hmeets, hrenders⟩ := validate_sound h kv caller r hr hsucceeds
    cases hjwt.symm.trans hjwt'
    exact ⟨policy, hmeets, hrenders⟩
  · rintro ⟨policy, hmeets, hrenders⟩
    exact validate_complete h hissuers hjwt hmeets hrenders

section Proposals

variable {E : Engine}

def proposedIssuer (args : JsValue) : Option String :=
  match args.get "issuer" with
  | .ok (.json (.str iss)) => some iss
  | _ => none

def proposedPolicy (args : JsValue) : Json :=
  match args.get "validation_policy" with
  | .ok (.json policy) => policy
  | _ => .null

/-- The policy of the last of the proposals for the issuer. -/
def lastPolicy (proposals : List JsValue) (iss : String) : Option Json :=
  (lastOf (fun p => proposedIssuer p == some iss) proposals).map proposedPolicy

/-- A policy for an issuer is stored as it was proposed. -/
theorem jwt_enact {kv kv' : Kv} {args : JsValue}
    (he : (set_jwt_validation_policy E).enact kv args = some kv') :
    ∃ iss, proposedIssuer args = some iss ∧ kv' = { kv with
      jwtValidation := (kv.jwtValidation.erase iss).insert iss (.json (proposedPolicy args)) } := by
  obtain ⟨-, happly⟩ := Action.enact_eq_some_iff.mp he
  obtain ⟨issuer, hissuer, happly⟩ := Logged.bind_ok_iff.mp happly
  obtain ⟨iss, hiss, happly⟩ := Logged.bind_ok_iff.mp happly
  obtain ⟨policy, hpolicy, happly⟩ := Logged.bind_ok_iff.mp happly
  obtain ⟨text, htext, happly⟩ := Logged.bind_ok_iff.mp happly
  cases happly
  unfold bufferText at hiss
  unfold storedJson at htext
  split at hiss
  · cases hiss
    split at htext
    · cases htext
      refine ⟨iss, by simp only [proposedIssuer, hissuer], ?_⟩
      simp only [proposedPolicy, hpolicy]
    · cases htext
  · cases hiss

theorem typeOf_of_checkType {value : JsValue} {type : String} {field : Option String}
    (hrequired : (type.toList.getLast? == some '?') = false) (harray : type ≠ "array")
    (hinteger : type ≠ "integer") (hc : checkType value type field = .ok ()) :
    value.typeOf = type := by
  unfold checkType at hc
  simp only [hrequired, Bool.false_and, Bool.false_eq_true, if_false, if_neg harray,
    if_neg hinteger] at hc
  by_contra hne
  rw [if_neg hne] at hc
  cases hc

theorem string_of_typeOf {value : JsValue} (ht : value.typeOf = "string") :
    ∃ s, value = .json (.str s) := by
  unfold JsValue.typeOf at ht
  split at ht
  · simp at ht
  · split_ifs at ht <;> simp at ht
  · simp at ht
  · simp at ht
  · exact ⟨_, rfl⟩
  · simp at ht

theorem not_builtin_of_get {v : JsValue} {key name : String} (hkey : key ∉ objectPrototype) :
    v.get key ≠ .ok (.builtin name) := by
  have hinherited : inherited key = .undefined := by rw [inherited, if_neg hkey]
  intro hget
  cases v with
  | undefined => cases hget
  | builtin _ =>
    simp only [JsValue.get, hinherited] at hget
    cases hget
  | json v =>
    cases v with
    | obj fields =>
      simp only [JsValue.get, Json.get, hinherited] at hget
      split at hget <;> cases hget
    | null => cases hget
    | _ =>
      simp only [JsValue.get, Json.get, hinherited] at hget
      cases hget

/-- What passes the checks of the action is stored. -/
theorem jwt_enact_of_validate (kv : Kv) {args : JsValue}
    (hv : (set_jwt_validation_policy E).validate args = .ok ()) :
    ∃ kv', (set_jwt_validation_policy E).enact kv args = some kv' := by
  have happly : ∃ kv', (set_jwt_validation_policy E).apply kv args = .ok kv' := by
    obtain ⟨issuer, hissuer, hv⟩ := Logged.bind_ok_iff.mp hv
    obtain ⟨_, hstring, hv⟩ := Logged.bind_ok_iff.mp hv
    obtain ⟨policy, hpolicy, hv⟩ := Logged.bind_ok_iff.mp hv
    obtain ⟨_, hobject, hv⟩ := Logged.bind_ok_iff.mp hv
    obtain ⟨iss, rfl⟩ := string_of_typeOf
      (typeOf_of_checkType (by decide) (by decide) (by decide) hstring)
    have hobject := typeOf_of_checkType (by decide) (by decide) (by decide) hobject
    cases policy with
    | undefined => simp [JsValue.typeOf] at hobject
    | builtin name => exact absurd hpolicy (not_builtin_of_get (by decide))
    | json v => exact ⟨_, by simp only [set_jwt_validation_policy, hissuer, hpolicy, bufferText,
        storedJson, Logged.ok_bind]; rfl⟩
  exact happly.imp fun kv' hkv' => Action.enact_eq_some_iff.mpr ⟨hv, hkv'⟩

variable (E)

def passes (args : JsValue) : Bool := ((set_jwt_validation_policy E).validate args).isOk

theorem accepted_eq_passing (kv : Kv) (proposals : List JsValue) :
    accepted (set_jwt_validation_policy E).enact kv proposals = proposals.filter (passes E) := by
  induction proposals generalizing kv with
  | nil => rfl
  | cons args proposals ih =>
    unfold accepted
    rw [List.filter_cons]
    unfold passes
    cases hv : (set_jwt_validation_policy E).validate args with
    | ok u =>
      obtain ⟨kv', hkv'⟩ := jwt_enact_of_validate kv hv
      rw [hkv']
      exact congrArg (args :: ·) (ih kv')
    | error e =>
      have hnone : (set_jwt_validation_policy E).enact kv args = none := by
        unfold Action.enact
        rw [hv]
        rfl
      rw [hnone]
      exact ih kv

def tokenProposals (kv : Kv) (proposals : List JsValue) : Kv :=
  run (commit (set_jwt_validation_policy E).enact) kv proposals

theorem stored_is_last {kv : Kv} (hkv : kv.jwtValidation = ∅) (proposals : List JsValue) :
    (∀ iss, (tokenProposals E kv proposals).jwtValidation.lookup iss =
      (lastPolicy (proposals.filter (passes E)) iss).map KvText.json) ∧
    (tokenProposals E kv proposals).jwtIssuers = kv.jwtIssuers := by
  let R (kv' : Kv) (history : List JsValue) : Prop :=
    (∀ iss, kv'.jwtValidation.lookup iss = (lastPolicy history iss).map KvText.json) ∧
      kv'.jwtIssuers = kv.jwtIssuers
  have hinit : R kv [] := by
    refine ⟨fun iss => ?_, rfl⟩
    rw [hkv]
    rfl
  have hall : Throughout (set_jwt_validation_policy E).enact (fun _ _ => True) kv proposals :=
    throughout_of_forall (fun _ _ _ => trivial) kv
  have hrun : R (tokenProposals E kv proposals) ((accepted (set_jwt_validation_policy E).enact kv
      proposals).map id) := run_history id ?_ hinit hall
  · rwa [List.map_id, accepted_eq_passing] at hrun
  rintro kv₁ history args kv₂ - ⟨hstored, hissuers⟩ henact
  obtain ⟨issuer, hissuer, rfl⟩ := jwt_enact henact
  refine ⟨fun iss => ?_, hissuers⟩
  unfold lastPolicy
  rw [lastOf_snoc, id_eq, hissuer]
  by_cases hsame : iss = issuer
  · subst hsame
    simp
  · have hother : (some issuer == some iss) = false := by simpa using Ne.symm hsame
    rw [hother, AList.lookup_insert_ne hsame, AList.lookup_erase_ne hsame, hstored iss]
    rfl

/-- The token has an issuer, and meets the policy that was last accepted for it. -/
def MeetsLast (history : List JsValue) (fields : List (String × Json)) (policy : Json) : Prop :=
  ∃ iss, fields.lookup "iss" = some (.str iss) ∧ iss ≠ "" ∧ lastPolicy history iss = some policy ∧
    Satisfies fields policy

theorem MeetsLast.unique {history : List JsValue} {fields : List (String × Json)}
    {policy policy' : Json} (hm : MeetsLast history fields policy)
    (hm' : MeetsLast history fields policy') : policy = policy' := by
  obtain ⟨iss, hiss, -, hlast, -⟩ := hm
  obtain ⟨iss', hiss', -, hlast', -⟩ := hm'
  cases hiss.symm.trans hiss'
  exact Option.some_inj.mp (hlast.symm.trans hlast')

theorem meetsPolicy_iff {kv : Kv} (hkv : kv.jwtValidation = ∅) (proposals : List JsValue)
    (fields : List (String × Json)) (policy : Json) :
    MeetsPolicy (tokenProposals E kv proposals) (.json (.obj fields)) policy ↔
      MeetsLast (proposals.filter (passes E)) fields policy := by
  have hstored := (stored_is_last E hkv proposals).1
  constructor
  · rintro ⟨⟨fields', hfields, hsatisfies⟩, iss, hiss, hnonempty, hlookup⟩
    cases hfields
    rw [hstored iss, Option.map_eq_some_iff] at hlookup
    obtain ⟨policy', hlast, hpolicy⟩ := hlookup
    cases hpolicy
    exact ⟨iss, Json.get_json_iff.mp hiss, hnonempty, hlast, hsatisfies⟩
  · rintro ⟨iss, hiss, hnonempty, hlast, hsatisfies⟩
    refine ⟨⟨fields, rfl, hsatisfies⟩, iss, Json.get_own hiss, hnonempty, ?_⟩
    rw [hstored iss, hlast]
    rfl

end Proposals

def sampleTokenProposal (audiences : List Json) : JsValue :=
  .json (.obj [("issuer", .str "https://issuer"),
    ("validation_policy", .obj [("aud", .arr audiences)])])

def sampleToken : List (String × Json) := [("iss", .str "https://issuer"), ("aud", .str "kms")]

def sampleTokenCaller : Caller :=
  ⟨.one "jwt", none, some ⟨"https://issuer", .json (.obj sampleToken)⟩, none, "\x7b\x7d"⟩

theorem sample_meets {audiences : List Json} (haudience : .str "kms" ∈ audiences)
    (hlast : lastPolicy ([sampleTokenProposal audiences].filter (passes sampleEngine))
      "https://issuer" = some (.obj [("aud", .arr audiences)])) :
    MeetsLast ([sampleTokenProposal audiences].filter (passes sampleEngine)) sampleToken
      (.obj [("aud", .arr audiences)]) := by
  refine ⟨"https://issuer", rfl, by decide, hlast, _, rfl, fun e he => ?_⟩
  rw [mem_enumerate, List.mem_singleton] at he
  subst he
  exact ⟨.str "kms", rfl, .listed (.str _) haudience⟩

end DepaKms
