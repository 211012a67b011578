import DepaKms.PemForms
import DepaKms.ReportDecision
import DepaKms.Refreshes

set_option autoImplicit false

/-!
# Which requests for keys are granted

The checks of an attestation, and those of a release by `unwrapKey`, as conditions on the
request and on the calls so far that are necessary and sufficient.
-/
namespace DepaKms

open SetKeyReleasePolicy (entriesOf claimTypes Accepts Declares MeetsInForce accepts_iff_meets
  succeeds_bind)

variable {h : Host} {t : Moment} {kv : Kv} {xs : List Transaction} {request : Request}

section Rules

variable {α β : Type} {E : Engine}

theorem not_succeeds_failed (error : ErrorResponse) (code : ℕ) (logContext : LogContext)
    (headers : Headers) :
    ¬ Succeeds (ServiceResult.failed E error code logContext headers :
      Handler (ServiceResult α)) := by
  rintro ⟨r, hr, hok⟩
  cases hr
  cases hok

theorem succeeds_read {x : Except JsError β} {f : β → Handler (ServiceResult α)} :
    Succeeds (do let b ← x; f b) ↔ ∃ b, x = .ok b ∧ Succeeds (f b) :=
  succeeds_bind

theorem succeeds_debug {message : String} {context : Option LogContext} {args : List JsValue}
    {next : Handler (ServiceResult α)} :
    Succeeds (do Logger.debug E message context args; next) ↔ Succeeds next := by
  rw [succeeds_bind]
  exact ⟨fun ⟨_, _, hnext⟩ => hnext, fun hnext => ⟨(), rfl, hnext⟩⟩

/-- Where errors are answered by failures, what succeeds is the body. -/
theorem succeeds_caught {x : Handler (ServiceResult α)}
    {handle : JsError → Handler (ServiceResult α)} (hhandle : ∀ e, ¬ Succeeds (handle e)) :
    Succeeds (tryCatch x handle) ↔ Succeeds x := by
  unfold Succeeds
  rw [Logged.result_tryCatch]
  cases hx : x.result with
  | ok r => simp
  | error e =>
    constructor
    · exact fun hs => absurd hs (hhandle e)
    · rintro ⟨r, hr, -⟩
      cases hr

end Rules

/-- The field is there. -/
def HasField (attestation : JsValue) (field : String) : Prop :=
  ∃ v, attestation.get field = .ok v ∧ missing v = false

/-- What parsing made is read from objects only. -/
theorem fields_of_get {v : JsValue} {field : String} {w : Json} (hv : v.get field = .ok (.json w)) :
    ∃ fields, v = .json (.obj fields) ∧ fields.lookup field = some w := by
  have hinherited : inherited field ≠ .json w := by
    unfold inherited
    split_ifs <;> simp
  cases v with
  | undefined => cases hv
  | builtin name => exact absurd (Except.ok.inj hv) hinherited
  | json j =>
    cases j with
    | obj fields => exact ⟨fields, rfl, Json.get_json_iff.mp hv⟩
    | null => cases hv
    | bool _ | num _ | str _ | arr _ => exact absurd (Except.ok.inj hv) hinherited

theorem text_of_decodes {attestation : JsValue} {field : String} {bytes : Bytes}
    (hd : Decodes h attestation field bytes) :
    ∃ fields s, attestation = .json (.obj fields) ∧ fields.lookup field = some (.str s) := by
  obtain ⟨v, hv, hbytes⟩ := Logged.bind_ok_iff.mp hd
  have htext : ∃ s, v = .json (.str s) := by
    unfold base64ToUint8Array at hbytes
    split at hbytes
    · exact ⟨_, rfl⟩
    · cases hbytes
  obtain ⟨s, rfl⟩ := htext
  obtain ⟨fields, hfields, hlookup⟩ := fields_of_get hv
  exact ⟨fields, s, hfields, hlookup⟩

theorem hasField_of_decodes {attestation : JsValue} {field : String} {bytes : Bytes}
    (hd : Decodes h attestation field bytes) : HasField attestation field := by
  obtain ⟨fields, s, rfl, hlookup⟩ := text_of_decodes hd
  refine ⟨.json (.str s), Json.get_own hlookup, ?_⟩
  unfold missing
  simp [JsValue.typeOf]

theorem succeeds_checkFields {logContext : LogContext} {attestation : JsValue}
    {next : Handler (ServiceResult JsValue)} (checks : List (String × String)) :
    Succeeds (checkFields h logContext attestation next checks) ↔
      (∀ f ∈ checks, HasField attestation f.1) ∧ Succeeds next := by
  induction checks with
  | nil => simp [checkFields]
  | cons f checks ih =>
    obtain ⟨field, errorMessage⟩ := f
    unfold checkFields
    rw [succeeds_read, List.forall_mem_cons]
    constructor
    · rintro ⟨v, hv, hs⟩
      split_ifs at hs with hmissing
      · exact absurd hs (not_succeeds_failed _ _ _ _)
      · obtain ⟨hall, hnext⟩ := ih.mp hs
        exact ⟨⟨⟨v, hv, by simpa using hmissing⟩, hall⟩, hnext⟩
    · rintro ⟨⟨⟨v, hv, hmissing⟩, hall⟩, hnext⟩
      refine ⟨v, hv, ?_⟩
      rw [hmissing]
      exact ih.mpr ⟨hall, hnext⟩

theorem succeeds_decodeField {logContext : LogContext} {attestation : JsValue} {field : String}
    {next : Bytes → Handler (ServiceResult JsValue)} :
    Succeeds (decodeField h logContext attestation field next) ↔
      ∃ bytes, Decodes h attestation field bytes ∧ Succeeds (next bytes) := by
  unfold decodeField Decodes
  cases attestation.get field >>= base64ToUint8Array h with
  | ok bytes => simp
  | error e => simp [not_succeeds_failed]

/-- Both providers check the same fields. -/
theorem succeeds_withBuffers {logContext : LogContext} {attestation : JsValue}
    {checks : List (String × String)}
    {next : Bytes → Bytes → Bytes → Handler (ServiceResult JsValue)}
    (hchecks : checks.map Prod.fst =
      ["evidence", "endorsements", "uvm_endorsements", "endorsed_tcb"]) :
    Succeeds (withBuffers h logContext attestation checks next) ↔
      ∃ evidence endorsements uvm_endorsements, Decodes h attestation "evidence" evidence ∧
        Decodes h attestation "endorsements" endorsements ∧
        Decodes h attestation "uvm_endorsements" uvm_endorsements ∧
        HasField attestation "endorsed_tcb" ∧
        Succeeds (next evidence endorsements uvm_endorsements) := by
  have hfields : (∀ f ∈ checks, HasField attestation f.1) ↔
      ∀ name ∈ checks.map Prod.fst, HasField attestation name := List.forall_mem_map.symm
  rw [hchecks] at hfields
  have hpassed : Succeeds (withBuffers h logContext attestation checks next) ↔
      attestation.truthy = true ∧ (∀ f ∈ checks, HasField attestation f.1) ∧
        ∃ evidence, Decodes h attestation "evidence" evidence ∧
        ∃ endorsements, Decodes h attestation "endorsements" endorsements ∧
        ∃ uvm_endorsements, Decodes h attestation "uvm_endorsements" uvm_endorsements ∧
        Succeeds (next evidence endorsements uvm_endorsements) := by
    unfold withBuffers
    split_ifs with htruthy
    · simp only [htruthy, true_and, succeeds_checkFields, succeeds_decodeField]
    · exact ⟨fun hs => absurd hs (not_succeeds_failed _ _ _ _), fun hs => absurd hs.1 htruthy⟩
  rw [hpassed]
  constructor
  · rintro ⟨-, hall, evidence, he, endorsements, hn, uvm, hu, hnext⟩
    exact ⟨evidence, endorsements, uvm, he, hn, hu, hfields.mp hall _ (by simp), hnext⟩
  · rintro ⟨evidence, endorsements, uvm, he, hn, hu, htcb, hnext⟩
    refine ⟨?_, hfields.mpr ?_, evidence, he, endorsements, hn, uvm, hu, hnext⟩
    · obtain ⟨fields, s, rfl, -⟩ := text_of_decodes he
      rfl
    · simp only [List.mem_cons, List.not_mem_nil, or_false, forall_eq_or_imp, forall_eq]
      exact ⟨hasField_of_decodes he, hasField_of_decodes hn, hasField_of_decodes hu, htcb⟩

/-- The platform verifies the attestation, all of whose fields are there. -/
structure Verifies (h : Host) (attestation : JsValue) (report : SnpAttestationResult) : Prop where
  verified : VerifiedReport h attestation report
  tcb : HasField attestation "endorsed_tcb"

theorem succeeds_verifyGcpReport {logContext : LogContext} {attestation : JsValue}
    {evidence endorsements uvm_endorsements : Bytes} :
    Succeeds (verifyGcpReport h logContext attestation evidence endorsements uvm_endorsements) ↔
      ∃ endorsed_tcb, attestation.get "endorsed_tcb" = .ok endorsed_tcb ∧
        ∃ report, h.verifySnpAttestation evidence endorsements uvm_endorsements endorsed_tcb =
          .ok report := by
  unfold verifyGcpReport
  simp only [succeeds_caught fun _ => not_succeeds_failed _ _ _ _, succeeds_read, succeeds_debug]
  constructor
  · rintro ⟨tcb, ht, report, hr, -⟩
    exact ⟨tcb, ht, report, hr⟩
  · rintro ⟨tcb, ht, report, hr⟩
    exact ⟨tcb, ht, report, hr, _, rfl, rfl⟩

theorem succeeds_verifyReport {logContext : LogContext} {attestation : JsValue}
    {evidence endorsements uvm_endorsements : Bytes} :
    Succeeds (verifyReport h kv logContext attestation evidence endorsements uvm_endorsements) ↔
      ∃ endorsed_tcb, attestation.get "endorsed_tcb" = .ok endorsed_tcb ∧ ∃ report,
        h.verifySnpAttestation evidence endorsements uvm_endorsements endorsed_tcb = .ok report ∧
        Accepts h.toEngine kv none (reportClaims h.toEngine report) := by
  have hdata (report : SnpAttestationResult) : ∃ v,
      (JsValue.json (.obj (SnpAttestationClaims.getClaims h.toEngine report))).get
        "x-ms-sevsnpvm-reportdata" = .ok v := ⟨_, KeyReleasePolicy.get_record _⟩
  unfold verifyReport Accepts
  simp only [succeeds_caught fun _ => not_succeeds_failed _ _ _ _, succeeds_read, succeeds_debug]
  constructor
  · rintro ⟨tcb, ht, report, hr, v, -, hs⟩
    obtain ⟨policy, hpolicy, hs⟩ := succeeds_bind.mp hs
    exact ⟨tcb, ht, report, hr, succeeds_bind.mpr
      ⟨policy, hpolicy, succeeds_debug.mp hs⟩⟩
  · rintro ⟨tcb, ht, report, hr, hs⟩
    obtain ⟨policy, hpolicy, hs⟩ := succeeds_bind.mp hs
    obtain ⟨v, hv⟩ := hdata report
    exact ⟨tcb, ht, report, hr, v, hv, succeeds_bind.mpr
      ⟨policy, hpolicy, succeeds_debug.mpr hs⟩⟩

/-- An attestation is accepted just when the platform verifies it and, but for the provider
    `"gcp"`, the policy in the store accepts the report. -/
theorem succeeds_validateAttestation {attestation provider : JsValue} :
    Succeeds (validateAttestation h kv attestation provider) ↔
      (∃ text, (providerOrDefault provider).render h.toEngine = .ok text) ∧
        ∃ report, Verifies h attestation report ∧ (isGcp provider = false →
          Accepts h.toEngine kv none (reportClaims h.toEngine report)) := by
  unfold validateAttestation validateGcpAttestation
  simp only [succeeds_read, succeeds_debug]
  rw [exists_and_right]
  refine and_congr_right fun _ => ?_
  change Succeeds (if isGcp provider = true then _ else _) ↔ _
  cases hgcp : isGcp provider with
  | true =>
    rw [if_pos rfl, succeeds_debug, succeeds_withBuffers rfl]
    simp only [succeeds_verifyGcpReport]
    constructor
    · rintro ⟨evidence, endorsements, uvm, he, hn, hu, htcb, tcb, ht, report, hr⟩
      exact ⟨report, ⟨⟨evidence, endorsements, uvm, tcb, he, hn, hu, ht, hr⟩, htcb⟩, by simp⟩
    · rintro ⟨report, ⟨⟨evidence, endorsements, uvm, tcb, he, hn, hu, ht, hr⟩, htcb⟩, -⟩
      exact ⟨evidence, endorsements, uvm, he, hn, hu, htcb, tcb, ht, report, hr⟩
  | false =>
    rw [if_neg (by simp), succeeds_withBuffers rfl]
    simp only [succeeds_verifyReport]
    constructor
    · rintro ⟨evidence, endorsements, uvm, he, hn, hu, htcb, tcb, ht, report, hr, hs⟩
      exact ⟨report, ⟨⟨evidence, endorsements, uvm, tcb, he, hn, hu, ht, hr⟩, htcb⟩, fun _ => hs⟩
    · rintro ⟨report, ⟨⟨evidence, endorsements, uvm, tcb, he, hn, hu, ht, hr⟩, htcb⟩, hs⟩
      exact ⟨evidence, endorsements, uvm, he, hn, hu, htcb, tcb, ht, report, hr, hs trivial⟩

theorem sample_declares : Declares governedHost.toEngine
    (acceptedEdits governedHost .empty governedCalls .keyRelease) := by
  have hall : ∀ p ∈ acceptedEdits governedHost .empty governedCalls .keyRelease,
      (∀ e ∈ entriesOf p "claims", asList e.2 ≠ [] ∧
        ∀ v ∈ asList e.2, claimTypes.lookup e.1 = some (JsValue.json v).typeOf) ∧
      entriesOf p "gte" = [] ∧ entriesOf p "gt" = [] := by
    decide +kernel
  intro p hp _
  obtain ⟨hclaims, hgte, hgt⟩ := hall p hp
  refine ⟨hclaims, fun op e he => ?_⟩
  cases op with
  | gte => exact absurd (hgte ▸ he) List.not_mem_nil
  | gt => exact absurd (hgt ▸ he) List.not_mem_nil

/-- The attestation of `unwrapRequest`. -/
def governedAttestation : JsValue :=
  .json (.obj [("evidence", .str (base64Text samplePemDigest)), ("endorsements", .str "AAAA"),
    ("uvm_endorsements", .str "AAAA"), ("endorsed_tcb", .str "")])

theorem VerifiedReport.unique {attestation : JsValue} {report report' : SnpAttestationResult}
    (hv : VerifiedReport h attestation report) (hv' : VerifiedReport h attestation report') :
    report = report' := by
  obtain ⟨evidence, endorsements, uvm, tcb, he, hn, hu, ht, hr⟩ := hv
  obtain ⟨evidence', endorsements', uvm', tcb', he', hn', hu', ht', hr'⟩ := hv'
  cases he.symm.trans he'
  cases hn.symm.trans hn'
  cases hu.symm.trans hu'
  cases ht.symm.trans ht'
  exact Except.ok.inj (hr.symm.trans hr')

/-- The claims that an accepted attestation comes with are those of its report. -/
theorem validated_iff {attestation provider claims : JsValue} :
    (∃ headers, (validateAttestation h kv attestation provider).result =
        .ok (.success claims headers)) ↔
      (∃ text, (providerOrDefault provider).render h.toEngine = .ok text) ∧
        ∃ report, claims = reportClaims h.toEngine report ∧ Verifies h attestation report ∧
          (isGcp provider = false →
            Accepts h.toEngine kv none (reportClaims h.toEngine report)) := by
  have haccepted (r : ServiceResult JsValue)
      (hr : (validateAttestation h kv attestation provider).result = .ok r)
      (hok : r.isFailure = false) : ReportAccepted h attestation r :=
    ((validateAttestation_ensures kv attestation provider r hr).2 hok).1
  constructor
  · rintro ⟨headers, hr⟩
    obtain ⟨hrender, report, hverifies, hpolicy⟩ := succeeds_validateAttestation.mp ⟨_, hr, rfl⟩
    obtain ⟨report', headers', hverified, hclaims⟩ := haccepted _ hr rfl
    rw [hverified.unique hverifies.verified] at hclaims
    exact ⟨hrender, report, (ServiceResult.success.inj hclaims).1, hverifies, hpolicy⟩
  · rintro ⟨hrender, report, rfl, hverifies, hpolicy⟩
    obtain ⟨r, hr, hok⟩ := succeeds_validateAttestation.mpr ⟨hrender, report, hverifies, hpolicy⟩
    obtain ⟨report', headers, hverified, hclaims⟩ := haccepted r hr hok
    rw [hverified.unique hverifies.verified] at hclaims
    exact ⟨headers, hr.trans (congrArg Except.ok hclaims)⟩

theorem startsWith_of_take {data hash : Bytes} (hd : data.take 32 = hash) :
    startsWith (hexString data) (hexString hash) = true := by
  refine decide_eq_true ?_
  unfold hexString
  rw [String.toList_ofList, String.toList_ofList, ← hd]
  refine ⟨(data.drop 32).flatMap hexByte, ?_⟩
  rw [← List.flatMap_append, List.take_append_drop]

/-- The text of the report data starts with the hash of the key just when the data do. -/
theorem carries_hash_iff {report : SnpAttestationResult} {key : Bytes} :
    (∃ v text, (reportClaims h.toEngine report).get "x-ms-sevsnpvm-reportdata" = .ok v ∧
        reportDataText v = .ok text ∧
        startsWith text (KeyGeneration.calculateHexHash h key) = true) ↔
      ∃ data, report.attestation.bind SnpReport.report_data = some data ∧
        data.take 32 = h.sha256 key := by
  constructor
  · rintro ⟨v, text, hv, htext, hstart⟩
    obtain ⟨data, hdata, rfl⟩ := reportData_of_text hv htext
    exact ⟨data, hdata, take_of_startsWith (h.sha256_length key) hstart⟩
  · rintro ⟨data, hdata, htake⟩
    refine ⟨.ofString (hexString data), hexString data, ?_, rfl, startsWith_of_take htake⟩
    simp only [reportClaims, JsValue.get, Json.get, lookup_reportData, hdata]
    rfl

/-- What a request for a key comes with, and where the key comes from. -/
structure Grant where
  body : Json
  attestation : JsValue
  provider : JsValue
  report : SnpAttestationResult
  reportData : Bytes
  wrappingKey : String
  kid : String
  before : List Transaction
  maker : Transaction
  after : List Transaction
  item : IKeyItem

/-- The format that the request asks for. -/
def fmtAsked (h : Host) (t : Moment) (request : Request) : String :=
  requestFmt (received h t (LogContext.new.appendScope "unwrapKey") request)

/-- The request has all that `unwrapKey` asks for, and the key that it names is one that a refresh
    made and that the rotation policy in force lets live. -/
structure Grant.Holds (g : Grant) (h : Host) (kv : Kv) (xs : List Transaction) (t : Moment)
    (request : Request) (wrapped : String) : Prop where
  identified : ∃ serviceRequest,
    Identified h t (serviceAfter h kv xs) "unwrapKey" request serviceRequest
  bodyJson : request.bodyJson = .ok g.body
  attestationField : g.body.get "attestation" = .ok g.attestation
  wrappingKeyField : g.body.get "wrappingKey" = .ok (.ofString g.wrappingKey)
  pem : IsPemPublicKey g.wrappingKey
  kidField : g.body.get "wrappedKid" = .ok (.ofString g.kid)
  provider : requestProvider (.json g.body) = .ok g.provider
  rendered : ∃ text, (providerOrDefault g.provider).render h.toEngine = .ok text
  verifies : Verifies h g.attestation g.report
  meets : isGcp g.provider = false → MeetsInForce h.toEngine
    (acceptedEdits h kv xs .keyRelease) (SnpAttestationClaims.getClaims h.toEngine g.report)
  reportDataField : g.report.attestation.bind SnpReport.report_data = some g.reportData
  bound : g.reportData.take 32 = h.sha256 (strToBuf g.wrappingKey)
  fmt : fmtAsked h t request = "jwk" ∨ fmtAsked h t request = "tink"
  calls : xs = g.before ++ g.maker :: g.after
  made : MadeAfter h kv g.before g.maker g.kid g.item
  inTime : InTime (acceptedEdits h kv xs .keyRotation) g.maker.moment.now t.now
  wraps : (unwrapWrap h (fmtAsked h t request) (strToBuf g.wrappingKey) g.item).result = .ok wrapped

theorem MadeAfter.timestamp {before : List Transaction} {x : Transaction} {kid : String}
    {item : IKeyItem} (hm : MadeAfter h kv before x kid item) :
    item.timestamp = some x.moment.now := by
  obtain ⟨keys, jwk, -, -, rfl⟩ := hm.record
  rfl

theorem requestAttestation_of_verified {body : Json} {attestation : JsValue}
    {report : SnpAttestationResult} (hatt : body.get "attestation" = .ok attestation)
    (hv : VerifiedReport h attestation report) :
    requestAttestation (.json body) = .ok (some attestation) := by
  obtain ⟨evidence, endorsements, uvm, tcb, he, -, -, -, -⟩ := hv
  obtain ⟨fields, s, rfl, -⟩ := text_of_decodes he
  have hget : (JsValue.json body).get "attestation" = .ok (.json (.obj fields)) := hatt
  obtain ⟨bodyFields, hobject, -⟩ := fields_of_get hget
  have htruthy : (JsValue.json body).truthy = true := by
    rw [hobject]
    rfl
  unfold requestAttestation
  rw [if_pos htruthy, hget]
  rfl

section UnwrapKey

variable (hdeclares : Declares h.toEngine (acceptedEdits h kv xs .keyRelease))
include hdeclares

theorem grant_of_accepted {serviceRequest : ServiceRequest} {kid wrapped : String}
    {stored : StoredItem}
    (ha : UnwrapAccepted h t (serviceAfter h kv xs) request serviceRequest kid stored wrapped) :
    ∃ g : Grant, g.Holds h kv xs t request wrapped := by
  obtain ⟨wrapping, headers', claims, v, text, hwrapping,
    ⟨attestation, provider, headers'', hatt, hprovider, hvalid⟩, hv, htext, hstart, hwrapped⟩ :=
    ha.wrapped_bound
  have hread := read_of_service ha.identified.read
  have hfmt : requestFmt serviceRequest = fmtAsked h t request := congrArg requestFmt hread
  have hknown := ha.fmt
  obtain ⟨body, s, hjson, hvalue, hattField, hs, hkid, hpem, hbytes⟩ :=
    ha.toUnwrapAsked.sent hwrapping hatt
  rw [hvalue] at hprovider
  obtain ⟨hrender, report, rfl, hverifies, hpolicy⟩ := validated_iff.mp ⟨headers'', hvalid⟩
  rw [hbytes] at hstart hwrapped
  obtain ⟨data, hdata, htake⟩ := carries_hash_iff.mp ⟨v, text, hv, htext, hstart⟩
  obtain ⟨before, x, after, hxs, hmade⟩ := stored_key_is_record h kv xs kid stored ha.lookup
  rw [hfmt] at hwrapped hknown
  refine ⟨⟨body, attestation, provider, report, data, s, kid, before, x, after, stored.item⟩,
    ⟨serviceRequest, ha.identified⟩, hjson, hattField, hs, hpem, hkid, hprovider, hrender,
    hverifies, fun hgcp => ?_, hdata, htake, hknown, hxs, hmade, inTime_of_fresh hmade.timestamp ha.fresh,
    hwrapped⟩
  exact (accepts_iff_meets h kv xs hdeclares
    (SnpAttestationClaims.getClaims_plain h.toEngine report) none).mp (hpolicy hgcp)

theorem accepted_of_grant {g : Grant} {wrapped : String} (hg : g.Holds h kv xs t request wrapped) :
    ∃ serviceRequest stored,
      UnwrapAccepted h t (serviceAfter h kv xs) request serviceRequest g.kid stored wrapped := by
  obtain ⟨serviceRequest, hi⟩ := hg.identified
  have hread := read_of_service hi.read
  have hfmt : requestFmt serviceRequest = fmtAsked h t request := congrArg requestFmt hread
  have hvalue : serviceRequest.bodyValue = .json g.body := by
    rw [hread, bodyValue_received, hg.bodyJson]
    rfl
  have hatt : requestAttestation (.json g.body) = .ok (some g.attestation) :=
    requestAttestation_of_verified hg.attestationField hg.verifies.verified
  have hkey : (JsValue.json g.body).get "wrappingKey" = .ok (.ofString g.wrappingKey) :=
    hg.wrappingKeyField
  obtain ⟨wrapping, headers, hwrapping, hbytes⟩ :=
    requestHasWrappingKey_complete (h := h) hg.pem hkey none
  have hpolicy : isGcp g.provider = false → Accepts h.toEngine
      (serviceAfter h kv xs) none (reportClaims h.toEngine g.report) := fun hgcp =>
    (accepts_iff_meets h kv xs hdeclares
      (SnpAttestationClaims.getClaims_plain h.toEngine g.report) none).mpr (hg.meets hgcp)
  obtain ⟨headers', hvalid⟩ :=
    validated_iff.mpr ⟨hg.rendered, g.report, rfl, hg.verifies, hpolicy⟩
  obtain ⟨v, text, hv, htext, hstart⟩ :=
    carries_hash_iff.mpr ⟨g.reportData, hg.reportDataField, hg.bound⟩
  obtain ⟨stored, hlookup, hitem⟩ : ∃ stored,
      (serviceAfter h kv xs).hpkeKeys.lookup g.kid = some stored ∧ stored.item = g.item := by
    rw [hg.calls]
    exact stored_of_made hg.made
  have hcreated : stored.item.timestamp = some g.maker.moment.now := by
    rw [hitem]
    exact hg.made.timestamp
  have hfound : (requestHasWrappingKey h serviceRequest.bodyValue none).result =
      .ok (.success wrapping headers) := by
    rw [hvalue]
    exact hwrapping
  refine ⟨serviceRequest, stored, ⟨⟨⟨hi, ?_,
    ⟨wrapping, headers, _, v, text, hfound, ?_, hv, htext, ?_⟩, ?_⟩, hlookup,
    fresh_of_inTime hcreated hg.inTime⟩, wrapping, headers, hfound, ?_⟩⟩
  · rw [hvalue]
    exact hg.kidField
  · rw [hvalue]
    exact ⟨g.attestation, g.provider, headers', hatt, hg.provider, hvalid⟩
  · rw [hbytes]
    exact hstart
  · rw [hfmt]
    exact hg.fmt
  · rw [hbytes, hfmt, hitem]
    exact hg.wraps

end UnwrapKey

end DepaKms
