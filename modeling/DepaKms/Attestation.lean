import DepaKms.ReleaseSpec
import DepaKms.Tooling

set_option autoImplicit false

/-!
# Attestation validation

Both providers share the checks of the request's fields and the decoding; what
follows the verification of the report differs.
-/
namespace DepaKms

namespace SnpAttestationClaims

def claim (name : String) (v : Option Json) : List (String × Json) := v.toList.map fun j => (name, j)

def hexClaim (name : String) (buf : Option Bytes) : List (String × Json) :=
  claim name (buf.map fun b => .str (hexString b))

def getClaims (E : Engine) (report : SnpAttestationResult) : List (String × Json) :=
  let attestation := report.attestation
  let policy := attestation.bind SnpReport.policy
  let signature := attestation.bind SnpReport.signature
  let uvm := report.uvm_endorsements
  claim "x-ms-ver" ((attestation.bind SnpReport.version).map fun v => .str (E.numberToString v)) ++
  claim "x-ms-sevsnpvm-guestsvn" ((attestation.bind SnpReport.guest_svn).map .num) ++
  claim "x-ms-sevsnpvm-smt-allowed"
    ((policy.bind SnpPolicy.smt).map fun v => .bool (decide (v = 1))) ++
  claim "x-ms-sevsnpvm-is-debuggable"
    ((policy.bind SnpPolicy.debug).map fun v => .bool (decide (v = 1))) ++
  hexClaim "x-ms-sevsnpvm-familyId" (attestation.bind SnpReport.family_id) ++
  hexClaim "x-ms-sevsnpvm-imageId" (attestation.bind SnpReport.image_id) ++
  claim "x-ms-sevsnpvm-vmpl" ((attestation.bind SnpReport.vmpl).map .num) ++
  hexClaim "x-ms-sevsnpvm-reportdata" (attestation.bind SnpReport.report_data) ++
  hexClaim "x-ms-sevsnpvm-launchmeasurement" (attestation.bind SnpReport.measurement) ++
  hexClaim "x-ms-sevsnpvm-hostdata" (attestation.bind SnpReport.host_data) ++
  hexClaim "x-ms-sevsnpvm-idkeydigest" (attestation.bind SnpReport.id_key_digest) ++
  hexClaim "x-ms-sevsnpvm-authorkeydigest" (attestation.bind SnpReport.author_key_digest) ++
  hexClaim "x-ms-sevsnpvm-reportid" (attestation.bind SnpReport.report_id) ++
  hexClaim "signature-r" (signature.bind SnpSignature.r) ++
  hexClaim "signature-s" (signature.bind SnpSignature.s) ++
  claim "uvm_endorsements-did" ((uvm.bind UvmEndorsements.did).map .str) ++
  claim "uvm_endorsements-feed" ((uvm.bind UvmEndorsements.feed).map .str) ++
  claim "uvm_endorsements-svn" ((uvm.bind UvmEndorsements.svn).map .str)

theorem claim_plain {name : String} {v : Option Json} (h : ∀ j, v = some j → IsPlain j) :
    ∀ f ∈ claim name v, IsPlain f.2 := by
  intro f hf
  obtain ⟨j, hj, rfl⟩ := List.mem_map.mp hf
  exact h j (Option.mem_toList.mp hj)

theorem getClaims_plain (E : Engine) (report : SnpAttestationResult) :
    ∀ f ∈ getClaims E report, IsPlain f.2 := by
  have hmap {α : Type} {o : Option α} {g : α → Json} (hg : ∀ a, IsPlain (g a)) :
      ∀ j, o.map g = some j → IsPlain j := by
    intro j hj
    obtain ⟨a, -, rfl⟩ := Option.map_eq_some_iff.mp hj
    exact hg a
  unfold getClaims hexClaim
  simp only [List.forall_mem_append]
  refine ⟨⟨⟨⟨⟨⟨⟨⟨⟨⟨⟨⟨⟨⟨⟨⟨⟨?_, ?_⟩, ?_⟩, ?_⟩, ?_⟩, ?_⟩, ?_⟩, ?_⟩, ?_⟩, ?_⟩, ?_⟩, ?_⟩, ?_⟩, ?_⟩,
    ?_⟩, ?_⟩, ?_⟩, ?_⟩ <;> refine claim_plain (hmap fun a => ?_)
  all_goals first | exact .str _ | exact .num _ | exact .bool _

end SnpAttestationClaims

variable (h : Host)

/-- Whether the source takes the field for missing. -/
def missing (v : JsValue) : Bool := !v.truthy && v.typeOf != "string"

def checkFields (logContext : LogContext) (attestation : JsValue)
    (next : Handler (ServiceResult JsValue)) :
    List (String × String) → Handler (ServiceResult JsValue)
  | [] => next
  | (field, errorMessage) :: fields => do
    let value ← attestation.get field
    if missing value then ServiceResult.failed h.toEngine (.of errorMessage) 400 logContext []
    else checkFields logContext attestation next fields

def decodeField (logContext : LogContext) (attestation : JsValue) (field : String)
    (next : Bytes → Handler (ServiceResult JsValue)) : Handler (ServiceResult JsValue) :=
  match attestation.get field >>= base64ToUint8Array h with
  | .ok bytes => next bytes
  | .error _ =>
    ServiceResult.failed h.toEngine (.of s!"Malformed attestation.{field}") 400 logContext []

def withBuffers (logContext : LogContext) (attestation : JsValue) (checks : List (String × String))
    (next : Bytes → Bytes → Bytes → Handler (ServiceResult JsValue)) :
    Handler (ServiceResult JsValue) :=
  if attestation.truthy then
    checkFields h logContext attestation
      (decodeField h logContext attestation "evidence" fun evidence =>
        decodeField h logContext attestation "endorsements" fun endorsements =>
          decodeField h logContext attestation "uvm_endorsements" fun uvm_endorsements =>
            next evidence endorsements uvm_endorsements)
      checks
  else ServiceResult.failed h.toEngine (.of "missing attestation") 400 logContext []

/-- The message for the endorsements names the endorsements. -/
def gcpChecks : List (String × String) :=
  [("evidence", "missing or bad attestation.evidence"),
    ("endorsements", "missing or bad attestation.endorsements"),
    ("uvm_endorsements", "missing or bad attestation.uvm_endorsements"),
    ("endorsed_tcb", "missing or bad attestation.endorsed_tcb")]

def verifyGcpReport (logContext : LogContext) (attestation : JsValue)
    (evidence endorsements uvm_endorsements : Bytes) : Handler (ServiceResult JsValue) :=
  tryCatch
    (do
      let endorsed_tcb ← attestation.get "endorsed_tcb"
      let attestationReport ←
        h.verifySnpAttestation evidence endorsements uvm_endorsements endorsed_tcb
      Logger.debug h.toEngine s!"GCP attestation report: {h.reportText attestationReport}"
        (some logContext) []
      let attestationClaims :=
        JsValue.json (.obj (SnpAttestationClaims.getClaims h.toEngine attestationReport))
      Logger.debug h.toEngine "GCP attestation claims (for logging only): " (some logContext)
        [attestationClaims]
      ServiceResult.succeeded h.toEngine attestationClaims logContext none)
    fun exception =>
      ServiceResult.failed h.toEngine (.of s!"GCP attestation error: {exception.message}") 500
        logContext []

def validateGcpAttestation (attestation : JsValue) : Handler (ServiceResult JsValue) := do
  let logContext := LogContext.new.appendScope "validateGcpAttestation"
  Logger.debug h.toEngine "Start GCP attestation validation" (some logContext) []
  withBuffers h logContext attestation gcpChecks (verifyGcpReport h logContext attestation)

/-- The message for the endorsements names the evidence, as the source has it. -/
def azureChecks : List (String × String) :=
  [("evidence", "missing or bad attestation.evidence"),
    ("endorsements", "missing or bad attestation.evidence"),
    ("uvm_endorsements", "missing or bad attestation.uvm_endorsements"),
    ("endorsed_tcb", "missing or bad attestation.endorsed_tcb")]

def policyKeys (policy : IKeyReleasePolicy) : List String :=
  ["type", "claims"] ++ (policy.gte.toList.map fun _ => "gte") ++
    (policy.gt.toList.map fun _ => "gt")

def verifyReport (kv : Kv) (logContext : LogContext) (attestation : JsValue)
    (evidence endorsements uvm_endorsements : Bytes) : Handler (ServiceResult JsValue) :=
  tryCatch
    (do
      let endorsed_tcb ← attestation.get "endorsed_tcb"
      let attestationReport ←
        h.verifySnpAttestation evidence endorsements uvm_endorsements endorsed_tcb
      Logger.debug h.toEngine s!"Attestation validation report: {h.reportText attestationReport}"
        (some logContext) []
      let attestationClaims :=
        JsValue.json (.obj (SnpAttestationClaims.getClaims h.toEngine attestationReport))
      Logger.debug h.toEngine "Attestation claims: " (some logContext) [attestationClaims]
      let reportData ← attestationClaims.get "x-ms-sevsnpvm-reportdata"
      Logger.debug h.toEngine "Report Data: " (some logContext) [reportData]
      let keyReleasePolicy ←
        KeyReleasePolicy.getKeyReleasePolicyFromMap h.toEngine kv.keyRelease none
      let keys := policyKeys keyReleasePolicy
      let keysText := String.intercalate "," keys
      Logger.debug h.toEngine
        s!"Key release policy: {keyReleasePolicy.toJson.stringify h.toEngine}, keys: {keysText}, keys: {keys.length}"
        (some logContext) []
      KeyReleasePolicy.validateKeyReleasePolicy h.toEngine keyReleasePolicy attestationClaims none)
    fun exception =>
      ServiceResult.failed h.toEngine (.of s!"Internal error: {exception.message}") 500
        logContext []

def providerOrDefault : JsValue → JsValue
  | .undefined => .ofString "azure"
  | v => v

/-- The provider is what the caller sent; any value but `"gcp"` selects the second path. -/
def validateAttestation (kv : Kv) (attestation attestationProvider : JsValue) :
    Handler (ServiceResult JsValue) := do
  let logContext := LogContext.new.appendScope "validateAttestation"
  let provider := providerOrDefault attestationProvider
  let providerText ← provider.render h.toEngine
  Logger.debug h.toEngine s!"Start attestation validation (provider: {providerText})"
    (some logContext) []
  if provider.strictEq (JsValue.ofString "gcp") then validateGcpAttestation h attestation
  else withBuffers h logContext attestation azureChecks (verifyReport h kv logContext attestation)

def Decodes (attestation : JsValue) (field : String) (bytes : Bytes) : Prop :=
  (attestation.get field >>= base64ToUint8Array h) = .ok bytes

def VerifiedReport (attestation : JsValue) (report : SnpAttestationResult) : Prop :=
  ∃ evidence endorsements uvm_endorsements endorsed_tcb,
    Decodes h attestation "evidence" evidence ∧ Decodes h attestation "endorsements" endorsements ∧
      Decodes h attestation "uvm_endorsements" uvm_endorsements ∧
      attestation.get "endorsed_tcb" = .ok endorsed_tcb ∧
      h.verifySnpAttestation evidence endorsements uvm_endorsements endorsed_tcb = .ok report

def reportClaims (E : Engine) (report : SnpAttestationResult) : JsValue :=
  .json (.obj (SnpAttestationClaims.getClaims E report))

/-- A postcondition on results that are no failures; a failure is never for something gone. -/
def Accepting (P : ServiceResult JsValue → Prop) (r : ServiceResult JsValue) : Prop :=
  r.statusCode ≠ 410 ∧ (r.isFailure = false → P r)

variable {h}

theorem accepting_failed (P : ServiceResult JsValue → Prop) {code : ℕ} (hc : code ≠ 410)
    (error : ErrorResponse) (logContext : LogContext) :
    Logged.Ensures (ServiceResult.failed h.toEngine error code logContext []) (Accepting P) := by
  intro r hr
  cases hr
  exact ⟨hc, by simp [ServiceResult.isFailure]⟩

theorem checkFields_ensures {P : ServiceResult JsValue → Prop} {logContext : LogContext}
    {attestation : JsValue} {next : Handler (ServiceResult JsValue)}
    (hnext : Logged.Ensures next (Accepting P)) (fields : List (String × String)) :
    Logged.Ensures (checkFields h logContext attestation next fields) (Accepting P) := by
  induction fields with
  | nil => exact hnext
  | cons f fields ih =>
    exact .skip fun _ => .ite (fun _ => accepting_failed P (by decide) _ _) fun _ => ih

theorem decodeField_ensures {P : ServiceResult JsValue → Prop} {logContext : LogContext}
    {attestation : JsValue} {field : String} {next : Bytes → Handler (ServiceResult JsValue)}
    (hnext : ∀ bytes, Decodes h attestation field bytes →
      Logged.Ensures (next bytes) (Accepting P)) :
    Logged.Ensures (decodeField h logContext attestation field next) (Accepting P) := by
  unfold decodeField
  cases hd : attestation.get field >>= base64ToUint8Array h with
  | ok bytes => exact hnext bytes hd
  | error e => exact accepting_failed P (by decide) _ _

theorem withBuffers_ensures {P : ServiceResult JsValue → Prop} {logContext : LogContext}
    {attestation : JsValue} {checks : List (String × String)}
    {next : Bytes → Bytes → Bytes → Handler (ServiceResult JsValue)}
    (hnext : ∀ evidence endorsements uvm_endorsements,
      Decodes h attestation "evidence" evidence →
      Decodes h attestation "endorsements" endorsements →
      Decodes h attestation "uvm_endorsements" uvm_endorsements →
      Logged.Ensures (next evidence endorsements uvm_endorsements) (Accepting P)) :
    Logged.Ensures (withBuffers h logContext attestation checks next) (Accepting P) := by
  refine .ite (fun _ => checkFields_ensures ?_ _) fun _ => accepting_failed P (by decide) _ _
  exact decodeField_ensures fun evidence he => decodeField_ensures fun endorsements hn =>
    decodeField_ensures fun uvm_endorsements hu => hnext _ _ _ he hn hu

def ReportAccepted (h : Host) (attestation : JsValue) (r : ServiceResult JsValue) : Prop :=
  ∃ report headers, VerifiedReport h attestation report ∧
    r = .success (reportClaims h.toEngine report) headers

def ReportGranted (h : Host) (policies : KvMap String KvText) (attestation : JsValue)
    (r : ServiceResult JsValue) : Prop :=
  ∃ report headers policy, VerifiedReport h attestation report ∧
    r = .success (reportClaims h.toEngine report) headers ∧
    (KeyReleasePolicy.getKeyReleasePolicyFromMap h.toEngine policies none).result = .ok policy ∧
    Succeeds (KeyReleasePolicy.validateKeyReleasePolicy h.toEngine policy
      (reportClaims h.toEngine report) none)

theorem validateGcpAttestation_ensures (attestation : JsValue) :
    Logged.Ensures (validateGcpAttestation h attestation)
      (Accepting (ReportAccepted h attestation)) := by
  refine .skip fun _ => withBuffers_ensures fun evidence endorsements uvm he hn hu => ?_
  refine .tryCatch (.step fun tcb ht => .step fun report hr => .skip fun _ => .skip fun _ => ?_)
    fun _ => accepting_failed _ (by decide) _ _
  intro r hr'
  cases hr'
  refine ⟨by simp [ServiceResult.statusCode], fun _ => ?_⟩
  exact ⟨report, _, ⟨evidence, endorsements, uvm, tcb, he, hn, hu, ht, hr⟩, rfl⟩

theorem verifyReport_ensures {kv : Kv} {logContext : LogContext} {attestation : JsValue}
    {evidence endorsements uvm : Bytes} (he : Decodes h attestation "evidence" evidence)
    (hn : Decodes h attestation "endorsements" endorsements)
    (hu : Decodes h attestation "uvm_endorsements" uvm) :
    Logged.Ensures (verifyReport h kv logContext attestation evidence endorsements uvm)
      (Accepting (ReportGranted h kv.keyRelease attestation)) := by
  refine .tryCatch ?_ fun _ => accepting_failed _ (by decide) _ _
  refine .step fun tcb ht => .step fun report hr => .skip fun _ => .skip fun _ => .skip fun _ => ?_
  refine .skip fun _ => .step fun policy hp => .skip fun _ => ?_
  intro r hr'
  obtain ⟨hcode, hsuccess⟩ := KeyReleasePolicy.handsOn_evaluator _ _ _ _ r hr'
  refine ⟨hcode, fun hf => ?_⟩
  obtain ⟨headers, rfl⟩ := hsuccess hf
  exact ⟨report, headers, policy, ⟨evidence, endorsements, uvm, tcb, he, hn, hu, ht, hr⟩, rfl, hp,
    _, hr', rfl⟩

def isGcp (attestationProvider : JsValue) : Bool :=
  (providerOrDefault attestationProvider).strictEq (JsValue.ofString "gcp")

theorem validateAttestation_ensures (kv : Kv) (attestation attestationProvider : JsValue) :
    Logged.Ensures (validateAttestation h kv attestation attestationProvider)
      (Accepting fun r => ReportAccepted h attestation r ∧
        (isGcp attestationProvider = false → ReportGranted h kv.keyRelease attestation r)) := by
  refine .skip fun _ => .skip fun _ => .ite (fun hg => ?_) fun hg => ?_
  · refine (validateGcpAttestation_ensures attestation).mono fun r hr =>
      ⟨hr.1, fun hf => ⟨hr.2 hf, fun hn => ?_⟩⟩
    rw [isGcp] at hn
    exact absurd hg (by rw [hn]; simp)
  · refine (withBuffers_ensures fun _ _ _ => verifyReport_ensures).mono fun r hr => ⟨hr.1, fun hf => ?_⟩
    obtain ⟨report, headers, policy, hv, hs, hp, he⟩ := hr.2 hf
    exact ⟨⟨report, headers, hv, hs⟩, fun _ => ⟨report, headers, policy, hv, hs, hp, he⟩⟩

/-- No provider but `"gcp"` lets a report pass that violates the release policy; for `"gcp"`
    the outcome is that of the verification alone, whatever the policy maps hold. -/
theorem accepted_reports_are_granted (kv : Kv) (attestation attestationProvider : JsValue)
    (r : ServiceResult JsValue)
    (hr : (validateAttestation h kv attestation attestationProvider).result = .ok r)
    (hs : r.isFailure = false) :
    ReportAccepted h attestation r ∧
      (isGcp attestationProvider = false → ReportGranted h kv.keyRelease attestation r) ∧
      (isGcp attestationProvider = true → ∀ kv',
        (validateAttestation h kv' attestation attestationProvider).result = .ok r) := by
  obtain ⟨haccepted, hgranted⟩ :=
    (validateAttestation_ensures kv attestation attestationProvider r hr).2 hs
  refine ⟨haccepted, hgranted, fun hg kv' => ?_⟩
  rw [← hr]
  unfold isGcp at hg
  simp only [validateAttestation, hg, if_true]

def sampleAttestation : JsValue :=
  .json (.obj [("evidence", .str "AAAA"), ("endorsements", .str "AAAA"),
    ("uvm_endorsements", .str "AAAA"), ("endorsed_tcb", .str "")])

def samplePolicyKv : Kv :=
  { Kv.empty with
    keyRelease := AList.singleton "claims"
      (.json (.obj [("x-ms-sevsnpvm-reportdata", .arr [.str "000000"])])) }

theorem sample_report_granted :
    ∃ r, ReportGranted sampleHost samplePolicyKv.keyRelease sampleAttestation r := by
  have hs : Succeeds (validateAttestation sampleHost samplePolicyKv sampleAttestation .undefined) := by
    decide
  obtain ⟨r, hr, hf⟩ := hs
  exact ⟨r, (accepted_reports_are_granted samplePolicyKv sampleAttestation .undefined r hr hf).2.1
    rfl⟩

/-- With no policy stored for `"gcp"` at all, its reports are accepted. -/
theorem gcp_report_accepted_without_policy :
    Succeeds (validateAttestation sampleHost Kv.empty sampleAttestation (.ofString "gcp")) ∧
      ¬ ∃ policy, (KeyReleasePolicy.getKeyReleasePolicyFromMap sampleHost.toEngine
        Kv.empty.gcpKeyRelease none).result = .ok policy := by
  refine ⟨by decide, ?_⟩
  rintro ⟨policy, hp⟩
  cases hp

end DepaKms
