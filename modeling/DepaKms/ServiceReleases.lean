import DepaKms.PolicyInForce
import DepaKms.AuthenticatedCallers

set_option autoImplicit false

/-!
# What the service releases keys on

The 200 responses of the two unwrapping endpoints in a running service, told by the
calls so far: the refresh that made the key, the accepted proposals, and the request.
-/
namespace DepaKms

variable {h : Host} {t : Moment} {kv : Kv} {xs : List Transaction} {request : Request}

/-- What is stored under the kid is the record that this one of the accepted calls made. -/
structure MadeIn (h : Host) (kv : Kv) (xs : List Transaction) (x : Transaction) (kid : String)
    (stored : StoredItem) : Prop where
  accepted : x ∈ accepted (serve h) kv.deployed xs
  makes : Makes h x (kid, stored)
  lookup : (serviceAfter h kv xs).hpkeKeys.lookup kid = some stored

/-- Each stored key was made by one of the calls. -/
theorem key_made (h : Host) (kv : Kv) (xs : List Transaction) {kid : String} {stored : StoredItem}
    (hlookup : (serviceAfter h kv xs).hpkeKeys.lookup kid = some stored) :
    ∃ x, MadeIn h kv xs x kid stored := by
  obtain ⟨l, hrecords, hr, -⟩ := represents_service h kv xs
  have hlogged := (hr.keys.indexed.lookup_item _ _).mp hlookup
  obtain ⟨entry, hentry, hkey⟩ := List.mem_flatMap.mp hlogged
  cases entry with
  | proposal document actions => cases hkey
  | key kid' stored' =>
    cases List.mem_singleton.mp hkey
    obtain ⟨x, hx, hmakes⟩ := exists_of_forall₂ hrecords hentry
    exact ⟨x, List.mem_of_mem_filter hx, hmakes, hlookup⟩

/-- The key has not outlived the rotation interval in force. -/
def InTime (edits : List JsValue) (created now : ℚ) : Prop :=
  ∀ R G, rotationInForce edits = some (R, G) → now ≤ created + R * 1000

theorem inTime_of_fresh {item : IKeyItem} {created : ℚ} (hitem : item.timestamp = some created)
    (hfresh : Fresh h t (serviceAfter h kv xs) item) :
    InTime (acceptedEdits h kv xs .keyRotation) created t.now := by
  intro R G hperiods
  have hgoverns := rotation_of_service h kv xs
  rw [hperiods] at hgoverns
  obtain ⟨deprecated, hexpired⟩ := hfresh
  have hresult := hexpired LogContext.new
  rw [Rotates.isExpired hgoverns, hitem, KeyRotationPolicy.classify_eq] at hresult
  have hnot := congrArg Prod.fst (Except.ok.inj hresult)
  by_contra hlate
  have hgt : numGt (some t.now)
      (KeyRotationPolicy.expiryTimes (some created) (some R) (some G)).expiryTimeMs = true :=
    decide_eq_true (not_le.mp hlate)
  rw [hgt] at hnot
  cases hnot

/-- The parts that a release by `unwrapKey` has to do with. -/
structure Release where
  body : Json
  attestation : JsValue
  provider : JsValue
  report : SnpAttestationResult
  reportData : Bytes
  wrappingKey : String
  kid : String
  fmt : String
  stored : StoredItem
  payload : Bytes
  maker : Transaction

/-- What the release rests on. For the provider `"gcp"` the policy is no part of it. -/
structure Release.RestsOn (r : Release) (h : Host) (kv : Kv) (xs : List Transaction) (t : Moment)
    (request : Request) (wrapped : String) : Prop where
  identified : ∃ serviceRequest,
    Identified h t (serviceAfter h kv xs) "unwrapKey" request serviceRequest
  bodyJson : request.bodyJson = .ok r.body
  attestationField : r.body.get "attestation" = .ok r.attestation
  wrappingKeyField : r.body.get "wrappingKey" = .ok (.ofString r.wrappingKey)
  kidField : r.body.get "wrappedKid" = .ok (.ofString r.kid)
  provider : requestProvider (.json r.body) = .ok r.provider
  verified : VerifiedReport h r.attestation r.report
  reportDataField : r.report.attestation.bind SnpReport.report_data = some r.reportData
  bound : r.reportData.take 32 = h.sha256 (strToBuf r.wrappingKey)
  meets : isGcp r.provider = false → SetKeyReleasePolicy.ReportMeets h.toEngine
    (acceptedEdits h kv xs .keyRelease) (reportClaims h.toEngine r.report)
  made : MadeIn h kv xs r.maker r.kid r.stored
  inTime : InTime (acceptedEdits h kv xs .keyRotation) r.maker.moment.now t.now
  payload : Payload h r.fmt r.stored.item r.payload
  wraps : Wraps h r.payload (strToBuf r.wrappingKey) wrapped

def Transaction.isRefresh (x : Transaction) : Bool :=
  match x.operation with
  | .keys (.refresh _) => true
  | _ => false

theorem isRefresh_iff {x : Transaction} :
    x.isRefresh = true ↔ ∃ keys, x.operation = .keys (.refresh keys) := by
  obtain ⟨operation, t, request⟩ := x
  cases operation with
  | keys call => cases call <;> simp [Transaction.isRefresh]
  | _ => simp [Transaction.isRefresh]

theorem recorded_keys {as : List Transaction} {l : Ledger}
    (hr : List.Forall₂ (Records h) (as.filter Transaction.writes) l) :
    List.Forall₂ (Makes h) (as.filter Transaction.isRefresh) l.keys := by
  induction as generalizing l with
  | nil =>
    cases hr
    exact .nil
  | cons x as ih =>
    cases hx : x.writes with
    | false =>
      rw [List.filter_cons_of_neg (by simp [hx])] at hr
      have hnot : ¬ x.isRefresh = true := by
        intro hrefresh
        obtain ⟨keys, hop⟩ := isRefresh_iff.mp hrefresh
        unfold Transaction.writes at hx
        rw [hop] at hx
        cases hx
      rw [List.filter_cons_of_neg hnot]
      exact ih hr
    | true =>
      rw [List.filter_cons_of_pos hx] at hr
      obtain ⟨entry, rest, he, hrest, rfl⟩ := List.forall₂_cons_left_iff.mp hr
      cases entry with
      | key kid stored =>
        have hmakes : Makes h x (kid, stored) := he
        obtain ⟨keys, jwk, n, expiry, hrefresh, -⟩ := hmakes.record
        rw [List.filter_cons_of_pos (isRefresh_iff.mpr ⟨keys, hrefresh⟩)]
        exact .cons hmakes (ih hrest)
      | proposal document actions =>
        have hnot : ¬ x.isRefresh = true := by
          intro hrefresh
          obtain ⟨keys, hop⟩ := isRefresh_iff.mp hrefresh
          cases hop.symm.trans he.1
        rw [List.filter_cons_of_neg hnot]
        change List.Forall₂ (Makes h) _ (Ledger.keys rest)
        exact ih hrest

/-- The newest key is the one of the last accepted refresh. -/
theorem newest_made (h : Host) (kv : Kv) (xs : List Transaction) {n : ℕ} {kid : String}
    {stored : StoredItem}
    (hlatest : LastestItemStore.latestItem (serviceAfter h kv xs) = .ok (n, some kid))
    (hlookup : (serviceAfter h kv xs).hpkeKeys.lookup kid = some stored) :
    ∃ x, ((accepted (serve h) kv.deployed xs).filter Transaction.isRefresh).getLast? = some x ∧
      Makes h x (kid, stored) := by
  obtain ⟨l, hrecords, hr, -⟩ := represents_service h kv xs
  have hlog := hr.keys
  rw [hlog.latestItem] at hlatest
  have hlast := (Prod.mk.inj (Except.ok.inj hlatest)).2
  obtain ⟨i, stored', hi, hentry⟩ := hlog.indexed.lookup_iff.mp hlast
  have hsame := hlog.lookup_entry hentry
  cases hlookup.symm.trans hsame
  refine getLast?_of_forall₂ (recorded_keys hrecords) ?_
  rw [List.getLast?_eq_getElem?, hi]
  exact hentry

/-- The policy that the validator reads is the one last accepted for the issuer. -/
theorem meetsPolicy_of_service (payload : JsValue) (policy : Json) :
    MeetsPolicy (serviceAfter h kv xs) payload policy ↔
      ∃ fields, payload = .json (.obj fields) ∧
        MeetsLast (acceptedEdits h kv xs .jwtValidation) fields policy := by
  constructor
  · rintro ⟨⟨fields, rfl, hsatisfies⟩, iss, hiss, hne, hstored⟩
    rw [tokens_of_service, Option.map_eq_some_iff] at hstored
    obtain ⟨policy', hlast, he⟩ := hstored
    cases he
    exact ⟨fields, rfl, iss, Json.get_json_iff.mp hiss, hne, hlast, hsatisfies⟩
  · rintro ⟨fields, rfl, iss, hiss, hne, hlast, hsatisfies⟩
    refine ⟨⟨fields, rfl, hsatisfies⟩, iss, Json.get_own hiss, hne, ?_⟩
    rw [tokens_of_service, hlast]
    rfl

section Token

variable {caller : Caller} (hcaller : request.caller = some caller)
  (hpolicy : caller.policy = .one "jwt")
include hcaller hpolicy

/-- Where the validator throws, the caller is refused. -/
theorem authenticated_iff (kv : Kv) (logContext : LogContext) :
    (∃ c identity, (AuthenticationService.isAuthenticated h kv logContext request).result =
        .ok (c, identity) ∧ identity.isFailure = false) ↔
      Succeeds (JwtValidator.validate h kv caller) := by
  have hvalidate : AuthenticationService.validate h kv (AuthenticationService.logContext logContext)
      request caller = JwtValidator.validate h kv caller := by
    unfold AuthenticationService.validate
    rw [hpolicy]
    rfl
  unfold Succeeds
  cases hr : (JwtValidator.validate h kv caller).result with
  | ok identity =>
    rw [isAuthenticated_answer hcaller (by rw [hvalidate]; exact hr)]
    constructor
    · rintro ⟨c, identity', he, hok⟩
      cases he
      exact ⟨identity, rfl, hok⟩
    · rintro ⟨identity', he, hok⟩
      cases he
      exact ⟨some caller, identity, rfl, hok⟩
  | error e =>
    obtain ⟨c, r, hthrown, hfails⟩ := isAuthenticated_thrown hcaller (by rw [hvalidate]; exact hr)
    rw [hthrown]
    constructor
    · rintro ⟨c', r', he, hok⟩
      cases he
      rw [hfails] at hok
      cases hok
    · rintro ⟨r', he, -⟩
      cases he

/-- A caller that comes by its token has one that meets the policy last accepted for its issuer. -/
theorem token_meets {name : String} {serviceRequest : ServiceRequest}
    (hi : Identified h t (serviceAfter h kv xs) name request serviceRequest) :
    ∃ jwt fields policy, caller.jwt = some jwt ∧ jwt.payload = .json (.obj fields) ∧
      MeetsLast (acceptedEdits h kv xs .jwtValidation) fields policy ∧
      Renders h.toEngine policy := by
  have hread : (ServiceRequest.new h t (serviceAfter h kv xs) (LogContext.new.appendScope name)
      request).result = .ok serviceRequest := hi.read
  rw [result_new (settingsAre_of_service h kv xs)] at hread
  cases hread
  obtain ⟨c, identity, hidentity, hok⟩ := hi.identity
  rw [result_isAuthenticated] at hidentity
  obtain ⟨r, hr, hsucceeds⟩ :=
    (authenticated_iff hcaller hpolicy _ _).mp ⟨c, identity, hidentity, hok⟩
  obtain ⟨jwt, policy, hjwt, hmeets, hrenders⟩ := validate_sound h _ caller r hr hsucceeds
  obtain ⟨fields, hpayload, hlast⟩ := (meetsPolicy_of_service _ _).mp hmeets
  exact ⟨jwt, fields, policy, hjwt, hpayload, hlast, hrenders⟩

end Token

structure GcpRelease where
  wrappingKey : String
  claim : JsValue
  stored : StoredItem
  maker : Transaction

/-- What the release rests on. There is no report, and the age of the key does not matter. -/
structure GcpRelease.RestsOn (r : GcpRelease) (h : Host) (kv : Kv) (xs : List Transaction)
    (t : Moment) (request : Request) (response : IKeyResponse) : Prop where
  bound : GcpBound h t (serviceAfter h kv xs) request r.wrappingKey r.claim
  token : ∀ caller, request.caller = some caller → caller.policy = .one "jwt" →
    ∃ jwt fields policy, caller.jwt = some jwt ∧ jwt.payload = .json (.obj fields) ∧
      MeetsLast (acceptedEdits h kv xs .jwtValidation) fields policy
  newest : ((accepted (serve h) kv.deployed xs).filter Transaction.isRefresh).getLast? = some r.maker
  latest : ∃ n, LastestItemStore.latestItem (serviceAfter h kv xs) =
    .ok (n, some response.wrappedKid)
  made : MadeIn h kv xs r.maker response.wrappedKid r.stored
  wraps : Wraps h (strToBuf (KeyWrapper.payloadText h r.stored.item))
    (strToBuf (normalized r.wrappingKey)) response.wrapped

def governedContent : Json :=
  .obj [("actions", .arr [
    .obj [("name", .str "set_key_release_policy"), ("args", .obj [("type", .str "add"),
      ("claims", .obj [("x-ms-sevsnpvm-reportdata", .arr [.str sampleHash])])])],
    .obj [("name", .str "set_key_rotation_policy"), ("args", .obj [("key_rotation_policy",
      .obj [("rotation_interval_seconds", .num 10), ("grace_period_seconds", .num 5)])])],
    .obj [("name", .str "set_jwt_validation_policy"), ("args", .obj [("issuer", .str "issuer"),
      ("validation_policy", .obj [])])]])]

def governedHost : Host := { sampleHost with bufToJsonCompatible := fun _ => .ok governedContent }

/-- A proposal with the three policies, and a key. -/
def governedCalls : List Transaction :=
  [⟨.postProposals, sampleMoment 0, (samplePost 1).request⟩,
    ⟨.keys (refreshAt 0).call, sampleMoment 0, (refreshAt 0).request⟩]

def laterCalls : List Transaction :=
  [⟨.keys (refreshAt 6000).call, sampleMoment 6000, (refreshAt 6000).request⟩]

end DepaKms
