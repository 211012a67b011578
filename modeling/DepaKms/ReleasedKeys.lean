import DepaKms.ReleaseEvidence
import DepaKms.KeyRuns

set_option autoImplicit false

/-!
# Released keys

The guarantees of the two release endpoints, for every request, store and policy.
-/
namespace DepaKms

def answered {α : Type} (x : Handler (ServiceResult α)) : Option α :=
  match x.result with
  | .ok (.success body _) => some body
  | _ => none

theorem answered_iff {α : Type} {x : Handler (ServiceResult α)} {body : α} :
    answered x = some body ↔ ∃ headers, x.result = .ok (.success body headers) := by
  unfold answered
  cases x.result with
  | error e => simp
  | ok r => cases r <;> simp

theorem of_answered {α : Type} {x : Handler (ServiceResult α)} {P : α → Prop} {body : α}
    (hx : Logged.Ensures x (Answers P)) (hb : answered x = some body) : P body := by
  obtain ⟨headers, hr⟩ := answered_iff.mp hb
  exact hx _ hr body headers rfl

variable (h : Host) (t : Moment) (kv : Kv)

def CarriesNonce (claim : JsValue) (nonce : String) : Prop :=
  claim = .ofString nonce ∨ ∃ xs, claim = .json (.arr xs) ∧ .str nonce ∈ xs

/-- What a 200 response of `unwrapKeyGcp` rests on. -/
structure GcpEvidence (request : Request) (response : IKeyResponse) where
  body : Json
  wrappingKey : String
  caller : Caller
  jwt : Jwt
  claim : JsValue
  stored : StoredItem
  bodyJson : request.bodyJson = .ok body
  wrappingKeyField : body.get "wrappingKey" = .ok (.ofString wrappingKey)
  isPem : IsPemPublicKey wrappingKey
  callerField : request.caller = some caller
  jwtField : caller.jwt = some jwt
  claimField : jwt.payload.getOptional "eat_nonce" = .ok claim
  nonce : CarriesNonce claim (gcpHash h wrappingKey)
  released : NewestWrapped h kv response.wrappedKid stored wrappingKey response.wrapped

variable {h} {t} {kv}

theorem carriesNonce_of_expected {claim : JsValue} {nonce : String}
    (hc : expectedNonce claim = .ofString nonce) : CarriesNonce claim nonce := by
  match claim, hc with
  | .json (.arr (v :: vs)), hc =>
    cases hc
    exact .inr ⟨_, rfl, List.mem_cons_self⟩
  | .json (.str s), hc => exact .inl hc

theorem eatNonce_caller {request : Request} {claim : JsValue} (hc : eatNonce request = .ok claim)
    (hn : claim ≠ .undefined) :
    ∃ caller jwt, request.caller = some caller ∧ caller.jwt = some jwt ∧
      jwt.payload.getOptional "eat_nonce" = .ok claim := by
  unfold eatNonce at hc
  cases hcaller : request.caller with
  | none =>
    rw [hcaller] at hc
    cases hc
    exact absurd rfl hn
  | some caller =>
    cases hjwt : caller.jwt with
    | none =>
      rw [hcaller, Option.bind_some, hjwt] at hc
      cases hc
      exact absurd rfl hn
    | some jwt =>
      rw [hcaller, Option.bind_some, hjwt] at hc
      exact ⟨caller, jwt, rfl, hjwt, hc⟩

theorem gcpWrappingKey_body {serviceRequest : ServiceRequest} {request : Request}
    {wrappingKey : String} (hbody : BodyOf request serviceRequest)
    (hk : gcpWrappingKey serviceRequest request = .ok (.ofString wrappingKey))
    (ht : (JsValue.ofString wrappingKey).truthy = true) :
    ∃ body, request.bodyJson = .ok body ∧ body.get "wrappingKey" = .ok (.ofString wrappingKey) := by
  unfold gcpWrappingKey at hk
  rw [Logged.bind_ok_iff] at hk
  obtain ⟨first, hfirst, hk⟩ := hk
  by_cases htruthy : first.truthy = true
  · rw [if_pos htruthy] at hk
    cases hk
    cases hj : request.bodyJson with
    | ok body =>
      rw [hj] at hfirst
      exact ⟨body, rfl, hfirst⟩
    | error e =>
      rw [hj] at hfirst
      cases hfirst
  · rw [if_neg htruthy] at hk
    unfold ServiceRequest.bodyValue at hk
    cases hb : serviceRequest.body with
    | none =>
      rw [hb] at hk
      cases hk
    | some body =>
      have hj := hbody body hb
      rw [hb] at hk
      rw [hj] at hfirst
      dsimp only at hfirst
      have hsame : body.get "wrappingKey" = .ok (.ofString wrappingKey) := by
        cases body <;> first | exact hk | cases hfirst
      rw [hsame] at hfirst
      cases hfirst
      exact absurd ht htruthy

theorem gcp_evidence {request : Request} {response : IKeyResponse} {wrappingKey : String}
    {claim : JsValue} {stored : StoredItem} (hb : GcpBound h t kv request wrappingKey claim)
    (hn : NewestWrapped h kv response.wrappedKid stored wrappingKey response.wrapped) :
    Nonempty (GcpEvidence h kv request response) := by
  obtain ⟨serviceRequest, _, _, hnew, -, -, hkey⟩ := hb.identified
  obtain ⟨body, hjson, hfield⟩ := gcpWrappingKey_body (new_ensures _ request _ hnew) hkey
    (pem_truthy hb.isPem)
  have hdefined : claim ≠ .undefined := by
    rintro rfl
    exact absurd (claim_truthy hb.nonce) (by decide)
  obtain ⟨caller, jwt, hcaller, hjwt, hclaim⟩ := eatNonce_caller hb.claimField hdefined
  exact ⟨⟨body, wrappingKey, caller, jwt, claim, stored, hjson, hfield, hb.isPem, hcaller, hjwt,
    hclaim, carriesNonce_of_expected hb.nonce, hn⟩⟩

/-- A released key is encrypted to the wrapping key that the report, or the token, names. -/
theorem released_keys_are_bound (h : Host) (t : Moment) (kv : Kv) (request : Request) :
    (∀ response, answered (unwrapKey h t kv request) = some response →
      Nonempty (UnwrapEvidence h t kv request response)) ∧
    (∀ response, answered (unwrapKeyGcp h t kv request) = some response →
      Nonempty (GcpEvidence h kv request response)) := by
  refine ⟨fun response hr => ?_, fun response hr => ?_⟩
  · obtain ⟨e, -⟩ := of_answered (unwrapKey_ensures request) hr
    exact ⟨e⟩
  · obtain ⟨wrappingKey, claim, stored, hb, hn⟩ := of_answered (unwrapKeyGcp_ensures request) hr
    exact gcp_evidence hb hn

def sampleHash : String := hexString samplePemDigest

def samplePolicies : Kv :=
  { Kv.empty with
    keyRelease := AList.singleton "claims"
      (.json (.obj [("x-ms-sevsnpvm-reportdata", .arr [.str sampleHash])]))
    keyRotation := AList.singleton "key_rotation_policy"
      (.json (.obj [("rotation_interval_seconds", .num 10), ("grace_period_seconds", .num 5)]))
    jwtValidation := AList.singleton "issuer" (.json (.obj [])) }

def requestOf (body : Json) (caller : Option Caller) : Request :=
  ⟨[("x-request-id", "1")], "", [], .ok body, caller, []⟩

def refreshAt (now : ℚ) : Event :=
  ⟨.refresh ⟨"AQID", "pub"⟩, sampleMoment now, requestOf (.obj []) none⟩

def sampleKv : Kv := run (keyStep sampleHost) samplePolicies [refreshAt 0]

def sampleKid : String := kidOf (KeyGeneration.calculateKid sampleHost "pub") 1

def unwrapRequest : Request :=
  requestOf (.obj [("wrappedKid", .str sampleKid), ("wrappingKey", .str samplePem),
    ("attestation", .obj [("evidence", .str (base64Text samplePemDigest)),
      ("endorsements", .str "AAAA"), ("uvm_endorsements", .str "AAAA"),
      ("endorsed_tcb", .str "")])]) none

def gcpRequest : Request :=
  requestOf (.obj [("wrappingKey", .str samplePem)])
    (some ⟨.one "jwt", none,
      some ⟨"issuer", .json (.obj [("iss", .str "issuer"), ("eat_nonce", .str sampleHash)])⟩, none,
      "\x7b\x7d"⟩)

theorem sample_released_keys :
    (∃ response, Nonempty (UnwrapEvidence sampleHost (sampleMoment 0) sampleKv unwrapRequest
      response)) ∧
    ∃ response, Nonempty (GcpEvidence sampleHost sampleKv gcpRequest response) := by
  have hazure : (answered (unwrapKey sampleHost (sampleMoment 0) sampleKv
      unwrapRequest)).isSome = true := by decide +kernel
  have hgcp : (answered (unwrapKeyGcp sampleHost (sampleMoment 0) sampleKv
      gcpRequest)).isSome = true := by decide +kernel
  obtain ⟨azure, hazure⟩ := Option.isSome_iff_exists.mp hazure
  obtain ⟨gcp, hgcp⟩ := Option.isSome_iff_exists.mp hgcp
  exact ⟨⟨azure, (released_keys_are_bound _ _ _ _).1 azure hazure⟩,
    gcp, (released_keys_are_bound _ _ _ _).2 gcp hgcp⟩

variable (h) (t) (kv)

/-- Every 200 response of either endpoint is for a key that is not expired. -/
def ReleasesFresh (request : Request) : Prop :=
  (∀ response, answered (unwrapKey h t kv request) = some response →
    ∃ body kid stored, request.bodyJson = .ok body ∧ body.get "wrappedKid" = .ok (.ofString kid) ∧
      kv.hpkeKeys.lookup kid = some stored ∧ Fresh h t kv stored.item) ∧
  (∀ response, answered (unwrapKeyGcp h t kv request) = some response →
    ∃ stored, kv.hpkeKeys.lookup response.wrappedKid = some stored ∧ Fresh h t kv stored.item)

/-- Where the request passes the checks of `unwrapKeyGcp` and the newest key can be wrapped,
    the newest key is not expired. -/
def NewestFreshIfBound (request : Request) : Prop :=
  ∀ wrappingKey claim kid stored wrapped, GcpBound h t kv request wrappingKey claim →
    NewestWrapped h kv kid stored wrappingKey wrapped → Fresh h t kv stored.item

/-- `unwrapKey` never releases an expired key; `unwrapKeyGcp` does whenever the newest key is
    expired and the request passes its other checks. -/
theorem releases_fresh_iff (request : Request) :
    ReleasesFresh h t kv request ↔ NewestFreshIfBound h t kv request := by
  constructor
  · rintro ⟨-, hgcp⟩ wrappingKey claim kid stored wrapped hb hn
    obtain ⟨receipt, headers, hr⟩ := unwrapKeyGcp_complete hb hn
    obtain ⟨found, hfound, hfresh⟩ := hgcp _ (answered_iff.mpr ⟨headers, hr⟩)
    rw [hn.lookup] at hfound
    cases hfound
    exact hfresh
  · intro hnewest
    refine ⟨fun response hr => ?_, fun response hr => ?_⟩
    · obtain ⟨e, -⟩ := of_answered (unwrapKey_ensures request) hr
      obtain ⟨stored, -, hlookup, hfresh, -⟩ := e.released
      exact ⟨e.body, e.kid, stored, e.bodyJson, e.kidField, hlookup, hfresh⟩
    · obtain ⟨wrappingKey, claim, stored, hb, hn⟩ := of_answered (unwrapKeyGcp_ensures request) hr
      exact ⟨stored, hn.lookup, hnewest wrappingKey claim _ stored _ hb hn⟩

/-- A hundred seconds after its creation the key is long expired, and released. -/
theorem expired_key_released :
    ¬ ReleasesFresh sampleHost (sampleMoment 100000) sampleKv gcpRequest := by
  have hreleased : (answered (unwrapKeyGcp sampleHost (sampleMoment 100000) sampleKv
      gcpRequest)).map (fun response => response.wrappedKid) = some sampleKid := by decide +kernel
  have hexpired : (match sampleKv.hpkeKeys.lookup sampleKid with
      | some stored =>
        match (KeyRotationPolicy.isExpired sampleHost.toEngine (sampleMoment 100000)
            sampleKv.keyRotation stored.item LogContext.new).result with
        | .ok (expired, _) => expired
        | .error _ => true
      | none => true) = true := by decide +kernel
  intro hfresh
  obtain ⟨response, hr, hkid⟩ := Option.map_eq_some_iff.mp hreleased
  obtain ⟨stored, hlookup, deprecated, hnot⟩ := hfresh.2 response hr
  rw [hkid] at hlookup
  rw [hlookup] at hexpired
  dsimp only at hexpired
  rw [hnot LogContext.new] at hexpired
  cases hexpired

end DepaKms
