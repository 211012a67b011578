import DepaKms.ServiceOffers
import DepaKms.HandedOutKeys

set_option autoImplicit false

/-!
# The keys that refreshes make

The number, the kid and the expiry of a new key follow from the calls before it, and the
record of a key never changes. The expiry that is enforced is another matter.
-/
namespace DepaKms

variable {h : Host} {t : Moment} {kv : Kv} {xs : List Transaction} {request : Request}
  {keys : CryptoKeyPair}

/-- The expiry under the policy in force; one of zero is not recorded. -/
def recordedExpiry (edits : List JsValue) (created : ℚ) : Option ℚ :=
  ((rotationInForce edits).map fun periods => created + periods.1 * 1000).filter fun e => e ≠ 0

theorem result_newKeyExpiry (h : Host) (t : Moment) (kv : Kv) (xs : List Transaction)
    (logContext : LogContext) :
    ∃ times, (KeyRotationPolicy.getKeyItemExpiryTime h.toEngine t (serviceAfter h kv xs).keyRotation
        (some t.now) logContext).result = .ok times ∧
      (times.bind IExpiryTimes.expiryTimeMs).filter (fun e => e ≠ 0) =
        recordedExpiry (acceptedEdits h kv xs .keyRotation) t.now := by
  have hgoverns := rotation_of_service h kv xs
  rw [KeyRotationPolicy.result_getKeyItemExpiryTime,
    KeyRotationPolicy.result_getKeyRotationPolicyFromMap]
  unfold recordedExpiry
  cases hperiods : rotationInForce (acceptedEdits h kv xs .keyRotation) with
  | none =>
    rw [hperiods] at hgoverns
    have hnone : KeyRotationPolicy.storedPolicy (serviceAfter h kv xs).keyRotation = .ok none := by
      unfold KeyRotationPolicy.storedPolicy
      rw [show (serviceAfter h kv xs).keyRotation.lookup "key_rotation_policy" = none from hgoverns]
    rw [hnone]
    exact ⟨none, rfl, rfl⟩
  | some periods =>
    rw [hperiods] at hgoverns
    obtain ⟨policy, hstored, hnumbers, -⟩ := Rotates.periods (h := h) hgoverns
    rw [hstored]
    refine ⟨some (KeyRotationPolicy.expiryTimes (some t.now) (some periods.1) (some periods.2)),
      ?_, rfl⟩
    change (KeyRotationPolicy.periods h.toEngine policy >>= _) = _
    rw [hnumbers]
    rfl

theorem result_refreshBody {jwk : JsonWebKeyEdDSAPrivate} {expiry recorded : Option ℚ}
    (hexpiry : expiry.filter (fun e => e ≠ 0) = recorded)
    (hjwk : h.eddsaPemToJwk keys.privateKey = .ok jwk)
    (hbound : LastestItemStore.size kv + 1 < 2 ^ 32) (logContext : LogContext) :
    ∃ headers, (refreshBody h t kv keys logContext expiry).result =
      .ok (.success { newKeyItem h t keys jwk (LastestItemStore.size kv + 1) recorded with d := none }
          headers,
        kv.addKey (LastestItemStore.size kv + 1)
          (kidOf (KeyGeneration.calculateKid h keys.publicKey) (LastestItemStore.size kv + 1))
          (newKeyItem h t keys jwk (LastestItemStore.size kv + 1) recorded)) := by
  have hid : uint32Key (LastestItemStore.size kv + 1) = .ok (LastestItemStore.size kv + 1) :=
    if_pos hbound
  unfold refreshBody KeyGeneration.generateKeyItem LastestItemStore.storeItem newKeyItem
  simp only [Logged.result_bind, Logged.result_lift, hjwk, Logged.ok_bind, hid, hexpiry]
  exact ⟨_, rfl⟩

/-- What a refresh needs besides an authenticated caller. -/
theorem refreshBody_needs (logContext : LogContext) (expiry : Option ℚ) :
    Logged.Ensures (refreshBody h t kv keys logContext expiry) fun _ =>
      (∃ jwk, h.eddsaPemToJwk keys.privateKey = .ok jwk) ∧
        LastestItemStore.size kv + 1 < 2 ^ 32 := by
  have hgenerated (id : ℕ) : Logged.Ensures (KeyGeneration.generateKeyItem h t keys id expiry)
      fun _ => ∃ jwk, h.eddsaPemToJwk keys.privateKey = .ok jwk :=
    .read fun jwk hjwk => .skip fun _ => .pure ⟨jwk, hjwk⟩
  refine .bind (hgenerated _) fun generated hjwk => .bind (storeItem_ensures _ _) fun kv' hstored => ?_
  exact .skip fun _ => .skip fun _ => .pure ⟨hjwk, hstored.1⟩

theorem size_of_service (h : Host) (kv : Kv) (xs : List Transaction) :
    LastestItemStore.size (serviceAfter h kv xs) = (refreshes h kv xs).length := by
  obtain ⟨log, hlog, hmakes⟩ := keys_of_service h kv xs
  rw [hlog.size_eq, hmakes.length_eq]

theorem result_refresh (keys : CryptoKeyPair) {serviceRequest : ServiceRequest}
    (hi : Identified h t (serviceAfter h kv xs) "refresh" request serviceRequest) :
    ∃ expiry : Option ℚ, expiry.filter (fun e => e ≠ 0) =
        recordedExpiry (acceptedEdits h kv xs .keyRotation) t.now ∧
      (refresh h t (serviceAfter h kv xs) keys request).result =
        (tryCatch (refreshBody h t (serviceAfter h kv xs) keys serviceRequest.logContext expiry)
          fun exception => do
            let failed ← caughtError h serviceRequest.logContext
              s!"refresh: Error: {exception.message}"
            pure (failed, serviceAfter h kv xs)).result := by
  obtain ⟨caller, identity, hidentity, hok⟩ := hi.identity
  have hread : (ServiceRequest.new h t (serviceAfter h kv xs) (LogContext.new.appendScope "refresh")
      request).result = .ok serviceRequest := hi.read
  obtain ⟨times, htimes, hexpiry⟩ := result_newKeyExpiry h t kv xs serviceRequest.logContext
  refine ⟨times.bind IExpiryTimes.expiryTimeMs, hexpiry, ?_⟩
  unfold refresh
  simp only [Logged.result_bind, hread, Logged.ok_bind, hidentity]
  cases identity with
  | failure error code headers => cases hok
  | success _ _ | pending _ =>
    simp only [Logged.result_bind, Logger.result_info, Logged.ok_bind, htimes]
    cases times <;> rfl

theorem identified_of_refresh : Logged.Ensures (refresh h t kv keys request) fun r =>
    r.1.isFailure = false → ∃ serviceRequest, Identified h t kv "refresh" request serviceRequest := by
  refine .step fun serviceRequest hread => .step fun p hidentity => ?_
  obtain ⟨caller, identity⟩ := p
  split
  · exact .pure (by simp [ServiceResult.isFailure])
  next hnot => exact fun r _ _ => ⟨serviceRequest, identified_of_answer hread hidentity hnot⟩

/-- The store with the new key, under the number that follows those of the accepted refreshes. -/
def withNewKey (h : Host) (t : Moment) (kv : Kv) (xs : List Transaction) (keys : CryptoKeyPair)
    (jwk : JsonWebKeyEdDSAPrivate) : Kv :=
  let n := (refreshes h kv xs).length + 1
  (serviceAfter h kv xs).addKey n (kidOf (KeyGeneration.calculateKid h keys.publicKey) n)
    (newKeyItem h t keys jwk n (recordedExpiry (acceptedEdits h kv xs .keyRotation) t.now))

/-- What a refresh that does not fail has done. -/
theorem made_of_refresh {r : ServiceResult IKeyItem × Kv}
    (hr : (refresh h t (serviceAfter h kv xs) keys request).result = .ok r)
    (hok : r.1.isFailure = false) :
    (∃ serviceRequest, Identified h t (serviceAfter h kv xs) "refresh" request serviceRequest) ∧
      (refreshes h kv xs).length + 1 < 2 ^ 32 ∧
      ∃ jwk headers, h.eddsaPemToJwk keys.privateKey = .ok jwk ∧
        r = (.success { newKeyItem h t keys jwk ((refreshes h kv xs).length + 1)
          (recordedExpiry (acceptedEdits h kv xs .keyRotation) t.now) with d := none } headers,
          withNewKey h t kv xs keys jwk) := by
  obtain ⟨serviceRequest, hi⟩ := identified_of_refresh _ hr hok
  obtain ⟨expiry, hexpiry, hresult⟩ := result_refresh keys hi
  rw [hr, Logged.result_tryCatch] at hresult
  cases hbody : (refreshBody h t (serviceAfter h kv xs) keys serviceRequest.logContext
      expiry).result with
  | error e =>
    rw [hbody] at hresult
    cases hresult
    cases hok
  | ok r' =>
    obtain ⟨⟨jwk, hjwk⟩, hbound⟩ := refreshBody_needs _ _ r' hbody
    obtain ⟨headers, hmade⟩ := result_refreshBody hexpiry hjwk hbound serviceRequest.logContext
    rw [hmade] at hresult
    rw [size_of_service] at hbound hresult
    exact ⟨⟨serviceRequest, hi⟩, hbound, jwk, headers, hjwk, Except.ok.inj hresult⟩

/-- A refresh that has what it needs makes the key. -/
theorem refresh_makes {jwk : JsonWebKeyEdDSAPrivate} {serviceRequest : ServiceRequest}
    (hi : Identified h t (serviceAfter h kv xs) "refresh" request serviceRequest)
    (hbound : (refreshes h kv xs).length + 1 < 2 ^ 32)
    (hjwk : h.eddsaPemToJwk keys.privateKey = .ok jwk) :
    ∃ headers, (refresh h t (serviceAfter h kv xs) keys request).result =
      .ok (.success { newKeyItem h t keys jwk ((refreshes h kv xs).length + 1)
          (recordedExpiry (acceptedEdits h kv xs .keyRotation) t.now) with d := none } headers,
        withNewKey h t kv xs keys jwk) := by
  obtain ⟨expiry, hexpiry, hresult⟩ := result_refresh keys hi
  rw [← size_of_service] at hbound
  obtain ⟨headers, hmade⟩ := result_refreshBody hexpiry hjwk hbound serviceRequest.logContext
  refine ⟨headers, ?_⟩
  rw [hresult, Logged.result_tryCatch, hmade]
  unfold withNewKey
  rw [size_of_service]

/-- In every state of the service, a refresh makes a key just when its caller is authenticated, the
    pair can be read, and fewer than `2 ^ 32 - 1` refreshes were accepted before. -/
theorem refresh_makes_iff (h : Host) (kv : Kv) (xs : List Transaction) (t : Moment)
    (keys : CryptoKeyPair) (request : Request) (shown : IKeyItem) (kv' : Kv) :
    (∃ headers, (refresh h t (serviceAfter h kv xs) keys request).result =
      .ok (.success shown headers, kv')) ↔
      (∃ serviceRequest, Identified h t (serviceAfter h kv xs) "refresh" request serviceRequest) ∧
      (refreshes h kv xs).length + 1 < 2 ^ 32 ∧
      ∃ jwk, h.eddsaPemToJwk keys.privateKey = .ok jwk ∧
        shown = { newKeyItem h t keys jwk ((refreshes h kv xs).length + 1)
          (recordedExpiry (acceptedEdits h kv xs .keyRotation) t.now) with d := none } ∧
        kv' = withNewKey h t kv xs keys jwk := by
  constructor
  · rintro ⟨headers, hr⟩
    obtain ⟨hi, hbound, jwk, headers', hjwk, he⟩ := made_of_refresh hr rfl
    obtain ⟨hshown, hkv⟩ := Prod.mk.inj he
    exact ⟨hi, hbound, jwk, hjwk, (ServiceResult.success.inj hshown).1, hkv⟩
  · rintro ⟨⟨serviceRequest, hi⟩, hbound, jwk, hjwk, rfl, rfl⟩
    exact refresh_makes hi hbound hjwk

/-- The key was made by this refresh, called after these calls. -/
structure MadeAfter (h : Host) (kv : Kv) (before : List Transaction) (x : Transaction)
    (kid : String) (item : IKeyItem) : Prop where
  identified : ∃ serviceRequest,
    Identified h x.moment (serviceAfter h kv before) "refresh" x.request serviceRequest
  count : (refreshes h kv before).length + 1 < 2 ^ 32
  record : ∃ keys jwk, x.operation = .keys (.refresh keys) ∧
    h.eddsaPemToJwk keys.privateKey = .ok jwk ∧
    item = newKeyItem h x.moment keys jwk ((refreshes h kv before).length + 1)
      (recordedExpiry (acceptedEdits h kv before .keyRotation) x.moment.now)
  kid : item.kid = some kid

/-- The one call that changes what is stored under a kid is the refresh that makes the key. -/
theorem key_of_change {x : Transaction} {kv' : Kv} {kid : String}
    (hs : serve h (serviceAfter h kv xs) x = some kv')
    (hne : kv'.hpkeKeys.lookup kid ≠ (serviceAfter h kv xs).hpkeKeys.lookup kid) :
    ∃ stored, kv'.hpkeKeys.lookup kid = some stored ∧ MadeAfter h kv xs x kid stored.item := by
  cases serve_cases hs with
  | read hreads hkv =>
    rw [hkv] at hne
    exact absurd rfl hne
  | proposal hpost logContext actions kv₁ hmay henacts hkv =>
    obtain ⟨-, kv₂, proposals, hall, -, rfl⟩ := henacts
    have hkeys := congrArg Kv.hpkeKeys (enacted_withoutPolicies hall)
    rw [hkv] at hne
    exact absurd (congrArg (AList.lookup kid) hkeys) hne
  | key keys hrefresh kid' item hnew hkv =>
    obtain ⟨operation, t, request⟩ := x
    cases hrefresh
    obtain ⟨response, kv₁, hr, hok, rfl⟩ := serve_eq_some_iff.mp hs
    unfold Transaction.respond at hr
    dsimp only at hr
    rw [Logged.result_bind] at hr
    obtain ⟨⟨r, kv₂⟩, hresult, hr⟩ := Logged.bind_ok_iff.mp hr
    cases hr
    rw [ServiceResult.isFailure_sent] at hok
    obtain ⟨hi, hbound, jwk, headers, hjwk, he⟩ := made_of_refresh hresult hok
    cases he
    by_cases hkid : kid =
        kidOf (KeyGeneration.calculateKid h keys.publicKey) ((refreshes h kv xs).length + 1)
    · subst hkid
      exact ⟨_, AList.lookup_insert _, hi, hbound, ⟨keys, jwk, rfl, hjwk, rfl⟩, rfl⟩
    · exact absurd (AList.lookup_insert_ne hkid) hne

/-- What is stored under a kid is, for good, the record that a refresh made of the calls before
    it. -/
theorem stored_key_is_record (h : Host) (kv : Kv) (xs : List Transaction) (kid : String)
    (stored : StoredItem) (hlookup : (serviceAfter h kv xs).hpkeKeys.lookup kid = some stored) :
    ∃ before x after, xs = before ++ x :: after ∧ MadeAfter h kv before x kid stored.item := by
  have hne : (serviceAfter h kv xs).hpkeKeys.lookup kid ≠ kv.deployed.hpkeKeys.lookup kid := by
    rw [hlookup]
    rintro ⟨⟩
  obtain ⟨before, x, after, kv', rfl, hs, hchange⟩ :=
    exists_change (serve h) (fun kv => kv.hpkeKeys.lookup kid) hne
  change serve h (serviceAfter h kv before) x = some kv' at hs
  obtain ⟨stored', hmade, hafter⟩ := key_of_change hs hchange
  have hstep : serviceAfter h kv (before ++ [x]) = kv' := by
    rw [serviceAfter_append, run_cons, commit, hs]
    rfl
  rw [← hstep] at hmade
  have hkept := (keys_kept h kv (before ++ [x]) after).items kid stored' hmade
  rw [List.append_assoc, List.singleton_append] at hkept
  cases hlookup.symm.trans hkept
  exact ⟨before, x, after, rfl, hafter⟩

/-- The record that a refresh made is stored from then on. -/
theorem stored_of_made {before after : List Transaction} {x : Transaction} {kid : String}
    {item : IKeyItem} (hmade : MadeAfter h kv before x kid item) :
    ∃ stored, (serviceAfter h kv (before ++ x :: after)).hpkeKeys.lookup kid = some stored ∧
      stored.item = item := by
  obtain ⟨serviceRequest, hi⟩ := hmade.identified
  obtain ⟨keys, jwk, hrefresh, hjwk, hrecord⟩ := hmade.record
  obtain ⟨made, hresult, hok⟩ : ∃ made : ServiceResult IKeyItem,
      (refresh h x.moment (serviceAfter h kv before) keys x.request).result =
        .ok (made, withNewKey h x.moment kv before keys jwk) ∧ made.isFailure = false := by
    obtain ⟨headers, hresult⟩ := refresh_makes hi hmade.count hjwk
    exact ⟨_, hresult, rfl⟩
  have hrespond : (x.respond h (serviceAfter h kv before)).result =
      .ok (made.sent, withNewKey h x.moment kv before keys jwk) := by
    unfold Transaction.respond
    rw [hrefresh]
    dsimp only
    rw [Logged.result_bind, hresult]
    rfl
  have hs : serve h (serviceAfter h kv before) x =
      some (withNewKey h x.moment kv before keys jwk).read :=
    serve_eq_some_iff.mpr ⟨_, _, hrespond, (ServiceResult.isFailure_sent made).trans hok, rfl⟩
  have hkid := hmade.kid
  rw [hrecord] at hkid
  have hlookup : (serviceAfter h kv (before ++ [x])).hpkeKeys.lookup kid =
      some ⟨item, (serviceAfter h kv before).version⟩ := by
    rw [serviceAfter_append, run_cons, commit, hs, hrecord, ← Option.some.inj hkid]
    exact AList.lookup_insert _
  have hkept := (keys_kept h kv (before ++ [x]) after).items kid _ hlookup
  rw [List.append_assoc, List.singleton_append] at hkept
  exact ⟨_, hkept, rfl⟩

/-- The endpoints take the key for expired just when this time is over. -/
def Enforces (h : Host) (kv : Kv) (item : IKeyItem) (expiry : ℚ) : Prop :=
  ∀ t logContext, ∃ deprecated,
    (KeyRotationPolicy.isExpired h.toEngine t kv.keyRotation item logContext).result =
      .ok (decide (expiry < t.now), deprecated)

theorem enforces_iff {item : IKeyItem} {created expiry : ℚ} (hitem : item.timestamp = some created) :
    Enforces h (serviceAfter h kv xs) item expiry ↔
      ∀ now, InTime (acceptedEdits h kv xs .keyRotation) created now ↔ now ≤ expiry := by
  constructor
  · intro he now
    obtain ⟨deprecated, hresult⟩ := he ⟨now, fun _ _ => none⟩ LogContext.new
    constructor
    · intro hin
      obtain ⟨deprecated', hfresh⟩ := fresh_of_inTime (t := ⟨now, fun _ _ => none⟩) hitem hin
      have hnot := congrArg Prod.fst (Except.ok.inj ((hfresh _).symm.trans hresult))
      exact not_lt.mp (of_decide_eq_false hnot.symm)
    · intro hle
      by_contra hlate
      obtain ⟨deprecated', hexpired⟩ := expired_of_late (t := ⟨now, fun _ _ => none⟩) hitem hlate
        LogContext.new
      have hover := congrArg Prod.fst (Except.ok.inj (hexpired.symm.trans hresult))
      exact absurd (of_decide_eq_true hover.symm) (not_lt.mpr hle)
  · intro hall t logContext
    by_cases hle : t.now ≤ expiry
    · obtain ⟨deprecated, hfresh⟩ := fresh_of_inTime hitem ((hall t.now).mpr hle)
      exact ⟨deprecated, by rw [hfresh, decide_eq_false (not_lt.mpr hle)]⟩
    · obtain ⟨deprecated, hexpired⟩ := expired_of_late hitem
        (fun hin => hle ((hall t.now).mp hin)) logContext
      exact ⟨deprecated, by rw [hexpired, decide_eq_true (not_le.mp hle)]⟩

def intervalInForce (edits : List JsValue) : Option ℚ := (rotationInForce edits).map Prod.fst

theorem interval_of_recorded {edits : List JsValue} {created expiry : ℚ}
    (hrecorded : recordedExpiry edits created = some expiry) :
    ∃ R, intervalInForce edits = some R ∧ expiry = created + R * 1000 := by
  unfold recordedExpiry at hrecorded
  obtain ⟨hmap, -⟩ := Option.filter_eq_some_iff.mp hrecorded
  obtain ⟨periods, hperiods, rfl⟩ := Option.map_eq_some_iff.mp hmap
  unfold intervalInForce
  rw [hperiods]
  exact ⟨periods.1, rfl, rfl⟩

theorem inTime_iff_interval {edits : List JsValue} {created R : ℚ} :
    (∀ now, InTime edits created now ↔ now ≤ created + R * 1000) ↔
      intervalInForce edits = some R := by
  unfold InTime intervalInForce
  cases rotationInForce edits with
  | none =>
    constructor
    · intro hall
      have hle := (hall (created + R * 1000 + 1)).mp (by simp)
      linarith
    · rintro ⟨⟩
  | some periods =>
    obtain ⟨R', G⟩ := periods
    simp only [Option.some.injEq, Prod.mk.injEq, Option.map_some]
    constructor
    · intro hall
      have hle := (hall (created + R' * 1000)).mp (by rintro R G ⟨rfl, -⟩; exact le_rfl)
      have hge := (hall (created + R * 1000)).mpr le_rfl R' G ⟨rfl, rfl⟩
      linarith
    · rintro rfl now
      exact ⟨fun hin => hin R' G ⟨rfl, rfl⟩, by rintro hle R G ⟨rfl, -⟩; exact hle⟩

end DepaKms
