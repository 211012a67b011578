import DepaKms.ServiceReleases
import DepaKms.Receipts

set_option autoImplicit false

/-!
# Keys that were handed out

A kid that some endpoint has answered with stands for one key from then on. Whatever is
called afterwards, `unwrapKey` releases that key while it lives, and is never at a loss.
-/
namespace DepaKms

variable {h : Host} {t : Moment} {kv : Kv} {xs : List Transaction} {request : Request}
  {kid : String} {stored : StoredItem}

/-- The endpoint answers the request with this kid. -/
inductive HandsOut (h : Host) (t : Moment) (kv : Kv) (request : Request) (kid : String) : Prop
  | pubkey (shown : IKeyItem) (hr : answered (pubkey h t kv request) = some (.jwk shown))
      (hkid : shown.kid = some kid)
  | key (response : IKeyResponse) (hr : answered (key h t kv request) = some response)
      (hkid : response.wrappedKid = kid)
  | unwrapKeyGcp (response : IKeyResponse)
      (hr : answered (unwrapKeyGcp h t kv request) = some response)
      (hkid : response.wrappedKid = kid)

theorem kid_of_service (h : Host) (kv : Kv) (xs : List Transaction)
    (hlookup : (serviceAfter h kv xs).hpkeKeys.lookup kid = some stored) :
    stored.item.kid = some kid := by
  obtain ⟨x, hmade⟩ := key_made h kv xs hlookup
  exact hmade.makes.kid

theorem stored_of_handsOut (hh : HandsOut h t (serviceAfter h kv xs) request kid) :
    ∃ stored, (serviceAfter h kv xs).hpkeKeys.lookup kid = some stored := by
  cases hh with
  | pubkey shown hr hkid =>
    obtain ⟨kid', stored, receipt, hlookup, -, fmt, ⟨-, hshown⟩ | ⟨-, keySet, -, htink⟩⟩ :=
      pubkey_receipt hr
    · cases hshown
      cases hkid.symm.trans (kid_of_service h kv xs hlookup)
      exact ⟨stored, hlookup⟩
    · cases htink
  | key response hr hkid =>
    obtain ⟨serviceRequest, stored, ha, -⟩ := of_answered (key_ensures request) hr
    exact ⟨stored, hkid ▸ ha.lookup⟩
  | unwrapKeyGcp response hr hkid =>
    obtain ⟨wrappingKey, claim, stored, -, hn⟩ := of_answered (unwrapKeyGcp_ensures request) hr
    exact ⟨stored, hkid ▸ hn.lookup⟩

/-- Later calls leave the keys as they are. -/
theorem keys_kept (h : Host) (kv : Kv) (xs later : List Transaction) :
    KeysKept (serviceAfter h kv xs) (serviceAfter h kv (xs ++ later)) := by
  obtain ⟨l, -, hr, -⟩ := represents_service h kv xs
  obtain ⟨added, -, hlater⟩ := represents_run hr later
  have hlog := hlater.keys
  rw [Ledger.keys_append] at hlog
  rw [serviceAfter_append]
  exact hr.keys.kept hlog

theorem fresh_of_inTime {item : IKeyItem} {created : ℚ} (hitem : item.timestamp = some created)
    (hin : InTime (acceptedEdits h kv xs .keyRotation) created t.now) :
    Fresh h t (serviceAfter h kv xs) item := by
  have hgoverns := rotation_of_service h kv xs
  unfold Governs at hgoverns
  cases hperiods : rotationInForce (acceptedEdits h kv xs .keyRotation) with
  | none =>
    rw [hperiods] at hgoverns
    exact ⟨false, isExpired_ungoverned hgoverns item⟩
  | some periods =>
    obtain ⟨R, G⟩ := periods
    rw [hperiods] at hgoverns
    have hlimit : numGt (some t.now)
        (KeyRotationPolicy.expiryTimes (some created) (some R) (some G)).expiryTimeMs = false :=
      decide_eq_false (not_lt.mpr (hin R G hperiods))
    refine ⟨numGt (some t.now) (KeyRotationPolicy.expiryTimes (some created) (some R)
      (some G)).expiryTimeAndGraceMs, fun logContext => ?_⟩
    rw [Rotates.isExpired hgoverns, hitem, KeyRotationPolicy.classify_eq, hlimit, Bool.false_or]

/-- The rotation policy in force has let the key expire. -/
theorem expired_of_late {item : IKeyItem} {created : ℚ} (hitem : item.timestamp = some created)
    (hlate : ¬ InTime (acceptedEdits h kv xs .keyRotation) created t.now)
    (logContext : LogContext) : ∃ deprecated,
      (KeyRotationPolicy.isExpired h.toEngine t (serviceAfter h kv xs).keyRotation item
        logContext).result = .ok (true, deprecated) := by
  unfold InTime at hlate
  push Not at hlate
  obtain ⟨R, G, hperiods, hlt⟩ := hlate
  have hgoverns := rotation_of_service h kv xs
  rw [hperiods] at hgoverns
  have hlimit : numGt (some t.now)
      (KeyRotationPolicy.expiryTimes (some created) (some R) (some G)).expiryTimeMs = true :=
    decide_eq_true hlt
  rw [Rotates.isExpired hgoverns, hitem, KeyRotationPolicy.classify_eq, hlimit]
  exact ⟨_, rfl⟩

/-- The request passes the checks of `unwrapKey` that come before the key, and asks for this kid
    to be wrapped to this key. -/
structure Presents (h : Host) (t : Moment) (kv : Kv) (request : Request)
    (serviceRequest : ServiceRequest) (kid : String) (wrappingKey : Bytes) : Prop extends
    UnwrapAsked h t kv request serviceRequest kid where
  wrapping : ∃ wrapping headers,
    (requestHasWrappingKey h serviceRequest.bodyValue none).result =
      .ok (.success wrapping headers) ∧ wrapping.wrappingKey = wrappingKey

theorem Presents.result {serviceRequest : ServiceRequest} {wrappingKey : Bytes}
    (hp : Presents h t kv request serviceRequest kid wrappingKey) :
    (unwrapKey h t kv request).result = (unwrapRelease h t kv serviceRequest.logContext
      (.ofString kid) (requestFmt serviceRequest) wrappingKey).result := by
  obtain ⟨wrapping, headers, hwrapping, rfl⟩ := hp.wrapping
  exact hp.toUnwrapAsked.result hwrapping

/-- The refusal of a key that has expired. -/
theorem unwrapRelease_expired {fmt : String} {wrappingKey : Bytes} {deprecated : Bool}
    {logContext : LogContext} (hlookup : kv.hpkeKeys.lookup kid = some stored)
    (hexpired : (KeyRotationPolicy.isExpired h.toEngine t kv.keyRotation stored.item
      logContext).result = .ok (true, deprecated)) :
    ∃ error headers, (unwrapRelease h t kv logContext (.ofString kid) fmt wrappingKey).result =
      .ok (.failure error 410 headers) := by
  have hrender : (JsValue.ofString kid).render h.toEngine = .ok kid := rfl
  unfold unwrapRelease
  simp only [Logged.result_bind, Logged.result_lift, hrender, Logged.ok_bind, Logger.result_debug,
    get_of_lookup hlookup, hexpired, if_true]
  exact ⟨_, _, rfl⟩

/-- The refusal where the key cannot be wrapped. -/
theorem unwrapRelease_unwrappable {fmt : String} {wrappingKey : Bytes} {e : JsError}
    (hlookup : kv.hpkeKeys.lookup kid = some stored) (hfresh : Fresh h t kv stored.item)
    (hfails : (unwrapWrap h fmt wrappingKey stored.item).result = .error e)
    (logContext : LogContext) :
    ∃ error headers, (unwrapRelease h t kv logContext (.ofString kid) fmt wrappingKey).result =
      .ok (.failure error 500 headers) := by
  obtain ⟨deprecated, hexpiry⟩ := hfresh
  have hrender : (JsValue.ofString kid).render h.toEngine = .ok kid := rfl
  unfold unwrapRelease
  simp only [Logged.result_bind, Logged.result_lift, hrender, Logged.ok_bind, Logger.result_debug,
    get_of_lookup hlookup, hexpiry, Bool.false_eq_true, if_false, result_receiptOf hlookup,
    Logged.result_tryCatch, result_unwrapWrap, hfails]
  exact ⟨_, _, rfl⟩

/-- What `unwrapKey` answers to a request for the stored key, wrapped to the other one. The edits
    are those of the rotation policy. -/
structure ServesKey (h : Host) (t : Moment) (kv : Kv) (edits : List JsValue) (request : Request)
    (fmt kid : String) (wrappingKey : Bytes) (created : ℚ) (stored : StoredItem) : Prop where
  wrapped : InTime edits created t.now → ∀ wrapped,
    (unwrapWrap h fmt wrappingKey stored.item).result = .ok wrapped →
    answered (unwrapKey h t kv request) = some ⟨wrapped, (receiptOf t kid stored).getD ""⟩
  unwrappable : InTime edits created t.now → ∀ e,
    (unwrapWrap h fmt wrappingKey stored.item).result = .error e →
    ∃ error headers, (unwrapKey h t kv request).result = .ok (.failure error 500 headers)
  expired : ¬ InTime edits created t.now →
    ∃ error headers, (unwrapKey h t kv request).result = .ok (.failure error 410 headers)

theorem servesKey_of_presents {serviceRequest : ServiceRequest} {wrappingKey : Bytes} {created : ℚ}
    (hlookup : (serviceAfter h kv xs).hpkeKeys.lookup kid = some stored)
    (htime : stored.item.timestamp = some created)
    (hp : Presents h t (serviceAfter h kv xs) request serviceRequest kid wrappingKey) :
    ServesKey h t (serviceAfter h kv xs) (acceptedEdits h kv xs .keyRotation) request
      (requestFmt serviceRequest) kid wrappingKey created stored where
  wrapped hin wrapped hwrapped := by
    obtain ⟨headers, hrelease⟩ := unwrapRelease_complete hlookup (fresh_of_inTime htime hin) hwrapped
      serviceRequest.logContext
    exact answered_iff.mpr ⟨headers, hp.result.trans hrelease⟩
  unwrappable hin e hfails := by
    obtain ⟨error, headers, hrelease⟩ := unwrapRelease_unwrappable hlookup
      (fresh_of_inTime htime hin) hfails serviceRequest.logContext
    exact ⟨error, headers, hp.result.trans hrelease⟩
  expired hlate := by
    obtain ⟨deprecated, hexpired⟩ := expired_of_late htime hlate serviceRequest.logContext
    obtain ⟨error, headers, hrelease⟩ := unwrapRelease_expired hlookup hexpired
    exact ⟨error, headers, hp.result.trans hrelease⟩

/-- A kid that was handed out names one key for good. Whatever is called later, a request for it
    that passes the checks gets this key as long as the rotation policy in force lets it live,
    and is refused with 410 when it does not. -/
theorem handed_out_key_served (h : Host) (kv : Kv) (xs : List Transaction) (t : Moment)
    (request : Request) (kid : String)
    (hh : HandsOut h t (serviceAfter h kv xs) request kid) :
    ∃ maker stored, MadeIn h kv xs maker kid stored ∧
      ∀ later t' request' serviceRequest wrappingKey,
        Presents h t' (serviceAfter h kv (xs ++ later)) request' serviceRequest kid wrappingKey →
        ServesKey h t' (serviceAfter h kv (xs ++ later))
          (acceptedEdits h kv (xs ++ later) .keyRotation) request' (requestFmt serviceRequest) kid
          wrappingKey maker.moment.now stored := by
  obtain ⟨stored, hlookup⟩ := stored_of_handsOut hh
  obtain ⟨maker, hmade⟩ := key_made h kv xs hlookup
  refine ⟨maker, stored, hmade, fun later t' request' serviceRequest wrappingKey hp => ?_⟩
  exact servesKey_of_presents ((keys_kept h kv xs later).items kid stored hlookup)
    hmade.makes.timestamp hp

theorem unwrapRequest_kid {serviceRequest : ServiceRequest}
    (ha : UnwrapAsked h t kv unwrapRequest serviceRequest kid) : kid = sampleKid := by
  obtain ⟨body, hbody, -, hkid⟩ :=
    body_of_get (new_ensures _ unwrapRequest serviceRequest ha.identified.read) ha.kidField
  cases hbody
  have hfield := Except.ok.inj hkid
  unfold JsValue.ofString at hfield
  cases hfield
  rfl

/-- `unwrapKeyGcp` hands out the kid. After another refresh it is presented to `unwrapKey`, which
    answers. -/
theorem sample_handed_out : ∃ maker stored serviceRequest wrappingKey,
    MadeIn governedHost .empty governedCalls maker sampleKid stored ∧
    Presents governedHost (sampleMoment 8000)
      (serviceAfter governedHost .empty (governedCalls ++ laterCalls)) unwrapRequest serviceRequest
      sampleKid wrappingKey ∧
    ServesKey governedHost (sampleMoment 8000)
      (serviceAfter governedHost .empty (governedCalls ++ laterCalls))
      (acceptedEdits governedHost .empty (governedCalls ++ laterCalls) .keyRotation) unwrapRequest
      (requestFmt serviceRequest) sampleKid wrappingKey maker.moment.now stored ∧
    (answered (unwrapKey governedHost (sampleMoment 8000)
      (serviceAfter governedHost .empty (governedCalls ++ laterCalls)) unwrapRequest)).isSome := by
  have hhanded : (answered (unwrapKeyGcp governedHost (sampleMoment 1000)
      (serviceAfter governedHost .empty governedCalls) gcpRequest)).map IKeyResponse.wrappedKid =
      some sampleKid := by
    decide +kernel
  obtain ⟨response, hresponse, hkid⟩ := Option.map_eq_some_iff.mp hhanded
  have hanswered : (answered (unwrapKey governedHost (sampleMoment 8000)
      (serviceAfter governedHost .empty (governedCalls ++ laterCalls)) unwrapRequest)).isSome := by
    decide +kernel
  obtain ⟨answer, hanswer⟩ := Option.isSome_iff_exists.mp hanswered
  obtain ⟨serviceRequest, kid, stored', ha, -⟩ :=
    of_answered (unwrapKey_accepted unwrapRequest) hanswer
  obtain rfl := unwrapRequest_kid ha.toUnwrapAsked
  obtain ⟨wrapping, headers, hwrapping, -⟩ := ha.wraps
  have hpresents : Presents governedHost (sampleMoment 8000)
      (serviceAfter governedHost .empty (governedCalls ++ laterCalls)) unwrapRequest serviceRequest
      sampleKid wrapping.wrappingKey :=
    ⟨ha.toUnwrapAsked, wrapping, headers, hwrapping, rfl⟩
  obtain ⟨maker, stored, hmade, hserved⟩ := handed_out_key_served governedHost .empty governedCalls
    (sampleMoment 1000) gcpRequest sampleKid (.unwrapKeyGcp response hresponse hkid)
  exact ⟨maker, stored, serviceRequest, wrapping.wrappingKey, hmade, hpresents,
    hserved laterCalls (sampleMoment 8000) unwrapRequest serviceRequest wrapping.wrappingKey
      hpresents, hanswered⟩

end DepaKms
