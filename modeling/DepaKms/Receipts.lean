import DepaKms.KeyMaterialAgreement

set_option autoImplicit false

/-!
# Receipts

What a request has to pass at each of the three endpoints that hand out a key with a
receipt, and which of them answer before there is one.
-/
namespace DepaKms

variable {h : Host} {t : Moment} {kv : Kv} {request : Request} {kid : String}

section EndpointAttestation

variable {α : Type} {name : String} {logContext : LogContext} {attestation provider : JsValue}
  {failureHeaders : ℕ → Except JsError Headers} {exceptionHeaders : JsError → Headers}

theorem result_endpointAttestation {claims : JsValue} {headers : Headers}
    (hv : (validateAttestation h kv attestation provider).result = .ok (.success claims headers)) :
    (endpointAttestation h kv name logContext attestation provider failureHeaders
        exceptionHeaders : Handler (Except (ServiceResult α) (ServiceResult JsValue))).result =
      .ok (.ok (.success claims headers)) := by
  unfold endpointAttestation
  rw [Logged.result_tryCatch, Logged.result_bind, hv]
  rfl

end EndpointAttestation

/-- The request passes every check of `key`, which makes this text of the key. -/
structure KeyAccepted (h : Host) (t : Moment) (kv : Kv) (request : Request)
    (serviceRequest : ServiceRequest) (kid : String) (stored : StoredItem) (wrapped : String) :
    Prop extends KeyChecked h t kv request serviceRequest kid stored where
  wraps : (keyWrap h t (requestFmt serviceRequest) stored.item).result = .ok wrapped

theorem keyRelease_ensures (logContext : LogContext) (attestation provider : JsValue)
    (fmt : String) (id : Option ℕ) (kid : String) :
    Logged.Ensures (keyRelease h t kv logContext attestation provider fmt id kid)
      (Answers fun response => ∃ claims headers stored,
        (validateAttestation h kv attestation provider).result = .ok (.success claims headers) ∧
        kv.hpkeKeys.lookup kid = some stored ∧
        (keyWrap h t fmt stored.item).result = .ok response.wrapped ∧ response.wrappedKid = kid ∧
        response.receipt = (receiptOf t kid stored).getD "") := by
  refine .step fun outcome houtcome => ?_
  obtain ⟨hfailed, hpassed⟩ := endpointAttestation_ensures outcome houtcome
  cases outcome with
  | error failed => exact .pure (hfailed _ failed rfl)
  | ok r =>
    obtain ⟨claims, headers, rfl, hvalid⟩ := hpassed r rfl
    refine .skip fun _ => .read fun found hfound => ?_
    cases found with
    | none => exact answers_failed _ _ _ _
    | some item =>
    obtain ⟨name, stored, hname, hlookup, rfl⟩ := lookup_of_get hfound
    cases hname
    refine .step fun receipt hreceipt => .ite (fun _ => answers_accepted _) fun _ => ?_
    rw [result_receiptOf hlookup] at hreceipt
    cases hreceipt
    refine .tryCatch (.step fun wrapped hwrapped => ?_) fun _ => answers_failed _ _ _ _
    exact answers_succeeded ⟨claims, headers, stored, hvalid, hlookup, hwrapped, rfl, rfl⟩ _ _

theorem key_ensures (request : Request) :
    Logged.Ensures (key h t kv request) (Answers fun response => ∃ serviceRequest stored,
      KeyAccepted h t kv request serviceRequest response.wrappedKid stored response.wrapped ∧
        response.receipt = (receiptOf t response.wrappedKid stored).getD "") := by
  refine .step fun serviceRequest hread => .read fun attestation hatt => ?_
  cases attestation with
  | none => exact answers_failed _ _ _ _
  | some attestation =>
  refine .step fun identity hidentity => ?_
  obtain ⟨caller, identity⟩ := identity
  split
  · exact answers_failure _ _ _
  next hnot =>
  have hidentified := identified_of_answer hread hidentity hnot
  refine .read fun provider hprovider => .read fun selection hselection => ?_
  obtain ⟨id, kid⟩ := selection
  cases kid with
  | none => exact answers_failed _ _ _ _
  | some kid =>
  refine .ite (fun hfmt => ?_) fun _ => answers_failed _ _ _ _
  refine (keyRelease_ensures _ attestation provider _ id kid).mono fun r hr response headers he => ?_
  obtain ⟨claims, headers', stored, hvalid, hlookup, hwrapped, rfl, hreceipt⟩ :=
    hr response headers he
  exact ⟨serviceRequest, stored, ⟨⟨hidentified,
    ⟨claims, attestation, provider, headers', hatt, hprovider, hvalid⟩, ⟨id, hselection⟩, hfmt,
    hlookup⟩, hwrapped⟩, hreceipt⟩

theorem keyRelease_complete {claims : JsValue} {headers : Headers} {kid wrapped fmt : String}
    {stored : StoredItem} {attestation provider : JsValue}
    (hvalid : (validateAttestation h kv attestation provider).result =
      .ok (.success claims headers))
    (hlookup : kv.hpkeKeys.lookup kid = some stored)
    (hwrapped : (keyWrap h t fmt stored.item).result = .ok wrapped) (logContext : LogContext)
    (id : Option ℕ) :
    ∃ headers, (keyRelease h t kv logContext attestation provider fmt id kid).result =
      .ok (.success ⟨kid, wrapped, (receiptOf t kid stored).getD ""⟩ headers) := by
  have hstatus : ¬ (ServiceResult.success claims headers).statusCode = 202 := by
    simp [ServiceResult.statusCode]
  unfold keyRelease
  simp only [Logged.result_bind, Logged.result_lift, result_endpointAttestation hvalid,
    Logged.ok_bind, Logger.result_debug, get_of_lookup hlookup, result_receiptOf hlookup,
    if_neg hstatus, Logged.result_tryCatch, hwrapped, ServiceResult.result_succeeded]
  exact ⟨_, rfl⟩

/-- A request that passes the checks of `key` is answered, receipt or not. -/
theorem key_complete {serviceRequest : ServiceRequest} {kid wrapped : String} {stored : StoredItem}
    (ha : KeyAccepted h t kv request serviceRequest kid stored wrapped) :
    answered (key h t kv request) =
      some ⟨kid, wrapped, (receiptOf t kid stored).getD ""⟩ := by
  obtain ⟨claims, attestation, provider, headers, hatt, hprovider, hvalid⟩ := ha.attested
  obtain ⟨caller, identity, hauth, hidentity⟩ := ha.identified.identity
  obtain ⟨id, hselected⟩ := ha.selected
  obtain ⟨headers', hrelease⟩ := keyRelease_complete hvalid ha.lookup ha.wraps
    serviceRequest.logContext id
  have hread : (ServiceRequest.new h t kv (LogContext.new.appendScope "key") request).result =
      .ok serviceRequest := ha.identified.read
  refine answered_iff.mpr ⟨headers', ?_⟩
  rw [← hrelease]
  unfold key
  simp only [Logged.result_bind, hread, Logged.ok_bind, Logged.result_lift, hatt, hauth]
  cases identity with
  | failure error code headers => cases hidentity
  | success body headers =>
    simp only [Logged.result_bind, Logged.result_lift, hprovider, Logged.ok_bind, hselected,
      if_pos ha.fmt]
  | pending headers =>
    simp only [Logged.result_bind, Logged.result_lift, hprovider, Logged.ok_bind, hselected,
      if_pos ha.fmt]

theorem unwrapRelease_complete {kid fmt wrapped : String} {stored : StoredItem}
    {wrappingKey : Bytes} (hlookup : kv.hpkeKeys.lookup kid = some stored)
    (hfresh : Fresh h t kv stored.item)
    (hwrapped : (unwrapWrap h fmt wrappingKey stored.item).result = .ok wrapped)
    (logContext : LogContext) :
    ∃ headers, (unwrapRelease h t kv logContext (.ofString kid) fmt wrappingKey).result =
      .ok (.success ⟨wrapped, (receiptOf t kid stored).getD ""⟩ headers) := by
  obtain ⟨deprecated, hexpiry⟩ := hfresh
  have hrender : (JsValue.ofString kid).render h.toEngine = .ok kid := rfl
  unfold unwrapRelease
  simp only [Logged.result_bind, Logged.result_lift, hrender, Logged.ok_bind, Logger.result_debug,
    get_of_lookup hlookup, hexpiry, Bool.false_eq_true, if_false, result_receiptOf hlookup,
    Logged.result_tryCatch, result_unwrapWrap, hwrapped, ServiceResult.result_succeeded]
  exact ⟨_, rfl⟩

/-- After the checks, what is left to `unwrapKey` is the release of the key. -/
theorem UnwrapAsked.result {serviceRequest : ServiceRequest} {wrapping : WrappingKey}
    {wrappingHeaders : Headers} (ha : UnwrapAsked h t kv request serviceRequest kid)
    (hwrapping : (requestHasWrappingKey h serviceRequest.bodyValue none).result =
      .ok (.success wrapping wrappingHeaders)) :
    (unwrapKey h t kv request).result = (unwrapRelease h t kv serviceRequest.logContext
      (.ofString kid) (requestFmt serviceRequest) wrapping.wrappingKey).result := by
  obtain ⟨wrapping', headers', claims, v, reportData, hwrapping',
    ⟨attestation, provider, headers, hatt, hprovider, hvalid⟩, hv, htext, hstart⟩ := ha.bound
  rw [hwrapping] at hwrapping'
  cases hwrapping'
  obtain ⟨caller, identity, hauth, hidentity⟩ := ha.identified.identity
  have hread : (ServiceRequest.new h t kv (LogContext.new.appendScope "unwrapKey") request).result =
      .ok serviceRequest := ha.identified.read
  have hbinding : (unwrapBinding h t kv serviceRequest.logContext attestation provider
      (.ofString kid) (requestFmt serviceRequest) wrapping.wrappingKey
      (KeyGeneration.calculateHexHash h wrapping.wrappingKey)).result =
      (unwrapRelease h t kv serviceRequest.logContext (.ofString kid) (requestFmt serviceRequest)
        wrapping.wrappingKey).result := by
    unfold unwrapBinding
    simp only [Logged.result_bind, Logged.result_lift, result_endpointAttestation hvalid,
      Logged.ok_bind, ServiceResult.body, required, hv, htext, if_pos hstart]
  rw [← hbinding]
  unfold unwrapKey
  have hkid := ha.kidField
  unfold JsValue.ofString at hkid ⊢
  simp only [Logged.result_bind, hread, Logged.ok_bind, Logged.result_lift, hatt, hauth]
  cases identity with
  | failure error code headers => cases hidentity
  | success body headers =>
    simp only [Logged.result_bind, Logged.result_lift, hkid, Logged.ok_bind, hwrapping,
      ServiceResult.body, required, Logger.result_debug, hprovider, if_pos ha.fmt]
  | pending headers =>
    simp only [Logged.result_bind, Logged.result_lift, hkid, Logged.ok_bind, hwrapping,
      ServiceResult.body, required, Logger.result_debug, hprovider, if_pos ha.fmt]

/-- A request that passes the checks of `unwrapKey` is answered, receipt or not. -/
theorem unwrapKey_complete {serviceRequest : ServiceRequest} {kid wrapped : String}
    {stored : StoredItem}
    (ha : UnwrapAccepted h t kv request serviceRequest kid stored wrapped) :
    answered (unwrapKey h t kv request) =
      some ⟨wrapped, (receiptOf t kid stored).getD ""⟩ := by
  obtain ⟨wrapping, headers, hwrapping, hwrapped⟩ := ha.wraps
  obtain ⟨headers', hrelease⟩ := unwrapRelease_complete ha.lookup ha.fresh hwrapped
    serviceRequest.logContext
  exact answered_iff.mpr ⟨headers', (ha.toUnwrapAsked.result hwrapping).trans hrelease⟩

/-- The request passes every check of `pubkey` that comes before the receipt. -/
structure PubkeyAccepted (h : Host) (t : Moment) (kv : Kv) (request : Request)
    (serviceRequest : ServiceRequest) (kid : String) (stored : StoredItem) : Prop where
  identified : Identified h t kv "pubkey" request serviceRequest
  selected : ∃ id, (pubkeySelection h t kv serviceRequest.query serviceRequest.logContext).result =
    .ok (id, some kid)
  fmt : requestFmt serviceRequest = "jwk" ∨ requestFmt serviceRequest = "tink"
  lookup : kv.hpkeKeys.lookup kid = some stored

theorem pubkey_receipt {response : PublicKeyResponse}
    (hr : answered (pubkey h t kv request) = some response) :
    ∃ kid stored receipt, kv.hpkeKeys.lookup kid = some stored ∧
      receiptOf t kid stored = some receipt ∧ PublicKeyWith h stored.item receipt response := by
  obtain ⟨serviceRequest, kid, stored, receipt, -, hshows⟩ :=
    of_answered (pubkey_ensures request) hr
  have hreceipt := hshows.available
  rw [result_receiptOf hshows.lookup] at hreceipt
  exact ⟨kid, stored, receipt, hshows.lookup, Except.ok.inj hreceipt, hshows.shown⟩

theorem pubkeyAnswer_iff {logContext : LogContext} {fmt receipt : String} {item : IKeyItem}
    {response : PublicKeyResponse} (hfmt : fmt = "jwk" ∨ fmt = "tink") :
    answered (pubkeyAnswer h t logContext fmt item receipt) = some response ↔
      PublicKeyIn h item receipt fmt response := by
  have hjwk : ¬ "jwk" = "tink" := by decide
  have htink : ¬ "tink" = "jwk" := by decide
  unfold pubkeyAnswer answered PublicKeyIn
  simp only [Logged.result_bind, Logger.result_debug, Logged.ok_bind]
  rcases hfmt with rfl | rfl
  · simp only [hjwk, if_false, ServiceResult.result_succeeded, Option.some.injEq, true_and,
      false_and, or_false]
    exact eq_comm
  · simp only [htink, if_true, Logged.result_bind, Logger.result_debug, Logged.ok_bind,
      Logged.result_lift, true_and, false_and, false_or]
    cases tinkKey h { item with receipt := some receipt, d := none } with
    | error e => simp
    | ok keySet => simpa using eq_comm

theorem get_of_missing (hlookup : kv.hpkeKeys.lookup kid = none) :
    KeyStore.get kv (.ofString kid) = .ok none := by
  simp only [KeyStore.get, JsValue.ofString, stringKey, Logged.ok_bind, hlookup]
  rfl

theorem answered_congr {α : Type} {x y : Handler (ServiceResult α)} (hxy : x.result = y.result) :
    answered x = answered y := by
  unfold answered
  rw [hxy]

theorem answered_failure {α : Type} {x : Handler (ServiceResult α)}
    (hx : ∃ error code headers, x.result = .ok (.failure error code headers)) :
    answered x = none := by
  obtain ⟨error, code, headers, hx⟩ := hx
  unfold answered
  rw [hx]

/-- `pubkey` with a kid answers with the key in the format, once there is a receipt. -/
theorem pubkeyBody_iff {serviceRequest : ServiceRequest} {response : PublicKeyResponse} :
    answered (pubkeyBody h t kv serviceRequest (some kid)) = some response ↔
      ∃ stored receipt, kv.hpkeKeys.lookup kid = some stored ∧
        receiptOf t kid stored = some receipt ∧
        PublicKeyIn h stored.item receipt (requestFmt serviceRequest) response := by
  by_cases hfmt : requestFmt serviceRequest = "jwk" ∨ requestFmt serviceRequest = "tink"
  · have hfmt' := hfmt
    unfold requestFmt at hfmt'
    cases hlookup : kv.hpkeKeys.lookup kid with
    | none =>
      rw [answered_failure (by
        unfold pubkeyBody
        simp only [if_pos hfmt', Logged.result_bind, Logger.result_debug, Logged.ok_bind,
          Logged.result_lift, get_of_missing hlookup]
        exact ⟨_, _, _, rfl⟩)]
      simp
    | some stored =>
      cases hreceipt : receiptOf t kid stored with
      | none =>
        have hpending : answered (pubkeyBody h t kv serviceRequest (some kid)) = none := by
          unfold pubkeyBody answered
          simp only [if_pos hfmt', Logged.result_bind, Logger.result_debug, Logged.ok_bind,
            Logged.result_lift, get_of_lookup hlookup, result_receiptOf hlookup, hreceipt,
            ServiceResult.result_accepted]
        rw [hpending]
        simp [hreceipt]
      | some receipt =>
        have hanswer : (pubkeyBody h t kv serviceRequest (some kid)).result =
            (pubkeyAnswer h t serviceRequest.logContext (requestFmt serviceRequest) stored.item
              receipt).result := by
          unfold pubkeyBody
          simp only [if_pos hfmt', Logged.result_bind, Logger.result_debug, Logged.ok_bind,
            Logged.result_lift, get_of_lookup hlookup, result_receiptOf hlookup, hreceipt]
          rfl
        rw [answered_congr hanswer, pubkeyAnswer_iff hfmt]
        simp [hreceipt]
  · have hfmt' := hfmt
    unfold requestFmt at hfmt'
    rw [answered_failure (by
      unfold pubkeyBody
      simp only [if_neg hfmt']
      exact ⟨_, _, _, rfl⟩)]
    constructor
    · rintro ⟨⟩
    · rintro ⟨stored, receipt, -, -, hp⟩
      exact absurd hp.fmt hfmt

theorem pubkeyServe_selected {serviceRequest : ServiceRequest} {id : Option ℕ}
    {kid : Option String} {response : PublicKeyResponse}
    (hselected : (pubkeySelection h t kv serviceRequest.query serviceRequest.logContext).result =
      .ok (id, kid)) :
    answered (pubkeyServe h t kv serviceRequest) = some response ↔
      answered (pubkeyBody h t kv serviceRequest kid) = some response := by
  unfold answered pubkeyServe
  simp only [Logged.result_bind, Logged.result_tryCatch, hselected, Logged.ok_bind,
    Logged.result_pure]
  cases (pubkeyBody h t kv serviceRequest kid).result with
  | error e => constructor <;> rintro ⟨⟩
  | ok r => rfl

/-- An endpoint that asks for an authenticated caller first answers what it serves to one. -/
theorem answered_identified {α : Type} {name : String}
    {serve : ServiceRequest → Handler (ServiceResult α)} {response : α} :
    answered (do
      let serviceRequest ← ServiceRequest.new h t kv (LogContext.new.appendScope name) request
      match ← serviceRequest.isAuthenticated h kv with
      | (_, .failure error code headers) => pure (.failure error code headers)
      | _ => serve serviceRequest) = some response ↔
      ∃ serviceRequest, Identified h t kv name request serviceRequest ∧
        answered (serve serviceRequest) = some response := by
  constructor
  · refine fun hr => of_answered (P := fun response => ∃ serviceRequest,
      Identified h t kv name request serviceRequest ∧
        answered (serve serviceRequest) = some response) ?_ hr
    refine .step fun serviceRequest hread => .step fun p hidentity => ?_
    obtain ⟨caller, identity⟩ := p
    split
    · exact answers_failure _ _ _
    next hnot =>
      intro r hr response headers hb
      exact ⟨serviceRequest, identified_of_answer hread hidentity hnot,
        answered_iff.mpr ⟨headers, hb ▸ hr⟩⟩
  · rintro ⟨serviceRequest, hi, hanswered⟩
    obtain ⟨caller, identity, hidentity, hok⟩ := hi.identity
    have hread : (ServiceRequest.new h t kv (LogContext.new.appendScope name) request).result =
        .ok serviceRequest := hi.read
    rw [← hanswered]
    refine answered_congr ?_
    simp only [Logged.result_bind, hread, Logged.ok_bind, hidentity]
    cases identity with
    | failure error code headers => cases hok
    | success _ _ | pending _ => rfl

theorem pubkey_iff {response : PublicKeyResponse} :
    answered (pubkey h t kv request) = some response ↔
      ∃ serviceRequest, Identified h t kv "pubkey" request serviceRequest ∧
        answered (pubkeyServe h t kv serviceRequest) = some response :=
  answered_identified

theorem pubkeyServe_pending {serviceRequest : ServiceRequest} {kid : String} {stored : StoredItem}
    (ha : PubkeyAccepted h t kv request serviceRequest kid stored)
    (hnone : receiptOf t kid stored = none) :
    ∃ headers, (pubkeyServe h t kv serviceRequest).result = .ok (.pending headers) := by
  obtain ⟨id, hselected⟩ := ha.selected
  have hfmt := ha.fmt
  unfold requestFmt at hfmt
  unfold pubkeyServe pubkeyBody
  simp only [Logged.result_bind, Logged.result_tryCatch, hselected, Logged.ok_bind,
    Logged.result_pure, if_pos hfmt, Logger.result_debug, Logged.result_lift,
    get_of_lookup ha.lookup, result_receiptOf ha.lookup, hnone, ServiceResult.result_accepted]
  exact ⟨_, rfl⟩

/-- Without a receipt `pubkey` answers 202. -/
theorem pubkey_pending {serviceRequest : ServiceRequest} {kid : String} {stored : StoredItem}
    (ha : PubkeyAccepted h t kv request serviceRequest kid stored)
    (hnone : receiptOf t kid stored = none) :
    ∃ headers, (pubkey h t kv request).result = .ok (.pending headers) := by
  obtain ⟨caller, identity, hauth, hidentity⟩ := ha.identified.identity
  obtain ⟨headers', hserve⟩ := pubkeyServe_pending ha hnone
  have hread : (ServiceRequest.new h t kv (LogContext.new.appendScope "pubkey") request).result =
      .ok serviceRequest := ha.identified.read
  refine ⟨headers', ?_⟩
  rw [← hserve]
  unfold pubkey
  simp only [Logged.result_bind, hread, Logged.ok_bind, hauth]
  cases identity with
  | failure error code headers => cases hidentity
  | success body headers => rfl
  | pending headers => rfl

/-- The receipt, not empty, of the transaction in which a refresh wrote the key. -/
def ReceiptOfRefresh (h : Host) (t : Moment) (kv : Kv) (events : List Event) (kid receipt : String) :
    Prop :=
  receipt ≠ "" ∧ ∃ before e after stored, events = before ++ e :: after ∧
    MadeBy h kv before e kid stored ∧
    t.getStateRange (KeyStore.calcVersion kid) (run (keyStep h) kv before).version = some receipt

theorem receiptOfRefresh {events : List Event} {kid receipt : String} {stored : StoredItem}
    (hlookup : (run (keyStep h) kv.withoutKeys events).hpkeKeys.lookup kid = some stored)
    (hreceipt : receiptOf t kid stored = some receipt) (hne : receipt ≠ "") :
    ReceiptOfRefresh h t kv.withoutKeys events kid receipt := by
  obtain ⟨before, e, after, hevents, hmade⟩ := originates_of_lookup h kv events kid stored hlookup
  refine ⟨hne, before, e, after, stored, hevents, hmade, ?_⟩
  rw [← hmade.version]
  exact hreceipt

/-- After the run, a 200 response to the request carries the receipt of its key, and a request
    that passes all checks is told to wait as long as there is none. -/
structure KeysComeWithReceipt (h : Host) (t : Moment) (kv : Kv) (events : List Event)
    (request : Request) : Prop where
  key : ∀ response, answered (key h t (run (keyStep h) kv events) request) = some response →
    ReceiptOfRefresh h t kv events response.wrappedKid response.receipt
  unwrapKey : ∀ response,
    answered (unwrapKey h t (run (keyStep h) kv events) request) = some response →
    ∃ body kid, request.bodyJson = .ok body ∧ body.get "wrappedKid" = .ok (.ofString kid) ∧
      ReceiptOfRefresh h t kv events kid response.receipt
  pubkey : ∀ response, answered (pubkey h t (run (keyStep h) kv events) request) = some response →
    ∃ kid stored receipt, (run (keyStep h) kv events).hpkeKeys.lookup kid = some stored ∧
      PublicKeyWith h stored.item receipt response ∧ ReceiptOfRefresh h t kv events kid receipt
  keyWaits : ∀ serviceRequest kid stored wrapped,
    KeyAccepted h t (run (keyStep h) kv events) request serviceRequest kid stored wrapped →
    receiptOf t kid stored = none → ∃ headers,
      (DepaKms.key h t (run (keyStep h) kv events) request).result = .ok (.pending headers)
  unwrapKeyWaits : ∀ serviceRequest kid stored wrapped,
    UnwrapAccepted h t (run (keyStep h) kv events) request serviceRequest kid stored wrapped →
    receiptOf t kid stored = none → ∃ headers,
      (DepaKms.unwrapKey h t (run (keyStep h) kv events) request).result = .ok (.pending headers)
  pubkeyWaits : ∀ serviceRequest kid stored,
    PubkeyAccepted h t (run (keyStep h) kv events) request serviceRequest kid stored →
    receiptOf t kid stored = none → ∃ headers,
      (DepaKms.pubkey h t (run (keyStep h) kv events) request).result = .ok (.pending headers)

/-- Where the request passes the checks of `key` or of `unwrapKey`, the receipt is available. -/
structure ReceiptsInTime (h : Host) (t : Moment) (kv : Kv) (request : Request) : Prop where
  key : ∀ serviceRequest kid stored wrapped,
    KeyAccepted h t kv request serviceRequest kid stored wrapped →
    (receiptOf t kid stored).isSome = true
  unwrapKey : ∀ serviceRequest kid stored wrapped,
    UnwrapAccepted h t kv request serviceRequest kid stored wrapped →
    (receiptOf t kid stored).isSome = true

theorem receipt_of_available {kid : String} {stored : StoredItem}
    (hjson : ∀ handle version, t.getStateRange handle version ≠ some "")
    (havailable : (receiptOf t kid stored).isSome = true) :
    receiptOf t kid stored = some ((receiptOf t kid stored).getD "") ∧
      (receiptOf t kid stored).getD "" ≠ "" := by
  obtain ⟨receipt, hreceipt⟩ := Option.isSome_iff_exists.mp havailable
  rw [hreceipt]
  refine ⟨rfl, fun hempty => ?_⟩
  have hempty : receipt = "" := hempty
  rw [hempty] at hreceipt
  exact hjson _ _ hreceipt

theorem available_of_nonempty {kid : String} {stored : StoredItem}
    (hne : (receiptOf t kid stored).getD "" ≠ "") : (receiptOf t kid stored).isSome = true := by
  cases hr : receiptOf t kid stored with
  | none =>
    rw [hr] at hne
    exact absurd rfl hne
  | some receipt => rfl

theorem receiptsInTime_of_comeWithReceipt {events : List Event}
    (hc : KeysComeWithReceipt h t kv.withoutKeys events request) :
    ReceiptsInTime h t (run (keyStep h) kv.withoutKeys events) request where
  key serviceRequest kid stored wrapped ha := by
    obtain ⟨hne, -⟩ := hc.key _ (key_complete ha)
    exact available_of_nonempty hne
  unwrapKey serviceRequest kid stored wrapped ha := by
    obtain ⟨body, kid', -, -, hne, -⟩ := hc.unwrapKey _ (unwrapKey_complete ha)
    exact available_of_nonempty hne

theorem comeWithReceipt_of_receiptsInTime {events : List Event}
    (hjson : ∀ handle version, t.getStateRange handle version ≠ some "")
    (hr : ReceiptsInTime h t (run (keyStep h) kv.withoutKeys events) request) :
    KeysComeWithReceipt h t kv.withoutKeys events request where
  key response hresponse := by
    obtain ⟨serviceRequest, stored, ha, hreceipt⟩ := of_answered (key_ensures request) hresponse
    obtain ⟨hsome, hne⟩ := receipt_of_available hjson (hr.key _ _ _ _ ha)
    rw [hreceipt]
    exact receiptOfRefresh ha.lookup hsome hne
  unwrapKey response hresponse := by
    obtain ⟨serviceRequest, kid, stored, ha, hreceipt⟩ :=
      of_answered (unwrapKey_accepted request) hresponse
    obtain ⟨hsome, hne⟩ := receipt_of_available hjson (hr.unwrapKey _ _ _ _ ha)
    obtain ⟨body, hbody, -, hkid⟩ :=
      body_of_get (new_ensures _ request serviceRequest ha.identified.read) ha.kidField
    rw [hreceipt]
    exact ⟨body, kid, hbody, hkid, receiptOfRefresh ha.lookup hsome hne⟩
  pubkey response hresponse := by
    obtain ⟨kid, stored, receipt, hlookup, hreceipt, hpublic⟩ := pubkey_receipt hresponse
    have hne : receipt ≠ "" := by
      rintro rfl
      exact hjson _ _ hreceipt
    exact ⟨kid, stored, receipt, hlookup, hpublic, receiptOfRefresh hlookup hreceipt hne⟩
  keyWaits serviceRequest kid stored wrapped ha hnone := by
    have havailable := hr.key _ _ _ _ ha
    rw [hnone] at havailable
    cases havailable
  unwrapKeyWaits serviceRequest kid stored wrapped ha hnone := by
    have havailable := hr.unwrapKey _ _ _ _ ha
    rw [hnone] at havailable
    cases havailable
  pubkeyWaits serviceRequest kid stored ha hnone := pubkey_pending ha hnone

/-- `pubkey` waits for the receipt; `key` and `unwrapKey` do not, so that their responses carry
    one just when it is there in time. A serialised receipt is never empty. -/
theorem keys_come_with_receipt_iff (h : Host) (t : Moment) (kv : Kv) (events : List Event)
    (request : Request) (hjson : ∀ handle version, t.getStateRange handle version ≠ some "") :
    KeysComeWithReceipt h t kv.withoutKeys events request ↔
      ReceiptsInTime h t (run (keyStep h) kv.withoutKeys events) request :=
  ⟨receiptsInTime_of_comeWithReceipt, comeWithReceipt_of_receiptsInTime hjson⟩

theorem sample_keys_come_with_receipt :
    KeysComeWithReceipt sampleHost (sampleMoment 0) samplePolicies.withoutKeys [refreshAt 0]
      unwrapRequest := by
  have hjson : ∀ handle version, (sampleMoment 0).getStateRange handle version ≠ some "" := by
    intro handle version
    simp [sampleMoment]
  exact (keys_come_with_receipt_iff sampleHost (sampleMoment 0) samplePolicies [refreshAt 0]
    unwrapRequest hjson).mpr ⟨fun _ _ _ _ _ => rfl, fun _ _ _ _ _ => rfl⟩

/-- Before the receipt exists both private endpoints answer 200, with an empty one. -/
theorem key_released_without_receipt :
    (answered (key sampleHost ⟨0, fun _ _ => none⟩ sampleKv unwrapRequest)).map
        (fun response => (response.wrappedKid, response.receipt)) = some (sampleKid, "") ∧
      (answered (unwrapKey sampleHost ⟨0, fun _ _ => none⟩ sampleKv unwrapRequest)).map
        (fun response => response.receipt) = some "" ∧
      ¬ KeysComeWithReceipt sampleHost ⟨0, fun _ _ => none⟩ samplePolicies [refreshAt 0]
        unwrapRequest := by
  have hkey : (answered (key sampleHost ⟨0, fun _ _ => none⟩ sampleKv unwrapRequest)).map
      (fun response => (response.wrappedKid, response.receipt)) = some (sampleKid, "") := by
    decide +kernel
  have hunwrap : (answered (unwrapKey sampleHost ⟨0, fun _ _ => none⟩ sampleKv unwrapRequest)).map
      (fun response => response.receipt) = some "" := by
    decide +kernel
  refine ⟨hkey, hunwrap, fun hc => ?_⟩
  obtain ⟨response, hresponse, hempty⟩ := Option.map_eq_some_iff.mp hunwrap
  obtain ⟨body, kid, -, -, hne, -⟩ := hc.unwrapKey response hresponse
  exact hne hempty

end DepaKms
