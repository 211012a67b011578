import DepaKms.JsonTexts
import DepaKms.LogLevels
import DepaKms.PemForms
import DepaKms.PrivateParts
import DepaKms.Receipts

set_option autoImplicit false

/-!
# Logs and private keys

Two stores that differ in private keys only are served side by side, now with the lines
that are written. One line gives a private key away: the payload that `key` and `unwrapKey`
write at the debug level before they wrap it.
-/
namespace DepaKms

/-- The fields of an item that stand after the private part. -/
def IKeyItem.laterFields (item : IKeyItem) : List (String × Json) :=
  (item.kid.toList.map fun kid => ("kid", .str kid)) ++
    ([("kty", .str item.kty), ("x", .str item.x)] ++
    ((item.timestamp.toList.map fun t => ("timestamp", .num t)) ++
    ((item.expiry.toList.map fun t => ("expiry", .num t)) ++
    ((item.id.toList.map fun n => ("id", .num n)) ++
    (item.receipt.toList.map fun r => ("receipt", .str r))))))

theorem toJson_of_private {item : IKeyItem} {d : String} (hd : item.d = some d) :
    item.toJson = .obj (("crv", .str item.crv) :: ("d", .str d) :: item.laterFields) := by
  simp only [IKeyItem.toJson, IKeyItem.laterFields, hd, Option.toList_some, List.map_cons,
    List.map_nil, List.append_assoc, List.cons_append, List.nil_append]

theorem laterFields_keys (item : IKeyItem) :
    ∀ f ∈ ("crv", .str item.crv) :: item.laterFields, isArrayIndex f.1 = false := by
  simp only [IKeyItem.laterFields, List.forall_mem_cons, List.forall_mem_append, List.forall_mem_map]
  refine ⟨by decide, fun _ _ => by decide, ⟨by decide, by decide, by simp⟩, fun _ _ => by decide,
    fun _ _ => by decide, fun _ _ => by decide, fun _ _ => by decide⟩

variable {h : Host} {item item' : IKeyItem}

/-- The line shows the private part. -/
theorem privatePart_of_payloadLine (hi : SamePublic h item item')
    (he : payloadLine h.toEngine item = payloadLine h.toEngine item') : item.d = item'.d := by
  have hprivate := hi.privatePart
  generalize hd : item.d = d, hd' : item'.d = d' at hprivate ⊢
  cases hprivate with
  | none => rfl
  | @some d d' _ =>
    have hcrv : item.crv = item'.crv := (IKeyItem.mk.inj hi.rest).1
    have hlater : item.laterFields = item'.laterFields := by
      have hsame := congrArg IKeyItem.laterFields hi.rest
      exact hsame
    have htext := (LogEvent.line.inj he).2
    rw [toJson_of_private hd, toJson_of_private hd', hcrv, hlater] at htext
    simp only [String.append_right_inj, toString] at htext
    have hquoted := pretty_field_inj (by decide) (laterFields_keys item') htext
    simp only [Json.pretty] at hquoted
    rw [quote_injective hquoted]

section Release

variable {t : Moment} {kv kv' : Kv} {P : LogEvent → LogEvent → Prop}

theorem SamePublic.withReceipt (hi : SamePublic h item item') (receipt : Option String) :
    SamePublic h { item with receipt } { item' with receipt } :=
  ⟨hi.public_eq receipt, hi.privatePart⟩

theorem SamePublic.eq_of_private (hi : SamePublic h item item') (hd : item.d = item'.d) :
    item = item' := by
  have hsame := congrArg (fun i : IKeyItem => { i with d := item.d }) hi.rest
  calc item = { item with d := item.d } := rfl
    _ = { item' with d := item.d } := hsame
    _ = item' := by rw [hd]

theorem isExpired_eq (hs : SameStore h kv kv') (hi : SamePublic h item item')
    (logContext : LogContext) :
    KeyRotationPolicy.isExpired h.toEngine t kv.keyRotation item logContext =
      KeyRotationPolicy.isExpired h.toEngine t kv'.keyRotation item' logContext := by
  have hrotation : kv.keyRotation = kv'.keyRotation := by rw [hs.rest]
  unfold KeyRotationPolicy.isExpired
  rw [hrotation, hi.timestamp_eq]

theorem lockstep_unwrapWrap (hlen : LengthByFields h) (hw : ∀ key, WrapsBlindly h (some key))
    (fmt : String) (key : Bytes) (hi : SamePublic h item item') (hP : fmt ≠ "tink" →
      Logged.SameBut P (payloadLine h.toEngine item) (payloadLine h.toEngine item')) :
    Logged.Lockstep P Eq (unwrapWrap h fmt key item) (unwrapWrap h fmt key item') := by
  unfold unwrapWrap
  refine .ite (fun _ => ?_) fun hfmt => lockstep_wrapKeyJwt (hw key) hi (hP hfmt)
  exact .step fun _ _ => lockstep_wrappedTink hlen (hw key) hi

/-- What `unwrapKey` writes of the two items when it wraps them. -/
def SamePayload (h : Host) (P : LogEvent → LogEvent → Prop) (stored stored' : StoredItem) : Prop :=
  ∀ receipt, Logged.SameBut P (payloadLine h.toEngine { stored.item with receipt })
    (payloadLine h.toEngine { stored'.item with receipt })

theorem lockstep_unwrapRelease (hlen : LengthByFields h) (hs : SameStore h kv kv')
    (hw : ∀ key, WrapsBlindly h (some key)) (logContext : LogContext) (wrappedKid : JsValue)
    (fmt : String) (key : Bytes)
    (hP : fmt ≠ "tink" → ∀ kid stored stored', wrappedKid = .ofString kid →
      kv.hpkeKeys.lookup kid = some stored → Fresh h t kv stored.item →
      kv'.hpkeKeys.lookup kid = some stored' → SamePayload h P stored stored') :
    Logged.Lockstep P Eq (unwrapRelease h t kv logContext wrappedKid fmt key)
      (unwrapRelease h t kv' logContext wrappedKid fmt key) := by
  unfold unwrapRelease
  refine .step fun kidText _ => .step fun _ _ => .bind (.lift (agree_get hs _))
    fun found found' hfound => ?_
  have hitems := hfound.items
  cases hitems with
  | none => exact .refl _
  | some hi =>
    obtain ⟨kid, stored, stored', hkid, hlookup, hlookup', rfl, rfl⟩ := hfound.lookups
    dsimp only
    rw [← isExpired_eq hs hi]
    refine .step fun expiry hexpiry => ?_
    obtain ⟨expired, deprecated⟩ := expiry
    refine .ite (fun _ => .refl _) fun hnot => ?_
    have hfresh : Fresh h t kv stored.item := fresh_of_isExpired hexpiry hnot
    rw [← receipt_eq hs]
    refine .step fun receipt _ => .step fun _ _ => .tryCatch (.bind (lockstep_unwrapWrap hlen hw fmt
      key (hi.withReceipt _) fun hfmt => hP hfmt kid stored stored' hkid hlookup hfresh hlookup' _)
      fun w w' hww => ?_) fun _ => .refl _
    rw [hww]
    exact .refl _

theorem lockstep_unwrapBinding (hlen : LengthByFields h) (hs : SameStore h kv kv')
    (hw : ∀ key, WrapsBlindly h (some key)) (logContext : LogContext)
    (attestation provider wrappedKid : JsValue) (fmt : String) (key : Bytes) (hash : String)
    (hP : fmt ≠ "tink" → ∀ claims headers v reportData kid stored stored',
      (validateAttestation h kv attestation provider).result = .ok (.success claims headers) →
      claims.get "x-ms-sevsnpvm-reportdata" = .ok v → reportDataText v = .ok reportData →
      startsWith reportData hash = true → wrappedKid = .ofString kid →
      kv.hpkeKeys.lookup kid = some stored → Fresh h t kv stored.item →
      kv'.hpkeKeys.lookup kid = some stored' → SamePayload h P stored stored') :
    Logged.Lockstep P Eq
      (unwrapBinding h t kv logContext attestation provider wrappedKid fmt key hash)
      (unwrapBinding h t kv' logContext attestation provider wrappedKid fmt key hash) := by
  unfold unwrapBinding
  rw [← endpointAttestation_eq hs]
  refine .step fun outcome houtcome => ?_
  obtain ⟨-, hpassed⟩ := endpointAttestation_ensures outcome houtcome
  cases outcome with
  | error failed => exact .refl _
  | ok r =>
    obtain ⟨claims, headers, rfl, hvalid⟩ := hpassed r rfl
    refine .step fun found hfound => .step fun v hv => .step fun reportData htext => ?_
    cases hfound
    refine .ite (fun hstart => lockstep_unwrapRelease hlen hs hw _ _ _ _ fun hfmt => ?_)
      fun _ => .refl _
    exact fun kid stored stored' => hP hfmt claims headers v reportData kid stored stored' hvalid hv
      htext hstart

theorem lockstep_unwrapKey (hlen : LengthByFields h) (hs : SameStore h kv kv')
    (hw : ∀ key, WrapsBlindly h (some key)) (request : Request)
    (hP : ∀ serviceRequest kid stored stored',
      UnwrapChecked h t kv request serviceRequest kid stored →
      requestFmt serviceRequest = "jwk" → kv'.hpkeKeys.lookup kid = some stored' →
      SamePayload h P stored stored') :
    Logged.Lockstep P Eq (unwrapKey h t kv request) (unwrapKey h t kv' request) := by
  unfold unwrapKey
  rw [← new_eq hs]
  refine .step fun serviceRequest hread => .step fun attestation hatt => ?_
  cases attestation with
  | none => exact .refl _
  | some attestation =>
  dsimp only
  rw [← isAuthenticated_eq hs]
  refine .step fun identity hidentity => ?_
  obtain ⟨caller, identity⟩ := identity
  split
  · exact .refl _
  next hnot =>
  have hidentified := identified_of_answer hread hidentity hnot
  refine .step fun wrappedKid hkid => ?_
  split
  · exact .refl _
  refine .step fun wrapping hwrapping => ?_
  split
  · exact .refl _
  refine .step fun found hfound => .step fun _ _ => .step fun provider hprovider =>
    .ite (fun hfmt => ?_) fun _ => .refl _
  refine lockstep_unwrapBinding hlen hs hw _ _ _ _ _ _ _ fun hjwk claims headers v reportData kid
    stored stored' hvalid hv htext hstart hname hlookup hfresh hlookup' => ?_
  subst hname
  cases wrapping with
  | failure error code headers => cases hfound
  | pending headers => cases hfound
  | success body headers' =>
    cases hfound
    have hasked : UnwrapAsked h t kv request serviceRequest kid :=
      ⟨hidentified, hkid, ⟨found, headers', claims, v, reportData, hwrapping,
        ⟨attestation, provider, headers, hatt, hprovider, hvalid⟩, hv, htext, hstart⟩, hfmt⟩
    exact hP serviceRequest kid stored stored' ⟨hasked, hlookup, hfresh⟩ (hfmt.resolve_right hjwk)
      hlookup'

/-- The platform with a `wrapKey` that raises an error where it would return a value. -/
def Host.cutOff (h : Host) (e : JsError) : Host := h.wrappingBy fun _ _ => .error e

theorem lockstep_unwrapKeyGcp (hs : SameStore h kv kv') {e : JsError}
    (hcut : ∀ payload key, h.wrapKey payload key = .error e) (request : Request) :
    Logged.Lockstep P Eq (unwrapKeyGcp h t kv request) (unwrapKeyGcp h t kv' request) := by
  have hrelease (logContext : LogContext) (key : Bytes) :
      Logged.Lockstep P Eq (gcpRelease h t kv logContext key)
        (gcpRelease h t kv' logContext key) := by
    unfold gcpRelease
    rw [← latestItem_eq hs]
    refine .step fun latest _ => ?_
    obtain ⟨id, kid⟩ := latest
    cases kid with
    | none => exact .refl _
    | some kid =>
    refine .bind (.lift (agree_get hs _)) fun found found' hfound => ?_
    cases hfound.items with
    | none => exact .refl _
    | some hi =>
      dsimp only
      rw [← receipt_eq hs]
      refine .step fun receipt _ => .tryCatch (.bind (R := fun _ _ => False) (.lift
        (.error e (hcut _ _) (hcut _ _))) fun _ _ hnever => hnever.elim) fun _ => .refl _
  unfold unwrapKeyGcp
  rw [← new_eq hs]
  refine .step fun serviceRequest _ => ?_
  rw [← isAuthenticated_eq hs]
  refine .step fun identity _ => ?_
  split
  · exact .refl _
  refine .step fun wrappingKey _ => .ite (fun _ => ?_) fun _ => .refl _
  refine .step fun isPem _ => .ite (fun _ => ?_) fun _ => .refl _
  refine .step fun claim _ => .ite (fun _ => ?_) fun _ => .refl _
  unfold gcpBinding
  refine .step fun text _ => .step fun expected _ => .step fun _ _ => .ite (fun _ => ?_)
    fun _ => .refl _
  exact .step fun _ _ => hrelease _ _

/-- The level that is in force after these events. -/
def LevelIs (level level' : LogLevel) (es : List LogEvent) : Prop :=
  Logger.levelAfter level es = level'

variable {α β : Type} {level level' : LogLevel} {w w' : LogEvent}

theorem splits_after {x : Handler α} {a : α} {f g : α → Handler β} (ha : x.result = .ok a)
    (hfg : Logged.Splits (f a) (g a) (LevelIs (Logger.levelAfter level x.events) level') w w') :
    Logged.Splits (x >>= f) (x >>= g) (LevelIs level level') w w' := by
  refine .step ha (hfg.mono fun before hbefore => ?_)
  unfold LevelIs at hbefore ⊢
  rw [Logger.levelAfter_append, hbefore]

theorem splits_quiet {x : Handler α} {a : α} {f g : α → Handler β} (hx : Quiet x)
    (ha : x.result = .ok a) (hfg : Logged.Splits (f a) (g a) (LevelIs level level') w w') :
    Logged.Splits (x >>= f) (x >>= g) (LevelIs level level') w w' := by
  refine splits_after ha ?_
  rw [levelAfter_quiet hx]
  exact hfg

theorem splits_wrapKeyJwt {wrappingKey : Option Bytes} (hw : WrapsBlindly h wrappingKey)
    (hi : SamePublic h item item') :
    Logged.Splits (KeyWrapper.wrapKeyJwt h wrappingKey item)
      (KeyWrapper.wrapKeyJwt h wrappingKey item') (LevelIs level level)
      (payloadLine h.toEngine item) (payloadLine h.toEngine item') := by
  have hlevel : LevelIs level level [] := rfl
  unfold KeyWrapper.wrapKeyJwt KeyWrapper.getEncryptedKeyMaterial
  rw [debug_payload, debug_payload]
  dsimp only
  rw [hi.receipt_eq]
  cases wrappingKey with
  | some key =>
    dsimp only
    rw [hw key rfl (strToBuf (KeyWrapper.payloadText h item))
      (strToBuf (KeyWrapper.payloadText h item'))]
    exact .bind (.bind (.emit hlevel) _) _
  | none =>
    dsimp only
    exact .bind (.bind (.emit hlevel) _) _

theorem samePublic_of_lookup {kid : String} {stored stored' : StoredItem} (hs : SameStore h kv kv')
    (hlookup : kv.hpkeKeys.lookup kid = some stored)
    (hlookup' : kv'.hpkeKeys.lookup kid = some stored') : SamePublic h stored.item stored'.item := by
  have hentry := hs.entry kid
  rw [hlookup, hlookup'] at hentry
  cases hentry with
  | some he => exact he.item

theorem splits_keyRelease {claims : JsValue} {headers : Headers} {kid fmt : String}
    {stored stored' : StoredItem} {attestation provider : JsValue} (hs : SameStore h kv kv')
    (hvalid : (validateAttestation h kv attestation provider).result =
      .ok (.success claims headers)) (hfmt : fmt = "jwk")
    (hlookup : kv.hpkeKeys.lookup kid = some stored)
    (hlookup' : kv'.hpkeKeys.lookup kid = some stored') (logContext : LogContext)
    (id : Option ℕ) :
    Logged.Splits (keyRelease h t kv logContext attestation provider fmt id kid)
      (keyRelease h t kv' logContext attestation provider fmt id kid) (LevelIs level level)
      (payloadLine h.toEngine stored.item) (payloadLine h.toEngine stored'.item) := by
  have hstatus : ¬ (ServiceResult.success claims headers).statusCode = 202 := by
    simp [ServiceResult.statusCode]
  have hjwk : ¬ fmt = "tink" := by
    rw [hfmt]
    decide
  unfold keyRelease
  rw [← endpointAttestation_eq hs]
  refine splits_quiet (quiet_endpointAttestation _ _ _ _ _ _) (result_endpointAttestation hvalid) ?_
  refine splits_quiet quiet_log rfl (.read (get_of_lookup hlookup) (get_of_lookup hlookup') ?_)
  dsimp only
  rw [← receipt_eq hs]
  refine splits_quiet (quiet_receipt _) (result_receiptOf hlookup) ?_
  rw [if_neg hstatus, if_neg hstatus]
  refine .tryCatch (.bind ?_ _) _
  unfold keyWrap
  rw [if_neg hjwk, if_neg hjwk]
  exact splits_wrapKeyJwt (wrapsBlindly_none h) (samePublic_of_lookup hs hlookup hlookup')

theorem splits_key {serviceRequest : ServiceRequest} {kid : String} {stored stored' : StoredItem}
    {request : Request} (hs : SameStore h kv kv')
    (hc : KeyChecked h t kv request serviceRequest kid stored)
    (hfmt : requestFmt serviceRequest = "jwk")
    (hlookup' : kv'.hpkeKeys.lookup kid = some stored') :
    Logged.Splits (key h t kv request) (key h t kv' request)
      (LevelIs level (Logger.levelAfter level
        (ServiceRequest.new h t kv (LogContext.new.appendScope "key") request).events))
      (payloadLine h.toEngine stored.item) (payloadLine h.toEngine stored'.item) := by
  obtain ⟨claims, attestation, provider, headers, hatt, hprovider, hvalid⟩ := hc.attested
  obtain ⟨caller, identity, hauth, hidentity⟩ := hc.identified.identity
  obtain ⟨id, hselected⟩ := hc.selected
  unfold key
  rw [← new_eq hs]
  refine splits_after hc.identified.read (.read hatt hatt ?_)
  dsimp only
  rw [← isAuthenticated_eq hs]
  refine splits_quiet (quiet_isAuthenticated _) hauth ?_
  split
  next hfailure =>
    cases hfailure
    cases hidentity
  unfold keySelection at hselected ⊢
  rw [← latestItem_eq hs]
  refine .read hprovider hprovider (.read hselected hselected ?_)
  dsimp only
  rw [if_pos hc.fmt, if_pos hc.fmt]
  exact splits_keyRelease hs hvalid hfmt hc.lookup hlookup' _ _

theorem splits_unwrapRelease {kid fmt : String} {stored stored' : StoredItem} (level : LogLevel)
    (key : Bytes) (hs : SameStore h kv kv') (hw : ∀ key, WrapsBlindly h (some key)) (hfmt : fmt = "jwk")
    (hlookup : kv.hpkeKeys.lookup kid = some stored) (hfresh : Fresh h t kv stored.item)
    (hlookup' : kv'.hpkeKeys.lookup kid = some stored') (logContext : LogContext) :
    ∃ receipt, Logged.Splits (unwrapRelease h t kv logContext (.ofString kid) fmt key)
      (unwrapRelease h t kv' logContext (.ofString kid) fmt key) (LevelIs level level)
      (payloadLine h.toEngine { stored.item with receipt })
      (payloadLine h.toEngine { stored'.item with receipt }) := by
  have hi := samePublic_of_lookup hs hlookup hlookup'
  have hrender : (JsValue.ofString kid).render h.toEngine = .ok kid := rfl
  have hjwk : ¬ fmt = "tink" := by
    rw [hfmt]
    decide
  obtain ⟨deprecated, hexpiry⟩ := hfresh
  refine ⟨some ((receiptOf t kid stored).getD ""), ?_⟩
  unfold unwrapRelease
  refine .read hrender hrender (splits_quiet quiet_log rfl
    (.read (get_of_lookup hlookup) (get_of_lookup hlookup') ?_))
  dsimp only
  rw [← isExpired_eq hs hi]
  refine splits_quiet (quiet_isExpired _ _ _) (hexpiry logContext) ?_
  dsimp only
  rw [if_neg Bool.false_ne_true, if_neg Bool.false_ne_true, ← receipt_eq hs]
  refine splits_quiet (quiet_receipt _) (result_receiptOf hlookup) (splits_quiet quiet_log rfl ?_)
  refine .tryCatch (.bind ?_ _) _
  unfold unwrapWrap
  rw [if_neg hjwk, if_neg hjwk]
  exact splits_wrapKeyJwt (hw key) (hi.withReceipt _)

theorem splits_unwrapKey {serviceRequest : ServiceRequest} {kid : String}
    {stored stored' : StoredItem} {request : Request} (hs : SameStore h kv kv')
    (hw : ∀ key, WrapsBlindly h (some key))
    (hc : UnwrapChecked h t kv request serviceRequest kid stored)
    (hfmt : requestFmt serviceRequest = "jwk")
    (hlookup' : kv'.hpkeKeys.lookup kid = some stored') :
    ∃ receipt, Logged.Splits (unwrapKey h t kv request) (unwrapKey h t kv' request)
      (LevelIs level (Logger.levelAfter level
        (ServiceRequest.new h t kv (LogContext.new.appendScope "unwrapKey") request).events))
      (payloadLine h.toEngine { stored.item with receipt })
      (payloadLine h.toEngine { stored'.item with receipt }) := by
  obtain ⟨wrapping, wrappingHeaders, claims, v, reportData, hwrapping,
    ⟨attestation, provider, headers, hatt, hprovider, hvalid⟩, hv, htext, hstart⟩ := hc.bound
  obtain ⟨caller, identity, hauth, hidentity⟩ := hc.identified.identity
  have hkid := hc.kidField
  obtain ⟨receipt, hrelease⟩ := splits_unwrapRelease (Logger.levelAfter level
    (ServiceRequest.new h t kv (LogContext.new.appendScope "unwrapKey") request).events)
    wrapping.wrappingKey hs hw hfmt hc.lookup hc.fresh hlookup' serviceRequest.logContext
  refine ⟨receipt, ?_⟩
  unfold unwrapKey
  rw [← new_eq hs]
  refine splits_after hc.identified.read (.read hatt hatt ?_)
  dsimp only
  rw [← isAuthenticated_eq hs]
  refine splits_quiet (quiet_isAuthenticated _) hauth ?_
  split
  next hfailure =>
    cases hfailure
    cases hidentity
  refine .read hkid hkid ?_
  refine splits_quiet (quiet_requestHasWrappingKey _ _) hwrapping ?_
  refine .read (required_iff.mpr rfl) (required_iff.mpr rfl) (splits_quiet quiet_log rfl
    (.read hprovider hprovider ?_))
  rw [if_pos hc.fmt, if_pos hc.fmt]
  unfold unwrapBinding
  rw [← endpointAttestation_eq hs]
  refine splits_quiet (quiet_endpointAttestation _ _ _ _ _ _) (result_endpointAttestation hvalid) ?_
  refine .read (required_iff.mpr rfl) (required_iff.mpr rfl) (.read hv hv (.read htext htext ?_))
  rw [if_pos hstart, if_pos hstart]
  exact hrelease

end Release

section OtherWrapKey

variable {t : Moment} {kv kv' : Kv} {w : Bytes → Bytes → Except JsError Bytes}

theorem LengthByFields.wrappingBy (hlen : LengthByFields h) : LengthByFields (h.wrappingBy w) :=
  ⟨hlen.privateKey, hlen.keyset⟩

theorem SamePublic.wrappingBy (hi : SamePublic h item item') :
    SamePublic (h.wrappingBy w) item item' := ⟨hi.rest, hi.privatePart⟩

theorem SameStore.wrappingBy (hs : SameStore h kv kv') : SameStore (h.wrappingBy w) kv kv' := by
  refine ⟨hs.rest, fun kid => ?_⟩
  have hentry := hs.entry kid
  generalize kv.hpkeKeys.lookup kid = stored, kv'.hpkeKeys.lookup kid = stored' at hentry ⊢
  cases hentry with
  | none => exact .none
  | some he => exact .some ⟨he.item.wrappingBy, he.version⟩

theorem UnwrapChecked.wrappingBy {request : Request} {serviceRequest : ServiceRequest}
    {kid : String} {stored : StoredItem}
    (hc : UnwrapChecked h t kv request serviceRequest kid stored) :
    UnwrapChecked (h.wrappingBy w) t kv request serviceRequest kid stored := by
  obtain ⟨caller, identity, hauth, hidentity⟩ := hc.identified.identity
  rw [← isAuthenticated_wrappingBy (w := w)] at hauth
  exact ⟨⟨⟨hc.identified.read, caller, identity, hauth, hidentity⟩, hc.kidField, hc.bound,
    hc.fmt⟩, hc.lookup, hc.fresh⟩

theorem unwrapChecked_wrappingBy_iff {request : Request} {serviceRequest : ServiceRequest}
    {kid : String} {stored : StoredItem} :
    UnwrapChecked (h.wrappingBy w) t kv request serviceRequest kid stored ↔
      UnwrapChecked h t kv request serviceRequest kid stored := by
  have hback : (h.wrappingBy w).wrappingBy h.wrapKey = h := rfl
  constructor
  · intro hc
    rw [← hback]
    exact hc.wrappingBy
  · exact UnwrapChecked.wrappingBy

end OtherWrapKey

section Logs

variable {t : Moment} {kv kv' : Kv} {level : LogLevel} {α : Type}

/-- The lines that a run writes when the level starts out as `level`. -/
def writtenBy (level : LogLevel) (x : Handler α) : List String := Logger.written level x.events

theorem writtenBy_congr {β : Type} {x : Handler α} {y : Handler β} (he : x.events = y.events) :
    writtenBy level x = writtenBy level y := congrArg _ he

theorem body_of_attested {r : ServiceRequest} {claims : JsValue}
    (ha : Attested h kv r.bodyValue claims) : r.body ≠ none := by
  obtain ⟨attestation, provider, headers, hatt, -⟩ := ha
  intro hnone
  rw [ServiceRequest.bodyValue, hnone] at hatt
  cases hatt

/-- Two runs that differ in the line with the payload are told apart at the debug level. -/
theorem writtenBy_eq_iff {x y : Handler α} {level' : LogLevel} (hi : SamePublic h item item')
    (hne : item.d ≠ item'.d) (hxy : Logged.Splits x y (LevelIs level level')
      (payloadLine h.toEngine item) (payloadLine h.toEngine item')) :
    writtenBy level x = writtenBy level y ↔ ¬ level' = .DEBUG := by
  obtain ⟨before, after, hlevel, hx, hy⟩ := hxy.events
  have hlines := mt (privatePart_of_payloadLine hi) hne
  unfold writtenBy
  rw [hx, hy]
  unfold payloadLine at hlines ⊢
  rw [Logger.written_eq_iff, hlevel]
  constructor
  · intro htext hdebug
    exact hlines (congrArg _ (htext hdebug))
  · intro hnot hdebug
    exact absurd hdebug hnot

/-- A request that passes these checks is for a key whose private parts differ, and asks for a
    `jwk`. -/
def ShowsPrivatePart (Checked : ServiceRequest → String → StoredItem → Prop) (kv' : Kv) : Prop :=
  ∃ serviceRequest kid stored stored', Checked serviceRequest kid stored ∧
    requestFmt serviceRequest = "jwk" ∧ kv'.hpkeKeys.lookup kid = some stored' ∧
    stored.item.d ≠ stored'.item.d

theorem item_eq_of_not_shown {Checked : ServiceRequest → String → StoredItem → Prop}
    (hs : SameStore h kv kv') (hnot : ¬ ShowsPrivatePart Checked kv') {serviceRequest : ServiceRequest} {kid : String}
    {stored stored' : StoredItem} (hc : Checked serviceRequest kid stored)
    (hfmt : requestFmt serviceRequest = "jwk") (hlookup : kv.hpkeKeys.lookup kid = some stored)
    (hlookup' : kv'.hpkeKeys.lookup kid = some stored') : stored.item = stored'.item := by
  have hd : stored.item.d = stored'.item.d := by
    by_contra hne
    exact hnot ⟨serviceRequest, kid, stored, stored', hc, hfmt, hlookup', hne⟩
  exact (samePublic_of_lookup hs hlookup hlookup').eq_of_private hd

/-- The line appears at the debug level and nowhere else, where it appears at all. -/
theorem alike_iff {x y : Handler α} {inForce shown : Prop}
    (hshown : shown → (writtenBy level x = writtenBy level y ↔ ¬ inForce))
    (hnot : ¬ shown → x.events = y.events) :
    writtenBy level x = writtenBy level y ↔ ¬ (inForce ∧ shown) := by
  by_cases hs : shown
  · rw [hshown hs]
    tauto
  · have hsame : writtenBy level x = writtenBy level y := writtenBy_congr (hnot hs)
    tauto

theorem key_alike_iff (hlen : LengthByFields h) (hs : SameStore h kv kv') (request : Request) :
    writtenBy level (key h t kv request) = writtenBy level (key h t kv' request) ↔
      ¬ (DebugInForce level kv ∧ ShowsPrivatePart (KeyChecked h t kv request) kv') := by
  refine alike_iff ?_ fun hnot => ?_
  · rintro ⟨serviceRequest, kid, stored, stored', hc, hfmt, hlookup', hne⟩
    obtain ⟨claims, hattested⟩ := hc.attested
    rw [writtenBy_eq_iff (samePublic_of_lookup hs hc.lookup hlookup') hne
      (splits_key hs hc hfmt hlookup'), levelAfter_new hc.identified.read (body_of_attested hattested)]
  · refine (lockstep_key hlen hs request fun serviceRequest kid stored stored' hc hfmt hlookup' =>
      .inl ?_).events_eq
    rw [item_eq_of_not_shown hs hnot hc hfmt hc.lookup hlookup']

theorem unwrapKey_alike_iff (hlen : LengthByFields h) (hs : SameStore h kv kv')
    (hw : ∀ key, WrapsBlindly h (some key)) (request : Request) :
    writtenBy level (unwrapKey h t kv request) = writtenBy level (unwrapKey h t kv' request) ↔
      ¬ (DebugInForce level kv ∧ ShowsPrivatePart (UnwrapChecked h t kv request) kv') := by
  refine alike_iff ?_ fun hnot => ?_
  · rintro ⟨serviceRequest, kid, stored, stored', hc, hfmt, hlookup', hne⟩
    obtain ⟨_, _, _, _, _, -, hattested, -⟩ := hc.bound
    obtain ⟨receipt, hsplits⟩ := splits_unwrapKey hs hw hc hfmt hlookup'
    have hi := (samePublic_of_lookup hs hc.lookup hlookup').withReceipt receipt
    rw [writtenBy_eq_iff hi hne hsplits,
      levelAfter_new hc.identified.read (body_of_attested hattested)]
  · refine (lockstep_unwrapKey hlen hs hw request fun serviceRequest kid stored stored' hc hfmt
      hlookup' receipt => .inl ?_).events_eq
    rw [item_eq_of_not_shown hs hnot hc hfmt hc.lookup hlookup']

/-- The two stores are served with the same lines: by each endpoint from the start to the end,
    by the two that release keys up to the value of `wrapKey`. -/
structure LogsAlike (h : Host) (level : LogLevel) (t : Moment) (kv kv' : Kv)
    (request : Request) : Prop where
  key : writtenBy level (key h t kv request) = writtenBy level (key h t kv' request)
  pubkey : writtenBy level (pubkey h t kv request) = writtenBy level (pubkey h t kv' request)
  listpubkeys : writtenBy level (listpubkeys h t kv request) =
    writtenBy level (listpubkeys h t kv' request)
  refresh : ∀ keys keys', SamePublicPair h keys keys' →
    writtenBy level (refresh h t kv keys request) = writtenBy level (refresh h t kv' keys' request)
  unwrapKey : ∀ e, writtenBy level (unwrapKey (h.cutOff e) t kv request) =
    writtenBy level (unwrapKey (h.cutOff e) t kv' request)
  unwrapKeyGcp : ∀ e, writtenBy level (unwrapKeyGcp (h.cutOff e) t kv request) =
    writtenBy level (unwrapKeyGcp (h.cutOff e) t kv' request)

theorem shows_cutOff (e : JsError) (request : Request) :
    ShowsPrivatePart (UnwrapChecked (h.cutOff e) t kv request) kv' ↔
      ShowsPrivatePart (UnwrapChecked h t kv request) kv' := by
  unfold ShowsPrivatePart Host.cutOff
  simp only [unwrapChecked_wrappingBy_iff]

/-- The log depends on private keys just where a request that passes the checks of `key` or
    `unwrapKey` asks for a `jwk` at the debug level. -/
theorem logs_alike_iff (h : Host) (hlen : LengthByFields h) (level : LogLevel) (t : Moment)
    (kv kv' : Kv) (hs : SameStore h kv kv') (request : Request) :
    LogsAlike h level t kv kv' request ↔
      ¬ (DebugInForce level kv ∧
        (ShowsPrivatePart (KeyChecked h t kv request) kv' ∨
          ShowsPrivatePart (UnwrapChecked h t kv request) kv')) := by
  have hkey : writtenBy level (key h t kv request) = writtenBy level (key h t kv' request) ↔
      ¬ (DebugInForce level kv ∧ ShowsPrivatePart (KeyChecked h t kv request) kv') :=
    key_alike_iff hlen hs request
  have hunwrap (e : JsError) : writtenBy level (unwrapKey (h.cutOff e) t kv request) =
      writtenBy level (unwrapKey (h.cutOff e) t kv' request) ↔
      ¬ (DebugInForce level kv ∧ ShowsPrivatePart (UnwrapChecked h t kv request) kv') := by
    rw [← shows_cutOff e]
    exact unwrapKey_alike_iff hlen.wrappingBy hs.wrappingBy (fun _ _ _ _ _ => rfl) request
  constructor
  · rintro halike ⟨hdebug, hshown | hshown⟩
    · exact hkey.mp halike.key ⟨hdebug, hshown⟩
    · exact (hunwrap ⟨""⟩).mp (halike.unwrapKey _) ⟨hdebug, hshown⟩
  · intro hnot
    refine ⟨hkey.mpr fun hk => hnot ⟨hk.1, .inl hk.2⟩, ?_, ?_, fun keys keys' hp => ?_,
      fun e => (hunwrap e).mpr fun hu => hnot ⟨hu.1, .inr hu.2⟩, fun e => ?_⟩
    · exact writtenBy_congr (lockstep_pubkey hs request).events_eq
    · exact writtenBy_congr (lockstep_listpubkeys hs request).events_eq
    · exact writtenBy_congr (lockstep_refresh hs hp request).events_eq
    · exact writtenBy_congr (lockstep_unwrapKeyGcp hs.wrappingBy (fun _ _ => rfl) request).events_eq

end Logs

theorem sample_logs_alike : LogsAlike sampleHost .INFO (sampleMoment 0) (privateKv "AQID")
    (privateKv "BAUG") unwrapRequest :=
  (logs_alike_iff sampleHost sampleHost_lengthByFields .INFO (sampleMoment 0) _ _ privateKv_same
    unwrapRequest).mpr fun hshown => absurd hshown.1 (by decide)

/-- The store with settings that select the debug level. -/
def debugKv (d : String) : Kv :=
  { privateKv d with
    settings := AList.singleton "settings_policy" (.json (.obj [("service", .obj
      [("name", .str "kms"), ("description", .str "Key Management Service"),
        ("version", .str "1.0.0"), ("debug", .bool true)])])) }

/-- Once the settings select the debug level, `key` writes the private key. -/
theorem private_key_logged : SameStore sampleHost (debugKv "AQID") (debugKv "BAUG") ∧
    ¬ LogsAlike sampleHost .INFO (sampleMoment 0) (debugKv "AQID") (debugKv "BAUG")
      unwrapRequest := by
  have hdiffer : writtenBy .INFO (key sampleHost (sampleMoment 0) (debugKv "AQID") unwrapRequest) ≠
      writtenBy .INFO (key sampleHost (sampleMoment 0) (debugKv "BAUG") unwrapRequest) := by
    decide +kernel
  exact ⟨⟨rfl, privateKv_same.entry⟩, fun halike => hdiffer halike.key⟩

end DepaKms
