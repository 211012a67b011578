import DepaKms.ReleasedKeys

set_option autoImplicit false

/-!
# Private parts of keys

Two stores that differ in private keys only give the same responses. The handlers
are run side by side; wherever a key item is read the two items agree on all that
leaves the service.
-/
namespace DepaKms

variable {h : Host} {t : Moment} {kv kv' : Kv}

def SameLength (h : Host) (d d' : String) : Prop :=
  ∃ b b', h.base64Decode d = .ok b ∧ h.base64Decode d' = .ok b' ∧ b.length = b'.length

/-- The items agree on all but the private part, of which they have equally much. -/
structure SamePublic (h : Host) (item item' : IKeyItem) : Prop where
  rest : { item with d := none } = { item' with d := none }
  privatePart : Option.Rel (SameLength h) item.d item'.d

structure SameEntry (h : Host) (stored stored' : StoredItem) : Prop where
  item : SamePublic h stored.item stored'.item
  version : stored.version = stored'.version

structure SameStore (h : Host) (kv kv' : Kv) : Prop where
  rest : kv' = { kv with hpkeKeys := kv'.hpkeKeys }
  entry : ∀ kid, Option.Rel (SameEntry h) (kv.hpkeKeys.lookup kid) (kv'.hpkeKeys.lookup kid)

theorem SamePublic.kid_eq {item item' : IKeyItem} (hi : SamePublic h item item') :
    item.kid = item'.kid := (IKeyItem.mk.inj hi.rest).2.2.1

theorem SamePublic.id_eq {item item' : IKeyItem} (hi : SamePublic h item item') :
    item.id = item'.id := (IKeyItem.mk.inj hi.rest).2.2.2.2.2.2.2.1

theorem SamePublic.timestamp_eq {item item' : IKeyItem} (hi : SamePublic h item item') :
    item.timestamp = item'.timestamp := (IKeyItem.mk.inj hi.rest).2.2.2.2.2.1

theorem SamePublic.receipt_eq {item item' : IKeyItem} (hi : SamePublic h item item') :
    item.receipt = item'.receipt := (IKeyItem.mk.inj hi.rest).2.2.2.2.2.2.2.2

theorem SamePublic.public_eq {item item' : IKeyItem} (hi : SamePublic h item item')
    (receipt : Option String) :
    { item with receipt, d := none } = { item' with receipt, d := none } :=
  congrArg (fun i : IKeyItem => { i with receipt }) hi.rest

/-- What the two stores hold under one name. -/
structure SameRead (h : Host) (kv kv' : Kv) (id : JsValue) (found found' : Option IKeyItem) :
    Prop where
  items : Option.Rel (SamePublic h) found found'
  read : KeyStore.get kv id = .ok found
  read' : KeyStore.get kv' id = .ok found'

theorem agree_get (hs : SameStore h kv kv') (id : JsValue) :
    Logged.Agree (SameRead h kv kv' id)
      (liftM (KeyStore.get kv id) : Handler (Option IKeyItem)) (liftM (KeyStore.get kv' id)) := by
  cases hid : stringKey id with
  | error e =>
    have herror (kv : Kv) : KeyStore.get kv id = .error e := by
      rw [KeyStore.get, hid]
      rfl
    exact .error e (herror kv) (herror kv')
  | ok kid =>
    have hget (kv : Kv) :
        KeyStore.get kv id = .ok ((kv.hpkeKeys.lookup kid).map StoredItem.item) := by
      rw [KeyStore.get, hid]
      rfl
    refine .ok _ _ (hget kv) (hget kv') ⟨?_, hget kv, hget kv'⟩
    have hentry := hs.entry kid
    generalize kv.hpkeKeys.lookup kid = stored, kv'.hpkeKeys.lookup kid = stored' at hentry
    cases hentry with
    | none => exact .none
    | some he => exact .some he.item

theorem SameRead.lookups {id : JsValue} {item item' : IKeyItem}
    (hr : SameRead h kv kv' id (some item) (some item')) :
    ∃ kid stored stored', id = .ofString kid ∧ kv.hpkeKeys.lookup kid = some stored ∧
      kv'.hpkeKeys.lookup kid = some stored' ∧ stored.item = item ∧ stored'.item = item' := by
  obtain ⟨kid, stored, hkid, hlookup, hitem⟩ := lookup_of_get hr.read
  obtain ⟨kid', stored', hkid', hlookup', hitem'⟩ := lookup_of_get hr.read'
  rw [hkid] at hkid'
  cases hkid'
  exact ⟨kid, stored, stored', hkid, hlookup, hlookup', hitem, hitem'⟩

theorem receipt_eq (hs : SameStore h kv kv') (kid : String) :
    KeyStore.receipt h.toEngine t kv kid = KeyStore.receipt h.toEngine t kv' kid := by
  unfold KeyStore.receipt
  have hentry := hs.entry kid
  generalize kv.hpkeKeys.lookup kid = stored, kv'.hpkeKeys.lookup kid = stored' at hentry
  cases hentry with
  | none => rfl
  | some he =>
    dsimp only
    rw [he.version]

structure SameKeyLength (k k' : KeysetKey) : Prop where
  typeUrl : k.keyData.typeUrl = k'.keyData.typeUrl
  value : k.keyData.value.length = k'.keyData.value.length
  keyMaterialType : k.keyData.keyMaterialType = k'.keyData.keyMaterialType
  status : k.status = k'.status
  keyId : k.keyId = k'.keyId
  outputPrefixType : k.outputPrefixType = k'.outputPrefixType

/-- The length of a serialised message depends on the lengths of its fields only. -/
structure LengthByFields (h : Host) : Prop where
  privateKey : ∀ k k' : HpkePrivateKey, k.version = k'.version →
    k.privateKey.length = k'.privateKey.length →
    (h.hpkePrivateKeyToBinary k).length = (h.hpkePrivateKeyToBinary k').length
  keyset : ∀ s s' : Keyset, s.primaryKeyId = s'.primaryKeyId →
    List.Forall₂ SameKeyLength s.key s'.key →
    (h.keysetToBinary s).length = (h.keysetToBinary s').length

theorem keyset_length (hlen : LengthByFields h) {b b' : Bytes} (hb : b.length = b'.length) :
    (h.keysetToBinary (KeyWrapper.tinkKeyset h b)).length =
      (h.keysetToBinary (KeyWrapper.tinkKeyset h b')).length :=
  hlen.keyset _ _ rfl
    (.cons ⟨rfl, hlen.privateKey ⟨0, b⟩ ⟨0, b'⟩ rfl hb, rfl, rfl, rfl, rfl⟩ .nil)

/-- The line with the whole item, private part included, that comes before the wrapping. -/
def payloadLine (E : Engine) (item : IKeyItem) : LogEvent :=
  let payload := item.toJson.pretty E ""
  .line .DEBUG s!"[DEBUG] getEncryptedKeyMaterial:  {payload}"

theorem debug_payload (E : Engine) (item : IKeyItem) :
    Logger.debug E "getEncryptedKeyMaterial: " none [.json item.toJson] =
      .emit (payloadLine E item) := by
  have htext : Logger.getRemainingArgsString E [.json item.toJson] = item.toJson.pretty E "" := rfl
  have hne : item.toJson.pretty E "" ≠ "" := by
    intro he
    have hlist := congrArg String.toList he
    simp [IKeyItem.toJson, Json.pretty] at hlist
  unfold Logger.debug Logger.log payloadLine
  simp only [htext, if_neg hne]
  rfl

/-- What the platform answers does not depend on what it is given to wrap. -/
def WrapsBlindly (h : Host) (wrappingKey : Option Bytes) : Prop :=
  ∀ key, wrappingKey = some key → ∀ payload payload', h.wrapKey payload key = h.wrapKey payload' key

theorem wrapsBlindly_none (h : Host) : WrapsBlindly h none := by
  intro key hkey
  cases hkey

variable {P : LogEvent → LogEvent → Prop}

/-- Without a wrapping key the answer tells the length of the private key and nothing else. -/
theorem lockstep_wrappedTink (hlen : LengthByFields h) {wrappingKey : Option Bytes}
    (hw : WrapsBlindly h wrappingKey) {item item' : IKeyItem} (hi : SamePublic h item item') :
    Logged.Lockstep P Eq (KeyWrapper.createWrappedPrivateTinkKey h wrappingKey item)
      (KeyWrapper.createWrappedPrivateTinkKey h wrappingKey item') := by
  unfold KeyWrapper.createWrappedPrivateTinkKey
  have hprivate := hi.privatePart
  generalize item.d = d, item'.d = d' at hprivate
  cases hprivate with
  | none => exact .throw _
  | some hd =>
    obtain ⟨b, b', hb, hb', hlength⟩ := hd
    refine .bind (R := fun b b' : Bytes => b.length = b'.length)
      (.lift (.ok b b' (by simp [hb]) (by simp [hb']) hlength)) fun c c' hc => ?_
    refine .bind (R := Eq) (.pure rfl) fun _ _ _ => .bind (R := Eq) (.pure rfl) fun _ _ _ => ?_
    cases wrappingKey with
    | some key =>
      dsimp only
      rw [hw key rfl (h.keysetToBinary (KeyWrapper.tinkKeyset h c))
        (h.keysetToBinary (KeyWrapper.tinkKeyset h c'))]
      exact .refl _
    | none => exact .pure (by rw [keyset_length hlen hc])

theorem lockstep_wrapKeyJwt {wrappingKey : Option Bytes} (hw : WrapsBlindly h wrappingKey)
    {item item' : IKeyItem} (hi : SamePublic h item item')
    (hP : Logged.SameBut P (payloadLine h.toEngine item) (payloadLine h.toEngine item')) :
    Logged.Lockstep P Eq (KeyWrapper.wrapKeyJwt h wrappingKey item)
      (KeyWrapper.wrapKeyJwt h wrappingKey item') := by
  unfold KeyWrapper.wrapKeyJwt KeyWrapper.getEncryptedKeyMaterial
  rw [debug_payload, debug_payload]
  refine .bind (R := Eq) (.bind (.emit hP) fun _ _ _ => ?_) fun p p' hp => .pure (by rw [hp])
  dsimp only
  rw [hi.receipt_eq]
  cases wrappingKey with
  | some key =>
    dsimp only
    rw [hw key rfl (strToBuf (KeyWrapper.payloadText h item))
      (strToBuf (KeyWrapper.payloadText h item'))]
    exact .refl _
  | none => exact .refl _

theorem lockstep_keyWrap (hlen : LengthByFields h) (fmt : String) {item item' : IKeyItem}
    (hi : SamePublic h item item') (hP : fmt ≠ "tink" →
      Logged.SameBut P (payloadLine h.toEngine item) (payloadLine h.toEngine item')) :
    Logged.Lockstep P Eq (keyWrap h t fmt item) (keyWrap h t fmt item') := by
  refine .ite (fun _ => ?_) fun hfmt => lockstep_wrapKeyJwt (wrapsBlindly_none h) hi (hP hfmt)
  unfold KeyWrapper.wrapKeyTink
  rw [hi.kid_eq, hi.id_eq]
  refine .bind (R := Eq) (.bind (lockstep_wrappedTink hlen (wrapsBlindly_none h) hi)
    fun s s' hs => ?_) fun k k' hk => .pure (by rw [hk])
  subst hs
  exact .refl _

theorem latestItem_eq (hs : SameStore h kv kv') :
    LastestItemStore.latestItem kv = LastestItemStore.latestItem kv' := by
  rw [hs.rest]
  rfl

theorem new_eq (hs : SameStore h kv kv') (logContext : LogContext) (request : Request) :
    ServiceRequest.new h t kv logContext request =
      ServiceRequest.new h t kv' logContext request := by
  rw [hs.rest]
  rfl

theorem isAuthenticated_eq (hs : SameStore h kv kv') (r : ServiceRequest) :
    r.isAuthenticated h kv = r.isAuthenticated h kv' := by
  rw [hs.rest]
  rfl

theorem endpointAttestation_eq {α : Type} (hs : SameStore h kv kv') (name : String)
    (logContext : LogContext) (attestation attestationProvider : JsValue)
    (failureHeaders : ℕ → Except JsError Headers) (exceptionHeaders : JsError → Headers) :
    (endpointAttestation h kv name logContext attestation attestationProvider failureHeaders
        exceptionHeaders : Handler (Except (ServiceResult α) (ServiceResult JsValue))) =
      endpointAttestation h kv' name logContext attestation attestationProvider failureHeaders
        exceptionHeaders := by
  rw [hs.rest]
  rfl

theorem lockstep_keyRelease (hlen : LengthByFields h) (hs : SameStore h kv kv')
    (logContext : LogContext) (attestation attestationProvider : JsValue) (fmt : String)
    (id : Option ℕ) (kid : String)
    (hP : fmt ≠ "tink" → ∀ claims headers stored stored',
      (validateAttestation h kv attestation attestationProvider).result =
        .ok (.success claims headers) →
      kv.hpkeKeys.lookup kid = some stored → kv'.hpkeKeys.lookup kid = some stored' →
      Logged.SameBut P (payloadLine h.toEngine stored.item)
        (payloadLine h.toEngine stored'.item)) :
    Logged.Lockstep P Eq (keyRelease h t kv logContext attestation attestationProvider fmt id kid)
      (keyRelease h t kv' logContext attestation attestationProvider fmt id kid) := by
  unfold keyRelease
  rw [← endpointAttestation_eq hs]
  refine .step fun outcome houtcome => ?_
  obtain ⟨-, hpassed⟩ := endpointAttestation_ensures outcome houtcome
  cases outcome with
  | error failed => exact .refl _
  | ok r =>
    obtain ⟨claims, headers, rfl, hvalid⟩ := hpassed r rfl
    refine .step fun _ _ => .bind (.lift (agree_get hs _)) fun found found' hfound => ?_
    have hitems := hfound.items
    cases hitems with
    | none => exact .refl _
    | some hi =>
      obtain ⟨name, stored, stored', hname, hlookup, hlookup', rfl, rfl⟩ := hfound.lookups
      cases hname
      dsimp only
      rw [receipt_eq hs kid]
      refine .step fun receipt _ => .ite (fun _ => .refl _) fun _ => ?_
      refine .tryCatch (.bind (lockstep_keyWrap hlen fmt hi fun hfmt =>
        hP hfmt claims headers stored stored' hvalid hlookup hlookup') fun w w' hw => ?_)
        fun e => .refl _
      subst hw
      exact .refl _

theorem lockstep_key (hlen : LengthByFields h) (hs : SameStore h kv kv') (request : Request)
    (hP : ∀ serviceRequest kid stored stored',
      KeyChecked h t kv request serviceRequest kid stored → requestFmt serviceRequest = "jwk" →
      kv'.hpkeKeys.lookup kid = some stored' →
      Logged.SameBut P (payloadLine h.toEngine stored.item)
        (payloadLine h.toEngine stored'.item)) :
    Logged.Lockstep P Eq (key h t kv request) (key h t kv' request) := by
  unfold key
  rw [← new_eq hs]
  refine .step fun serviceRequest hread => .step fun attestation hatt => ?_
  cases attestation with
  | none => exact .refl _
  | some attestation =>
  dsimp only
  rw [← isAuthenticated_eq hs]
  refine .step fun identity hidentity => ?_
  obtain ⟨caller, identity⟩ := identity
  split
  · exact .refl _
  next hnot =>
  have hidentified := identified_of_answer hread hidentity hnot
  unfold keySelection
  rw [← latestItem_eq hs]
  refine .step fun provider hprovider => .step fun selection hselection => ?_
  obtain ⟨id, kid⟩ := selection
  cases kid with
  | none => exact .refl _
  | some kid =>
  refine .ite (fun hfmt => lockstep_keyRelease hlen hs _ _ _ _ _ _
    fun hjwk claims headers stored stored' hvalid hlookup hlookup' => ?_) fun _ => .refl _
  exact hP serviceRequest kid stored stored' ⟨hidentified,
    ⟨claims, attestation, provider, headers, hatt, hprovider, hvalid⟩, ⟨id, hselection⟩, hfmt,
    hlookup⟩ (hfmt.resolve_right hjwk) hlookup'

theorem lockstep_exposableLoop (hs : SameStore h kv kv') (delayText : String)
    (delayMs now : Option ℚ) (logContext : LogContext) (n : ℕ) :
    Logged.Lockstep P Eq
      (KeyRotationPolicy.exposableLoop h.toEngine (LastestItemStore.get kv)
        (fun k => KeyStore.get kv (.ofString k)) delayText delayMs now logContext n)
      (KeyRotationPolicy.exposableLoop h.toEngine (LastestItemStore.get kv')
        (fun k => KeyStore.get kv' (.ofString k)) delayText delayMs now logContext n) := by
  have hget : LastestItemStore.get kv = LastestItemStore.get kv' := by
    rw [hs.rest]
    rfl
  rw [hget]
  induction n with
  | zero => exact .refl _
  | succ n ih =>
    unfold KeyRotationPolicy.exposableLoop
    refine .step fun kid _ => ?_
    cases kid with
    | none => exact ih
    | some kid =>
      refine .bind (.lift (agree_get hs _)) fun item item' hitem => ?_
      have htimestamp : item.bind IKeyItem.timestamp = item'.bind IKeyItem.timestamp := by
        cases hitem.items with
        | none => rfl
        | some hi => exact hi.timestamp_eq
      have hexposable : KeyRotationPolicy.exposable delayMs now item =
          KeyRotationPolicy.exposable delayMs now item' := by
        unfold KeyRotationPolicy.exposable
        rw [htimestamp]
      rw [htimestamp, hexposable]
      exact .ite (fun _ => .refl _) fun _ => ih

theorem lockstep_offeredKey (hs : SameStore h kv kv') (logContext : LogContext) :
    Logged.Lockstep P Eq (offeredKey h t kv logContext) (offeredKey h t kv' logContext) := by
  have hsize : LastestItemStore.size kv = LastestItemStore.size kv' := by
    rw [hs.rest]
    rfl
  have hrotation : kv.keyRotation = kv'.keyRotation := by rw [hs.rest]
  unfold offeredKey KeyRotationPolicy.getLatestExposableKey
  rw [hsize, hrotation, latestItem_eq hs]
  refine .bind (R := Eq) (.ite (fun _ => .refl _) fun _ => ?_) fun p p' hp => ?_
  · exact .step fun policy _ => .step fun delay _ => .step fun delayNumber _ =>
      .step fun delayText _ => lockstep_exposableLoop hs _ _ _ _ _
  · rw [hp]
    exact .refl _

theorem lockstep_listpubkeys (hs : SameStore h kv kv') (request : Request) :
    Logged.Lockstep P Eq (listpubkeys h t kv request) (listpubkeys h t kv' request) := by
  have hbody (logContext : LogContext) : Logged.Lockstep P Eq (listpubkeysBody h t kv logContext)
      (listpubkeysBody h t kv' logContext) := by
    refine .bind (lockstep_offeredKey hs logContext) fun offered offered' ho => ?_
    subst ho
    obtain ⟨id, kid⟩ := offered
    cases kid with
    | none => exact .refl _
    | some kid =>
      refine .bind (.lift (agree_get hs _)) fun item item' hitem => ?_
      cases hitem.items with
      | none => exact .refl _
      | some hi =>
        dsimp only
        rw [hi.rest]
        exact .refl _
  unfold listpubkeys
  rw [new_eq hs]
  refine .step fun serviceRequest _ => ?_
  rw [isAuthenticated_eq hs]
  refine .step fun identity _ => ?_
  split
  · exact .refl _
  · exact .tryCatch (hbody _) fun _ => .refl _

theorem lockstep_pubkeyBody (hs : SameStore h kv kv') (serviceRequest : ServiceRequest)
    (kid : Option String) :
    Logged.Lockstep P Eq (pubkeyBody h t kv serviceRequest kid)
      (pubkeyBody h t kv' serviceRequest kid) := by
  unfold pubkeyBody
  cases kid with
  | none => exact .refl _
  | some kid =>
  refine .ite (fun _ => ?_) fun _ => .refl _
  refine .step fun _ _ => .bind (.lift (agree_get hs _)) fun item item' hitem => ?_
  cases hitem.items with
  | none => exact .refl _
  | some hi =>
    dsimp only
    rw [receipt_eq hs kid]
    refine .step fun receipt _ => ?_
    cases receipt with
    | none => exact .refl _
    | some receipt =>
      unfold pubkeyAnswer
      refine .step fun _ _ => ?_
      dsimp only
      rw [hi.public_eq (some receipt)]
      exact .refl _

theorem lockstep_pubkey (hs : SameStore h kv kv') (request : Request) :
    Logged.Lockstep P Eq (pubkey h t kv request) (pubkey h t kv' request) := by
  unfold pubkey
  rw [new_eq hs]
  refine .step fun serviceRequest _ => ?_
  rw [isAuthenticated_eq hs]
  refine .step fun identity _ => ?_
  split
  · exact .refl _
  refine .bind (R := Eq) (.tryCatch (.bind (R := Eq) ?_ fun p p' hp => ?_) fun _ =>
    .refl _) fun selection selection' hselection => ?_
  · unfold pubkeySelection
    split
    · exact .refl _
    · exact .bind (lockstep_offeredKey hs _) fun p p' hp => by rw [hp]; exact .refl _
  · rw [hp]
    exact .refl _
  · subst hselection
    cases selection with
    | error failed => exact .refl _
    | ok p => exact .tryCatch (lockstep_pubkeyBody hs _ _) fun _ => .refl _

structure SamePublicPair (h : Host) (keys keys' : CryptoKeyPair) : Prop where
  publicKey : keys.publicKey = keys'.publicKey
  jwk : (h.eddsaPemToJwk keys.privateKey).map (fun jwk => (jwk.crv, jwk.kty, jwk.x)) =
    (h.eddsaPemToJwk keys'.privateKey).map fun jwk => (jwk.crv, jwk.kty, jwk.x)

theorem lockstep_generateKeyItem {keys keys' : CryptoKeyPair} (hp : SamePublicPair h keys keys')
    (id : ℕ) (expiry : Option ℚ) :
    Logged.Lockstep P (fun item item' => { item with d := none } = { item' with d := none })
      (KeyGeneration.generateKeyItem h t keys id expiry)
      (KeyGeneration.generateKeyItem h t keys' id expiry) := by
  unfold KeyGeneration.generateKeyItem
  have hjwk := hp.jwk
  rw [hp.publicKey]
  cases hk : h.eddsaPemToJwk keys.privateKey with
  | error e =>
    cases hk' : h.eddsaPemToJwk keys'.privateKey with
    | error e' =>
      rw [hk, hk'] at hjwk
      cases hjwk
      exact .throw e
    | ok jwk' =>
      rw [hk, hk'] at hjwk
      cases hjwk
  | ok jwk =>
    cases hk' : h.eddsaPemToJwk keys'.privateKey with
    | error e' =>
      rw [hk, hk'] at hjwk
      cases hjwk
    | ok jwk' =>
      rw [hk, hk'] at hjwk
      simp only [Except.map, Except.ok.injEq, Prod.mk.injEq] at hjwk
      obtain ⟨hcrv, hkty, hx⟩ := hjwk
      refine .pure ?_
      simp only [hcrv, hkty, hx]

theorem lockstep_refreshBody (hs : SameStore h kv kv') {keys keys' : CryptoKeyPair}
    (hp : SamePublicPair h keys keys') (logContext : LogContext) (expiry : Option ℚ) :
    Logged.Lockstep P (fun p p' => p.1 = p'.1) (refreshBody h t kv keys logContext expiry)
      (refreshBody h t kv' keys' logContext expiry) := by
  unfold refreshBody
  have hsize : LastestItemStore.size kv = LastestItemStore.size kv' := by
    rw [hs.rest]
    rfl
  rw [hsize]
  refine .bind (lockstep_generateKeyItem hp _ expiry) fun item item' hitem => ?_
  have hkid : item.kid = item'.kid := (IKeyItem.mk.inj hitem).2.2.1
  have hpublic (kid : Option String) :
      { item with kid, d := none } = { item' with kid, d := none } :=
    congrArg (fun i : IKeyItem => { i with kid }) hitem
  dsimp only
  rw [hkid]
  refine .bind (R := fun _ _ => True) (.lift ?_) fun _ _ _ => .step fun _ _ => ?_
  · unfold LastestItemStore.storeItem
    cases uint32Key (LastestItemStore.size kv' + 1) with
    | error e => exact .error e rfl rfl
    | ok id => exact .ok _ _ rfl rfl trivial
  · rw [hpublic]
    exact .step fun _ _ => .pure rfl

theorem lockstep_refresh (hs : SameStore h kv kv') {keys keys' : CryptoKeyPair}
    (hp : SamePublicPair h keys keys') (request : Request) :
    Logged.Lockstep P (fun p p' => p.1 = p'.1) (refresh h t kv keys request)
      (refresh h t kv' keys' request) := by
  have hrotation : kv.keyRotation = kv'.keyRotation := by rw [hs.rest]
  unfold refresh
  rw [new_eq hs, hrotation]
  refine .step fun serviceRequest _ => ?_
  rw [isAuthenticated_eq hs]
  refine .step fun identity _ => ?_
  split
  · exact .pure rfl
  · refine .step fun _ _ => .step fun times _ => ?_
    have hcaught : Logged.Lockstep P (fun p p' : ServiceResult IKeyItem × Kv => p.1 = p'.1)
        (tryCatch (refreshBody h t kv keys serviceRequest.logContext
            (times.bind IExpiryTimes.expiryTimeMs)) fun exception => do
          let failed ← caughtError h serviceRequest.logContext
            s!"refresh: Error: {exception.message}"
          pure (failed, kv))
        (tryCatch (refreshBody h t kv' keys' serviceRequest.logContext
            (times.bind IExpiryTimes.expiryTimeMs)) fun exception => do
          let failed ← caughtError h serviceRequest.logContext
            s!"refresh: Error: {exception.message}"
          pure (failed, kv')) :=
      .tryCatch (lockstep_refreshBody hs hp _ _) fun _ => .step fun _ _ => .pure rfl
    cases times with
    | none => exact .step fun _ _ => hcaught
    | some times => exact .step fun _ _ => hcaught

/-- Responses tell nothing of private keys. -/
theorem responses_independent_of_private_parts (h : Host) (hlen : LengthByFields h) (t : Moment)
    (kv kv' : Kv) (hs : SameStore h kv kv') (request : Request) :
    (key h t kv request).result = (key h t kv' request).result ∧
      (pubkey h t kv request).result = (pubkey h t kv' request).result ∧
      (listpubkeys h t kv request).result = (listpubkeys h t kv' request).result ∧
      ∀ keys keys', SamePublicPair h keys keys' →
        (refresh h t kv keys request).result.map Prod.fst =
          (refresh h t kv' keys' request).result.map Prod.fst := by
  let P (_ _ : LogEvent) : Prop := True
  have hkey : Logged.Lockstep P Eq (key h t kv request) (key h t kv' request) :=
    lockstep_key hlen hs request fun _ _ _ _ _ _ _ => .inr trivial
  have hpubkey : Logged.Lockstep P Eq (pubkey h t kv request) (pubkey h t kv' request) :=
    lockstep_pubkey hs request
  have hlistpubkeys : Logged.Lockstep P Eq (listpubkeys h t kv request)
      (listpubkeys h t kv' request) := lockstep_listpubkeys hs request
  refine ⟨hkey.agree.result_eq, hpubkey.agree.result_eq, hlistpubkeys.agree.result_eq,
    fun keys keys' hp => ?_⟩
  have hrefresh : Logged.Lockstep P (fun p p' => p.1 = p'.1) (refresh h t kv keys request)
      (refresh h t kv' keys' request) := lockstep_refresh hs hp request
  cases hrefresh.agree with
  | ok p p' hx hy he =>
    rw [hx, hy]
    exact congrArg Except.ok he
  | error e hx hy => rw [hx, hy]

theorem sampleHost_lengthByFields : LengthByFields sampleHost := by
  have hbytes (no : ℕ) {b b' : Bytes} (hb : b.length = b'.length) :
      (bytesField no b).length = (bytesField no b').length := by
    simp [bytesField, hb]
  refine ⟨fun k k' hv hk => ?_, fun s s' hid hkeys => ?_⟩
  · change (protoPrivateKey k).length = (protoPrivateKey k').length
    have hempty : k.privateKey = [] ↔ k'.privateKey = [] := by
      rw [← List.length_eq_zero_iff, hk, List.length_eq_zero_iff]
    simp only [protoPrivateKey, hv, hempty, List.length_append]
    split_ifs
    · rfl
    · rw [hbytes 3 hk]
  · change (protoKeyset s).length = (protoKeyset s').length
    have hkey {k k' : KeysetKey} (hk : SameKeyLength k k') :
        (bytesField 2 (protoKeysetKey k)).length = (bytesField 2 (protoKeysetKey k')).length := by
      refine hbytes 2 ?_
      have hdata : (protoKeyData k.keyData).length = (protoKeyData k'.keyData).length := by
        simp only [protoKeyData, List.length_append, hk.typeUrl, hbytes 2 hk.value,
          hk.keyMaterialType]
      simp only [protoKeysetKey, List.length_append, hbytes 1 hdata, hk.status, hk.keyId,
        hk.outputPrefixType]
    have hflat {ks ks' : List KeysetKey} (hks : List.Forall₂ SameKeyLength ks ks') :
        (ks.flatMap fun k => bytesField 2 (protoKeysetKey k)).length =
          (ks'.flatMap fun k => bytesField 2 (protoKeysetKey k)).length := by
      induction hks with
      | nil => rfl
      | cons hk _ ih => simp only [List.flatMap_cons, List.length_append, hkey hk, ih]
    simp only [protoKeyset, hid, List.length_append, hflat hkeys]

def privateKv (d : String) : Kv :=
  { samplePolicies with
    hpkeKeys := AList.singleton "AAAA_1"
      ⟨⟨"X25519", some d, some "AAAA_1", "OKP", "BAUG", some 0, none, some 11, none⟩, 1⟩
    hpkeKeyIds := AList.singleton 1 "AAAA_1" }

theorem privateKv_same : SameStore sampleHost (privateKv "AQID") (privateKv "BAUG") := by
  refine ⟨rfl, fun kid => ?_⟩
  by_cases hk : kid = "AAAA_1"
  · subst hk
    refine .some ⟨⟨rfl, .some ⟨[1, 2, 3], [4, 5, 6], ?_, ?_, rfl⟩⟩, rfl⟩
    · decide +kernel
    · decide +kernel
  · have hnone (d : String) : (privateKv d).hpkeKeys.lookup kid = none := by
      rw [AList.lookup_eq_none, AList.mem_keys]
      simpa [privateKv, AList.singleton, AList.keys] using hk
    rw [hnone, hnone]
    exact .none

theorem sample_responses_independent :
    (key sampleHost (sampleMoment 0) (privateKv "AQID") unwrapRequest).result =
        (key sampleHost (sampleMoment 0) (privateKv "BAUG") unwrapRequest).result ∧
      (refresh sampleHost (sampleMoment 0) (privateKv "AQID") ⟨"AQID", "pub"⟩
          unwrapRequest).result.map Prod.fst =
        (refresh sampleHost (sampleMoment 0) (privateKv "BAUG") ⟨"BAUG", "pub"⟩
          unwrapRequest).result.map Prod.fst := by
  have hall := responses_independent_of_private_parts sampleHost sampleHost_lengthByFields
    (sampleMoment 0) _ _ privateKv_same unwrapRequest
  exact ⟨hall.1, hall.2.2.2 _ _ ⟨rfl, rfl⟩⟩

end DepaKms
