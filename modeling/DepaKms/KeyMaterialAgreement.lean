import DepaKms.ReleasedKeys
import DepaKms.KeyOffer

set_option autoImplicit false

/-!
# Public and private key material

Each key has one origin, the refresh that stored it. Whatever the endpoints hand out
later, wrapped or public, in whichever format, is a rendering of that one item.
-/
namespace DepaKms

variable {h : Host} {t : Moment} {kv : Kv}

/-- The refresh `e`, after the run `before`, wrote the item under a kid that was not in use. -/
structure MadeBy (h : Host) (kv : Kv) (before : List Event) (e : Event) (kid : String)
    (stored : StoredItem) : Prop where
  refreshed : (e.isRefresh && e.succeeds h (run (keyStep h) kv before)) = true
  unused : kid ∉ (run (keyStep h) kv before).hpkeKeys
  written : (keyStep h (run (keyStep h) kv before) e).hpkeKeys.lookup kid = some stored
  version : stored.version = (run (keyStep h) kv before).version
  noReceipt : stored.item.receipt = none

def Originates (h : Host) (kv : Kv) (events : List Event) (kid : String) (stored : StoredItem) :
    Prop :=
  ∃ before e after, events = before ++ e :: after ∧ MadeBy h kv before e kid stored

theorem Originates.later {events : List Event} {kid : String} {stored : StoredItem}
    (ho : Originates h kv events kid stored) (e : Event) :
    Originates h kv (events ++ [e]) kid stored := by
  obtain ⟨before, origin, after, rfl, hmade⟩ := ho
  exact ⟨before, origin, after ++ [e], by simp, hmade⟩

theorem unused_of_newKey {log : List (String × StoredItem)} (hl : KeyLog kv log)
    {keys : CryptoKeyPair} {kid : String} {item : IKeyItem} (hn : NewKey h t keys kv kid item) : kid ∉ kv.hpkeKeys := by
  have hnumbered := hn.numbered
  rw [hl.size_eq] at hnumbered
  intro hmem
  obtain ⟨stored, hstored⟩ := Option.isSome_iff_exists.mp (AList.lookup_isSome.mpr hmem)
  have hentry := (hl.indexed.lookup_item _ _).mp hstored
  exact hl.fresh hnumbered (List.mem_map_of_mem hentry)

/-- Every key of the store comes from one of the refreshes of the run. -/
theorem originates_of_lookup (h : Host) (kv : Kv) (events : List Event) :
    ∀ kid stored, (run (keyStep h) kv.withoutKeys events).hpkeKeys.lookup kid = some stored →
      Originates h kv.withoutKeys events kid stored := by
  induction events using List.reverseRecOn with
  | nil =>
    intro kid stored hlookup
    cases hlookup
  | append_singleton events e ih =>
    intro kid stored hlookup
    obtain ⟨log, -, hlog⟩ := keyLog_run (h := h) (keyLog_withoutKeys kv) events
    rw [run_snoc] at hlookup
    rcases keyStep_cases h (run (keyStep h) kv.withoutKeys events) e with
      ⟨-, version, hsame⟩ | ⟨hyes, keys, kid', item, hnew, hadded⟩
    · rw [hsame] at hlookup
      exact (ih kid stored hlookup).later e
    · by_cases hkid : kid = kid'
      · subst hkid
        have hunused := unused_of_newKey hlog hnew
        have hwritten := hlookup
        rw [hadded] at hlookup
        have hinsert : some (⟨item, _⟩ : StoredItem) = some stored :=
          (AList.lookup_insert _).symm.trans hlookup
        cases hinsert
        exact ⟨events, e, [], rfl, hyes, hunused, hwritten, rfl, hnew.noReceipt⟩
      · rw [hadded] at hlookup
        have hother : (run (keyStep h) kv.withoutKeys events).hpkeKeys.lookup kid = some stored :=
          (AList.lookup_insert_ne hkid).symm.trans hlookup
        exact (ih kid stored hother).later e

/-- What is wrapped is the JSON of the item, private part included. -/
def WrapsJwk (h : Host) (item : IKeyItem) (wrappingKey : Bytes) (wrapped : String) : Prop :=
  Wraps h (strToBuf (item.toJson.stringify h.toEngine)) wrappingKey wrapped

/-- What is wrapped is the keyset around the decoded private part of the item. -/
def WrapsTink (h : Host) (item : IKeyItem) (wrappingKey : Bytes) (wrapped : String) : Prop :=
  ∃ d privateKey, item.d = some d ∧ h.base64Decode d = .ok privateKey ∧
    Wraps h (h.keysetToBinary (KeyWrapper.tinkKeyset h privateKey)) wrappingKey wrapped

/-- The public part as `pubkey` shows it, in either format. -/
def ShowsPublicPart (h : Host) (item : IKeyItem) : PublicKeyResponse → Prop
  | .jwk shown => shown.kid = item.kid ∧ shown.id = item.id ∧ shown.x = item.x ∧ shown.d = none
  | .tink keySet => item.id = some keySet.primaryKeyId ∧ ∃ key bytes, keySet.key = [key] ∧
      key.keyId = keySet.primaryKeyId ∧ h.base64Decode item.x = .ok bytes ∧
      key.value = h.base64Encode bytes

def ListsPublicPart (h : Host) (item : IKeyItem) (keySet : ITinkPublicKeySet) : Prop :=
  ∃ id bytes, item.id = some id ∧ h.base64Decode item.x = .ok bytes ∧
    keySet.keys = [⟨toString id, h.base64Encode bytes⟩]

theorem transformKey_ok {item : IKeyItem} {value : String} (hv : transformKey h item = .ok value) :
    ∃ bytes, h.base64Decode item.x = .ok bytes ∧ value = h.base64Encode bytes := by
  unfold transformKey at hv
  cases hd : h.base64Decode item.x with
  | error e =>
    rw [hd] at hv
    cases hv
  | ok bytes =>
    rw [hd] at hv
    cases hv
    exact ⟨bytes, rfl, rfl⟩

theorem showsPublicPart_of {item : IKeyItem} {response : PublicKeyResponse}
    (hp : PublicKeyOf h item response) : ShowsPublicPart h item response := by
  obtain ⟨receipt, fmt, ⟨-, rfl⟩ | ⟨-, keySet, hkeySet, rfl⟩⟩ := hp
  · exact ⟨rfl, rfl, rfl, rfl⟩
  · unfold tinkKey at hkeySet
    cases hid : item.id with
    | none =>
      simp only [hid] at hkeySet
      cases hkeySet
    | some id =>
      simp only [hid] at hkeySet
      rw [Logged.bind_ok_iff] at hkeySet
      obtain ⟨value, hvalue, hkeySet⟩ := hkeySet
      obtain ⟨bytes, hbytes, rfl⟩ := transformKey_ok hvalue
      cases hkeySet
      exact ⟨hid, _, bytes, rfl, rfl, hbytes, rfl⟩

theorem listsPublicPart_of {item : IKeyItem} {keySet : ITinkPublicKeySet} {id : ℕ}
    (hid : item.id = some id) (hp : tinkPublicKey h { item with d := none } = .ok keySet) :
    ListsPublicPart h item keySet := by
  unfold tinkPublicKey at hp
  rw [Logged.bind_ok_iff] at hp
  obtain ⟨value, hvalue, hp⟩ := hp
  obtain ⟨bytes, hbytes, rfl⟩ := transformKey_ok hvalue
  cases hp
  refine ⟨id, bytes, hid, hbytes, ?_⟩
  rw [hid]
  rfl

theorem pubkeySelection_named {query : Option Query} {kid : String} (hkid : kid ≠ "")
    (hq : queryGet query "kid" = some kid) (logContext : LogContext) :
    (pubkeySelection h t kv query logContext).result = .ok (none, some kid) := by
  unfold pubkeySelection
  rw [hq]
  have hfilter : (some kid).filter (fun s => s ≠ "") = some kid := by simp [hkid]
  rw [hfilter]
  rfl

theorem pubkey_named {request : Request} {serviceRequest : ServiceRequest} {kid : String}
    {response : PublicKeyResponse} (hread : ReadAs h t kv "pubkey" request serviceRequest)
    (hkid : kid ≠ "") (hq : queryGet serviceRequest.query "kid" = some kid)
    (hr : answered (pubkey h t kv request) = some response) :
    ∃ stored, kv.hpkeKeys.lookup kid = some stored ∧ PublicKeyOf h stored.item response := by
  obtain ⟨found, kid', stored, receipt, hfound, hshows⟩ := of_answered (pubkey_ensures request) hr
  have hsame : (Except.ok found : Except JsError ServiceRequest) = .ok serviceRequest :=
    hfound.symm.trans hread
  cases hsame
  obtain ⟨id, hselected⟩ := hshows.selected
  rw [pubkeySelection_named hkid hq] at hselected
  cases hselected
  exact ⟨stored, hshows.lookup, receipt, hshows.shown⟩

theorem offers_unique {kid kid' : String} (ho : Offers h t kv kid) (ho' : Offers h t kv kid') :
    kid = kid' := by
  obtain ⟨c, id, hid⟩ := ho
  obtain ⟨c', id', hid'⟩ := ho'
  have hsame := (offeredKey_context hid c').symm.trans hid'
  cases hsame
  rfl

/-- Every 200 response, at whatever time, renders the one stored item that it is about. -/
structure PartsAgree (h : Host) (kv : Kv) : Prop where
  unwrapped : ∀ t request response serviceRequest,
    answered (unwrapKey h t kv request) = some response →
    ReadAs h t kv "unwrapKey" request serviceRequest →
    ∃ body kid stored wrappingKey, request.bodyJson = .ok body ∧
      body.get "wrappedKid" = .ok (.ofString kid) ∧
      body.get "wrappingKey" = .ok (.ofString wrappingKey) ∧
      kv.hpkeKeys.lookup kid = some stored ∧
      (requestFmt serviceRequest = "jwk" →
        WrapsJwk h stored.item (strToBuf wrappingKey) response.wrapped) ∧
      (requestFmt serviceRequest = "tink" →
        WrapsTink h stored.item (strToBuf wrappingKey) response.wrapped)
  unwrappedGcp : ∀ t request response, answered (unwrapKeyGcp h t kv request) = some response →
    ∃ body stored wrappingKey, request.bodyJson = .ok body ∧
      body.get "wrappingKey" = .ok (.ofString wrappingKey) ∧
      kv.hpkeKeys.lookup response.wrappedKid = some stored ∧
      WrapsJwk h stored.item (strToBuf (normalized wrappingKey)) response.wrapped
  shown : ∀ t request response serviceRequest kid,
    answered (pubkey h t kv request) = some response →
    ReadAs h t kv "pubkey" request serviceRequest →
    queryGet serviceRequest.query "kid" = some kid → kid ≠ "" →
    ∃ stored, kv.hpkeKeys.lookup kid = some stored ∧ ShowsPublicPart h stored.item response
  offered : ∀ t request response kid, answered (pubkey h t kv request) = some response →
    WithoutKid h request → Offers h t kv kid →
    ∃ stored, kv.hpkeKeys.lookup kid = some stored ∧ ShowsPublicPart h stored.item response
  listed : ∀ t request keySet kid, answered (listpubkeys h t kv request) = some keySet →
    Offers h t kv kid →
    ∃ stored, kv.hpkeKeys.lookup kid = some stored ∧ ListsPublicPart h stored.item keySet

theorem wrapsJwk_of_payload {item : IKeyItem} {wrappingKey : Bytes} {wrapped : String}
    (hreceipt : item.receipt = none)
    (hw : Wraps h (strToBuf (KeyWrapper.payloadText h item)) wrappingKey wrapped) :
    WrapsJwk h item wrappingKey wrapped := by
  have hsame : { item with receipt := none } = item := by rw [← hreceipt]
  unfold KeyWrapper.payloadText at hw
  rw [hsame] at hw
  exact hw

theorem partsAgree_of_items
    (hitems : ∀ kid stored, kv.hpkeKeys.lookup kid = some stored →
      stored.item.receipt = none ∧ ∃ id, stored.item.id = some id) : PartsAgree h kv where
  unwrapped t request response serviceRequest hr hread := by
    obtain ⟨e, found, hfound, hfmt⟩ := of_answered (unwrapKey_ensures request) hr
    have hsame : (Except.ok found : Except JsError ServiceRequest) = .ok serviceRequest :=
      hfound.symm.trans hread
    cases hsame
    obtain ⟨stored, payload, hlookup, -, hpayload, hwraps⟩ := e.released
    refine ⟨e.body, e.kid, stored, e.wrappingKey, e.bodyJson, e.kidField, e.wrappingKeyField,
      hlookup, fun hjwk => ?_, fun htink => ?_⟩
    · have hnot : ¬ e.fmt = "tink" := by
        rw [hfmt, hjwk]
        decide
      unfold Payload at hpayload
      rw [if_neg hnot] at hpayload
      rw [hpayload] at hwraps
      exact wrapsJwk_of_payload (hitems e.kid stored hlookup).1 hwraps
    · unfold Payload at hpayload
      rw [if_pos (hfmt.trans htink)] at hpayload
      obtain ⟨d, privateKey, hd, hdecode, rfl⟩ := hpayload
      exact ⟨d, privateKey, hd, hdecode, hwraps⟩
  unwrappedGcp t request response hr := by
    obtain ⟨wrappingKey, claim, stored, hb, hn⟩ := of_answered (unwrapKeyGcp_ensures request) hr
    obtain ⟨e⟩ := gcp_evidence hb hn
    have hlookup := e.released.lookup
    exact ⟨e.body, e.stored, e.wrappingKey, e.bodyJson, e.wrappingKeyField, hlookup,
      wrapsJwk_of_payload (hitems _ _ hlookup).1 e.released.wraps⟩
  shown t request response serviceRequest kid hr hread hq hkid := by
    obtain ⟨stored, hlookup, hpublic⟩ := pubkey_named hread hkid hq hr
    exact ⟨stored, hlookup, showsPublicPart_of hpublic⟩
  offered t request response kid hr hw ho := by
    obtain ⟨kid', stored, ho', hlookup, hpublic⟩ := pubkey_offered hw hr
    rw [offers_unique ho ho']
    exact ⟨stored, hlookup, showsPublicPart_of hpublic⟩
  listed t request keySet kid hr ho := by
    obtain ⟨kid', stored, ho', hlookup, hpublic⟩ := of_answered (listpubkeys_ensures request) hr
    obtain ⟨id, hid⟩ := (hitems kid' stored hlookup).2
    rw [offers_unique ho ho']
    exact ⟨stored, hlookup, listsPublicPart_of hid hpublic⟩

/-- A key keeps the item that its refresh stored, and every endpoint renders that item. -/
theorem public_and_private_parts_agree (h : Host) (kv : Kv) (events : List Event) :
    (∀ kid stored, (run (keyStep h) kv.withoutKeys events).hpkeKeys.lookup kid = some stored →
      stored.item.kid = some kid ∧ stored.item.d.isSome = true ∧
        Originates h kv.withoutKeys events kid stored ∧
        ∀ later, (run (keyStep h) kv.withoutKeys (events ++ later)).hpkeKeys.lookup kid =
          some stored) ∧
      PartsAgree h (run (keyStep h) kv.withoutKeys events) := by
  obtain ⟨log, -, hlog⟩ := keyLog_run (h := h) (keyLog_withoutKeys kv) events
  have hnumbered (kid : String) (stored : StoredItem)
      (hlookup : (run (keyStep h) kv.withoutKeys events).hpkeKeys.lookup kid = some stored) :
      ∃ i, NumberedKey i kid stored.item := by
    obtain ⟨i, hi⟩ := List.mem_iff_getElem?.mp ((hlog.indexed.lookup_item _ _).mp hlookup)
    exact ⟨i + 1, hlog.numbered i kid stored hi⟩
  have horigin := originates_of_lookup h kv events
  refine ⟨fun kid stored hlookup => ?_, partsAgree_of_items fun kid stored hlookup => ?_⟩
  · obtain ⟨i, hi⟩ := hnumbered kid stored hlookup
    refine ⟨hi.kid_eq, hi.hasPrivate, horigin kid stored hlookup, fun later => ?_⟩
    exact (key_store_invariant h kv events later).2.items kid stored hlookup
  · obtain ⟨i, hi⟩ := hnumbered kid stored hlookup
    obtain ⟨before, e, after, -, hmade⟩ := horigin kid stored hlookup
    exact ⟨hmade.noReceipt, _, hi.id_eq⟩

end DepaKms
