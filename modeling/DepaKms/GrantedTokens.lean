import DepaKms.GrantedReleases

set_option autoImplicit false

/-!
# Which tokens are granted a key

For a caller that comes by its token, `unwrapKeyGcp` decides by the token, the key that is sent,
the policies accepted so far and the last accepted refresh.
-/
namespace DepaKms

variable {h : Host} {t : Moment} {kv : Kv} {xs : List Transaction} {request : Request}

theorem issuers_of_service (h : Host) (kv : Kv) (xs : List Transaction) :
    (serviceAfter h kv xs).jwtIssuers = kv.jwtIssuers := by
  obtain ⟨l, -, hr, -⟩ := represents_service h kv xs
  have hsame := congrArg Kv.jwtIssuers hr.identities
  exact hsame

/-- A caller is known by its token just when the token meets the policy last accepted for its
    issuer, and this policy can be put into the log. -/
theorem token_identified_iff {caller : Caller} (hcaller : request.caller = some caller)
    (hpolicy : caller.policy = .one "jwt") (h : Host) (t : Moment) (xs : List Transaction)
    (name : String) (hissuers : ∀ e ∈ kv.jwtIssuers.entries, ∃ v, e.2 = .json v) :
    (∃ serviceRequest, Identified h t (serviceAfter h kv xs) name request serviceRequest) ↔
      ∃ jwt fields policy, caller.jwt = some jwt ∧ jwt.payload = .json (.obj fields) ∧
        MeetsLast (acceptedEdits h kv xs .jwtValidation) fields policy ∧
        Renders h.toEngine policy := by
  constructor
  · rintro ⟨serviceRequest, hi⟩
    exact token_meets hcaller hpolicy hi
  · rintro ⟨jwt, fields, policy, hjwt, hpayload, hlast, hrenders⟩
    have hstored : ∀ e ∈ (serviceAfter h kv xs).jwtIssuers.entries, ∃ v, e.2 = .json v := by
      rw [issuers_of_service]
      exact hissuers
    have hmeets := (meetsPolicy_of_service jwt.payload policy).mpr ⟨fields, hpayload, hlast⟩
    obtain ⟨c, identity, hauth, hok⟩ := (authenticated_iff hcaller hpolicy _
      (received h t (LogContext.new.appendScope name) request).logContext).mpr
      (validate_complete h hstored hjwt hmeets hrenders)
    refine ⟨_, result_new (settingsAre_of_service h kv xs) t _ request, c, identity, ?_, hok⟩
    rw [result_isAuthenticated]
    exact hauth

/-- The nonce is the claim `eat_nonce`, or the first of its texts. -/
def NonceFirst (fields : List (String × Json)) (nonce : String) : Prop :=
  fields.lookup "eat_nonce" = some (.str nonce) ∨
    ∃ rest, fields.lookup "eat_nonce" = some (.arr (.str nonce :: rest))

theorem expectedNonce_iff {claim : JsValue} {nonce : String} :
    expectedNonce claim = .ofString nonce ↔
      claim = .ofString nonce ∨ ∃ rest, claim = .json (.arr (.str nonce :: rest)) := by
  constructor
  · intro hc
    match claim, hc with
    | .json (.arr (v :: vs)), hc =>
      cases hc
      exact .inr ⟨vs, rfl⟩
    | .json (.str s), hc => exact .inl hc
  · rintro (rfl | ⟨rest, rfl⟩)
    · rfl
    · rfl

theorem nonce_iff {caller : Caller} {jwt : Jwt} {fields : List (String × Json)} {nonce : String}
    (hcaller : request.caller = some caller) (hjwt : caller.jwt = some jwt)
    (hpayload : jwt.payload = .json (.obj fields)) :
    (∃ claim, eatNonce request = .ok claim ∧ expectedNonce claim = .ofString nonce) ↔
      NonceFirst fields nonce := by
  have hread : eatNonce request = (Json.obj fields).get "eat_nonce" := by
    unfold eatNonce
    rw [hcaller, Option.bind_some, hjwt]
    dsimp only
    rw [hpayload]
    rfl
  rw [hread]
  unfold NonceFirst
  constructor
  · rintro ⟨claim, hclaim, hnonce⟩
    rcases expectedNonce_iff.mp hnonce with rfl | ⟨rest, rfl⟩
    · exact .inl (Json.get_json_iff.mp hclaim)
    · exact .inr ⟨rest, Json.get_json_iff.mp hclaim⟩
  · rintro (hlookup | ⟨rest, hlookup⟩)
    · exact ⟨_, Json.get_own hlookup, rfl⟩
    · exact ⟨_, Json.get_own hlookup, rfl⟩

/-- The second reading of the body finds no more than the first. -/
theorem gcpWrappingKey_iff {pem : String} (hpem : IsPemPublicKey pem) (logContextIn : LogContext) :
    gcpWrappingKey (received h t logContextIn request) request = .ok (.ofString pem) ↔
      ∃ body, request.bodyJson = .ok body ∧ body.get "wrappingKey" = .ok (.ofString pem) := by
  constructor
  · intro hkey
    refine gcpWrappingKey_body (fun body hbody => ?_) hkey (pem_truthy hpem)
    change request.bodyJson.toOption = some body at hbody
    cases hjson : request.bodyJson with
    | ok body' =>
      rw [hjson] at hbody
      cases hbody
      rfl
    | error e =>
      rw [hjson] at hbody
      cases hbody
  · rintro ⟨body, hjson, hfield⟩
    unfold gcpWrappingKey
    rw [hjson]
    dsimp only
    rw [hfield, Logged.ok_bind, if_pos (pem_truthy hpem)]
    rfl

theorem MadeAfter.named {before : List Transaction} {x : Transaction} {kid : String}
    {item : IKeyItem} (hm : MadeAfter h kv before x kid item) :
    ∃ base, kid = kidOf base ((refreshes h kv before).length + 1) := by
  obtain ⟨keys, jwk, -, -, hrecord⟩ := hm.record
  have hkid := hm.kid
  rw [hrecord] at hkid
  exact ⟨_, (Option.some.inj hkid).symm⟩

/-- What is wrapped is the key of the last accepted refresh. -/
theorem newest_iff {kid wrappingKey wrapped : String} :
    (∃ stored, NewestWrapped h (serviceAfter h kv xs) kid stored wrappingKey wrapped) ↔
      ∃ before x after item, xs = before ++ x :: after ∧ MadeAfter h kv before x kid item ∧
        (refreshes h kv xs).length = (refreshes h kv before).length + 1 ∧
        Wraps h (strToBuf (KeyWrapper.payloadText h item)) (strToBuf (normalized wrappingKey))
          wrapped := by
  obtain ⟨log, hlog, hmakes⟩ := keys_of_service h kv xs
  have hlength : (refreshes h kv xs).length = log.length := hmakes.length_eq
  -- the number in the kid tells the place in the log
  have hplace {before : List Transaction} {x : Transaction} {kid : String} {stored : StoredItem}
      {i : ℕ} (hm : MadeAfter h kv before x kid stored.item) (hi : log[i]? = some (kid, stored)) :
      i = (refreshes h kv before).length := by
    obtain ⟨base, hbase⟩ := hm.named
    obtain ⟨base', hbase'⟩ := (hlog.numbered i kid stored hi).named
    exact Nat.succ.inj (kidOf_number (hbase'.symm.trans hbase))
  constructor
  · rintro ⟨stored, hn⟩
    obtain ⟨before, x, after, hxs, hm⟩ := stored_key_is_record h kv xs kid stored hn.lookup
    refine ⟨before, x, after, stored.item, hxs, hm, ?_, hn.wraps⟩
    obtain ⟨n, hlatest⟩ := hn.latest
    rw [hlog.latestItem] at hlatest
    obtain ⟨i, stored', hi, hentry⟩ :=
      hlog.indexed.lookup_iff.mp (Prod.mk.inj (Except.ok.inj hlatest)).2
    cases hn.lookup.symm.trans (hlog.lookup_entry hentry)
    rw [hlength, hi, hplace hm hentry]
  · rintro ⟨before, x, after, item, hxs, hm, hlast, hwraps⟩
    obtain ⟨stored, hlookup, rfl⟩ : ∃ stored,
        (serviceAfter h kv xs).hpkeKeys.lookup kid = some stored ∧ stored.item = item := by
      rw [hxs]
      exact stored_of_made hm
    obtain ⟨i, hi⟩ := List.mem_iff_getElem?.mp ((hlog.indexed.lookup_item _ _).mp hlookup)
    refine ⟨stored, ⟨log.length, ?_⟩, hlookup, hwraps⟩
    rw [hlog.latestItem]
    have hnewest : (serviceAfter h kv xs).hpkeKeyIds.lookup log.length = some kid := by
      rw [← hlength, hlast, ← hplace hm hi]
      exact hlog.indexed.lookup_iff.mpr ⟨i, stored, rfl, hi⟩
    rw [hnewest]

/-- What a request with a token comes with, and where the key comes from. -/
structure TokenGrant where
  jwt : Jwt
  fields : List (String × Json)
  policy : Json
  body : Json
  wrappingKey : String
  before : List Transaction
  maker : Transaction
  after : List Transaction
  item : IKeyItem

/-- The token meets the policy last accepted for its issuer and names the key that is sent, and
    the key that is wrapped is the one of the last accepted refresh. -/
structure TokenGrant.Holds (g : TokenGrant) (h : Host) (kv : Kv) (xs : List Transaction)
    (request : Request) (caller : Caller) (kid wrapped : String) : Prop where
  token : caller.jwt = some g.jwt
  payload : g.jwt.payload = .json (.obj g.fields)
  meets : MeetsLast (acceptedEdits h kv xs .jwtValidation) g.fields g.policy
  renders : Renders h.toEngine g.policy
  bodyJson : request.bodyJson = .ok g.body
  wrappingKeyField : g.body.get "wrappingKey" = .ok (.ofString g.wrappingKey)
  pem : IsPemPublicKey g.wrappingKey
  nonce : NonceFirst g.fields (gcpHash h g.wrappingKey)
  calls : xs = g.before ++ g.maker :: g.after
  made : MadeAfter h kv g.before g.maker kid g.item
  last : (refreshes h kv xs).length = (refreshes h kv g.before).length + 1
  wraps : Wraps h (strToBuf (KeyWrapper.payloadText h g.item))
    (strToBuf (normalized g.wrappingKey)) wrapped

end DepaKms
