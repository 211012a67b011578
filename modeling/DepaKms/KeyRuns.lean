import DepaKms.PublicKeyEndpoint
import DepaKms.KeyEndpoint
import DepaKms.IndexedLog
import DepaKms.Runs

set_option autoImplicit false

/-!
# Runs of the key endpoints

The key maps over any sequence of calls. Only `refresh` writes to them; what it
writes is one more entry of a log that the two maps hold together.
-/
namespace DepaKms

/-- A call, with the key pair that the generator returns to a refresh. -/
inductive Call where
  | refresh (keys : CryptoKeyPair)
  | key
  | unwrapKey
  | unwrapKeyGcp
  | pubkey
  | listpubkeys

structure Event where
  call : Call
  moment : Moment
  request : Request

variable (h : Host)

section Step

variable (kv : Kv)

def reading {α : Type} (handler : Handler (ServiceResult α)) : Handler (Bool × Kv) := do
  let response ← handler
  pure (response.isFailure, kv)

def Event.perform (e : Event) : Handler (Bool × Kv) :=
  match e.call with
  | .refresh keys => do
    let (response, kv) ← DepaKms.refresh h e.moment kv keys e.request
    pure (response.isFailure, kv)
  | .key => reading kv (DepaKms.key h e.moment kv e.request)
  | .unwrapKey => reading kv (DepaKms.unwrapKey h e.moment kv e.request)
  | .unwrapKeyGcp => reading kv (DepaKms.unwrapKeyGcp h e.moment kv e.request)
  | .pubkey => reading kv (DepaKms.pubkey h e.moment kv e.request)
  | .listpubkeys => reading kv (DepaKms.listpubkeys h e.moment kv e.request)

/-- The transaction of the call: a failure or an uncaught error rolls it back. -/
def keyStep (e : Event) : Kv :=
  match (e.perform h kv).result with
  | .ok (false, kv') => { kv' with version := kv'.version + 1 }
  | _ => kv

def Event.isRefresh (e : Event) : Bool :=
  match e.call with
  | .refresh _ => true
  | _ => false

def Event.succeeds (e : Event) : Bool :=
  match (e.perform h kv).result with
  | .ok (failed, _) => !failed
  | .error _ => false

def refreshTimes : Kv → List Event → List ℚ
  | _, [] => []
  | kv, e :: events =>
    if e.isRefresh && e.succeeds h kv then e.moment.now :: refreshTimes (keyStep h kv e) events
    else refreshTimes (keyStep h kv e) events

def Kv.withoutKeys (kv : Kv) : Kv := { kv with hpkeKeys := ∅, hpkeKeyIds := ∅ }

end Step

def kidOf (base : String) (n : ℕ) : String := s!"{base}_{n}"

structure NumberedKey (n : ℕ) (kid : String) (item : IKeyItem) : Prop where
  named : ∃ base, kid = kidOf base n
  kid_eq : item.kid = some kid
  hasPrivate : item.d.isSome = true
  hasTimestamp : item.timestamp.isSome = true
  id_eq : item.id = some (n % 90 + 10)

def Kv.addKey (kv : Kv) (n : ℕ) (kid : String) (item : IKeyItem) : Kv :=
  { kv with
    hpkeKeyIds := kv.hpkeKeyIds.insert n kid
    hpkeKeys := kv.hpkeKeys.insert kid ⟨item, kv.version⟩ }

/-- The record of the pair as the key of this number. -/
def newKeyItem (h : Host) (t : Moment) (keys : CryptoKeyPair) (jwk : JsonWebKeyEdDSAPrivate)
    (n : ℕ) (expiry : Option ℚ) : IKeyItem where
  crv := jwk.crv
  d := some jwk.d
  kid := some (kidOf (KeyGeneration.calculateKid h keys.publicKey) n)
  kty := jwk.kty
  x := jwk.x
  timestamp := some t.now
  expiry := expiry
  id := some (n % 90 + 10)
  receipt := none

structure NewKey (h : Host) (t : Moment) (keys : CryptoKeyPair) (kv : Kv) (kid : String)
    (item : IKeyItem) : Prop where
  bounded : LastestItemStore.size kv + 1 < 2 ^ 32
  record : ∃ jwk expiry, h.eddsaPemToJwk keys.privateKey = .ok jwk ∧
    item = newKeyItem h t keys jwk (LastestItemStore.size kv + 1) expiry
  kid_eq : item.kid = some kid

variable {h} {t : Moment} {kv : Kv} {keys : CryptoKeyPair}

section NewKey

variable {kid : String} {item : IKeyItem} (hn : NewKey h t keys kv kid item)
include hn

theorem NewKey.numbered : NumberedKey (LastestItemStore.size kv + 1) kid item := by
  obtain ⟨jwk, expiry, -, rfl⟩ := hn.record
  exact ⟨⟨_, (Option.some.inj hn.kid_eq).symm⟩, hn.kid_eq, rfl, rfl, rfl⟩

theorem NewKey.timestamp_eq : item.timestamp = some t.now := by
  obtain ⟨jwk, expiry, -, rfl⟩ := hn.record
  rfl

theorem NewKey.noReceipt : item.receipt = none := by
  obtain ⟨jwk, expiry, -, rfl⟩ := hn.record
  rfl

end NewKey

theorem generateKeyItem_ensures (keys : CryptoKeyPair) (n : ℕ) (expiry : Option ℚ) :
    Logged.Ensures (KeyGeneration.generateKeyItem h t keys (n % 90 + 10) expiry) fun item =>
      ∃ jwk expiry, h.eddsaPemToJwk keys.privateKey = .ok jwk ∧
        item.kid = some (KeyGeneration.calculateKid h keys.publicKey) ∧
        { item with kid := some (kidOf (KeyGeneration.calculateKid h keys.publicKey) n) } =
          newKeyItem h t keys jwk n expiry :=
  .read fun jwk hjwk => .skip fun _ => .pure ⟨jwk, _, hjwk, rfl, rfl⟩

theorem storeItem_ensures (id : ℕ) (kid : String) :
    Logged.Ensures (liftM (LastestItemStore.storeItem kv id kid) : Handler Kv) fun kv' =>
      id < 2 ^ 32 ∧ kv' = { kv with hpkeKeyIds := kv.hpkeKeyIds.insert id kid } := by
  refine .lift fun kv' hkv => ?_
  obtain ⟨id', hid, hkv⟩ := Logged.bind_ok_iff.mp hkv
  unfold uint32Key at hid
  split_ifs at hid with hlt
  cases hid
  cases hkv
  exact ⟨hlt, rfl⟩

/-- A refresh that does not fail adds one key; one that fails changes nothing. -/
def Refreshed (h : Host) (t : Moment) (keys : CryptoKeyPair) (kv : Kv)
    (r : ServiceResult IKeyItem × Kv) : Prop :=
  if r.1.isFailure then r.2 = kv
  else ∃ kid item, NewKey h t keys kv kid item ∧
    r.2 = kv.addKey (LastestItemStore.size kv + 1) kid item

theorem refreshBody_ensures (keys : CryptoKeyPair) (logContext : LogContext) (expiry : Option ℚ) :
    Logged.Ensures (refreshBody h t kv keys logContext expiry) (Refreshed h t keys kv) := by
  refine .bind (generateKeyItem_ensures keys (LastestItemStore.size kv + 1) expiry)
    fun generated hg => ?_
  obtain ⟨jwk, recorded, hjwk, hkid, hrecord⟩ := hg
  refine .bind (storeItem_ensures _ _) fun kv' hstored => ?_
  obtain ⟨hlt, rfl⟩ := hstored
  refine .skip fun _ => .step fun response hr => .pure ?_
  cases hr
  rw [hkid]
  exact ⟨_, _, ⟨hlt, ⟨jwk, recorded, hjwk, hrecord⟩, rfl⟩, rfl⟩

theorem refresh_ensures (keys : CryptoKeyPair) (request : Request) :
    Logged.Ensures (refresh h t kv keys request) (Refreshed h t keys kv) := by
  have hcaught (logContext : LogContext) (expiry : Option ℚ) :
      Logged.Ensures (tryCatch (refreshBody h t kv keys logContext expiry) fun exception => do
        let failed ← caughtError h logContext s!"refresh: Error: {exception.message}"
        pure (failed, kv)) (Refreshed h t keys kv) := by
    refine .tryCatch (refreshBody_ensures keys _ _) fun exception => ?_
    refine .step fun failed hf => .pure ?_
    cases hf
    rfl
  refine .skip fun serviceRequest => .skip fun identity => ?_
  match identity with
  | (_, .failure error code headers) => exact .pure rfl
  | (_, .success _ _) | (_, .pending _) =>
    refine .skip fun _ => .skip fun times => ?_
    cases times <;> exact .skip fun _ => hcaught _ _

theorem kidOf_number {base base' : String} {m n : ℕ} (he : kidOf base m = kidOf base' n) :
    m = n := by
  have hdigits (base : String) (n : ℕ) :
      (kidOf base n).toList.reverse.takeWhile (fun c => c ≠ '_') = (toString n).toList.reverse := by
    have hlist : (kidOf base n).toList.reverse =
        (toString n).toList.reverse ++ '_' :: base.toList.reverse := by
      have hk : kidOf base n = base ++ "_" ++ toString n := rfl
      simp [hk]
    rw [hlist, List.takeWhile_append_of_pos]
    · simp
    · intro c hc
      have hc : c ∈ Nat.toDigits 10 n := by
        rw [List.mem_reverse] at hc
        simpa [Nat.repr] using hc
      have hne : c ≠ '_' := fun hu => Nat.underscore_not_in_toDigits (hu ▸ hc)
      simpa using hne
  have hsame : (toString m).toList.reverse = (toString n).toList.reverse := by
    rw [← hdigits base m, ← hdigits base' n, he]
  exact Nat.repr_injective (String.toList_inj.mp (List.reverse_injective hsame))

/-- The log behind the two maps; the number of an entry is its position, from one on. -/
structure KeyLog (kv : Kv) (log : List (String × StoredItem)) : Prop where
  bounded : log.length < 2 ^ 32
  indexed : IndexedLog kv.hpkeKeyIds kv.hpkeKeys log
  numbered : ∀ i kid stored, log[i]? = some (kid, stored) → NumberedKey (i + 1) kid stored.item

theorem KeyLog.size_eq {log : List (String × StoredItem)} (hl : KeyLog kv log) :
    LastestItemStore.size kv = log.length := hl.indexed.size

theorem KeyLog.lookup_entry {log : List (String × StoredItem)} (hl : KeyLog kv log) {i : ℕ}
    {kid : String} {stored : StoredItem} (hi : log[i]? = some (kid, stored)) :
    kv.hpkeKeys.lookup kid = some stored :=
  (hl.indexed.lookup_item _ _).mpr (List.mem_of_getElem? hi)

theorem keyLog_withoutKeys (kv : Kv) : KeyLog kv.withoutKeys [] :=
  ⟨by simp, .empty, by simp⟩

theorem KeyLog.fresh {log : List (String × StoredItem)} (hl : KeyLog kv log) {kid : String}
    {item : IKeyItem} (hk : NumberedKey (log.length + 1) kid item) :
    kid ∉ log.map Prod.fst := by
  intro hm
  obtain ⟨⟨kid', stored⟩, hentry, rfl⟩ := List.mem_map.mp hm
  obtain ⟨i, hi⟩ := List.mem_iff_getElem?.mp hentry
  obtain ⟨base, hbase⟩ := hk.named
  obtain ⟨base', hbase'⟩ := (hl.numbered i _ _ hi).named
  have hn : log.length + 1 = i + 1 := kidOf_number (hbase.symm.trans hbase')
  obtain ⟨hlt, -⟩ := List.getElem?_eq_some_iff.mp hi
  omega

theorem KeyLog.addKey {log : List (String × StoredItem)} (hl : KeyLog kv log) {kid : String}
    {item : IKeyItem} (hk : NumberedKey (log.length + 1) kid item)
    (hlt : log.length + 1 < 2 ^ 32) :
    KeyLog (kv.addKey (log.length + 1) kid item) (log ++ [(kid, ⟨item, kv.version⟩)]) where
  bounded := by simpa using hlt
  indexed := hl.indexed.append (hl.fresh hk) _
  numbered i kid' stored hi := by
    rw [List.getElem?_append] at hi
    split_ifs at hi with hlt
    · exact hl.numbered i _ _ hi
    · obtain ⟨hi0, he⟩ := List.getElem?_eq_some_iff.mp hi
      simp only [List.length_singleton] at hi0
      have hilen : i = log.length := by omega
      subst hilen
      simp only [Nat.sub_self, List.getElem_cons_zero, Prod.mk.injEq] at he
      obtain ⟨rfl, rfl⟩ := he
      exact hk

theorem KeyLog.congr {kv' : Kv} {log : List (String × StoredItem)} (hl : KeyLog kv log)
    (hids : kv'.hpkeKeyIds = kv.hpkeKeyIds) (hkeys : kv'.hpkeKeys = kv.hpkeKeys) :
    KeyLog kv' log := by
  refine ⟨hl.bounded, ?_, hl.numbered⟩
  rw [hids, hkeys]
  exact hl.indexed

theorem reading_ensures {α : Type} (handler : Handler (ServiceResult α)) :
    Logged.Ensures (reading kv handler) fun p => p.2 = kv :=
  .skip fun _ => .pure rfl

/-- What a transaction can do to the maps: nothing, or add the key of a refresh. -/
theorem keyStep_cases (h : Host) (kv : Kv) (e : Event) :
    ((e.isRefresh && e.succeeds h kv) = false ∧
      ∃ version, keyStep h kv e = { kv with version }) ∨
    ((e.isRefresh && e.succeeds h kv) = true ∧ ∃ keys kid item, NewKey h e.moment keys kv kid item ∧
      keyStep h kv e =
        { kv.addKey (LastestItemStore.size kv + 1) kid item with version := kv.version + 1 }) := by
  obtain ⟨call, t, request⟩ := e
  have hread {α : Type} (handler : Handler (ServiceResult α))
      (hp : Event.perform h kv ⟨call, t, request⟩ = reading kv handler) :
      ∃ version, keyStep h kv ⟨call, t, request⟩ = { kv with version } := by
    unfold keyStep
    rw [hp]
    split
    · rename_i kv' hr
      have hkv : kv' = kv := reading_ensures handler _ hr
      rw [hkv]
      exact ⟨_, rfl⟩
    · exact ⟨kv.version, rfl⟩
  cases call with
  | refresh keys =>
    simp only [Event.isRefresh, Bool.true_and, Event.succeeds, keyStep, Event.perform,
      Logged.result_bind]
    cases hr : (refresh h t kv keys request).result with
    | error e => exact .inl ⟨rfl, kv.version, rfl⟩
    | ok r =>
      have hrefreshed := refresh_ensures keys request r hr
      unfold Refreshed at hrefreshed
      obtain ⟨response, kv'⟩ := r
      simp only [Logged.ok_bind, Logged.result_pure]
      cases hf : response.isFailure with
      | true => exact .inl ⟨rfl, kv.version, rfl⟩
      | false =>
        simp only [hf, Bool.false_eq_true, if_false] at hrefreshed
        obtain ⟨kid, item, hnew, rfl⟩ := hrefreshed
        exact .inr ⟨rfl, keys, kid, item, hnew, rfl⟩
  | key => exact .inl ⟨rfl, hread _ rfl⟩
  | unwrapKey => exact .inl ⟨rfl, hread _ rfl⟩
  | unwrapKeyGcp => exact .inl ⟨rfl, hread _ rfl⟩
  | pubkey => exact .inl ⟨rfl, hread _ rfl⟩
  | listpubkeys => exact .inl ⟨rfl, hread _ rfl⟩

theorem keyLog_step {log : List (String × StoredItem)} (hl : KeyLog kv log) (e : Event) :
    ((e.isRefresh && e.succeeds h kv) = false ∧ KeyLog (keyStep h kv e) log) ∨
    ((e.isRefresh && e.succeeds h kv) = true ∧ ∃ kid stored,
      stored.item.timestamp = some e.moment.now ∧
        KeyLog (keyStep h kv e) (log ++ [(kid, stored)])) := by
  rcases keyStep_cases h kv e with
    ⟨hno, version, hkv⟩ | ⟨hyes, keys, kid, item, hnew, hkv⟩
  · rw [hkv]
    exact .inl ⟨hno, hl.congr rfl rfl⟩
  · refine .inr ⟨hyes, kid, ⟨item, kv.version⟩, hnew.timestamp_eq, ?_⟩
    have hnumbered := hnew.numbered
    have hbounded := hnew.bounded
    rw [hl.size_eq] at hnumbered hbounded hkv
    rw [hkv]
    exact (hl.addKey hnumbered hbounded).congr rfl rfl

/-- The log after a run extends the one before it by one entry for each refresh. -/
theorem keyLog_run {log : List (String × StoredItem)} (hl : KeyLog kv log)
    (events : List Event) :
    ∃ added, added.map (fun entry => entry.2.item.timestamp) =
        (refreshTimes h kv events).map some ∧
      KeyLog (run (keyStep h) kv events) (log ++ added) := by
  induction events generalizing kv log with
  | nil => exact ⟨[], rfl, by simpa using hl⟩
  | cons e events ih =>
    rcases keyLog_step (h := h) hl e with ⟨hno, hstep⟩ | ⟨hyes, kid, stored, htime, hstep⟩
    · obtain ⟨added, htimes, hrun⟩ := ih hstep
      refine ⟨added, ?_, hrun⟩
      rw [htimes, refreshTimes, hno]
      rfl
    · obtain ⟨added, htimes, hrun⟩ := ih hstep
      refine ⟨(kid, stored) :: added, ?_, ?_⟩
      · rw [List.map_cons, htimes, htime, refreshTimes, hyes]
        rfl
      · rw [List.append_assoc] at hrun
        exact hrun

theorem keyRotation_run (kv : Kv) (events : List Event) :
    (run (keyStep h) kv events).keyRotation = kv.keyRotation := by
  refine run_preserves (P := fun kv' : Kv => kv'.keyRotation = kv.keyRotation) ?_ rfl events
  intro kv' e hkv'
  rcases keyStep_cases h kv' e with ⟨-, version, he⟩ | ⟨-, keys, kid, item, -, he⟩
  · rw [he]
    exact hkv'
  · rw [he]
    exact hkv'

/-- What the two maps look like after `n` successful refreshes. -/
structure KeyStoreInvariant (kv : Kv) (n : ℕ) : Prop where
  domain : ∀ i, i ∈ kv.hpkeKeyIds ↔ 1 ≤ i ∧ i ≤ n
  distinct : ∀ i j kid, kv.hpkeKeyIds.lookup i = some kid → kv.hpkeKeyIds.lookup j = some kid →
    i = j
  keys : ∀ kid, kid ∈ kv.hpkeKeys ↔ ∃ i, kv.hpkeKeyIds.lookup i = some kid
  items : ∀ i kid, kv.hpkeKeyIds.lookup i = some kid → ∃ stored,
    kv.hpkeKeys.lookup kid = some stored ∧ stored.item.kid = some kid ∧
      stored.item.d.isSome = true ∧ stored.item.timestamp.isSome = true ∧
      stored.item.id = some (i % 90 + 10) ∧ 10 ≤ i % 90 + 10 ∧ i % 90 + 10 ≤ 99
  separate : ∀ i j kid kid' stored stored', i < j → j < i + 90 →
    kv.hpkeKeyIds.lookup i = some kid → kv.hpkeKeyIds.lookup j = some kid' →
    kv.hpkeKeys.lookup kid = some stored → kv.hpkeKeys.lookup kid' = some stored' →
      stored.item.id ≠ stored'.item.id
  latest : LastestItemStore.latestItem kv = .ok (n, kv.hpkeKeyIds.lookup n)

theorem KeyLog.item_of_lookup {log : List (String × StoredItem)} (hl : KeyLog kv log) {i : ℕ}
    {kid : String} (hi : kv.hpkeKeyIds.lookup i = some kid) :
    ∃ stored, kv.hpkeKeys.lookup kid = some stored ∧ NumberedKey i kid stored.item := by
  obtain ⟨j, stored, rfl, hj⟩ := hl.indexed.lookup_iff.mp hi
  exact ⟨stored, hl.lookup_entry hj, hl.numbered j _ _ hj⟩

theorem KeyLog.latestItem {log : List (String × StoredItem)} (hl : KeyLog kv log) :
    LastestItemStore.latestItem kv = .ok (log.length, kv.hpkeKeyIds.lookup log.length) := by
  unfold LastestItemStore.latestItem LastestItemStore.get uint32Key
  rw [hl.size_eq]
  dsimp only
  rw [if_pos hl.bounded]
  split_ifs with hz
  · have hz : log.length = 0 := by omega
    rw [hz, hl.indexed.lookup_zero]
    rfl
  · rfl

theorem KeyLog.invariant {log : List (String × StoredItem)} (hl : KeyLog kv log) :
    KeyStoreInvariant kv log.length where
  domain := hl.indexed.mem_ids
  distinct _ _ _ := hl.indexed.injective
  keys := hl.indexed.mem_items
  items i kid hi := by
    obtain ⟨stored, hstored, hn⟩ := hl.item_of_lookup hi
    exact ⟨stored, hstored, hn.kid_eq, hn.hasPrivate, hn.hasTimestamp, hn.id_eq, by omega, by omega⟩
  separate i j kid kid' stored stored' hij hji hi hj hs hs' := by
    obtain ⟨found, hfound, hn⟩ := hl.item_of_lookup hi
    obtain ⟨found', hfound', hn'⟩ := hl.item_of_lookup hj
    rw [hs] at hfound
    rw [hs'] at hfound'
    cases hfound
    cases hfound'
    rw [hn.id_eq, hn'.id_eq]
    intro he
    have he : i % 90 + 10 = j % 90 + 10 := Option.some.inj he
    omega
  latest := hl.latestItem

/-- Every key of the first store is in the second one, under the same number and unchanged. -/
structure KeysKept (kv kv' : Kv) : Prop where
  ids : ∀ i kid, kv.hpkeKeyIds.lookup i = some kid → kv'.hpkeKeyIds.lookup i = some kid
  items : ∀ kid stored, kv.hpkeKeys.lookup kid = some stored →
    kv'.hpkeKeys.lookup kid = some stored

theorem KeyLog.kept {kv' : Kv} {log added : List (String × StoredItem)} (hl : KeyLog kv log)
    (hl' : KeyLog kv' (log ++ added)) : KeysKept kv kv' where
  ids i kid hi := by
    obtain ⟨j, stored, rfl, hj⟩ := hl.indexed.lookup_iff.mp hi
    refine hl'.indexed.lookup_iff.mpr ⟨j, stored, rfl, ?_⟩
    obtain ⟨hlt, -⟩ := List.getElem?_eq_some_iff.mp hj
    rw [List.getElem?_append_left hlt, hj]
  items kid stored hs :=
    (hl'.indexed.lookup_item _ _).mpr
      (List.mem_append_left _ ((hl.indexed.lookup_item _ _).mp hs))

/-- The key maps after any run of calls, and what a further run leaves as it is. -/
theorem key_store_invariant (h : Host) (kv : Kv) (events later : List Event) :
    KeyStoreInvariant (run (keyStep h) kv.withoutKeys events)
        (refreshTimes h kv.withoutKeys events).length ∧
      KeysKept (run (keyStep h) kv.withoutKeys events)
        (run (keyStep h) kv.withoutKeys (events ++ later)) := by
  obtain ⟨log, htimes, hlog⟩ := keyLog_run (h := h) (keyLog_withoutKeys kv) events
  rw [List.nil_append] at hlog
  have hlen : log.length = (refreshTimes h kv.withoutKeys events).length := by
    simpa only [List.length_map] using congrArg List.length htimes
  obtain ⟨added, -, hadded⟩ := keyLog_run (h := h) hlog later
  rw [run_append]
  exact ⟨hlen ▸ hlog.invariant, hlog.kept hadded⟩

end DepaKms
