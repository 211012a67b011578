import DepaKms.Refusals

set_option autoImplicit false

/-!
# The key on offer

Which key `pubkey` and `listpubkeys` serve at a time, and whether `unwrapKey` still
accepts it then.
-/
namespace DepaKms

variable {h : Host} {t : Moment} {kv : Kv} {log : List (String × StoredItem)}

def Rotates (kv : Kv) (R G : ℚ) : Prop :=
  ∃ policy, kv.keyRotation.lookup "key_rotation_policy" = some (.json policy) ∧
    policy.get "rotation_interval_seconds" = .ok (.json (.num R)) ∧
    policy.get "grace_period_seconds" = .ok (.json (.num G))

theorem Rotates.periods {R G : ℚ} (hp : Rotates kv R G) :
    ∃ policy, KeyRotationPolicy.storedPolicy kv.keyRotation = .ok (some policy) ∧
      KeyRotationPolicy.periods h.toEngine policy = .ok (some R, some G) ∧
      KeyRotationPolicy.delaySeconds (some policy) = .ok (.json (.num G)) := by
  obtain ⟨policy, hlookup, hR, hG⟩ := hp
  refine ⟨policy, ?_, ?_, ?_⟩
  · simp [KeyRotationPolicy.storedPolicy, hlookup]
  · simp only [KeyRotationPolicy.periods, hR, hG, Logged.ok_bind]
    rfl
  · have hoptional : (Json.ofOption (some policy)).getOptional "grace_period_seconds" =
        policy.get "grace_period_seconds" := by
      cases policy <;> first | rfl | cases hG
    simp only [KeyRotationPolicy.delaySeconds, hoptional, hG, Logged.ok_bind]
    rfl

/-- The delay of the public endpoints: the grace period as a number, zero without a policy. -/
def GracePeriod (h : Host) (kv : Kv) (G : ℚ) : Prop :=
  ∃ policy delay, KeyRotationPolicy.storedPolicy kv.keyRotation = .ok policy ∧
    KeyRotationPolicy.delaySeconds policy = .ok delay ∧ delay.toNumber h.toEngine = .ok (some G)

theorem Rotates.gracePeriod {R G : ℚ} (hp : Rotates kv R G) : GracePeriod h kv G := by
  obtain ⟨policy, hstored, -, hdelay⟩ := hp.periods (h := h)
  exact ⟨some policy, _, hstored, hdelay, rfl⟩

/-- What has a numeric value has a text. -/
theorem render_of_toNumber {E : Engine} {v : JsValue} {q : ℚ}
    (hv : v.toNumber E = .ok (some q)) : ∃ text, v.render E = .ok text := by
  have hmap {w : Json} (hw : (w.render E).map E.stringToNumber = .ok (some q)) :
      ∃ text, (JsValue.json w).render E = .ok text := by
    cases hr : w.render E with
    | error e =>
      rw [hr] at hw
      cases hw
    | ok text => exact ⟨text, hr⟩
  cases v with
  | undefined => exact ⟨_, rfl⟩
  | builtin name => exact ⟨_, rfl⟩
  | json w =>
    cases w with
    | null => exact ⟨_, rfl⟩
    | bool b => exact ⟨_, rfl⟩
    | num p => exact ⟨_, rfl⟩
    | str s => exact hmap hv
    | arr xs => exact hmap hv
    | obj fields => exact hmap hv

theorem Rotates.isExpired {R G : ℚ} (hp : Rotates kv R G) (item : IKeyItem)
    (logContext : LogContext) :
    (KeyRotationPolicy.isExpired h.toEngine t kv.keyRotation item logContext).result =
      .ok (KeyRotationPolicy.classify (some t.now)
        (KeyRotationPolicy.expiryTimes item.timestamp (some R) (some G))) := by
  obtain ⟨policy, hstored, hperiods, -⟩ := hp.periods (h := h)
  rw [KeyRotationPolicy.result_isExpired, KeyRotationPolicy.result_getKeyRotationPolicyFromMap,
    hstored]
  simp only [Except.mapError, Logged.ok_bind, hperiods]
  rfl

/-- The first threshold that a key meets is the end of its rotation interval. -/
theorem classify_of_grace {R G τ now : ℚ} (hG : 0 ≤ G) :
    KeyRotationPolicy.classify (some now)
        (KeyRotationPolicy.expiryTimes (some τ) (some R) (some G)) =
      if τ + R * 1000 < now then (true, true) else (false, false) := by
  have hmul (a : ℚ) : numMul (some a) (some 1000) = some (a * 1000) := rfl
  have hadd (a b : ℚ) : numAdd (some a) (some b) = some (a + b) := rfl
  unfold KeyRotationPolicy.classify KeyRotationPolicy.expiryTimes
  simp only [hmul, hadd, numGt, decide_eq_true_eq]
  split_ifs with hlate hdeprecated
  · rfl
  · exact absurd hdeprecated (by linarith)
  · rfl

theorem fresh_iff {R G τ : ℚ} (hp : Rotates kv R G) (hG : 0 ≤ G) {item : IKeyItem}
    (hτ : item.timestamp = some τ) : Fresh h t kv item ↔ t.now ≤ τ + R * 1000 := by
  have hresult (logContext : LogContext) :
      (KeyRotationPolicy.isExpired h.toEngine t kv.keyRotation item logContext).result =
        .ok (if τ + R * 1000 < t.now then (true, true) else (false, false)) := by
    rw [hp.isExpired, hτ, classify_of_grace hG]
  unfold Fresh
  constructor
  · rintro ⟨deprecated, hd⟩
    have hd := hd LogContext.new
    rw [hresult] at hd
    by_contra hlate
    rw [if_pos (lt_of_not_ge hlate)] at hd
    cases hd
  · intro hle
    refine ⟨false, fun logContext => ?_⟩
    rw [hresult, if_neg (not_lt.mpr hle)]

theorem exposable_iff {G τ now : ℚ} (hnow : τ ≤ now) {item : IKeyItem}
    (hτ : item.timestamp = some τ) :
    KeyRotationPolicy.exposable (some (G * 1000)) (some now) (some item) = true ↔
      τ + G * 1000 ≤ now := by
  have hsub : KeyRotationPolicy.numSub (some now) (some τ) = some (now - τ) := rfl
  unfold KeyRotationPolicy.exposable
  simp only [Option.bind_some, hτ, hsub, numGe, Bool.or_eq_true, decide_eq_true_eq]
  constructor
  · rintro (hzero | hold)
    · linarith
    · linarith
  · intro hold
    exact .inr (by linarith)

theorem KeyLog.entry (hl : KeyLog kv log) {i : ℕ} {kid : String} {stored : StoredItem}
    (hi : log[i]? = some (kid, stored)) :
    LastestItemStore.get kv (i + 1) = .ok (some kid) ∧
      KeyStore.get kv (.ofString kid) = .ok (some stored.item) := by
  obtain ⟨hlt, -⟩ := List.getElem?_eq_some_iff.mp hi
  have hid : kv.hpkeKeyIds.lookup (i + 1) = some kid :=
    hl.indexed.lookup_iff.mpr ⟨i, stored, rfl, hi⟩
  have hitem := hl.lookup_entry hi
  have hsmall : i + 1 < 2 ^ 32 := by
    have := hl.bounded
    omega
  constructor
  · simp only [LastestItemStore.get, uint32Key, if_pos hsmall, Logged.ok_bind, hid]
    rfl
  · simp only [KeyStore.get, JsValue.ofString, stringKey, Logged.ok_bind, hitem]
    rfl

/-- The loop finds the newest of the first `n` entries that meets its test, if any does. -/
theorem exposableLoop_spec (hl : KeyLog kv log) (delayText : String) (delayMs now : Option ℚ)
    (logContext : LogContext) {n : ℕ} (hn : n ≤ log.length) :
    ((KeyRotationPolicy.exposableLoop h.toEngine (LastestItemStore.get kv)
        (fun k => KeyStore.get kv (.ofString k)) delayText delayMs now logContext n).result =
          .ok none ∧
      ∀ entry ∈ log.take n,
        KeyRotationPolicy.exposable delayMs now (some entry.2.item) = false) ∨
    ∃ i kid stored, i < n ∧ log[i]? = some (kid, stored) ∧
      (KeyRotationPolicy.exposableLoop h.toEngine (LastestItemStore.get kv)
        (fun k => KeyStore.get kv (.ofString k)) delayText delayMs now logContext n).result =
          .ok (some (i + 1, kid)) ∧
      KeyRotationPolicy.exposable delayMs now (some stored.item) = true ∧
      ∀ entry ∈ (log.take n).drop (i + 1),
        KeyRotationPolicy.exposable delayMs now (some entry.2.item) = false := by
  induction n with
  | zero => exact .inl ⟨rfl, by simp⟩
  | succ n ih =>
    have hlt : n < log.length := hn
    obtain ⟨⟨kid, stored⟩, hentry⟩ : ∃ entry, log[n]? = some entry :=
      ⟨log[n], List.getElem?_eq_getElem hlt⟩
    have htake : log.take (n + 1) = log.take n ++ [(kid, stored)] := by
      rw [List.take_add_one, hentry]
      rfl
    obtain ⟨hid, hitem⟩ := hl.entry hentry
    unfold KeyRotationPolicy.exposableLoop
    simp only [Logged.result_bind, Logged.result_lift, hid, Logged.ok_bind, hitem]
    cases hexp : KeyRotationPolicy.exposable delayMs now (some stored.item) with
    | true =>
      refine .inr ⟨n, kid, stored, by omega, hentry, ?_, hexp, ?_⟩
      · simp only [if_true]
        split_ifs <;> rfl
      · rw [List.drop_eq_nil_of_le (by simp)]
        simp
    | false =>
      simp only [Bool.false_eq_true, if_false]
      rcases ih hlt.le with ⟨hnone, hall⟩ | ⟨i, kid', stored', hi, hentry', hfound, hexp', hall⟩
      · rw [htake]
        exact .inl ⟨hnone, forall_mem_snoc.mpr ⟨hall, hexp⟩⟩
      · have hdrop : (log.take (n + 1)).drop (i + 1) =
            (log.take n).drop (i + 1) ++ [(kid, stored)] := by
          rw [htake, List.drop_append_of_le_length]
          simp
          omega
        refine .inr ⟨i, kid', stored', by omega, hentry', hfound, hexp', ?_⟩
        rw [hdrop]
        exact forall_mem_snoc.mpr ⟨hall, hexp⟩

theorem latestExposable_result (hl : KeyLog kv log) {G : ℚ} (hp : GracePeriod h kv G)
    (hne : log ≠ []) (logContext : LogContext) :
    ∃ delayText, (KeyRotationPolicy.getLatestExposableKey h.toEngine t kv.keyRotation
        (LastestItemStore.size kv) (LastestItemStore.get kv)
        (fun k => KeyStore.get kv (.ofString k)) logContext).result =
      (KeyRotationPolicy.exposableLoop h.toEngine (LastestItemStore.get kv)
        (fun k => KeyStore.get kv (.ofString k)) delayText (some (G * 1000)) (some t.now)
        logContext log.length).result := by
  obtain ⟨policy, delay, hstored, hdelay, hnumber⟩ := hp
  obtain ⟨delayText, htext⟩ := render_of_toNumber hnumber
  have hpos : ¬ log.length ≤ 0 := by
    have := List.length_pos_iff.mpr hne
    omega
  refine ⟨delayText, ?_⟩
  unfold KeyRotationPolicy.getLatestExposableKey
  rw [hl.size_eq, if_neg hpos, Logged.result_bind,
    KeyRotationPolicy.result_getKeyRotationPolicyFromMap, hstored]
  simp only [Except.mapError, Logged.ok_bind, Logged.result_bind, Logged.result_lift, hdelay,
    hnumber, htext]
  rfl

theorem offeredKey_empty (hl : KeyLog kv []) (logContext : LogContext) :
    (offeredKey h t kv logContext).result = .ok (0, none) := by
  have hlatest := hl.latestItem
  rw [List.length_nil, hl.indexed.lookup_zero] at hlatest
  unfold offeredKey KeyRotationPolicy.getLatestExposableKey
  rw [hl.size_eq]
  exact hlatest

theorem exists_newest (hne : log ≠ []) :
    ∃ i kid stored, i + 1 = log.length ∧ log[i]? = some (kid, stored) := by
  have hpos := List.length_pos_iff.mpr hne
  obtain ⟨i, hi⟩ : ∃ i, i + 1 = log.length := ⟨log.length - 1, by omega⟩
  exact ⟨i, log[i].1, log[i].2, hi, List.getElem?_eq_getElem (by omega)⟩

/-- The key on offer is the newest one old enough, or the newest one where none is. -/
theorem offeredKey_spec (hl : KeyLog kv log) {G : ℚ} (hp : GracePeriod h kv G)
    (logContext : LogContext) :
    (log = [] ∧ (offeredKey h t kv logContext).result = .ok (0, none)) ∨
    (∃ i kid stored, log[i]? = some (kid, stored) ∧ i + 1 = log.length ∧
      (offeredKey h t kv logContext).result = .ok (i + 1, some kid) ∧
      ∀ entry ∈ log, KeyRotationPolicy.exposable (some (G * 1000)) (some t.now)
        (some entry.2.item) = false) ∨
    ∃ i kid stored, log[i]? = some (kid, stored) ∧
      (offeredKey h t kv logContext).result = .ok (i + 1, some kid) ∧
      KeyRotationPolicy.exposable (some (G * 1000)) (some t.now) (some stored.item) = true ∧
      ∀ entry ∈ log.drop (i + 1), KeyRotationPolicy.exposable (some (G * 1000)) (some t.now)
        (some entry.2.item) = false := by
  by_cases hne : log = []
  · subst hne
    exact .inl ⟨rfl, offeredKey_empty hl logContext⟩
  obtain ⟨delayText, hlatest⟩ := latestExposable_result (t := t) hl hp hne logContext
  have hoffered : (offeredKey h t kv logContext).result =
      (KeyRotationPolicy.exposableLoop h.toEngine (LastestItemStore.get kv)
        (fun k => KeyStore.get kv (.ofString k)) delayText (some (G * 1000)) (some t.now)
        logContext log.length).result >>= fun latestExposable =>
          latestExposable.elim (LastestItemStore.latestItem kv)
            fun found => .ok (found.1, some found.2) := by
    unfold offeredKey
    rw [Logged.result_bind, hlatest]
    congr 1
    funext latestExposable
    cases latestExposable <;> rfl
  right
  rcases exposableLoop_spec (h := h) hl delayText (some (G * 1000)) (some t.now) logContext
    le_rfl with ⟨hnone, hall⟩ | ⟨i, kid, stored, -, hentry, hfound, hexp, hall⟩
  · left
    obtain ⟨i, kid, stored, hi, hentry⟩ := exists_newest hne
    refine ⟨i, kid, stored, hentry, hi, ?_, by simpa using hall⟩
    rw [hoffered, hnone, Logged.ok_bind, hl.latestItem, ← hi, hl.indexed.lookup_succ, hentry]
    rfl
  · right
    refine ⟨i, kid, stored, hentry, ?_, hexp, by simpa using hall⟩
    rw [hoffered, hfound]
    rfl

theorem exposableLoop_context {E : Engine} {getKid : ℕ → Except JsError (Option String)}
    {getKeyItem : String → Except JsError (Option IKeyItem)} {delayText : String}
    {delayMs now : Option ℚ} (c c' : LogContext) (n : ℕ) :
    (KeyRotationPolicy.exposableLoop E getKid getKeyItem delayText delayMs now c n).result =
      (KeyRotationPolicy.exposableLoop E getKid getKeyItem delayText delayMs now c' n).result := by
  induction n with
  | zero => rfl
  | succ n ih =>
    unfold KeyRotationPolicy.exposableLoop
    simp only [Logged.result_bind, Logged.result_lift]
    cases getKid (n + 1) with
    | error e => simp only [Logged.error_bind]
    | ok kid =>
      cases kid with
      | none => exact ih
      | some kid =>
        simp only [Logged.ok_bind, Logged.result_bind, Logged.result_lift]
        cases getKeyItem kid with
        | error e => simp only [Logged.error_bind]
        | ok keyItem =>
          simp only [Logged.ok_bind]
          cases KeyRotationPolicy.exposable delayMs now keyItem with
          | true =>
            simp only [if_true]
            split_ifs
            · simp only [Logged.result_bind, Logger.result_debug]
            · rfl
          | false => simpa using ih

/-- The context only goes to the log. -/
theorem offeredKey_context {p : ℕ × Option String} {c : LogContext}
    (hp : (offeredKey h t kv c).result = .ok p) (c' : LogContext) :
    (offeredKey h t kv c').result = .ok p := by
  unfold offeredKey KeyRotationPolicy.getLatestExposableKey at hp ⊢
  by_cases hz : LastestItemStore.size kv ≤ 0
  · rw [if_pos hz] at hp ⊢
    exact hp
  · rw [if_neg hz] at hp ⊢
    simp only [Logged.result_bind, Logged.result_lift,
      KeyRotationPolicy.result_getKeyRotationPolicyFromMap] at hp ⊢
    cases hs : KeyRotationPolicy.storedPolicy kv.keyRotation with
    | error text =>
      rw [hs] at hp
      cases hp
    | ok policy =>
      rw [hs] at hp
      simp only [Except.mapError, Logged.ok_bind] at hp ⊢
      simp only [exposableLoop_context c' c]
      exact hp

/-- The clock never goes back, no two refreshes are more than the rotation interval apart, and
    neither is the present from the last one. -/
structure Schedule (R : ℚ) (times : List ℚ) (now : ℚ) : Prop where
  ordered : times.Pairwise (· ≤ ·)
  close : times.IsChain fun earlier later => later ≤ earlier + R * 1000
  past : ∀ τ ∈ times, τ ≤ now
  recent : ∀ τ, times.getLast? = some τ → now ≤ τ + R * 1000

/-- All keys are younger than the grace period, or one has outgrown it and not yet expired. -/
def HandedOver (R G : ℚ) (times : List ℚ) (now : ℚ) : Prop :=
  (∀ τ ∈ times, now < τ + G * 1000) ∨ ∃ τ ∈ times, τ + G * 1000 ≤ now ∧ now ≤ τ + R * 1000

def Offers (h : Host) (t : Moment) (kv : Kv) (kid : String) : Prop :=
  ∃ logContext id, (offeredKey h t kv logContext).result = .ok (id, some kid)

def OffersFresh (h : Host) (t : Moment) (kv : Kv) : Prop :=
  ∀ kid, Offers h t kv kid → ∃ stored, kv.hpkeKeys.lookup kid = some stored ∧
    Fresh h t kv stored.item

def MadeAt (log : List (String × StoredItem)) (times : List ℚ) : Prop :=
  log.map (fun entry => entry.2.item.timestamp) = times.map some

theorem MadeAt.time {times : List ℚ} (hm : MadeAt log times) {i : ℕ} {entry : String × StoredItem}
    (hi : log[i]? = some entry) :
    ∃ τ, times[i]? = some τ ∧ entry.2.item.timestamp = some τ := by
  have hmap : (times.map some)[i]? = some entry.2.item.timestamp := by
    rw [← hm, List.getElem?_map, hi]
    rfl
  rw [List.getElem?_map, Option.map_eq_some_iff] at hmap
  obtain ⟨τ, hτ, he⟩ := hmap
  exact ⟨τ, hτ, he.symm⟩

theorem MadeAt.entry {times : List ℚ} (hm : MadeAt log times) {i : ℕ} {τ : ℚ}
    (hi : times[i]? = some τ) :
    ∃ entry, log[i]? = some entry ∧ entry.2.item.timestamp = some τ := by
  have hmap : (log.map fun entry => entry.2.item.timestamp)[i]? = some (some τ) := by
    rw [hm, List.getElem?_map, hi]
    rfl
  rwa [List.getElem?_map, Option.map_eq_some_iff] at hmap

theorem MadeAt.length_eq {times : List ℚ} (hm : MadeAt log times) : log.length = times.length := by
  simpa only [List.length_map] using congrArg List.length hm

theorem MadeAt.nil_iff {times : List ℚ} (hm : MadeAt log times) : times = [] ↔ log = [] := by
  rw [← List.length_eq_zero_iff, ← List.length_eq_zero_iff, hm.length_eq]

/-- After a run from a store without keys, the keys are those of its refreshes. -/
theorem log_of_run (h : Host) (kv : Kv) (events : List Event) :
    ∃ log, MadeAt log (refreshTimes h kv.withoutKeys events) ∧
      KeyLog (run (keyStep h) kv.withoutKeys events) log := by
  obtain ⟨log, hmade, hlog⟩ := keyLog_run (h := h) (keyLog_withoutKeys kv) events
  rw [List.nil_append] at hlog
  exact ⟨log, hmade, hlog⟩

theorem Schedule.le {R now : ℚ} {times : List ℚ} (hs : Schedule R times now) {i j : ℕ} {σ τ : ℚ}
    (hj : times[j]? = some σ) (hi : times[i]? = some τ) (hji : j ≤ i) : σ ≤ τ := by
  rcases hji.lt_or_eq with hlt | rfl
  · obtain ⟨hjl, rfl⟩ := List.getElem?_eq_some_iff.mp hj
    obtain ⟨hil, rfl⟩ := List.getElem?_eq_some_iff.mp hi
    exact List.pairwise_iff_getElem.mp hs.ordered j i hjl hil hlt
  · rw [hj] at hi
    cases hi
    exact le_rfl

/-- Where no later entry is old enough to be served, one that is stands no later. -/
theorem le_of_later_unexposed {delayMs now : Option ℚ} {i j : ℕ} {entry : String × StoredItem}
    (hlater : ∀ e ∈ log.drop (i + 1),
      KeyRotationPolicy.exposable delayMs now (some e.2.item) = false)
    (hj : log[j]? = some entry)
    (hexp : KeyRotationPolicy.exposable delayMs now (some entry.2.item) = true) : j ≤ i := by
  by_contra hlt
  have hmem : entry ∈ log.drop (i + 1) := by
    refine List.mem_iff_getElem?.mpr ⟨j - (i + 1), ?_⟩
    rw [List.getElem?_drop, ← hj]
    congr 1
    omega
  rw [hlater entry hmem] at hexp
  cases hexp

section HandOver

variable {times : List ℚ} (hl : KeyLog kv log) (hm : MadeAt log times) {R G : ℚ}
  (hp : Rotates kv R G) (hG : 0 ≤ G) (hs : Schedule R times t.now)
include hl hm hp hG hs

theorem handedOver_of_offersFresh (hof : OffersFresh h t kv) : HandedOver R G times t.now := by
  rcases offeredKey_spec (t := t) hl (hp.gracePeriod (h := h)) LogContext.new with
    ⟨rfl, -⟩ | ⟨-, -, -, -, -, -, hall⟩ | ⟨i, kid, stored, hi, hoffer, hexp, -⟩
  · have htimes : times = [] := List.length_eq_zero_iff.mp hm.length_eq.symm
    rw [htimes]
    exact .inl (by simp)
  · left
    intro τ hτ
    obtain ⟨i, hi⟩ := List.mem_iff_getElem?.mp hτ
    obtain ⟨entry, hentry, he⟩ := hm.entry hi
    have hnot := hall entry (List.mem_of_getElem? hentry)
    refine lt_of_not_ge fun hold => ?_
    rw [(exposable_iff (hs.past τ hτ) he).mpr hold] at hnot
    cases hnot
  · obtain ⟨τ, hτ, he⟩ := hm.time hi
    have hmem : τ ∈ times := List.mem_of_getElem? hτ
    obtain ⟨found, hfound, hfresh⟩ := hof kid ⟨_, _, hoffer⟩
    rw [hl.lookup_entry hi] at hfound
    cases hfound
    exact .inr ⟨τ, hmem, (exposable_iff (hs.past τ hmem) he).mp hexp, (fresh_iff hp hG he).mp hfresh⟩

theorem offersFresh_of_handedOver (hover : HandedOver R G times t.now) : OffersFresh h t kv := by
  rintro kid ⟨logContext, id, hoffer⟩
  rcases offeredKey_spec (t := t) hl (hp.gracePeriod (h := h)) logContext with
    ⟨-, hnone⟩ | ⟨i, kid', stored, hi, hlast, hserved, -⟩ |
      ⟨i, kid', stored, hi, hserved, hexp, hlater⟩
  · rw [hoffer] at hnone
    cases hnone
  · rw [hoffer] at hserved
    cases hserved
    obtain ⟨τ, hτ, he⟩ := hm.time hi
    refine ⟨stored, hl.lookup_entry hi, (fresh_iff hp hG he).mpr (hs.recent τ ?_)⟩
    rw [List.getLast?_eq_getElem?, ← hm.length_eq, ← hlast]
    exact hτ
  · rw [hoffer] at hserved
    cases hserved
    obtain ⟨τ, hτ, he⟩ := hm.time hi
    refine ⟨stored, hl.lookup_entry hi, (fresh_iff hp hG he).mpr ?_⟩
    have hmem : τ ∈ times := List.mem_of_getElem? hτ
    have hτold := (exposable_iff (hs.past τ hmem) he).mp hexp
    rcases hover with hyoung | ⟨σ, hσ, hσold, hσfresh⟩
    · exact absurd hτold (not_le.mpr (hyoung τ hmem))
    · obtain ⟨j, hj⟩ := List.mem_iff_getElem?.mp hσ
      obtain ⟨entry, hentry, hσe⟩ := hm.entry hj
      -- No entry after the one served is old enough.
      have hji : j ≤ i :=
        le_of_later_unexposed hlater hentry ((exposable_iff (hs.past σ hσ) hσe).mpr hσold)
      have hle : σ ≤ τ := hs.le hj hτ hji
      linarith

/-- A store whose keys were made on schedule offers a fresh key just when one key has handed
    over to the next in time. -/
theorem offersFresh_iff : OffersFresh h t kv ↔ HandedOver R G times t.now :=
  ⟨handedOver_of_offersFresh hl hm hp hG hs, offersFresh_of_handedOver hl hm hp hG hs⟩

end HandOver

theorem construct_query (logContext : LogContext) (request : Request) (settings : Json) :
    Logged.Ensures (ServiceRequest.construct h t logContext request settings) fun r =>
      ∃ context query, r.query = some query ∧
        (queryParams h.toEngine request context).result = .ok query := by
  unfold ServiceRequest.construct
  refine .skip fun _ => .skip fun _ => ?_
  dsimp only
  split_ifs
  · refine .skip fun _ => .skip fun _ => .skip fun body => .skip fun _ => ?_
    exact .step fun query hq => .pure ⟨_, query, rfl, hq⟩
  · refine .skip fun _ => .skip fun body => .skip fun _ => ?_
    exact .step fun query hq => .pure ⟨_, query, rfl, hq⟩

def WithoutKid (h : Host) (request : Request) : Prop :=
  ∀ context query, (queryParams h.toEngine request context).result = .ok query →
    (queryGet (some query) "kid").filter (fun s => s ≠ "") = none

theorem new_withoutKid {request : Request} (hw : WithoutKid h request) (logContext : LogContext) :
    Logged.Ensures (ServiceRequest.new h t kv logContext request) fun r =>
      (queryGet r.query "kid").filter (fun s => s ≠ "") = none := by
  refine .skip fun settings => ?_
  cases settings with
  | ok settings =>
    refine (construct_query logContext request settings).mono fun r hr => ?_
    obtain ⟨context, query, hq, hresult⟩ := hr
    rw [hq]
    exact hw context query hresult
  | error e => exact .pure rfl

/-- The public part of the key, with its receipt, in one of the two formats. -/
def PublicKeyIn (h : Host) (item : IKeyItem) (receipt fmt : String)
    (response : PublicKeyResponse) : Prop :=
  (fmt = "jwk" ∧ response = .jwk { item with receipt := some receipt, d := none }) ∨
    (fmt = "tink" ∧ ∃ keySet, tinkKey h { item with receipt := some receipt, d := none } =
      .ok keySet ∧ response = .tink { keySet with receipt := some receipt })

theorem PublicKeyIn.fmt {item : IKeyItem} {receipt fmt : String} {response : PublicKeyResponse}
    (hp : PublicKeyIn h item receipt fmt response) : fmt = "jwk" ∨ fmt = "tink" :=
  hp.imp And.left And.left

def PublicKeyWith (h : Host) (item : IKeyItem) (receipt : String) (response : PublicKeyResponse) :
    Prop :=
  ∃ fmt, PublicKeyIn h item receipt fmt response

def PublicKeyOf (h : Host) (item : IKeyItem) (response : PublicKeyResponse) : Prop :=
  ∃ receipt, PublicKeyWith h item receipt response

theorem listpubkeys_ensures (request : Request) :
    Logged.Ensures (listpubkeys h t kv request) (Answers fun keySet => ∃ kid stored,
      Offers h t kv kid ∧ kv.hpkeKeys.lookup kid = some stored ∧
        tinkPublicKey h { stored.item with d := none } = .ok keySet) := by
  have hbody (logContext : LogContext) : Logged.Ensures (listpubkeysBody h t kv logContext)
      (Answers fun keySet => ∃ kid stored, Offers h t kv kid ∧
        kv.hpkeKeys.lookup kid = some stored ∧
          tinkPublicKey h { stored.item with d := none } = .ok keySet) := by
    refine .step fun offered hoffered => ?_
    obtain ⟨id, kid⟩ := offered
    cases kid with
    | none => exact answers_failed _ _ _ _
    | some kid =>
    refine .read fun found hfound => ?_
    cases found with
    | none => exact answers_failed _ _ _ _
    | some item =>
    obtain ⟨name, stored, hname, hlookup, rfl⟩ := lookup_of_get hfound
    cases hname
    refine .read fun keySet hkeySet => ?_
    exact answers_succeeded ⟨kid, stored, ⟨logContext, id, hoffered⟩, hlookup, hkeySet⟩ _ _
  have hcaught (logContext : LogContext) : Logged.Ensures
      (tryCatch (listpubkeysBody h t kv logContext) fun exception =>
        caughtError h logContext s!"listpubkeys: Error: {exception.message}")
      (Answers fun keySet => ∃ kid stored, Offers h t kv kid ∧
        kv.hpkeKeys.lookup kid = some stored ∧
          tinkPublicKey h { stored.item with d := none } = .ok keySet) :=
    .tryCatch (hbody logContext) fun _ => .skip fun _ => answers_failed _ _ _ _
  refine .skip fun serviceRequest => .skip fun identity => ?_
  match identity with
  | (_, .failure _ _ _) => exact answers_failure _ _ _
  | (_, .success _ _) | (_, .pending _) => exact hcaught _

theorem pubkeyAnswer_ensures (logContext : LogContext) (fmt : String) (item : IKeyItem)
    (receipt : String) :
    Logged.Ensures (pubkeyAnswer h t logContext fmt item receipt)
      (Answers (PublicKeyWith h item receipt)) := by
  refine .skip fun _ => .ite (fun _ => ?_) fun _ => ?_
  · refine .skip fun _ => .skip fun _ => .read fun keySet hkeySet => ?_
    exact answers_succeeded ⟨_, .inr ⟨rfl, keySet, hkeySet, rfl⟩⟩ _ _
  · exact answers_succeeded ⟨_, .inl ⟨rfl, rfl⟩⟩ _ _

theorem pubkeyBody_ensures (serviceRequest : ServiceRequest) (kid : Option String) :
    Logged.Ensures (pubkeyBody h t kv serviceRequest kid) (Answers fun response =>
      ∃ name stored receipt, kid = some name ∧ kv.hpkeKeys.lookup name = some stored ∧
        (KeyStore.receipt h.toEngine t kv name).result = .ok (some receipt) ∧
        PublicKeyWith h stored.item receipt response) := by
  unfold pubkeyBody
  cases kid with
  | none => exact answers_failed _ _ _ _
  | some kid =>
  refine .ite (fun _ => ?_) fun _ => answers_failed _ _ _ _
  refine .skip fun _ => .read fun found hfound => ?_
  cases found with
  | none => exact answers_failed _ _ _ _
  | some item =>
  obtain ⟨name, stored, hname, hlookup, rfl⟩ := lookup_of_get hfound
  cases hname
  refine .step fun receipt hreceipt => ?_
  cases receipt with
  | none => exact answers_accepted _
  | some receipt =>
    refine (pubkeyAnswer_ensures _ _ stored.item receipt).mono fun r hr response headers he => ?_
    exact ⟨kid, stored, receipt, rfl, hlookup, hreceipt, hr response headers he⟩

/-- A 200 response of `pubkey` shows the key that was selected, with its receipt. -/
structure PubkeyShows (h : Host) (t : Moment) (kv : Kv) (serviceRequest : ServiceRequest)
    (kid : String) (stored : StoredItem) (receipt : String) (response : PublicKeyResponse) :
    Prop where
  selected : ∃ id, (pubkeySelection h t kv serviceRequest.query serviceRequest.logContext).result =
    .ok (id, some kid)
  lookup : kv.hpkeKeys.lookup kid = some stored
  available : (KeyStore.receipt h.toEngine t kv kid).result = .ok (some receipt)
  shown : PublicKeyWith h stored.item receipt response

theorem pubkeyServe_ensures (serviceRequest : ServiceRequest) :
    Logged.Ensures (pubkeyServe h t kv serviceRequest) (Answers fun response =>
      ∃ kid stored receipt, PubkeyShows h t kv serviceRequest kid stored receipt response) := by
  refine .bind (Q := fun selection => (∀ failed, selection = .error failed →
      failed.isFailure = true) ∧ ∀ selected, selection = .ok selected →
        (pubkeySelection h t kv serviceRequest.query serviceRequest.logContext).result =
          .ok selected) (.tryCatch (.step fun p hp => ?_) fun _ => ?_) fun selection hselection => ?_
  · obtain ⟨id, kid⟩ := p
    refine .pure ⟨by simp, fun selected he => ?_⟩
    cases he
    exact hp
  · refine .step fun failed hf => .pure ⟨?_, by simp⟩
    intro failed' he
    cases he
    cases hf
    rfl
  · cases selection with
    | error failed =>
      refine .pure fun body headers hb => ?_
      have hfailed := hselection.1 failed rfl
      rw [hb] at hfailed
      cases hfailed
    | ok selected =>
      obtain ⟨id, kid⟩ := selected
      have hselected := hselection.2 (id, kid) rfl
      refine .tryCatch ((pubkeyBody_ensures serviceRequest kid).mono fun r hr => ?_)
        fun _ => .skip fun _ => answers_failed _ _ _ _
      intro response headers he
      obtain ⟨name, stored, receipt, rfl, hlookup, hreceipt, hpublic⟩ := hr response headers he
      exact ⟨name, stored, receipt, ⟨id, hselected⟩, hlookup, hreceipt, hpublic⟩

theorem pubkey_ensures (request : Request) :
    Logged.Ensures (pubkey h t kv request) (Answers fun response =>
      ∃ serviceRequest kid stored receipt, ReadAs h t kv "pubkey" request serviceRequest ∧
        PubkeyShows h t kv serviceRequest kid stored receipt response) := by
  refine .step fun serviceRequest hread => .skip fun identity => ?_
  have hserve : Logged.Ensures (pubkeyServe h t kv serviceRequest) (Answers fun response =>
      ∃ serviceRequest kid stored receipt, ReadAs h t kv "pubkey" request serviceRequest ∧
        PubkeyShows h t kv serviceRequest kid stored receipt response) := by
    refine (pubkeyServe_ensures serviceRequest).mono fun r hr response headers he => ?_
    obtain ⟨kid, stored, receipt, hshows⟩ := hr response headers he
    exact ⟨serviceRequest, kid, stored, receipt, hread, hshows⟩
  match identity with
  | (_, .failure _ _ _) => exact answers_failure _ _ _
  | (_, .success _ _) | (_, .pending _) => exact hserve

theorem offers_of_selection {query : Option Query} {logContext : LogContext} {id : Option ℕ}
    {kid : String} (hq : (queryGet query "kid").filter (fun s => s ≠ "") = none)
    (hs : (pubkeySelection h t kv query logContext).result = .ok (id, some kid)) :
    Offers h t kv kid := by
  unfold pubkeySelection at hs
  rw [hq] at hs
  dsimp only at hs
  rw [Logged.result_bind, Logged.bind_ok_iff] at hs
  obtain ⟨⟨id', kid'⟩, hoffered, hs⟩ := hs
  cases hs
  exact ⟨logContext, id', hoffered⟩

/-- Where `pubkey` is not told which key, it shows the one on offer. -/
theorem pubkey_offered {request : Request} {response : PublicKeyResponse}
    (hw : WithoutKid h request) (hr : answered (pubkey h t kv request) = some response) :
    ∃ kid stored, Offers h t kv kid ∧ kv.hpkeKeys.lookup kid = some stored ∧
      PublicKeyOf h stored.item response := by
  obtain ⟨serviceRequest, kid, stored, receipt, hread, hshows⟩ :=
    of_answered (pubkey_ensures request) hr
  obtain ⟨id, hselected⟩ := hshows.selected
  have hq := new_withoutKid hw _ serviceRequest hread
  exact ⟨kid, stored, offers_of_selection hq hselected, hshows.lookup, receipt, hshows.shown⟩

/-- The key is not expired, and `unwrapKey` does not refuse it as gone. -/
structure Usable (h : Host) (t : Moment) (kv : Kv) (kid : String) (stored : StoredItem) : Prop where
  lookup : kv.hpkeKeys.lookup kid = some stored
  fresh : Fresh h t kv stored.item
  notGone : ∀ request body r, request.bodyJson = .ok body →
    body.get "wrappedKid" = .ok (.ofString kid) →
    (unwrapKey h t kv request).result = .ok r → r.statusCode ≠ 410

theorem usable_of_fresh {kid : String} {stored : StoredItem}
    (hlookup : kv.hpkeKeys.lookup kid = some stored) (hfresh : Fresh h t kv stored.item) :
    Usable h t kv kid stored := by
  refine ⟨hlookup, hfresh, fun request body r hjson hkid hr hgone => ?_⟩
  obtain ⟨body', kid', stored', hjson', hkid', hlookup', hexpired⟩ := unwrapKey_gone request r hr hgone
  rw [hjson] at hjson'
  cases hjson'
  rw [hkid] at hkid'
  cases hkid'
  rw [hlookup] at hlookup'
  cases hlookup'
  exact hexpired hfresh

/-- The key that `pubkey` and `listpubkeys` serve can still be unwrapped. -/
structure OfferUsable (h : Host) (t : Moment) (kv : Kv) : Prop where
  offered : ∀ kid, Offers h t kv kid → ∃ stored, Usable h t kv kid stored
  listed : ∀ request keySet, answered (listpubkeys h t kv request) = some keySet →
    ∃ kid stored, Usable h t kv kid stored ∧
      tinkPublicKey h { stored.item with d := none } = .ok keySet
  served : ∀ request response, WithoutKid h request →
    answered (pubkey h t kv request) = some response →
    ∃ kid stored, Usable h t kv kid stored ∧ PublicKeyOf h stored.item response

theorem offerUsable_iff : OfferUsable h t kv ↔ OffersFresh h t kv := by
  constructor
  · intro hu kid hkid
    obtain ⟨stored, hstored⟩ := hu.offered kid hkid
    exact ⟨stored, hstored.lookup, hstored.fresh⟩
  · intro hof
    refine ⟨fun kid hkid => ?_, fun request keySet hr => ?_, fun request response hw hr => ?_⟩
    · obtain ⟨stored, hlookup, hfresh⟩ := hof kid hkid
      exact ⟨stored, usable_of_fresh hlookup hfresh⟩
    · obtain ⟨kid, stored, hkid, hlookup, hkeySet⟩ := of_answered (listpubkeys_ensures request) hr
      obtain ⟨found, hfound, hfresh⟩ := hof kid hkid
      rw [hlookup] at hfound
      cases hfound
      exact ⟨kid, stored, usable_of_fresh hlookup hfresh, hkeySet⟩
    · obtain ⟨kid, stored, hkid, hlookup, hpublic⟩ := pubkey_offered hw hr
      obtain ⟨found, hfound, hfresh⟩ := hof kid hkid
      rw [hlookup] at hfound
      cases hfound
      exact ⟨kid, stored, usable_of_fresh hlookup hfresh, hpublic⟩

theorem offersFresh_run_iff (h : Host) (t : Moment) (kv : Kv) (events : List Event) {R G : ℚ}
    (hp : Rotates kv R G) (hG : 0 ≤ G)
    (hs : Schedule R (refreshTimes h kv.withoutKeys events) t.now) :
    OffersFresh h t (run (keyStep h) kv.withoutKeys events) ↔
      HandedOver R G (refreshTimes h kv.withoutKeys events) t.now := by
  obtain ⟨log, hmade, hlog⟩ := log_of_run h kv events
  refine offersFresh_iff hlog hmade ?_ hG hs
  obtain ⟨policy, hlookup, hfields⟩ := hp
  refine ⟨policy, ?_, hfields⟩
  rw [keyRotation_run]
  exact hlookup

/-- On a schedule, the key on offer can be unwrapped just when all keys are still younger than
    the grace period, or one is past it and not yet past the rotation interval. -/
theorem offer_usable_iff_handed_over (h : Host) (t : Moment) (kv : Kv) (events : List Event)
    (R G : ℚ) (hp : Rotates kv R G) (hG : 0 ≤ G)
    (hs : Schedule R (refreshTimes h kv.withoutKeys events) t.now) :
    OfferUsable h t (run (keyStep h) kv.withoutKeys events) ↔
      HandedOver R G (refreshTimes h kv.withoutKeys events) t.now :=
  offerUsable_iff.trans (offersFresh_run_iff h t kv events hp hG hs)

theorem samplePolicies_rotates : Rotates samplePolicies 10 5 := ⟨_, rfl, rfl, rfl⟩

/-- Two keys, made at zero and at four seconds: at eight the first one is on offer. -/
theorem sample_offer_usable :
    OfferUsable sampleHost (sampleMoment 8000)
      (run (keyStep sampleHost) samplePolicies.withoutKeys [refreshAt 0, refreshAt 4000]) := by
  have htimes : refreshTimes sampleHost samplePolicies.withoutKeys
      [refreshAt 0, refreshAt 4000] = [0, 4000] := by
    decide +kernel
  refine (offer_usable_iff_handed_over sampleHost (sampleMoment 8000) samplePolicies
    [refreshAt 0, refreshAt 4000] 10 5 samplePolicies_rotates (by norm_num) ?_).mpr ?_
  · rw [htimes]
    refine ⟨by norm_num, by norm_num, ?_, ?_⟩
    · norm_num [sampleMoment]
    · norm_num [sampleMoment]
  · rw [htimes]
    refine .inr ⟨0, by simp, ?_, ?_⟩
    · norm_num [sampleMoment]
    · norm_num [sampleMoment]

/-- Refreshes at zero and at ten seconds, and the present at twelve: the first key is still
    the one on offer, and expired. -/
theorem offer_expires_before_hand_over :
    Schedule 10 (refreshTimes sampleHost samplePolicies.withoutKeys [refreshAt 0, refreshAt 10000])
        (sampleMoment 12000).now ∧
      ¬ OfferUsable sampleHost (sampleMoment 12000)
        (run (keyStep sampleHost) samplePolicies.withoutKeys [refreshAt 0, refreshAt 10000]) := by
  have htimes : refreshTimes sampleHost samplePolicies.withoutKeys
      [refreshAt 0, refreshAt 10000] = [0, 10000] := by decide +kernel
  have hschedule : Schedule 10 (refreshTimes sampleHost samplePolicies.withoutKeys
      [refreshAt 0, refreshAt 10000]) (sampleMoment 12000).now := by
    rw [htimes]
    refine ⟨by simp, by norm_num, ?_, ?_⟩
    · norm_num [sampleMoment]
    · norm_num [sampleMoment]
  refine ⟨hschedule, fun hu => ?_⟩
  have hover := (offersFresh_run_iff sampleHost (sampleMoment 12000) samplePolicies _
    samplePolicies_rotates (by norm_num) hschedule).mp (offerUsable_iff.mp hu)
  rw [htimes] at hover
  rcases hover with hyoung | ⟨τ, hτ, hold, hfresh⟩
  · have := hyoung 0 (by simp)
    simp only [sampleMoment] at this
    linarith
  · simp only [sampleMoment] at hold hfresh
    rcases List.mem_pair.mp hτ with rfl | rfl <;> linarith

end DepaKms
