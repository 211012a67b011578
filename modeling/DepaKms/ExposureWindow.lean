import DepaKms.Receipts

set_option autoImplicit false

/-!
# The exposure window

Which number the key on offer has. With times in order, the keys that have reached the
grace period are the first few, so the answer is a count of them.
-/
namespace DepaKms

section Threshold

variable {α : Type} {R : α → α → Prop} {p : α → Bool}

theorem countP_of_head (hp : ∀ a b, R a b → p b = true → p a = true) {b : α} {l : List α}
    (hb : ∀ c ∈ l, R b c) (hpb : p b = false) : l.countP p = 0 := by
  rw [List.countP_eq_zero]
  intro c hc hpc
  rw [hp b c (hb c hc) hpc] at hpb
  cases hpb

/-- In an ordered list whose order the test respects, the elements that meet the test come
    first. -/
theorem prefix_of_countP (hp : ∀ a b, R a b → p b = true → p a = true) {l : List α}
    (hl : l.Pairwise R) {i : ℕ} {a : α} (hi : l[i]? = some a) : p a = true ↔ i < l.countP p := by
  induction l generalizing i with
  | nil => simp at hi
  | cons b l ih =>
    obtain ⟨hb, hl⟩ := List.pairwise_cons.mp hl
    rw [List.countP_cons]
    cases i with
    | zero =>
      have hba : b = a := by simpa using hi
      subst hba
      cases hpb : p b with
      | true => simp
      | false => simp [countP_of_head hp hb hpb]
    | succ i =>
      have hil : l[i]? = some a := by simpa using hi
      rw [ih hl hil]
      cases hpb : p b with
      | true => simp
      | false => simp [countP_of_head hp hb hpb]

end Threshold

/-- How many keys, made at these times, have reached the age `G` in seconds. -/
def agedCount (G now : ℚ) (times : List ℚ) : ℕ :=
  times.countP fun τ => decide (τ + G * 1000 ≤ now)

/-- The newest key that has reached the age, or the newest one where none has. -/
def onOffer (G now : ℚ) (times : List ℚ) : ℕ :=
  if agedCount G now times = 0 then times.length else agedCount G now times

section Counts

variable {G now now' : ℚ} {times later : List ℚ}

theorem agedCount_le_length : agedCount G now times ≤ times.length := List.countP_le_length

theorem aged_iff (ho : times.Pairwise (· ≤ ·)) {i : ℕ} {τ : ℚ} (hi : times[i]? = some τ) :
    τ + G * 1000 ≤ now ↔ i < agedCount G now times := by
  have hp : ∀ a b : ℚ, a ≤ b → decide (b + G * 1000 ≤ now) = true →
      decide (a + G * 1000 ≤ now) = true := by
    intro a b hab hb
    rw [decide_eq_true_eq] at hb ⊢
    linarith
  have hcount := prefix_of_countP hp ho hi
  rw [decide_eq_true_eq] at hcount
  exact hcount

theorem agedCount_mono (hfront : times <+: later) (hnow : now ≤ now') :
    agedCount G now times ≤ agedCount G now' later := by
  have hclock : agedCount G now times ≤ agedCount G now' times := by
    refine List.countP_mono_left fun τ _ hτ => ?_
    rw [decide_eq_true_eq] at hτ ⊢
    exact hτ.trans hnow
  exact hclock.trans hfront.sublist.countP_le

/-- The number on offer goes back just when the newest key was taken for want of an older one
    and has not itself reached the age when another one has. -/
theorem onOffer_le_iff (hfront : times <+: later) (hnow : now ≤ now') :
    onOffer G now times ≤ onOffer G now' later ↔
      (agedCount G now times = 0 → agedCount G now' later = 0 ∨
        times.length ≤ agedCount G now' later) := by
  have hmono : agedCount G now times ≤ agedCount G now' later := agedCount_mono hfront hnow
  have hlength : times.length ≤ later.length := hfront.length_le
  have hle : agedCount G now times ≤ times.length := agedCount_le_length
  unfold onOffer
  split_ifs with hfirst hsecond hsecond
  · exact ⟨fun _ _ => .inl hsecond, fun _ => hlength⟩
  · exact ⟨fun h _ => .inr h, fun h => (h hfirst).resolve_left hsecond⟩
  · omega
  · exact ⟨fun _ h => absurd h hfirst, fun _ => hmono⟩

end Counts

variable {h : Host} {t : Moment} {kv : Kv} {log : List (String × StoredItem)}

/-- The clock never goes back over the calls, nor up to the present. -/
structure ClockOrdered (events : List Event) (now : ℚ) : Prop where
  ordered : (events.map fun e => e.moment.now).Pairwise (· ≤ ·)
  past : ∀ e ∈ events, e.moment.now ≤ now

theorem refreshTimes_sublist (kv : Kv) (events : List Event) :
    (refreshTimes h kv events).Sublist (events.map fun e => e.moment.now) := by
  induction events generalizing kv with
  | nil => exact List.Sublist.slnil
  | cons e events ih =>
    rw [refreshTimes, List.map_cons]
    split_ifs
    · exact (ih _).cons_cons _
    · exact (ih _).cons _

theorem refreshTimes_append (kv : Kv) (events later : List Event) :
    refreshTimes h kv (events ++ later) =
      refreshTimes h kv events ++ refreshTimes h (run (keyStep h) kv events) later := by
  induction events generalizing kv with
  | nil => rfl
  | cons e events ih =>
    rw [List.cons_append, refreshTimes, refreshTimes, run_cons, ih]
    split_ifs <;> rfl

theorem ClockOrdered.times {events : List Event} {now : ℚ} (hc : ClockOrdered events now)
    (kv : Kv) :
    (refreshTimes h kv events).Pairwise (· ≤ ·) ∧ ∀ τ ∈ refreshTimes h kv events, τ ≤ now := by
  have hsublist := refreshTimes_sublist (h := h) kv events
  refine ⟨hc.ordered.sublist hsublist, fun τ hτ => ?_⟩
  obtain ⟨e, he, rfl⟩ := List.mem_map.mp (hsublist.subset hτ)
  exact hc.past e he

theorem GracePeriod.run {G : ℚ} (hp : GracePeriod h kv G) (events : List Event) :
    GracePeriod h (run (keyStep h) kv.withoutKeys events) G := by
  obtain ⟨policy, delay, hstored, hdelay⟩ := hp
  refine ⟨policy, delay, ?_, hdelay⟩
  rw [keyRotation_run]
  exact hstored

/-- The key on offer is the one whose number the times alone determine. -/
theorem offeredKey_number (hl : KeyLog kv log) {times : List ℚ} (hm : MadeAt log times) {G : ℚ}
    (hp : GracePeriod h kv G) (ho : times.Pairwise (· ≤ ·)) (hpast : ∀ τ ∈ times, τ ≤ t.now)
    (hne : times ≠ []) :
    ∃ i kid stored, i + 1 = onOffer G t.now times ∧ log[i]? = some (kid, stored) ∧
      ∀ logContext, (offeredKey h t kv logContext).result = .ok (i + 1, some kid) := by
  have haged {j : ℕ} {entry : String × StoredItem} (hj : log[j]? = some entry) :
      KeyRotationPolicy.exposable (some (G * 1000)) (some t.now) (some entry.2.item) = true ↔
        j < agedCount G t.now times := by
    obtain ⟨τ, hτ, he⟩ := hm.time hj
    rw [exposable_iff (hpast τ (List.mem_of_getElem? hτ)) he, aged_iff ho hτ]
  rcases offeredKey_spec (t := t) hl hp LogContext.new with
    ⟨rfl, -⟩ | ⟨i, kid, stored, hi, hlast, hoffer, hall⟩ | ⟨i, kid, stored, hi, hoffer, hexp, hlater⟩
  · exact absurd (List.length_eq_zero_iff.mp hm.length_eq.symm) hne
  · refine ⟨i, kid, stored, ?_, hi, fun logContext => offeredKey_context hoffer logContext⟩
    -- No key has reached the age: otherwise the first one has.
    have hnone : agedCount G t.now times = 0 := by
      by_contra hsome
      have hfirst : 0 < log.length := by omega
      obtain ⟨entry, hentry⟩ : ∃ entry, log[0]? = some entry :=
        ⟨log[0], List.getElem?_eq_getElem hfirst⟩
      have hexp := (haged hentry).mpr (by omega)
      rw [hall entry (List.mem_of_getElem? hentry)] at hexp
      cases hexp
    unfold onOffer
    rw [if_pos hnone, hlast, hm.length_eq]
  · refine ⟨i, kid, stored, ?_, hi, fun logContext => offeredKey_context hoffer logContext⟩
    have hlt : i < agedCount G t.now times := (haged hi).mp hexp
    have hle : agedCount G t.now times ≤ i + 1 := by
      by_contra hgt
      have hlength : agedCount G t.now times ≤ times.length := agedCount_le_length
      have hnext : i + 1 < log.length := by
        rw [hm.length_eq]
        omega
      obtain ⟨entry, hentry⟩ : ∃ entry, log[i + 1]? = some entry :=
        ⟨log[i + 1], List.getElem?_eq_getElem hnext⟩
      have hj : i + 1 ≤ i := le_of_later_unexposed hlater hentry ((haged hentry).mpr (by omega))
      omega
    unfold onOffer
    rw [if_neg (by omega)]
    omega

/-- What is on offer after a run of calls. -/
theorem offered_run {G : ℚ} (hp : GracePeriod h kv G) {events : List Event}
    (hc : ClockOrdered events t.now) :
    (refreshTimes h kv.withoutKeys events = [] ∧ ∀ logContext,
        (offeredKey h t (run (keyStep h) kv.withoutKeys events) logContext).result =
          .ok (0, none)) ∨
      refreshTimes h kv.withoutKeys events ≠ [] ∧ ∃ n kid stored,
        n = onOffer G t.now (refreshTimes h kv.withoutKeys events) ∧
        (run (keyStep h) kv.withoutKeys events).hpkeKeyIds.lookup n = some kid ∧
        (run (keyStep h) kv.withoutKeys events).hpkeKeys.lookup kid = some stored ∧
        ∀ logContext, (offeredKey h t (run (keyStep h) kv.withoutKeys events) logContext).result =
          .ok (n, some kid) := by
  obtain ⟨log, hmade, hlog⟩ := log_of_run h kv events
  obtain ⟨hordered, hpast⟩ := hc.times (h := h) kv.withoutKeys
  by_cases hnil : refreshTimes h kv.withoutKeys events = []
  · have hlogempty : log = [] := hmade.nil_iff.mp hnil
    rw [hlogempty] at hlog
    exact .inl ⟨hnil, offeredKey_empty hlog⟩
  · obtain ⟨i, kid, stored, hnumber, hi, hselected⟩ :=
      offeredKey_number hlog hmade (hp.run events) hordered hpast hnil
    have hid : (run (keyStep h) kv.withoutKeys events).hpkeKeyIds.lookup (i + 1) = some kid :=
      hlog.indexed.lookup_iff.mpr ⟨i, stored, rfl, hi⟩
    exact .inr ⟨hnil, i + 1, kid, stored, hnumber, hid, hlog.lookup_entry hi, hselected⟩

/-- The key of this number has reached the age `G` in seconds. -/
structure Aged (kv : Kv) (G now : ℚ) (n : ℕ) (kid : String) (stored : StoredItem) : Prop where
  id : kv.hpkeKeyIds.lookup n = some kid
  item : kv.hpkeKeys.lookup kid = some stored
  age : ∃ τ, stored.item.timestamp = some τ ∧ G * 1000 ≤ now - τ

section Aged

variable {times : List ℚ} {G now : ℚ} {n : ℕ} {kid : String} {stored : StoredItem}
  (hl : KeyLog kv log) (hm : MadeAt log times) (ho : times.Pairwise (· ≤ ·))
include hl hm ho

theorem Aged.number (ha : Aged kv G now n kid stored) : 0 < n ∧ n ≤ agedCount G now times := by
  obtain ⟨i, stored', rfl, hi⟩ := hl.indexed.lookup_iff.mp ha.id
  have hsame := (hl.lookup_entry hi).symm.trans ha.item
  cases hsame
  obtain ⟨τ, hτ, hage⟩ := ha.age
  obtain ⟨σ, hσ, he⟩ := hm.time hi
  rw [hτ] at he
  cases he
  have hold : τ + G * 1000 ≤ now := by linarith
  have hlt := (aged_iff ho hσ).mp hold
  omega

theorem aged_of_number (hid : kv.hpkeKeyIds.lookup n = some kid)
    (hitem : kv.hpkeKeys.lookup kid = some stored) (hn : n ≤ agedCount G now times) :
    Aged kv G now n kid stored := by
  obtain ⟨i, stored', rfl, hi⟩ := hl.indexed.lookup_iff.mp hid
  have hsame := (hl.lookup_entry hi).symm.trans hitem
  cases hsame
  obtain ⟨τ, hτ, he⟩ := hm.time hi
  have hage : τ + G * 1000 ≤ now := (aged_iff ho hτ).mpr (by omega)
  exact ⟨hid, hitem, τ, he, by linarith⟩

end Aged

/-- Both public endpoints select this key. They serve it to each authenticated caller, `pubkey`
    once there is its receipt, and they serve nothing else. -/
structure OffersExactly (h : Host) (t : Moment) (kv : Kv) (n : ℕ) (kid : String)
    (stored : StoredItem) : Prop where
  selected : ∀ logContext, (offeredKey h t kv logContext).result = .ok (n, some kid)
  listed : ∀ request keySet, answered (listpubkeys h t kv request) = some keySet ↔
    (∃ serviceRequest, Identified h t kv "listpubkeys" request serviceRequest) ∧
      tinkPublicKey h { stored.item with d := none } = .ok keySet
  served : ∀ request response, WithoutKid h request →
    (answered (pubkey h t kv request) = some response ↔ ∃ serviceRequest receipt,
      Identified h t kv "pubkey" request serviceRequest ∧ receiptOf t kid stored = some receipt ∧
        PublicKeyIn h stored.item receipt (requestFmt serviceRequest) response)
  waits : ∀ request serviceRequest, WithoutKid h request →
    Identified h t kv "pubkey" request serviceRequest →
    requestFmt serviceRequest = "jwk" ∨ requestFmt serviceRequest = "tink" →
    receiptOf t kid stored = none →
    ∃ headers, (pubkey h t kv request).result = .ok (.pending headers)

def Newest (kv : Kv) (n : ℕ) (kid : String) : Prop :=
  kv.hpkeKeyIds.lookup n = some kid ∧ ∀ m ∈ kv.hpkeKeyIds, m ≤ n

/-- The query, where there is one, does not name a kid. -/
def NoKid (h : Host) (request : Request) : Prop :=
  ∀ context query, (queryParams h.toEngine request context).result = .ok query →
    queryGet (some query) "kid" = none

/-- The private endpoints that are not told which key take the newest one. -/
structure SelectsNewest (h : Host) (t : Moment) (kv : Kv) (n : ℕ) (kid : String) : Prop where
  newest : Newest kv n kid
  selected : ∀ query, queryGet query "kid" = none → keySelection kv query = .ok (some n, some kid)
  selectedGcp : LastestItemStore.latestItem kv = .ok (n, some kid)
  key : ∀ request response, NoKid h request → answered (key h t kv request) = some response →
    response.wrappedKid = kid
  unwrapKeyGcp : ∀ request response, answered (unwrapKeyGcp h t kv request) = some response →
    response.wrappedKid = kid

theorem pubkeySelection_unasked {query : Option Query} {logContext : LogContext} {n : ℕ}
    {kid : Option String} (hkid : (queryGet query "kid").filter (fun s => s ≠ "") = none)
    (hoffered : (offeredKey h t kv logContext).result = .ok (n, kid)) :
    (pubkeySelection h t kv query logContext).result = .ok (some n, kid) := by
  unfold pubkeySelection
  rw [hkid]
  simp only [Logged.result_bind, hoffered, Logged.ok_bind]
  rfl

section Selected

variable {n : ℕ} {kid : String} {stored : StoredItem}
  (hselected : ∀ logContext, (offeredKey h t kv logContext).result = .ok (n, some kid))
  (hlookup : kv.hpkeKeys.lookup kid = some stored)
include hselected

include hlookup in
theorem listpubkeys_selected_iff {request : Request} {keySet : ITinkPublicKeySet} :
    answered (listpubkeys h t kv request) = some keySet ↔
      (∃ serviceRequest, Identified h t kv "listpubkeys" request serviceRequest) ∧
        tinkPublicKey h { stored.item with d := none } = .ok keySet := by
  have hserved (serviceRequest : ServiceRequest) :
      answered (tryCatch (listpubkeysBody h t kv serviceRequest.logContext) fun exception =>
        caughtError h serviceRequest.logContext s!"listpubkeys: Error: {exception.message}") =
          some keySet ↔ tinkPublicKey h { stored.item with d := none } = .ok keySet := by
    unfold answered listpubkeysBody
    simp only [Logged.result_tryCatch, Logged.result_bind, hselected, Logged.ok_bind,
      Logged.result_lift, get_of_lookup hlookup]
    cases tinkPublicKey h { stored.item with d := none } with
    | error e => constructor <;> rintro ⟨⟩
    | ok keySet' => simp
  have hanswered : answered (listpubkeys h t kv request) = some keySet ↔
      ∃ serviceRequest, Identified h t kv "listpubkeys" request serviceRequest ∧
        answered (tryCatch (listpubkeysBody h t kv serviceRequest.logContext) fun exception =>
          caughtError h serviceRequest.logContext s!"listpubkeys: Error: {exception.message}") =
            some keySet := answered_identified
  simp only [hanswered, hserved, exists_and_right]

include hlookup in
theorem pubkey_selected_iff {request : Request} (hw : WithoutKid h request)
    {response : PublicKeyResponse} :
    answered (pubkey h t kv request) = some response ↔ ∃ serviceRequest receipt,
      Identified h t kv "pubkey" request serviceRequest ∧ receiptOf t kid stored = some receipt ∧
        PublicKeyIn h stored.item receipt (requestFmt serviceRequest) response := by
  have hserved {serviceRequest : ServiceRequest}
      (hi : Identified h t kv "pubkey" request serviceRequest) :
      answered (pubkeyServe h t kv serviceRequest) = some response ↔
        ∃ receipt, receiptOf t kid stored = some receipt ∧
          PublicKeyIn h stored.item receipt (requestFmt serviceRequest) response := by
    have hquery := new_withoutKid hw _ serviceRequest hi.read
    rw [pubkeyServe_selected (pubkeySelection_unasked hquery (hselected _)), pubkeyBody_iff]
    simp [hlookup]
  rw [pubkey_iff]
  constructor
  · rintro ⟨serviceRequest, hi, hanswered⟩
    obtain ⟨receipt, hreceipt, hpublic⟩ := (hserved hi).mp hanswered
    exact ⟨serviceRequest, receipt, hi, hreceipt, hpublic⟩
  · rintro ⟨serviceRequest, receipt, hi, hreceipt, hpublic⟩
    exact ⟨serviceRequest, hi, (hserved hi).mpr ⟨receipt, hreceipt, hpublic⟩⟩

include hlookup in
theorem offersExactly_of_selected : OffersExactly h t kv n kid stored where
  selected := hselected
  listed _ _ := listpubkeys_selected_iff hselected hlookup
  served _ _ hw := pubkey_selected_iff hselected hlookup hw
  waits _ _ hw hi hfmt hnone :=
    pubkey_pending ⟨hi, ⟨_, pubkeySelection_unasked (new_withoutKid hw _ _ hi.read)
      (hselected _)⟩, hfmt, hlookup⟩ hnone

end Selected

theorem read_noKid {request : Request} {serviceRequest : ServiceRequest} {name : String}
    (hn : NoKid h request) (hread : ReadAs h t kv name request serviceRequest) :
    queryGet serviceRequest.query "kid" = none := by
  have hquery : Logged.Ensures
      (ServiceRequest.new h t kv (LogContext.new.appendScope name) request)
      fun r => queryGet r.query "kid" = none := by
    refine .skip fun settings => ?_
    cases settings with
    | ok settings =>
      refine (construct_query _ request settings).mono fun r hr => ?_
      obtain ⟨context, query, hq, hresult⟩ := hr
      rw [hq]
      exact hn context query hresult
    | error e => exact .pure rfl
  exact hquery serviceRequest hread

theorem selectsNewest_of_log (hl : KeyLog kv log) (hne : log ≠ []) :
    ∃ kid, SelectsNewest h t kv log.length kid := by
  obtain ⟨i, kid, stored, hi, hentry⟩ := exists_newest hne
  have hid : kv.hpkeKeyIds.lookup log.length = some kid := by
    rw [← hi, hl.indexed.lookup_succ, hentry]
    rfl
  have hlatest : LastestItemStore.latestItem kv = .ok (log.length, some kid) := by
    rw [hl.latestItem, hid]
  have hselected (query : Option Query) (hq : queryGet query "kid" = none) :
      keySelection kv query = .ok (some log.length, some kid) := by
    unfold keySelection
    rw [hq]
    simp only [hlatest, Logged.ok_bind]
    rfl
  refine ⟨kid, ⟨hid, fun m hm => ((hl.indexed.mem_ids m).mp hm).2⟩, hselected, hlatest,
    fun request response hn hr => ?_, fun request response hr => ?_⟩
  · obtain ⟨serviceRequest, found, ha, -⟩ := of_answered (key_ensures request) hr
    obtain ⟨id, hfound⟩ := ha.selected
    rw [hselected _ (read_noKid hn ha.identified.read)] at hfound
    cases hfound
    rfl
  · obtain ⟨wrappingKey, claim, found, -, hn⟩ := of_answered (unwrapKeyGcp_ensures request) hr
    obtain ⟨id, hfound⟩ := hn.latest
    rw [hlatest] at hfound
    cases hfound
    rfl

/-- Once a key has reached the age `G`, the public endpoints offer the newest one that has; the
    private endpoints select the newest one of all. -/
theorem exposure_window_exact (h : Host) (t : Moment) (kv : Kv) (events : List Event) (G : ℚ)
    (hp : GracePeriod h kv G) (hc : ClockOrdered events t.now)
    (haged : ∃ n kid stored, Aged (run (keyStep h) kv.withoutKeys events) G t.now n kid stored) :
    (∃ n kid stored, Aged (run (keyStep h) kv.withoutKeys events) G t.now n kid stored ∧
      (∀ n' kid' stored', Aged (run (keyStep h) kv.withoutKeys events) G t.now n' kid' stored' →
        n' ≤ n) ∧
      OffersExactly h t (run (keyStep h) kv.withoutKeys events) n kid stored) ∧
    ∃ n kid, SelectsNewest h t (run (keyStep h) kv.withoutKeys events) n kid := by
  obtain ⟨log, hmade, hlog⟩ := log_of_run h kv events
  obtain ⟨hordered, -⟩ := hc.times (h := h) kv.withoutKeys
  obtain ⟨n, kid, stored, ha⟩ := haged
  obtain ⟨hpos, hle⟩ := ha.number hlog hmade hordered
  rcases offered_run hp hc with ⟨hnil, -⟩ | ⟨hne, m, kid', stored', rfl, hid, hitem, hselected⟩
  · rw [hnil] at hle
    have hzero : agedCount G t.now [] = 0 := rfl
    omega
  · have hoffer : onOffer G t.now (refreshTimes h kv.withoutKeys events) =
        agedCount G t.now (refreshTimes h kv.withoutKeys events) := if_neg (by omega)
    have hlogne : log ≠ [] := fun hnil => hne (hmade.nil_iff.mpr hnil)
    obtain ⟨newest, hnewest⟩ := selectsNewest_of_log (h := h) (t := t) hlog hlogne
    refine ⟨⟨_, kid', stored', aged_of_number hlog hmade hordered hid hitem hoffer.le,
      fun n' kid'' stored'' ha' => ?_, offersExactly_of_selected hselected hitem⟩, _, newest,
      hnewest⟩
    rw [hoffer]
    exact (ha'.number hlog hmade hordered).2

theorem aged_of_time {events : List Event} {i : ℕ} {τ G : ℚ} (now : ℚ)
    (hi : (refreshTimes h kv.withoutKeys events)[i]? = some τ)
    (hage : G * 1000 ≤ now - τ) :
    ∃ kid stored, Aged (run (keyStep h) kv.withoutKeys events) G now (i + 1) kid stored := by
  obtain ⟨log, hmade, hlog⟩ := log_of_run h kv events
  obtain ⟨⟨kid, stored⟩, hentry, he⟩ := hmade.entry hi
  exact ⟨kid, stored, hlog.indexed.lookup_iff.mpr ⟨i, stored, rfl, hentry⟩,
    hlog.lookup_entry hentry, τ, he, hage⟩

theorem sample_refresh_times :
    refreshTimes sampleHost samplePolicies.withoutKeys [refreshAt 0, refreshAt 6000] =
      [0, 6000] := by
  decide +kernel

theorem sample_withoutKid : WithoutKid sampleHost (requestOf (.obj []) none) := by
  intro context query hquery
  have hread : (queryParams sampleHost.toEngine (requestOf (.obj []) none) context).result =
      .ok [("", none)] := rfl
  rw [hread] at hquery
  cases hquery
  rfl

/-- Of two keys, made at zero and at six seconds, only the first is old enough at seven, and both
    public endpoints answer with it. -/
theorem sample_exposure_window :
    ∃ n kid stored, Aged (run (keyStep sampleHost) samplePolicies.withoutKeys
        [refreshAt 0, refreshAt 6000]) 5 (sampleMoment 7000).now n kid stored ∧
      OffersExactly sampleHost (sampleMoment 7000) (run (keyStep sampleHost)
        samplePolicies.withoutKeys [refreshAt 0, refreshAt 6000]) n kid stored ∧
      (∃ keySet, answered (listpubkeys sampleHost (sampleMoment 7000) (run (keyStep sampleHost)
          samplePolicies.withoutKeys [refreshAt 0, refreshAt 6000]) (requestOf (.obj []) none)) =
            some keySet ∧
        tinkPublicKey sampleHost { stored.item with d := none } = .ok keySet) ∧
      ∃ response, answered (pubkey sampleHost (sampleMoment 7000) (run (keyStep sampleHost)
          samplePolicies.withoutKeys [refreshAt 0, refreshAt 6000]) (requestOf (.obj []) none)) =
            some response ∧ PublicKeyOf sampleHost stored.item response := by
  have hfirst : (refreshTimes sampleHost samplePolicies.withoutKeys
      [refreshAt 0, refreshAt 6000])[0]? = some 0 := by
    rw [sample_refresh_times]
    rfl
  have haged := aged_of_time (G := 5) (sampleMoment 7000).now hfirst
    (by norm_num [sampleMoment])
  have hclock : ClockOrdered [refreshAt 0, refreshAt 6000] (sampleMoment 7000).now := by
    constructor
    · norm_num [refreshAt, sampleMoment]
    · norm_num [refreshAt, sampleMoment]
  have hlisted : (answered (listpubkeys sampleHost (sampleMoment 7000) (run (keyStep sampleHost)
      samplePolicies.withoutKeys [refreshAt 0, refreshAt 6000])
        (requestOf (.obj []) none))).isSome = true := by
    decide +kernel
  have hserved : (answered (pubkey sampleHost (sampleMoment 7000) (run (keyStep sampleHost)
      samplePolicies.withoutKeys [refreshAt 0, refreshAt 6000])
        (requestOf (.obj []) none))).isSome = true := by
    decide +kernel
  obtain ⟨keySet, hkeySet⟩ := Option.isSome_iff_exists.mp hlisted
  obtain ⟨response, hresponse⟩ := Option.isSome_iff_exists.mp hserved
  obtain ⟨kid, stored, hkid⟩ := haged
  obtain ⟨⟨n, kid', stored', ha, -, hoffers⟩, -⟩ := exposure_window_exact sampleHost
    (sampleMoment 7000) samplePolicies [refreshAt 0, refreshAt 6000] 5
    samplePolicies_rotates.gracePeriod hclock ⟨_, kid, stored, hkid⟩
  obtain ⟨serviceRequest, receipt, -, -, hpublic⟩ :=
    (hoffers.served _ response sample_withoutKid).mp hresponse
  exact ⟨n, kid', stored', ha, hoffers,
    ⟨keySet, hkeySet, ((hoffers.listed _ keySet).mp hkeySet).2⟩,
    response, hresponse, receipt, _, hpublic⟩

end DepaKms
