import DepaKms.ExposureWindow

set_option autoImplicit false

/-!
# Clients of the wrapped keys

Whether the key that the public encrypts to can be had from `unwrapKeyGcp`.
-/
namespace DepaKms

variable {h : Host} {t : Moment} {kv : Kv} {log : List (String × StoredItem)}

/-- Whatever it puts in the body, the caller of the request gets this key from `unwrapKeyGcp`. -/
def ObtainsGcp (h : Host) (t : Moment) (kv : Kv) (request : Request) (kid : String) : Prop :=
  ∃ body response, answered (unwrapKeyGcp h t kv { request with bodyJson := body }) =
    some response ∧ response.wrappedKid = kid

/-- The wrapping key is large enough for every key of the store. -/
def WrapsStored (h : Host) (kv : Kv) (wrappingKey : String) : Prop :=
  ∀ kid stored, kv.hpkeKeys.lookup kid = some stored → ∃ wrapped,
    Wraps h (strToBuf (KeyWrapper.payloadText h stored.item)) (strToBuf (normalized wrappingKey))
      wrapped

/-- All keys are younger than `G`, or the newest one has reached that age. -/
def NewestOnOffer (G now : ℚ) (times : List ℚ) : Prop :=
  (∀ τ ∈ times, now < τ + G * 1000) ∨ ∀ τ, times.getLast? = some τ → τ + G * 1000 ≤ now

theorem newestOnOffer_iff {G now : ℚ} {times : List ℚ} (ho : times.Pairwise (· ≤ ·)) :
    NewestOnOffer G now times ↔ onOffer G now times = times.length := by
  have hle : agedCount G now times ≤ times.length := agedCount_le_length
  have hyoung : (∀ τ ∈ times, now < τ + G * 1000) ↔ agedCount G now times = 0 := by
    unfold agedCount
    rw [List.countP_eq_zero]
    simp only [decide_eq_true_eq, not_le]
  have hlast : (∀ τ, times.getLast? = some τ → τ + G * 1000 ≤ now) ↔
      agedCount G now times = times.length := by
    rw [List.getLast?_eq_getElem?]
    by_cases hne : times.length = 0
    · have hnil := List.length_eq_zero_iff.mp hne
      subst hnil
      simp [agedCount]
    · obtain ⟨τ, hτ⟩ : ∃ τ, times[times.length - 1]? = some τ :=
        ⟨times[times.length - 1], List.getElem?_eq_getElem (by omega)⟩
      have haged : τ + G * 1000 ≤ now ↔ times.length - 1 < agedCount G now times := aged_iff ho hτ
      rw [hτ]
      constructor
      · intro hall
        have hlt := haged.mp (hall τ rfl)
        omega
      · intro hall σ hσ
        cases hσ
        exact haged.mpr (by omega)
  unfold NewestOnOffer onOffer
  rw [hyoung, hlast]
  split_ifs with hzero
  · simp [hzero]
  · simp [hzero]

theorem obtainsGcp_newest (hl : KeyLog kv log) {request : Request} {kid : String}
    (ho : ObtainsGcp h t kv request kid) : kv.hpkeKeyIds.lookup log.length = some kid := by
  obtain ⟨body, response, hr, rfl⟩ := ho
  obtain ⟨wrappingKey, claim, stored, -, hn⟩ := of_answered (unwrapKeyGcp_ensures _) hr
  obtain ⟨id, hlatest⟩ := hn.latest
  rw [hl.latestItem] at hlatest
  have hsame := Except.ok.inj hlatest
  simp only [Prod.mk.injEq] at hsame
  exact hsame.2

theorem obtainsGcp_of_newest (hl : KeyLog kv log) {request : Request} {wrappingKey : String}
    {claim : JsValue} (hb : GcpBound h t kv request wrappingKey claim)
    (hw : WrapsStored h kv wrappingKey) {kid : String}
    (hid : kv.hpkeKeyIds.lookup log.length = some kid) : ObtainsGcp h t kv request kid := by
  obtain ⟨i, stored, hlength, hi⟩ := hl.indexed.lookup_iff.mp hid
  obtain ⟨wrapped, hwraps⟩ := hw kid stored (hl.lookup_entry hi)
  have hlatest : LastestItemStore.latestItem kv = .ok (log.length, some kid) := by
    rw [hl.latestItem, hid]
  obtain ⟨receipt, headers, hr⟩ := unwrapKeyGcp_complete hb
    ⟨⟨log.length, hlatest⟩, hl.lookup_entry hi, hwraps⟩
  exact ⟨request.bodyJson, _, answered_iff.mpr ⟨headers, hr⟩, rfl⟩

/-- `unwrapKeyGcp` never gives any key but the newest, so that its clients can get what the public
    encrypts to just when the newest key is the one on offer. -/
theorem gcp_client_obtains_offer_iff (h : Host) (t : Moment) (kv : Kv) (events : List Event) (G : ℚ)
    (request : Request) (wrappingKey : String) (claim : JsValue) (hp : GracePeriod h kv G)
    (hc : ClockOrdered events t.now)
    (hb : GcpBound h t (run (keyStep h) kv.withoutKeys events) request wrappingKey claim)
    (hw : WrapsStored h (run (keyStep h) kv.withoutKeys events) wrappingKey) :
    (∀ kid, Offers h t (run (keyStep h) kv.withoutKeys events) kid →
        ObtainsGcp h t (run (keyStep h) kv.withoutKeys events) request kid) ↔
      NewestOnOffer G t.now (refreshTimes h kv.withoutKeys events) := by
  obtain ⟨log, hmade, hlog⟩ := log_of_run h kv events
  obtain ⟨hordered, -⟩ := hc.times (h := h) kv.withoutKeys
  rw [newestOnOffer_iff hordered]
  rcases offered_run hp hc with ⟨hnil, hempty⟩ | ⟨-, n, kid, stored, rfl, hid, -, hselected⟩
  · rw [hnil]
    refine ⟨fun _ => rfl, fun _ kid ho => ?_⟩
    obtain ⟨logContext, id, hoffer⟩ := ho
    rw [hempty] at hoffer
    cases hoffer
  · have hoffer : Offers h t (run (keyStep h) kv.withoutKeys events) kid :=
      ⟨LogContext.new, _, hselected _⟩
    rw [← hmade.length_eq]
    constructor
    · intro hobtains
      exact hlog.indexed.injective hid (obtainsGcp_newest hlog (hobtains kid hoffer))
    · intro hnewest kid' ho'
      rw [offers_unique ho' hoffer]
      rw [hnewest] at hid
      exact obtainsGcp_of_newest hlog hb hw hid

theorem offers_of_toOption {logContext : LogContext} {id : ℕ} {kid : String}
    (hr : (offeredKey h t kv logContext).result.toOption = some (id, some kid)) :
    Offers h t kv kid := by
  cases ho : (offeredKey h t kv logContext).result with
  | error e =>
    rw [ho] at hr
    cases hr
  | ok p =>
    rw [ho] at hr
    cases hr
    exact ⟨logContext, id, ho⟩

/-- A key that was alone for eight seconds is on offer, and to be had. -/
theorem sample_gcp_client_obtains :
    Offers sampleHost (sampleMoment 8000)
        (run (keyStep sampleHost) samplePolicies.withoutKeys [refreshAt 0]) sampleKid ∧
      ObtainsGcp sampleHost (sampleMoment 8000)
        (run (keyStep sampleHost) samplePolicies.withoutKeys [refreshAt 0]) gcpRequest
        sampleKid := by
  have hanswered : (answered (unwrapKeyGcp sampleHost (sampleMoment 8000)
      (run (keyStep sampleHost) samplePolicies.withoutKeys [refreshAt 0])
      gcpRequest)).isSome = true := by decide +kernel
  obtain ⟨response, hresponse⟩ := Option.isSome_iff_exists.mp hanswered
  obtain ⟨wrappingKey, claim, stored, hb, -⟩ :=
    of_answered (unwrapKeyGcp_ensures gcpRequest) hresponse
  have hclock : ClockOrdered [refreshAt 0] (sampleMoment 8000).now := by
    constructor
    · norm_num [refreshAt, sampleMoment]
    · norm_num [refreshAt, sampleMoment]
  have htimes : refreshTimes sampleHost samplePolicies.withoutKeys [refreshAt 0] = [0] := by
    decide +kernel
  have hnewest : NewestOnOffer 5 (sampleMoment 8000).now
      (refreshTimes sampleHost samplePolicies.withoutKeys [refreshAt 0]) := by
    refine .inr fun τ hτ => ?_
    rw [htimes] at hτ
    cases hτ
    norm_num [sampleMoment]
  have hoffer : (offeredKey sampleHost (sampleMoment 8000) (run (keyStep sampleHost)
      samplePolicies.withoutKeys [refreshAt 0]) LogContext.new).result.toOption =
      some (1, some sampleKid) := by decide +kernel
  exact ⟨offers_of_toOption hoffer, (gcp_client_obtains_offer_iff sampleHost (sampleMoment 8000) samplePolicies
    [refreshAt 0] 5 gcpRequest wrappingKey claim samplePolicies_rotates.gracePeriod hclock hb
    fun kid stored _ => ⟨_, _, rfl, rfl⟩).mpr hnewest sampleKid
    (offers_of_toOption hoffer)⟩

/-- At seven seconds the first of two keys is on offer; an authenticated client gets the second
    one, and nobody gets the first. -/
theorem offer_out_of_reach :
    (answered (unwrapKeyGcp sampleHost (sampleMoment 7000) (run (keyStep sampleHost)
        samplePolicies.withoutKeys [refreshAt 0, refreshAt 6000]) gcpRequest)).map
      (fun response => response.wrappedKid) =
        some (kidOf (KeyGeneration.calculateKid sampleHost "pub") 2) ∧
    Offers sampleHost (sampleMoment 7000) (run (keyStep sampleHost) samplePolicies.withoutKeys
      [refreshAt 0, refreshAt 6000]) sampleKid ∧
    ∀ request, ¬ ObtainsGcp sampleHost (sampleMoment 7000) (run (keyStep sampleHost)
      samplePolicies.withoutKeys [refreshAt 0, refreshAt 6000]) request sampleKid := by
  obtain ⟨log, hmade, hlog⟩ := log_of_run sampleHost samplePolicies [refreshAt 0, refreshAt 6000]
  have hlength : log.length = 2 := by
    rw [hmade.length_eq, sample_refresh_times]
    rfl
  have hsecond : (run (keyStep sampleHost) samplePolicies.withoutKeys
      [refreshAt 0, refreshAt 6000]).hpkeKeyIds.lookup 2 =
      some (kidOf (KeyGeneration.calculateKid sampleHost "pub") 2) := by
    decide +kernel
  have hdifferent : sampleKid ≠ kidOf (KeyGeneration.calculateKid sampleHost "pub") 2 := by
    decide +kernel
  have hoffer : (offeredKey sampleHost (sampleMoment 7000) (run (keyStep sampleHost)
      samplePolicies.withoutKeys [refreshAt 0, refreshAt 6000]) LogContext.new).result.toOption =
      some (1, some sampleKid) := by decide +kernel
  refine ⟨by decide +kernel, offers_of_toOption hoffer, fun request ho => ?_⟩
  have hnewest := obtainsGcp_newest hlog ho
  rw [hlength, hsecond] at hnewest
  exact hdifferent (Option.some.inj hnewest).symm

end DepaKms
