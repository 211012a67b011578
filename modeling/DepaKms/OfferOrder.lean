import DepaKms.ExposureWindow

set_option autoImplicit false

/-!
# The order of the keys on offer

Over a run the number on offer follows the count of aged keys, except while it is taken
from the newest key for want of an aged one.
-/
namespace DepaKms

variable {h : Host} {t : Moment} {kv : Kv}

def Event.asksPublicKey (e : Event) : Bool :=
  match e.call with
  | .pubkey | .listpubkeys => true
  | _ => false

/-- The call at this place of the run asks for a public key, and the key of this number is the
    one on offer then. -/
def OfferedAt (h : Host) (kv : Kv) (events : List Event) (i n : ℕ) : Prop :=
  ∃ e kid stored, events[i]? = some e ∧ e.asksPublicKey = true ∧
    OffersExactly h e.moment (run (keyStep h) kv (events.take i)) n kid stored

def NeverGoesBack (h : Host) (kv : Kv) (events : List Event) : Prop :=
  ∀ i j m n, i < j → OfferedAt h kv events i m → OfferedAt h kv events j n → m ≤ n

/-- No public key is asked for while all keys are younger than `G`, and again when one of them
    has reached that age and the newest of them has not. -/
def HandsOverInOrder (h : Host) (kv : Kv) (events : List Event) (G : ℚ) : Prop :=
  ∀ i j e e', i < j → events[i]? = some e → e.asksPublicKey = true →
    events[j]? = some e' → e'.asksPublicKey = true →
    agedCount G e.moment.now (refreshTimes h kv (events.take i)) = 0 →
      agedCount G e'.moment.now (refreshTimes h kv (events.take j)) = 0 ∨
        (refreshTimes h kv (events.take i)).length ≤
          agedCount G e'.moment.now (refreshTimes h kv (events.take j))

theorem clockOrdered_take {events : List Event}
    (ho : (events.map fun e => e.moment.now).Pairwise (· ≤ ·)) {i : ℕ} {e : Event}
    (hi : events[i]? = some e) : ClockOrdered (events.take i) e.moment.now where
  ordered := ho.sublist ((List.take_sublist i events).map _)
  past e' he' := by
    obtain ⟨j, hj⟩ := List.mem_iff_getElem?.mp he'
    rw [List.getElem?_take] at hj
    split_ifs at hj with hlt
    have hi' : (events.map fun e => e.moment.now)[i]? = some e.moment.now := by simp [hi]
    have hj' : (events.map fun e => e.moment.now)[j]? = some e'.moment.now := by simp [hj]
    obtain ⟨hil, hie⟩ := List.getElem?_eq_some_iff.mp hi'
    obtain ⟨hjl, hje⟩ := List.getElem?_eq_some_iff.mp hj'
    rw [← hie, ← hje]
    exact List.pairwise_iff_getElem.mp ho j i hjl hil hlt

theorem refreshTimes_take {events : List Event} {i j : ℕ} (hij : i ≤ j) :
    refreshTimes h kv (events.take i) <+: refreshTimes h kv (events.take j) := by
  obtain ⟨rest, hrest⟩ := List.take_prefix_take_left hij (l := events)
  rw [← hrest, refreshTimes_append]
  exact List.prefix_append _ _

theorem OffersExactly.unique {m n : ℕ} {kid kid' : String} {stored stored' : StoredItem}
    (hm : OffersExactly h t kv m kid stored) (hn : OffersExactly h t kv n kid' stored') :
    m = n := by
  have hsame := (hm.selected LogContext.new).symm.trans (hn.selected LogContext.new)
  cases hsame
  rfl

theorem offeredAt_iff {events : List Event} {G : ℚ} (hp : GracePeriod h kv G)
    (ho : (events.map fun e => e.moment.now).Pairwise (· ≤ ·)) {i : ℕ} {e : Event}
    (hi : events[i]? = some e) (hasks : e.asksPublicKey = true) (n : ℕ) :
    OfferedAt h kv.withoutKeys events i n ↔
      refreshTimes h kv.withoutKeys (events.take i) ≠ [] ∧
        n = onOffer G e.moment.now (refreshTimes h kv.withoutKeys (events.take i)) := by
  rcases offered_run hp (clockOrdered_take ho hi) with
    ⟨hnil, hempty⟩ | ⟨hne, m, kid, stored, hnumber, -, hitem, hselected⟩
  · constructor
    · rintro ⟨e', kid, stored, hi', -, hoffers⟩
      rw [hi] at hi'
      cases hi'
      have hselected := hoffers.selected LogContext.new
      rw [hempty] at hselected
      cases hselected
    · rintro ⟨hne, -⟩
      exact absurd hnil hne
  · have hoffers := offersExactly_of_selected hselected hitem
    constructor
    · rintro ⟨e', kid', stored', hi', -, hoffers'⟩
      rw [hi] at hi'
      cases hi'
      refine ⟨hne, ?_⟩
      rw [hoffers'.unique hoffers, hnumber]
    · rintro ⟨-, rfl⟩
      rw [← hnumber]
      exact ⟨e, kid, stored, hi, hasks, hoffers⟩

/-- The number on offer never goes back just when no call falls between the ageing of an older key
    and that of the one an earlier call was shown for want of an aged one. -/
theorem offer_never_goes_back_iff (h : Host) (kv : Kv) (events : List Event) (G : ℚ)
    (hp : GracePeriod h kv G) (ho : (events.map fun e => e.moment.now).Pairwise (· ≤ ·)) :
    NeverGoesBack h kv.withoutKeys events ↔ HandsOverInOrder h kv.withoutKeys events G := by
  have hnow {i j : ℕ} {e e' : Event} (hij : i < j) (hi : events[i]? = some e)
      (hj : events[j]? = some e') : e.moment.now ≤ e'.moment.now := by
    refine (clockOrdered_take ho hj).past e (List.mem_iff_getElem?.mpr ⟨i, ?_⟩)
    rw [List.getElem?_take, if_pos hij, hi]
  constructor
  · intro hback i j e e' hij hi hasks hj hasks'
    have hfront : refreshTimes h kv.withoutKeys (events.take i) <+:
        refreshTimes h kv.withoutKeys (events.take j) := refreshTimes_take hij.le
    by_cases hne : refreshTimes h kv.withoutKeys (events.take i) = []
    · rw [hne]
      exact fun _ => .inr (Nat.zero_le _)
    · have hne' : refreshTimes h kv.withoutKeys (events.take j) ≠ [] := by
        intro hnil
        rw [hnil] at hfront
        exact hne (List.prefix_nil.mp hfront)
      have hle := hback i j _ _ hij ((offeredAt_iff hp ho hi hasks _).mpr ⟨hne, rfl⟩)
        ((offeredAt_iff hp ho hj hasks' _).mpr ⟨hne', rfl⟩)
      exact (onOffer_le_iff hfront (hnow hij hi hj)).mp hle
  · intro horder i j m n hij hm hn
    obtain ⟨e, -, -, hi, hasks, -⟩ := id hm
    obtain ⟨e', -, -, hj, hasks', -⟩ := id hn
    obtain ⟨-, rfl⟩ := (offeredAt_iff hp ho hi hasks m).mp hm
    obtain ⟨-, rfl⟩ := (offeredAt_iff hp ho hj hasks' n).mp hn
    have hfront : refreshTimes h kv.withoutKeys (events.take i) <+:
        refreshTimes h kv.withoutKeys (events.take j) := refreshTimes_take hij.le
    exact (onOffer_le_iff hfront (hnow hij hi hj)).mpr (horder i j e e' hij hi hasks hj hasks')

def listAt (now : ℚ) : Event := ⟨.listpubkeys, sampleMoment now, requestOf (.obj []) none⟩

def handOver : List Event :=
  [refreshAt 0, listAt 6000, refreshAt 7000, listAt 8000, listAt 13000]

/-- The second key is made while the first is on offer, and takes its place once it is old
    enough. -/
theorem sample_hands_over : NeverGoesBack sampleHost samplePolicies.withoutKeys handOver := by
  have hclock : (handOver.map fun e => e.moment.now).Pairwise (· ≤ ·) := by
    norm_num [handOver, refreshAt, listAt, sampleMoment]
  have haged : ∀ i < 5, i = 0 ∨ i = 2 ∨ ∃ e, handOver[i]? = some e ∧ agedCount 5 e.moment.now
      (refreshTimes sampleHost samplePolicies.withoutKeys (handOver.take i)) ≠ 0 := by
    intro i hi
    interval_cases i
    · exact .inl rfl
    · exact .inr (.inr ⟨listAt 6000, rfl, by decide +kernel⟩)
    · exact .inr (.inl rfl)
    · exact .inr (.inr ⟨listAt 8000, rfl, by decide +kernel⟩)
    · exact .inr (.inr ⟨listAt 13000, rfl, by decide +kernel⟩)
  refine (offer_never_goes_back_iff sampleHost samplePolicies handOver 5
    samplePolicies_rotates.gracePeriod hclock).mpr fun i j e e' hij hi hasks hj hasks' hnone => ?_
  rcases haged i (List.getElem?_eq_some_iff.mp hi).1 with rfl | rfl | ⟨e'', hi', hsome⟩
  · cases hi
    cases hasks
  · cases hi
    cases hasks
  · cases hi.symm.trans hi'
    exact absurd hnone hsome

/-- Two young keys, then one of them old enough: the second key is shown first, then the first. -/
theorem offer_goes_back :
    (answered (listpubkeys sampleHost (sampleMoment 2000) (run (keyStep sampleHost)
        samplePolicies.withoutKeys [refreshAt 0, refreshAt 1000]) (requestOf (.obj []) none))).map
      (fun keySet => keySet.keys.map ITinkPublicKey.id) = some ["12"] ∧
    (answered (listpubkeys sampleHost (sampleMoment 5500) (run (keyStep sampleHost)
        samplePolicies.withoutKeys [refreshAt 0, refreshAt 1000]) (requestOf (.obj []) none))).map
      (fun keySet => keySet.keys.map ITinkPublicKey.id) = some ["11"] ∧
    ¬ NeverGoesBack sampleHost samplePolicies.withoutKeys
      [refreshAt 0, refreshAt 1000, listAt 2000, listAt 5500] := by
  refine ⟨by decide +kernel, by decide +kernel, fun hback => ?_⟩
  have hclock : ([refreshAt 0, refreshAt 1000, listAt 2000, listAt 5500].map
      fun e => e.moment.now).Pairwise (· ≤ ·) := by
    norm_num [refreshAt, listAt, sampleMoment]
  have hfirst : refreshTimes sampleHost samplePolicies.withoutKeys
      ([refreshAt 0, refreshAt 1000, listAt 2000, listAt 5500].take 2) = [0, 1000] := by
    decide +kernel
  have hsecond : refreshTimes sampleHost samplePolicies.withoutKeys
      ([refreshAt 0, refreshAt 1000, listAt 2000, listAt 5500].take 3) = [0, 1000] := by
    decide +kernel
  have hm := (offeredAt_iff samplePolicies_rotates.gracePeriod hclock (i := 2) rfl rfl 2).mpr
    ⟨by rw [hfirst]; simp, by rw [hfirst]; decide +kernel⟩
  have hn := (offeredAt_iff samplePolicies_rotates.gracePeriod hclock (i := 3) rfl rfl 1).mpr
    ⟨by rw [hsecond]; simp, by rw [hsecond]; decide +kernel⟩
  have hle := hback 2 3 2 1 (by omega) hm hn
  omega

end DepaKms
