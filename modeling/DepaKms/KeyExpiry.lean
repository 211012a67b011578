import DepaKms.KeyOffer
import DepaKms.TokenPolicy

set_option autoImplicit false

/-!
# The grace period

A key past its rotation interval is meant to be usable for the grace period, only
deprecated. `isExpired` compares against the end of the interval first.
-/
namespace DepaKms

variable {h : Host} {t : Moment} {kv : Kv}

inductive KeyState
  | fresh
  | deprecated
  | expired
deriving DecidableEq, Repr

namespace KeyState

/-- How far the key has come. -/
def age : KeyState → ℕ
  | fresh => 0
  | deprecated => 1
  | expired => 2

/-- The flags that show the state: expired, deprecated. -/
def flags : KeyState → Bool × Bool
  | fresh => (false, false)
  | deprecated => (false, true)
  | expired => (true, true)

/-- The state at a time, for a key of `created` under a rotation interval and a grace period. -/
def stateAt (R G created now : ℚ) : KeyState :=
  if created + (R + G) * 1000 < now then expired
  else if created + R * 1000 < now then deprecated
  else fresh

section

variable {R G created now : ℚ}

theorem flags_stateAt (hG : 0 ≤ G) : (stateAt R G created now).flags =
    (decide (created + (R + G) * 1000 < now), decide (created + R * 1000 < now)) := by
  unfold stateAt
  split_ifs with hexpired hlate
  · have hlate : created + R * 1000 < now := by linarith
    simp [flags, hexpired, hlate]
  · simp [flags, hexpired, hlate]
  · simp [flags, hexpired, hlate]

theorem stateAt_deprecated_iff : stateAt R G created now = deprecated ↔
    created + R * 1000 < now ∧ now ≤ created + (R + G) * 1000 := by
  unfold stateAt
  split_ifs with hexpired hlate
  · simp [hexpired]
  · simp [hlate, not_lt.mp hexpired]
  · simp [hlate]

/-- The states are passed through in their order. -/
theorem age_mono {later : ℚ} (hle : now ≤ later) :
    (stateAt R G created now).age ≤ (stateAt R G created later).age := by
  have hpast {limit : ℚ} (hlimit : limit < now) : limit < later := hlimit.trans_le hle
  unfold stateAt
  split_ifs with hexpired hexpired' hlate' hlate hexpired' hlate' <;> simp [age]
  all_goals first | exact absurd (hpast hexpired) hexpired' | exact absurd (hpast hlate) hlate'

/-- With a grace period that is not zero, all three of them are reached. -/
theorem stateAt_reaches (hG : 0 < G) (s : KeyState) :
    ∃ now, stateAt R G created now = s := by
  have hend : created + R * 1000 < created + (R + G) * 1000 := by linarith
  cases s with
  | fresh =>
    refine ⟨created + R * 1000, ?_⟩
    rw [stateAt, if_neg (not_lt.mpr hend.le), if_neg (lt_irrefl _)]
  | deprecated =>
    exact ⟨created + (R + G) * 1000, stateAt_deprecated_iff.mpr ⟨hend, le_rfl⟩⟩
  | expired =>
    refine ⟨created + (R + G) * 1000 + 1, ?_⟩
    rw [stateAt, if_pos (by linarith)]

end

end KeyState

namespace KeyRotationPolicy

theorem classify_eq (now : Option ℚ) (times : IExpiryTimes) :
    classify now times = (numGt now times.expiryTimeMs,
      numGt now times.expiryTimeMs || numGt now times.expiryTimeAndGraceMs) := by
  unfold classify
  cases numGt now times.expiryTimeMs <;> cases numGt now times.expiryTimeAndGraceMs <;> rfl

theorem numGt_mono {now later : ℚ} (hle : now ≤ later) {limit : Option ℚ}
    (h : numGt (some now) limit = true) : numGt (some later) limit = true := by
  cases limit with
  | none => cases h
  | some limit =>
    simp only [numGt, decide_eq_true_eq] at h ⊢
    exact h.trans_le hle

/-- Under any policy an expired key is deprecated, and neither flag is taken back. -/
theorem deprecated_of_expired {now : Option ℚ} {times : IExpiryTimes}
    (h : (classify now times).1 = true) : (classify now times).2 = true := by
  rw [classify_eq] at h ⊢
  simp only [Bool.or_eq_true]
  exact .inl h

theorem classify_mono {now later : ℚ} (hle : now ≤ later) (times : IExpiryTimes) :
    ((classify (some now) times).1 = true → (classify (some later) times).1 = true) ∧
      ((classify (some now) times).2 = true → (classify (some later) times).2 = true) := by
  simp only [classify_eq, Bool.or_eq_true]
  exact ⟨numGt_mono hle, Or.imp (numGt_mono hle) (numGt_mono hle)⟩

/-- The code's order of the two thresholds leaves out the state in between. -/
theorem classify_ne_deprecated {R G created now : ℚ} (hG : 0 ≤ G) :
    classify (some now) (expiryTimes (some created) (some R) (some G)) ≠
      KeyState.deprecated.flags := by
  rw [classify_of_grace hG]
  split_ifs <;> decide

/-- The code agrees with the intended state except in that one. -/
theorem classify_eq_flags_iff {R G created now : ℚ} (hG : 0 ≤ G) :
    classify (some now) (expiryTimes (some created) (some R) (some G)) =
        (KeyState.stateAt R G created now).flags ↔
      KeyState.stateAt R G created now ≠ .deprecated := by
  constructor
  · intro h hstate
    rw [hstate] at h
    exact classify_ne_deprecated hG h
  · intro hne
    rw [classify_of_grace hG]
    unfold KeyState.stateAt at hne ⊢
    split_ifs at hne ⊢ with hlate hexpired hexpired
    · rfl
    · exact absurd rfl hne
    · linarith
    · rfl

end KeyRotationPolicy

theorem number_of_integer {value : JsValue} {field : Option String}
    (hc : checkType value "integer" field = .ok ()) : ∃ n : ℤ, value = .json (.num n) := by
  have hrequired : ("integer".toList.getLast? == some '?') = false := by decide
  unfold checkType at hc
  simp only [hrequired, Bool.false_and, Bool.false_eq_true, if_false,
    show ("integer" : String) ≠ "array" from by decide, if_true] at hc
  split_ifs at hc with hinteger
  unfold isInteger at hinteger
  split at hinteger
  · rename_i q
    exact ⟨q.num, by rw [Rat.coe_int_num_of_den_eq_one (beq_iff_eq.mp hinteger)]⟩
  · cases hinteger

/-- An accepted policy is stored, with two integers for its periods. -/
theorem rotates_of_enact {kv' : Kv} {args : JsValue}
    (he : set_key_rotation_policy.enact kv args = some kv') :
    ∃ R G : ℤ, Rotates kv' R G := by
  obtain ⟨hv, happly⟩ := Action.enact_eq_some_iff.mp he
  obtain ⟨policy, hpolicy, happly⟩ := Logged.bind_ok_iff.mp happly
  obtain ⟨text, htext, happly⟩ := Logged.bind_ok_iff.mp happly
  cases happly
  obtain ⟨policy', hpolicy', hv⟩ := Logged.bind_ok_iff.mp hv
  cases hpolicy.symm.trans hpolicy'
  obtain ⟨_, -, hv⟩ := Logged.bind_ok_iff.mp hv
  obtain ⟨rotation, hrotation, hv⟩ := Logged.bind_ok_iff.mp hv
  obtain ⟨_, hR, hv⟩ := Logged.bind_ok_iff.mp hv
  obtain ⟨grace, hgrace, hG⟩ := Logged.bind_ok_iff.mp hv
  obtain ⟨R, rfl⟩ := number_of_integer hR
  obtain ⟨G, rfl⟩ := number_of_integer hG
  cases policy with
  | json document =>
    cases htext
    exact ⟨R, G, document, AList.lookup_insert _, hrotation, hgrace⟩
  | undefined => cases htext
  | builtin name => cases htext

/-- What governs the age of keys: no policy, or the two periods of one. -/
def Governs (kv : Kv) : Option (ℚ × ℚ) → Prop
  | none => kv.keyRotation.lookup "key_rotation_policy" = none
  | some (R, G) => Rotates kv R G

/-- After any proposals there is no policy, or one with two integers. -/
theorem governed_of_run (kv : Kv) (hkv : Governs kv none) (proposals : List JsValue) :
    Governs (run (commit set_key_rotation_policy.enact) kv proposals) none ∨
      ∃ R G : ℤ, Governs (run (commit set_key_rotation_policy.enact) kv proposals)
        (some (R, G)) := by
  refine run_preserves (P := fun kv => Governs kv none ∨ ∃ R G : ℤ, Governs kv (some (R, G)))
    (fun kv args hP => ?_) (.inl hkv) proposals
  unfold commit
  cases he : set_key_rotation_policy.enact kv args with
  | none => exact hP
  | some kv' => exact .inr (rotates_of_enact he)

/-- The flags that a key of `created` is meant to have: expired, deprecated. -/
def dueFlags (periods : Option (ℚ × ℚ)) (created now : ℚ) : Bool × Bool :=
  match periods with
  | none => (false, false)
  | some (R, G) =>
    (decide (created + 1000 * (R + G) < now), decide (created + 1000 * R < now))

/-- Past the rotation interval, and not past the grace period. -/
def InGracePeriod (periods : Option (ℚ × ℚ)) (created now : ℚ) : Prop :=
  ∃ R G, periods = some (R, G) ∧ created + 1000 * R < now ∧ now ≤ created + 1000 * (R + G)

theorem dueFlags_eq {R G created now : ℚ} (hG : 0 ≤ G) :
    dueFlags (some (R, G)) created now = (KeyState.stateAt R G created now).flags := by
  rw [KeyState.flags_stateAt hG, mul_comm (R + G), mul_comm R]
  rfl

theorem inGracePeriod_iff {R G created now : ℚ} :
    InGracePeriod (some (R, G)) created now ↔
      KeyState.stateAt R G created now = .deprecated := by
  rw [KeyState.stateAt_deprecated_iff, mul_comm (R + G), mul_comm R]
  constructor
  · rintro ⟨R', G', he, hwindow⟩
    cases he
    exact hwindow
  · exact fun hwindow => ⟨R, G, rfl, hwindow⟩

theorem isExpired_ungoverned (hno : Governs kv none) (item : IKeyItem) (logContext : LogContext) :
    (KeyRotationPolicy.isExpired h.toEngine t kv.keyRotation item logContext).result =
      .ok (false, false) := by
  have hstored : KeyRotationPolicy.storedPolicy kv.keyRotation = .ok none := by
    unfold KeyRotationPolicy.storedPolicy
    rw [show kv.keyRotation.lookup "key_rotation_policy" = none from hno]
  rw [KeyRotationPolicy.result_isExpired, KeyRotationPolicy.result_getKeyRotationPolicyFromMap,
    hstored]
  rfl

/-- A key in its grace period is refused like one past it. -/
theorem not_fresh_in_grace {periods : Option (ℚ × ℚ)} (hp : Governs kv periods)
    (hG : ∀ R G, periods = some (R, G) → 0 ≤ G) {created : ℚ} {item : IKeyItem}
    (hitem : item.timestamp = some created) (hgrace : InGracePeriod periods created t.now) :
    ¬ Fresh h t kv item := by
  obtain ⟨R, G, rfl, hlate, -⟩ := hgrace
  rw [fresh_iff hp (hG R G rfl) hitem]
  linarith

/-- The flags that are due show one of three states. As time goes on these come in their order, and
    with a grace period that is not zero none is left out. -/
structure DueInOrder (R G created : ℚ) : Prop where
  flags : ∀ now, dueFlags (some (R, G)) created now = (KeyState.stateAt R G created now).flags
  ordered : ∀ now later, now ≤ later →
    (KeyState.stateAt R G created now).age ≤ (KeyState.stateAt R G created later).age
  reached : 0 < G → ∀ s, ∃ now, KeyState.stateAt R G created now = s

theorem dueInOrder {R G created : ℚ} (hG : 0 ≤ G) : DueInOrder R G created where
  flags _ := dueFlags_eq hG
  ordered _ _ := KeyState.age_mono
  reached := KeyState.stateAt_reaches

/-- The flags that are shown, at any time: what is expired is deprecated, and neither flag is taken
    back. -/
structure FlagsInOrder (h : Host) (kv : Kv) (item : IKeyItem) (logContext : LogContext) : Prop where
  implied : ∀ t expired deprecated,
    (KeyRotationPolicy.isExpired h.toEngine t kv.keyRotation item logContext).result =
      .ok (expired, deprecated) → expired = true → deprecated = true
  kept : ∀ t t' expired deprecated expired' deprecated', t.now ≤ t'.now →
    (KeyRotationPolicy.isExpired h.toEngine t kv.keyRotation item logContext).result =
      .ok (expired, deprecated) →
    (KeyRotationPolicy.isExpired h.toEngine t' kv.keyRotation item logContext).result =
      .ok (expired', deprecated') →
    (expired = true → expired' = true) ∧ (deprecated = true → deprecated' = true)

theorem flagsInOrder {periods : Option (ℚ × ℚ)} (hp : Governs kv periods) (item : IKeyItem)
    (logContext : LogContext) : FlagsInOrder h kv item logContext := by
  cases periods with
  | none =>
    constructor
    · intro t expired deprecated hr hexpired
      rw [isExpired_ungoverned hp] at hr
      cases hr
      exact hexpired
    · intro t t' expired deprecated expired' deprecated' _ hr hr'
      rw [isExpired_ungoverned hp] at hr hr'
      cases hr
      cases hr'
      exact ⟨id, id⟩
  | some p =>
    constructor
    · intro t expired deprecated hr hexpired
      rw [Rotates.isExpired hp, Except.ok.injEq] at hr
      have hboth := KeyRotationPolicy.deprecated_of_expired ((congrArg Prod.fst hr).trans hexpired)
      exact (congrArg Prod.snd hr).symm.trans hboth
    · intro t t' expired deprecated expired' deprecated' hle hr hr'
      rw [Rotates.isExpired hp, Except.ok.injEq] at hr hr'
      obtain ⟨hexpired, hdeprecated⟩ := KeyRotationPolicy.classify_mono hle
        (KeyRotationPolicy.expiryTimes item.timestamp (some p.1) (some p.2))
      rw [hr, hr'] at hexpired hdeprecated
      exact ⟨hexpired, hdeprecated⟩

/-- The flags are the ones that the policy asks for just when the key is not in its grace
    period; there it is refused. The flags that are due and the flags that are shown both come in
    order. -/
theorem grace_honoured_iff (h : Host) (t : Moment) (kv : Kv) (periods : Option (ℚ × ℚ))
    (hp : Governs kv periods) (hpositive : ∀ R G, periods = some (R, G) → 0 ≤ R ∧ 0 ≤ G)
    (created : ℚ) (item : IKeyItem) (hitem : item.timestamp = some created)
    (logContext : LogContext) :
    ((KeyRotationPolicy.isExpired h.toEngine t kv.keyRotation item logContext).result =
        .ok (dueFlags periods created t.now) ↔
      ¬ InGracePeriod periods created t.now) ∧
    (InGracePeriod periods created t.now → ¬ Fresh h t kv item) ∧
    (∀ R G, periods = some (R, G) → DueInOrder R G created) ∧
    FlagsInOrder h kv item logContext := by
  refine ⟨?_, not_fresh_in_grace hp (fun R G he => (hpositive R G he).2) hitem,
    fun R G he => dueInOrder (hpositive R G he).2, flagsInOrder hp item logContext⟩
  cases periods with
  | none =>
    rw [isExpired_ungoverned hp]
    refine iff_of_true rfl ?_
    rintro ⟨R, G, he, -⟩
    cases he
  | some p =>
    obtain ⟨R, G⟩ := p
    obtain ⟨-, hG⟩ := hpositive R G rfl
    rw [Rotates.isExpired hp, hitem, dueFlags_eq hG, inGracePeriod_iff, Except.ok.injEq]
    exact KeyRotationPolicy.classify_eq_flags_iff hG

def sampleAged : IKeyItem := ⟨"X25519", some "d", some sampleKid, "OKP", "x", some 0, none, some 1, none⟩

theorem sample_grace_honoured :
    (KeyRotationPolicy.isExpired sampleHost.toEngine (sampleMoment 16000)
        samplePolicies.keyRotation sampleAged LogContext.new).result =
      .ok (dueFlags (some (10, 5)) 0 16000) := by
  refine (grace_honoured_iff sampleHost (sampleMoment 16000) samplePolicies (some (10, 5))
    samplePolicies_rotates ?_ 0 sampleAged rfl LogContext.new).1.mpr ?_
  · intro R G he
    cases he
    norm_num
  · rintro ⟨R, G, he, -, hle⟩
    cases he
    norm_num [sampleMoment] at hle

/-- Twelve seconds old, with an interval of ten and a grace period of five: deprecated, but
    the code has it expired. -/
theorem grace_period_expired :
    (KeyRotationPolicy.isExpired sampleHost.toEngine (sampleMoment 12000)
        samplePolicies.keyRotation sampleAged LogContext.new).result = .ok (true, true) ∧
      dueFlags (some (10, 5)) 0 12000 = (false, true) := by
  constructor
  · rw [samplePolicies_rotates.isExpired]
    refine congrArg Except.ok ((classify_of_grace ?_).trans (if_pos ?_))
    · norm_num
    · norm_num [sampleMoment]
  · norm_num [dueFlags]

end DepaKms
