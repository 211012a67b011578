import DepaKms.Maps
import DepaKms.Tooling

set_option autoImplicit false

/-!
# The key rotation policy

Times are in milliseconds, the policy's periods in seconds. A time computed from a
missing number is `NaN`, which no comparison accepts.
-/
namespace DepaKms

structure IExpiryTimes where
  expiryTimeMs : Option ℚ
  expiryTimeAndGraceMs : Option ℚ

namespace KeyRotationPolicy

variable (E : Engine)

def getKeyRotationPolicyFromMap (keyRotationPolicyMap : KvMap String KvText)
    (logContextIn : LogContext) : Handler (Option Json) := do
  let logContext := LogContext.within (some logContextIn) "loadKeyRotationPolicyFromMap"
  let keyRotationPolicyStr := (keyRotationPolicyMap.lookup "key_rotation_policy").map
    (KvText.bufToStr E)
  Logger.debug E s!"Loading key rotation policy: {undefinedText keyRotationPolicyStr}"
    (some logContext) []
  match keyRotationPolicyMap.lookup "key_rotation_policy" with
  | none | some (.raw "") => do
    Logger.info E "No key rotation policy found" (some logContext) []
    pure none
  | some (.json keyRotation) => pure (some keyRotation)
  | some (.raw text) => do
    let error := s!"Failed to parse key rotation policy: {text}"
    Logger.error E error (some logContext) []
    throw (KmsError error logContext)

def numSub (a b : Option ℚ) : Option ℚ := do
  let x ← a
  let y ← b
  pure (x - y)

def expiryTimes (creationTimeMs rotationIntervalSeconds gracePeriodSeconds : Option ℚ) :
    IExpiryTimes :=
  let expiryTimeMs := numAdd creationTimeMs (numMul rotationIntervalSeconds (some 1000))
  ⟨expiryTimeMs, numAdd expiryTimeMs (numMul gracePeriodSeconds (some 1000))⟩

def getKeyItemExpiryTime (t : Moment) (keyRotationPolicyMap : KvMap String KvText)
    (keyItemCreationTime : Option ℚ) (logContextIn : LogContext) :
    Handler (Option IExpiryTimes) := do
  match ← getKeyRotationPolicyFromMap E keyRotationPolicyMap logContextIn with
  | some keyRotation => do
    let gracePeriodSeconds ← keyRotation.get "grace_period_seconds"
    let rotationIntervalSeconds ← keyRotation.get "rotation_interval_seconds"
    Logger.info E s!"Key rotation policy content: {keyRotation.stringify E}" (some logContextIn) []
    let rotationInterval ← rotationIntervalSeconds.toNumber E
    let gracePeriod ← gracePeriodSeconds.toNumber E
    let times := expiryTimes keyItemCreationTime rotationInterval gracePeriod
    Logger.info E
      s!"Key rotation policy Creation time: {E.dateToString keyItemCreationTime}, Current Time: {E.dateToString (some t.now)}, delta (ms): {numberText E (numSub (some t.now) keyItemCreationTime)}, expiryTimeMs ({numberText E times.expiryTimeMs}): {E.dateToString times.expiryTimeMs}, expiryTimeAndGraceMs ({numberText E times.expiryTimeAndGraceMs}): {E.dateToString times.expiryTimeAndGraceMs}"
      none []
    pure (some times)
  | none => do
    Logger.info E "Key rotation policy is not defined, cannot calculate expiry time"
      (some logContextIn) []
    pure none

def isExpired (t : Moment) (keyRotationPolicyMap : KvMap String KvText) (keyItem : IKeyItem)
    (logContextIn : LogContext) : Handler (Bool × Bool) := do
  match ← getKeyItemExpiryTime E t keyRotationPolicyMap keyItem.timestamp logContextIn with
  | none => pure (false, false)
  | some times =>
    if numGt (some t.now) times.expiryTimeMs then do
      Logger.warn E "Key has expired and is no longer valid" (some logContextIn) []
      pure (true, true)
    else if numGt (some t.now) times.expiryTimeAndGraceMs then do
      Logger.warn E "Key is deprecated and will expire soon" (some logContextIn) []
      pure (false, true)
    else pure (false, false)

def delaySeconds (policy : Option Json) : Except JsError JsValue := do
  let period ← (Json.ofOption policy).getOptional "grace_period_seconds"
  match period with
  | .undefined | .json .null => pure (.json (.num 0))
  | v => pure v

def exposable (delayMs now : Option ℚ) (keyItem : Option IKeyItem) : Bool :=
  match keyItem.bind IKeyItem.timestamp with
  | none => true
  | some timestamp => numGe (some 0) delayMs || numGe (numSub now (some timestamp)) delayMs

def exposableLoop (getKidForId : ℕ → Except JsError (Option String))
    (getKeyItem : String → Except JsError (Option IKeyItem)) (delayText : String)
    (delayMs now : Option ℚ) (logContextIn : LogContext) : ℕ → Handler (Option (ℕ × String))
  | 0 => pure none
  | n + 1 => do
    let id := n + 1
    match ← getKidForId id with
    | none => exposableLoop getKidForId getKeyItem delayText delayMs now logContextIn n
    | some kid => do
      let keyItem ← getKeyItem kid
      if exposable delayMs now keyItem then do
        if (keyItem.bind IKeyItem.timestamp).isSome then
          Logger.debug E s!"Latest exposable key: id={id}, kid={kid}, delay={delayText}s"
            (some logContextIn) []
        pure (some (id, kid))
      else exposableLoop getKidForId getKeyItem delayText delayMs now logContextIn n

def getLatestExposableKey (t : Moment) (keyRotationPolicyMap : KvMap String KvText)
    (keyIdStoreSize : ℕ) (getKidForId : ℕ → Except JsError (Option String))
    (getKeyItem : String → Except JsError (Option IKeyItem)) (logContextIn : LogContext) :
    Handler (Option (ℕ × String)) :=
  if keyIdStoreSize ≤ 0 then pure none
  else do
    let policy ← getKeyRotationPolicyFromMap E keyRotationPolicyMap logContextIn
    let delay ← delaySeconds policy
    let delayNumber ← delay.toNumber E
    let delayText ← delay.render E
    exposableLoop E getKidForId getKeyItem delayText (numMul delayNumber (some 1000)) (some t.now)
      logContextIn keyIdStoreSize

def storedPolicy (keyRotationPolicyMap : KvMap String KvText) : Except String (Option Json) :=
  match keyRotationPolicyMap.lookup "key_rotation_policy" with
  | none | some (.raw "") => .ok none
  | some (.json keyRotation) => .ok (some keyRotation)
  | some (.raw text) => .error text

theorem result_getKeyRotationPolicyFromMap (keyRotationPolicyMap : KvMap String KvText)
    (logContextIn : LogContext) :
    (getKeyRotationPolicyFromMap E keyRotationPolicyMap logContextIn).result =
      (storedPolicy keyRotationPolicyMap).mapError fun text =>
        KmsError s!"Failed to parse key rotation policy: {text}"
          (LogContext.within (some logContextIn) "loadKeyRotationPolicyFromMap") := by
  unfold getKeyRotationPolicyFromMap storedPolicy
  rw [Logged.result_bind, Logger.result_debug, Logged.ok_bind]
  split <;> rfl

/-- The two periods of a policy as numbers, in the order in which they are read. -/
def periods (keyRotation : Json) : Except JsError (Option ℚ × Option ℚ) := do
  let gracePeriodSeconds ← keyRotation.get "grace_period_seconds"
  let rotationIntervalSeconds ← keyRotation.get "rotation_interval_seconds"
  let rotationInterval ← rotationIntervalSeconds.toNumber E
  let gracePeriod ← gracePeriodSeconds.toNumber E
  pure (rotationInterval, gracePeriod)

def classify (now : Option ℚ) (times : IExpiryTimes) : Bool × Bool :=
  if numGt now times.expiryTimeMs then (true, true)
  else if numGt now times.expiryTimeAndGraceMs then (false, true)
  else (false, false)

theorem result_getKeyItemExpiryTime (t : Moment) (keyRotationPolicyMap : KvMap String KvText)
    (creation : Option ℚ) (logContextIn : LogContext) :
    (getKeyItemExpiryTime E t keyRotationPolicyMap creation logContextIn).result =
      (do
        match ← (getKeyRotationPolicyFromMap E keyRotationPolicyMap logContextIn).result with
        | some keyRotation => do
          let (rotation, grace) ← periods E keyRotation
          pure (some (expiryTimes creation rotation grace))
        | none => pure none) := by
  unfold getKeyItemExpiryTime periods
  rw [Logged.result_bind]
  cases (getKeyRotationPolicyFromMap E keyRotationPolicyMap logContextIn).result with
  | error e => rfl
  | ok policy =>
    cases policy with
    | none => rfl
    | some keyRotation =>
      simp only [Logged.ok_bind, Logged.result_bind, Logged.result_monadLift, Logger.result_info,
        Logged.result_pure, bind_assoc, pure_bind]
      rfl

theorem result_isExpired (t : Moment) (keyRotationPolicyMap : KvMap String KvText)
    (keyItem : IKeyItem) (logContextIn : LogContext) :
    (isExpired E t keyRotationPolicyMap keyItem logContextIn).result =
      (do
        match ← (getKeyRotationPolicyFromMap E keyRotationPolicyMap logContextIn).result with
        | some keyRotation => do
          let (rotation, grace) ← periods E keyRotation
          pure (classify (some t.now) (expiryTimes keyItem.timestamp rotation grace))
        | none => pure (false, false)) := by
  unfold isExpired classify
  rw [Logged.result_bind, result_getKeyItemExpiryTime]
  cases (getKeyRotationPolicyFromMap E keyRotationPolicyMap logContextIn).result with
  | error e => rfl
  | ok policy =>
    cases policy with
    | none => rfl
    | some keyRotation =>
      simp only [Logged.ok_bind]
      cases periods E keyRotation with
      | error e => rfl
      | ok p =>
        simp only [Logged.ok_bind, pure_bind]
        split_ifs <;> rfl

theorem isExpired_ok_context {t : Moment} {keyRotationPolicyMap : KvMap String KvText}
    {keyItem : IKeyItem} {logContext : LogContext} {p : Bool × Bool}
    (hp : (isExpired E t keyRotationPolicyMap keyItem logContext).result = .ok p)
    (other : LogContext) :
    (isExpired E t keyRotationPolicyMap keyItem other).result = .ok p := by
  rw [result_isExpired, result_getKeyRotationPolicyFromMap] at hp ⊢
  cases hs : storedPolicy keyRotationPolicyMap with
  | error text =>
    rw [hs] at hp
    cases hp
  | ok policy =>
    rw [hs] at hp
    exact hp

end KeyRotationPolicy

end DepaKms
