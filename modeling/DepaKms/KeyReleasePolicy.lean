import DepaKms.ServiceResult
import DepaKms.Maps

set_option autoImplicit false

/-!
# The key release policy and its evaluator
-/
namespace DepaKms

structure IKeyReleasePolicy where
  type : String
  claims : Json
  gte : Option Json
  gt : Option Json

def IKeyReleasePolicy.toJson (p : IKeyReleasePolicy) : Json :=
  .obj ([("type", .str p.type), ("claims", p.claims)] ++
    (p.gte.toList.map fun v => ("gte", v)) ++ (p.gt.toList.map fun v => ("gt", v)))

namespace KeyReleasePolicy

variable (E : Engine) (logContext : LogContext)

/-- `v.filter(…)` needs an array. -/
def filterable : Json → Except JsError (List Json)
  | .arr xs => .ok xs
  | .null => .error (cannotRead "filter" "null")
  | _ => .error notAFunction

def matching (attestationValue : JsValue) : List Json → Handler (List Json)
  | [] => pure []
  | p :: ps => do
    let policyText ← p.render E
    let attestationText ← attestationValue.render E
    Logger.debug E s!"Check if policy value {policyText} === {attestationText}"
      (some logContext) []
    let policyString ← p.toStringCall E
    let attestationString ← attestationValue.toStringCall E
    let rest ← matching attestationValue ps
    pure (if policyString = attestationString then p :: rest else rest)

def logChecking (key : String) (attestationValue : JsValue) (attestationText policyText : String) :
    Handler Unit :=
  let isUndefined := attestationValue.typeOf == "undefined"
  Logger.debug E
    s!"Checking key {key}, typeof attestationValue: {attestationValue.typeOf}, isUndefined: {isUndefined}, attestation value: {attestationText}, policyValue: {policyText}"
    (some logContext) []

def claimsLoop (attestationClaims : JsValue) :
    List (String × Json) → Handler (Option (ServiceResult JsValue))
  | [] => pure none
  | (key, policyValue) :: entries => do
    let attestationValue ← attestationClaims.get key
    let attestationText ← attestationValue.render E
    let policyText ← policyValue.render E
    logChecking E logContext key attestationValue attestationText policyText
    if attestationValue.typeOf = "undefined" then do
      let failure ← ServiceResult.failed E (.of s!"Missing claim in attestation: {key}") 400
        logContext []
      pure (some failure)
    else do
      let policyValues ← filterable policyValue
      let found ← matching E logContext attestationValue policyValues
      if found.length = 0 then do
        let failure ← ServiceResult.failed E
          (.of s!"Attestation claim {key}, value {attestationText} does not match policy values: {policyText}")
          400 logContext []
        pure (some failure)
      else claimsLoop attestationClaims entries

def isNullish : JsValue → Bool
  | .undefined | .json .null => true
  | _ => false

def validateKeyReleasePolicyClaims (keyReleasePolicyClaims : Json) (attestationClaims : JsValue) :
    Handler (ServiceResult JsValue) :=
  if keyReleasePolicyClaims.isNull then
    ServiceResult.failed E (.of "Missing key release policy") 500 logContext []
  else if isNullish attestationClaims then
    ServiceResult.failed E (.of "Missing attestation claims") 500 logContext []
  else do
    let entries ← keyReleasePolicyClaims.ownEntries
    match ← claimsLoop E logContext attestationClaims entries with
    | some failure => pure failure
    | none => ServiceResult.succeeded E attestationClaims logContext none

inductive Operator where
  | gte
  | gt
  deriving DecidableEq, Repr

def Operator.type : Operator → String
  | gte => "gte"
  | gt => "gt"

def Operator.holds : Operator → Option ℚ → Option ℚ → Bool
  | gte => numGe
  | gt => numGt

def Operator.words : Operator → String
  | gte => "greater than or equal to"
  | gt => "greater than"

/-- The bound of an operator: a number, or a string that parses to one. -/
def policyNumber : Json → Option ℚ
  | .num q => some q
  | .str s => E.parseFloat s
  | _ => none

def attestationNumber : JsValue → Except JsError (Option ℚ)
  | .json (.num q) => .ok (some q)
  | v => v.parseFloat E

def operatorsLoop (op : Operator) (attestationClaims : JsValue) :
    List (String × Json) → Handler (Option (ServiceResult JsValue))
  | [] => pure none
  | (key, policyValue) :: entries => do
    let attestationValue ← attestationClaims.get key
    let attestationText ← attestationValue.render E
    let policyText ← policyValue.render E
    logChecking E logContext key attestationValue attestationText policyText
    if attestationValue.typeOf = "undefined" then do
      let failure ← ServiceResult.failed E
        (.of s!"Missing claim in attestation: {key} for operator type {op.type}") 400 logContext []
      pure (some failure)
    else if policyValue.isNull then do
      let failure ← ServiceResult.failed E
        (.of s!"Missing policy value for claim {key} for operator type {op.type}") 500
        logContext []
      pure (some failure)
    else match policyNumber E policyValue with
      | none => do
        let failure ← ServiceResult.failed E
          (.of s!"Policy value for claim {key} is not a number or a string representing a number for operator type {op.type}")
          400 logContext []
        pure (some failure)
      | some bound => do
        -- The bound is a number from here on, so the second type check never fails.
        let value ← attestationNumber E attestationValue
        Logger.debug E
          s!"Checking if attestation value {numberText E value} is {op.words} policy value {E.numberToString bound}"
          (some logContext) []
        if op.holds value (some bound) then operatorsLoop op attestationClaims entries
        else do
          let failure ← ServiceResult.failed E
            (.of s!"Attestation claim {key}, value {numberText E value} is not {op.words} policy value {E.numberToString bound}")
            400 logContext []
          pure (some failure)

def validateKeyReleasePolicyOperators (op : Operator) (keyReleasePolicyClaims : Json)
    (attestationClaims : JsValue) : Handler (ServiceResult JsValue) :=
  if keyReleasePolicyClaims.isNull then
    ServiceResult.failed E (.of "Missing key release policy") 500 logContext []
  else if isNullish attestationClaims then
    ServiceResult.failed E (.of "Missing attestation claims") 500 logContext []
  else do
    let entries ← keyReleasePolicyClaims.ownEntries
    match ← operatorsLoop E logContext op attestationClaims entries with
    | some failure => pure failure
    | none => ServiceResult.succeeded E attestationClaims logContext none

/-- An operator that the policy has replaces the result so far by its own. -/
def applyOperator (op : Operator) (bounds : Option Json) (attestationClaims : JsValue)
    (policyValidationResult : ServiceResult JsValue) : Handler (ServiceResult JsValue) :=
  match bounds with
  | none | some .null => pure policyValidationResult
  | some bounds => do
    Logger.debug E s!"Validating {op.type} operator" (some logContext) [.json bounds]
    validateKeyReleasePolicyOperators E logContext op bounds attestationClaims

def validateKeyReleasePolicy (keyReleasePolicy : IKeyReleasePolicy) (attestationClaims : JsValue)
    (logContextIn : Option LogContext) : Handler (ServiceResult JsValue) := do
  let logContext := LogContext.within logContextIn "validateKeyReleasePolicy"
  let entries ← keyReleasePolicy.claims.ownEntries
  if entries.length = 0 then
    ServiceResult.failed E
      (.of "The claims in the key release policy are missing. Please propose a new key release policy")
      400 logContext []
  else do
    let claimsResult ← validateKeyReleasePolicyClaims E logContext keyReleasePolicy.claims
      attestationClaims
    if claimsResult.isFailure then pure claimsResult
    else do
      let gteResult ← applyOperator E logContext .gte keyReleasePolicy.gte attestationClaims
        claimsResult
      applyOperator E logContext .gt keyReleasePolicy.gt attestationClaims gteResult

def readEntry (keyReleasePolicyMap : KvMap String KvText) (kvKey : String) :
    Except JsError (Option Json) :=
  match keyReleasePolicyMap.lookup kvKey with
  | none => .ok none
  | some (.json v) => .ok (some v)
  | some (.raw text) =>
    .error (KmsError s!"Key release policy {kvKey} is not a valid JSON object: {text}" logContext)

def getKeyReleasePolicyFromMap (keyReleasePolicyMap : KvMap String KvText)
    (logContextIn : Option LogContext) : Handler IKeyReleasePolicy := do
  let logContext := LogContext.within logContextIn "getKeyReleasePolicyFromMap"
  match ← readEntry logContext keyReleasePolicyMap "claims" with
  | none =>
    throw (KmsError "Key release policy claims not found in the key release policy map" logContext)
  | some claims => do
    let gte ← readEntry logContext keyReleasePolicyMap "gte"
    let gt ← readEntry logContext keyReleasePolicyMap "gt"
    let keyReleasePolicy : IKeyReleasePolicy := ⟨"add", claims, gte, gt⟩
    Logger.debug E "Resulting key release policy: " (some logContext)
      [.json keyReleasePolicy.toJson]
    pure keyReleasePolicy

end KeyReleasePolicy

end DepaKms
