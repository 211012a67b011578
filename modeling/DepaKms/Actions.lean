import DepaKms.KeyReleasePolicy
import DepaKms.WrappingKey

set_option autoImplicit false

/-!
# Governance actions

What a proposal may ask for. The arguments are the document's own; an action either
changes one policy map or throws. Lines on the console leave no trace, but the texts
in them are rendered, and rendering may throw.
-/
namespace DepaKms

/-- `new Action(validate, apply)`. -/
structure Action where
  validate : JsValue → Except JsError Unit
  apply : Kv → JsValue → Except JsError Kv

def Action.enact (action : Action) (kv : Kv) (args : JsValue) : Option Kv :=
  match action.validate args >>= fun _ => action.apply kv args with
  | .ok kv' => some kv'
  | .error _ => none

theorem Action.enact_eq_some_iff {action : Action} {kv kv' : Kv} {args : JsValue} :
    action.enact kv args = some kv' ↔
      action.validate args = .ok () ∧ action.apply kv args = .ok kv' := by
  unfold Action.enact
  cases action.validate args with
  | error e => simp [Logged.error_bind]
  | ok _ =>
    rw [Logged.ok_bind]
    cases action.apply kv args <;> simp

def isUndefined : JsValue → Bool
  | .undefined => true
  | _ => false

def isInteger : JsValue → Bool
  | .json (.num q) => q.den == 1
  | _ => false

def isArray : JsValue → Bool
  | .json (.arr _) => true
  | _ => false

def checkType (value : JsValue) (type : String) (field : Option String) : Except JsError Unit :=
  let optional := type.toList.getLast? == some '?'
  let type := if optional then String.ofList type.toList.dropLast else type
  let field := undefinedText field
  if optional && KeyReleasePolicy.isNullish value then pure ()
  else if type = "array" then
    if isArray value then pure () else throw ⟨s!"{field} must be an array"⟩
  else if type = "integer" then
    if isInteger value then pure () else throw ⟨s!"{field} must be an integer"⟩
  else if value.typeOf = type then pure ()
  else throw ⟨s!"{field} must be of type {type} but is {value.typeOf}"⟩

def storedJson : JsValue → Except JsError KvText
  | .json v => .ok (.json v)
  | _ => .error ⟨"Argument must be a string"⟩

def bufferText : JsValue → Except JsError String
  | .json (.str s) => .ok s
  | _ => .error ⟨"Argument must be a string"⟩

def ownEntriesOf : JsValue → Except JsError (List (String × Json))
  | .json v => v.ownEntries
  | .builtin _ => .ok []
  | .undefined => .error noObject

/-- `items[key] = v` on a parsed document; what is no own property is not stored. -/
def setProperty (items : Json) (key : String) (v : Json) : Except JsError Json :=
  match items with
  | .obj fields => .ok (.obj (if key = "__proto__" then fields else assign fields key v))
  | .arr xs => .ok (.arr xs)
  | .null => .error ⟨s!"cannot set property '{key}' of null"⟩
  | _ => .error ⟨"not an object"⟩

def replaceProperty (items : Json) (key : String) (v : Json) : Json :=
  match items with
  | .obj fields => .obj (assign fields key v)
  | items => items

def deleteProperty (items : Json) (key : String) : Json :=
  match items with
  | .obj fields => .obj (fields.filter fun f => f.1 != key)
  | items => items

/-- `Array.isArray(item) ? item : [item]`. -/
def asList : Json → List Json
  | .arr xs => xs
  | item => [item]

/-- `[...new Set(xs)]`. -/
def distinct (xs : List Json) : List Json :=
  xs.foldl (fun seen x => if Json.includes seen x then seen else seen ++ [x]) []

structure ReleaseTexts where
  scope : String
  policy : String
  doesNotExist : String
  title : String
  /-- Whether a removal shows on the console what it removes. -/
  removalShown : Bool

def releaseTexts : ReleaseTexts :=
  ⟨"set_key_release_policy", "key release policy", "does not exists", "Key Release Policy", true⟩

def gcpReleaseTexts : ReleaseTexts :=
  ⟨"set_gcp_key_release_policy", "GCP key release policy", "does not exist",
    "GCP Key Release Policy", false⟩

namespace SetKeyReleasePolicy

def claimTypes : List (String × String) :=
  [("x-ms-attestation-type", "string"),
    ("x-ms-compliance-status", "string"),
    ("x-ms-policy-hash", "string"),
    ("vm-configuration-secure-boot", "boolean"),
    ("vm-configuration-secure-boot-template-id", "string"),
    ("vm-configuration-tpm-enabled", "boolean"),
    ("vm-configuration-vmUniqueId", "string"),
    ("x-ms-sevsnpvm-authorkeydigest", "string"),
    ("x-ms-sevsnpvm-bootloader-svn", "number"),
    ("x-ms-sevsnpvm-familyId", "string"),
    ("x-ms-sevsnpvm-guestsvn", "number"),
    ("x-ms-sevsnpvm-hostdata", "string"),
    ("x-ms-sevsnpvm-idkeydigest", "string"),
    ("x-ms-sevsnpvm-imageId", "string"),
    ("x-ms-sevsnpvm-is-debuggable", "boolean"),
    ("x-ms-sevsnpvm-launchmeasurement", "string"),
    ("x-ms-sevsnpvm-microcode-svn", "number"),
    ("x-ms-sevsnpvm-migration-allowed", "boolean"),
    ("x-ms-sevsnpvm-reportdata", "string"),
    ("x-ms-sevsnpvm-reportid", "string"),
    ("x-ms-sevsnpvm-smt-allowed", "boolean"),
    ("x-ms-sevsnpvm-snpfw-svn", "number"),
    ("x-ms-sevsnpvm-tee-svn", "number"),
    ("x-ms-sevsnpvm-vmpl", "number"),
    ("x-ms-ver", "string")]

def CLAIMS : Json := .obj (claimTypes.map fun f => (f.1, .str f.2))

variable (E : Engine) (texts : ReleaseTexts)

def readItems (verb type : String) (absent : Except JsError Json)
    (map : KvMap String KvText) : Except JsError Json :=
  match map.lookup type with
  | none => absent
  | some (.json items) => .ok items
  | some (.raw text) =>
    .error ⟨s!"[ERROR] [scope={texts.scope}->{verb}] Error parsing {text} from {texts.policy} during {verb}"⟩

def editLoop (verb label type : String) (change : Json → String → Json → Except JsError Json) :
    Json → List (String × Json) → Except JsError Json
  | items, [] => pure items
  | items, (key, item) :: entries => do
    let declared ← CLAIMS.get key
    if isUndefined declared then
      throw ⟨s!"[ERROR] [scope={texts.scope}->{verb}] KRP {label} {type}=>The claim {key} is not an allowed claim"⟩
    let items ← change items key item
    editLoop verb label type change items entries

/-- The read, the loop and the write that the four helpers share. -/
def edit (verb label type : String) (absent : Except JsError Json)
    (change : Json → String → Json → Except JsError Json) (map : KvMap String KvText)
    (claims : JsValue) : Except JsError (KvMap String KvText) := do
  let items ← readItems texts verb type absent map
  let entries ← ownEntriesOf claims
  let items ← editLoop texts verb label type change items entries
  pure (map.insert type (.json items))

def absentKey (verb type : String) : Except JsError Json :=
  .error ⟨s!"[ERROR] [scope={texts.scope}->{verb}] The key {type} {texts.doesNotExist} in the {texts.policy}"⟩

/-- One value of a claim that is in the document; `items[key].includes` is also a method of a
    string. -/
def pushNew (current : JsValue) (i : Json) : Except JsError JsValue :=
  match current with
  | .json (.arr xs) => do
    let _ ← i.render E
    pure (.json (.arr (if Json.includes xs i then xs else xs ++ [i])))
  | .json (.str s) => do
    let text ← i.render E
    if text.toList <:+: s.toList then pure current else throw notAFunction
  | .json .null => throw (cannotRead "includes" "null")
  | .undefined => throw (cannotRead "includes" "undefined")
  | _ => throw notAFunction

def addClaim (items : Json) (key : String) (item : Json) : Except JsError Json := do
  let current ← items.get key
  if isUndefined current then setProperty items key (.arr (distinct (asList item)))
  else do
    let grown ← (asList item).foldlM (pushNew E) current
    match grown with
    | .json v => pure (replaceProperty items key v)
    | _ => pure items

def add (type : String) (map : KvMap String KvText) (claims : JsValue) :
    Except JsError (KvMap String KvText) :=
  edit texts "add" "add" type (.ok (.obj [])) (addClaim E) map claims

def notAList (verb key : String) : Except JsError Json :=
  .error ⟨s!"[ERROR] [scope={texts.scope}->{verb}] The operator claim {key} cannot be an array"⟩

def setOperator (items : Json) (key : String) (item : Json) : Except JsError Json :=
  match item with
  | .arr _ => notAList texts "addOperator" key
  | item => setProperty items key item

def addOperator (type : String) (map : KvMap String KvText) (claims : JsValue) :
    Except JsError (KvMap String KvText) :=
  edit texts "addOperator" "add" type (.ok (.obj [])) (setOperator texts) map claims

def showRemoved (i : Json) : Except JsError Unit :=
  if texts.removalShown then (i.render E).map fun _ => () else pure ()

/-- One value taken out of a claim. A claim that runs out of values is deleted, and the next
    value then finds none. -/
def removeValue (key : String) (items i : Json) : Except JsError Json := do
  showRemoved E texts i
  let current ← items.get key
  match current with
  | .json (.arr xs) =>
    let kept := xs.filter fun v => !v.strictEq i
    pure (if kept.length = 0 then deleteProperty items key else replaceProperty items key (.arr kept))
  | .json .null => throw (cannotRead "filter" "null")
  | .undefined => throw (cannotRead "filter" "undefined")
  | _ => throw notAFunction

def absentClaim (verb key : String) : Except JsError Json :=
  .error ⟨s!"[ERROR] [scope={texts.scope}->{verb}] The claim {key} {texts.doesNotExist} in the {texts.policy}"⟩

def removeClaim (items : Json) (key : String) (item : Json) : Except JsError Json := do
  let current ← items.get key
  if isUndefined current then absentClaim texts "remove" key
  else (asList item).foldlM (removeValue E texts key) items

def remove (type : String) (map : KvMap String KvText) (claims : JsValue) :
    Except JsError (KvMap String KvText) :=
  edit texts "remove" "remove" type (absentKey texts "remove" type) (removeClaim E texts) map claims

def dropOperator (items : Json) (key : String) (item : Json) : Except JsError Json :=
  match item with
  | .arr _ => notAList texts "removeOperator" key
  | item => do
    let current ← items.get key
    if isUndefined current then absentClaim texts "removeOperator" key
    else do
      showRemoved E texts item
      pure (deleteProperty items key)

def removeOperator (type : String) (map : KvMap String KvText) (claims : JsValue) :
    Except JsError (KvMap String KvText) :=
  edit texts "removeOperator" "remove" type (absentKey texts "removeOperator" type)
    (dropOperator E texts) map claims

def operatorEdit (args : JsValue) (type : String)
    (change : String → KvMap String KvText → JsValue → Except JsError (KvMap String KvText))
    (map : KvMap String KvText) : Except JsError (KvMap String KvText) := do
  let bounds ← args.get type
  if isUndefined bounds then pure map else change type map bounds

def validate (args : JsValue) : Except JsError Unit := do
  let type ← args.get "type"
  checkType type "string" none
  let claims ← args.get "claims"
  checkType claims "object" none

def apply (map : KvMap String KvText) (args : JsValue) : Except JsError (KvMap String KvText) := do
  let type ← args.get "type"
  match type with
  | .json (.str "add") => do
    let claims ← args.get "claims"
    let map ← add E texts "claims" map claims
    let map ← operatorEdit args "gte" (addOperator texts) map
    operatorEdit args "gt" (addOperator texts) map
  | .json (.str "remove") => do
    let claims ← args.get "claims"
    let map ← remove E texts "claims" map claims
    let map ← operatorEdit args "gte" (removeOperator E texts) map
    operatorEdit args "gt" (removeOperator E texts) map
  | type => do
    let text ← type.render E
    throw ⟨s!"[ERROR] [scope={texts.scope}] {texts.title} with type {text} is not supported"⟩

end SetKeyReleasePolicy

def set_key_release_policy (E : Engine) : Action where
  validate := SetKeyReleasePolicy.validate
  apply kv args := do
    let keyRelease ← SetKeyReleasePolicy.apply E releaseTexts kv.keyRelease args
    pure { kv with keyRelease }

def set_gcp_key_release_policy (E : Engine) : Action where
  validate := SetKeyReleasePolicy.validate
  apply kv args := do
    let gcpKeyRelease ← SetKeyReleasePolicy.apply E gcpReleaseTexts kv.gcpKeyRelease args
    pure { kv with gcpKeyRelease }

def set_key_rotation_policy : Action where
  validate args := do
    let policy ← args.get "key_rotation_policy"
    checkType policy "object" "set_key_rotation_policy"
    let rotation ← policy.get "rotation_interval_seconds"
    checkType rotation "integer" "Number_of_seconds_between_key_rotations"
    let grace ← policy.get "grace_period_seconds"
    checkType grace "integer" "Number_of_seconds_to_allow_an_expired_key_to_be_used_by_clients"
  apply kv args := do
    let policy ← args.get "key_rotation_policy"
    let text ← storedJson policy
    pure { kv with keyRotation := kv.keyRotation.insert "key_rotation_policy" text }

def set_settings_policy : Action where
  validate args := do
    let policy ← args.get "settings_policy"
    checkType policy "object" "settings_policy"
    let service ← policy.get "service"
    checkType service "object" "service"
    let name ← service.get "name"
    checkType name "string" none
    let description ← service.get "description"
    checkType description "string" none
    let version ← service.get "version"
    checkType version "string" none
    let debug ← service.get "debug"
    checkType debug "boolean" none
  apply kv args := do
    let policy ← args.get "settings_policy"
    let text ← storedJson policy
    pure { kv with settings := kv.settings.insert "settings_policy" text }

def checkExpected (E : Engine) : List (String × Json) → Except JsError Unit
  | [] => pure ()
  | (_, .arr _) :: entries => checkExpected E entries
  | (key, v) :: entries => do
    let _ ← v.render E
    checkType (.json v) "string" key
    checkExpected E entries

def set_jwt_validation_policy (E : Engine) : Action where
  validate args := do
    let issuer ← args.get "issuer"
    checkType issuer "string" "issuer"
    let policy ← args.get "validation_policy"
    checkType policy "object" "validation_policy"
    if policy.truthy then do
      let entries ← ownEntriesOf policy
      checkExpected E entries
  apply kv args := do
    let issuer ← args.get "issuer"
    let key ← bufferText issuer
    let policy ← args.get "validation_policy"
    let text ← storedJson policy
    pure { kv with jwtValidation := (kv.jwtValidation.erase key).insert key text }

def actions (E : Engine) : List (String × Action) :=
  [("set_settings_policy", set_settings_policy),
    ("set_key_release_policy", set_key_release_policy E),
    ("set_gcp_key_release_policy", set_gcp_key_release_policy E),
    ("set_key_rotation_policy", set_key_rotation_policy),
    ("set_jwt_validation_policy", set_jwt_validation_policy E)]

end DepaKms
