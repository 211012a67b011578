import DepaKms.Maps

set_option autoImplicit false

/-!
# Requests and their parts
-/
namespace DepaKms

/-- The authentication policies that accepted a request: one, or several at once. -/
inductive CallerPolicy where
  | one (policy : String)
  | all (policies : List String)

structure Jwt where
  keyIssuer : String
  payload : JsValue

/-- An identity as the platform presents it; each kind sets its own fields. -/
structure Caller where
  policy : CallerPolicy
  id : Option String
  jwt : Option Jwt
  coseContent : Option Bytes
  /-- What `JSON.stringify` makes of it. -/
  text : String

structure Request where
  headers : List (String × String)
  query : String
  body : Bytes
  /-- `request.body.json()`. -/
  bodyJson : Except JsError Json
  caller : Option Caller
  properties : List (String × Json)

/-- A parsed query string; a parameter without a value is `undefined`. -/
abbrev Query : Type := List (String × Option String)

def queryGet (query : Option Query) (name : String) : Option String :=
  query.bind fun parameters => (parameters.lookup name).join

def splitString (separator : Char) (s : String) : List String :=
  (s.toList.splitOn separator).map String.ofList

def undefinedText (v : Option String) : String := v.getD "undefined"

def queryParamsLoop (E : Engine) (logContext : LogContext) (obj : Query) :
    List String → Handler Query
  | [] => pure obj
  | element :: elements => do
    let param := splitString '=' element
    let name := undefinedText param[0]?
    let value := param[1]?
    Logger.debug E s!"Query: {name} = {undefinedText value}" (some logContext) []
    queryParamsLoop E logContext (assign obj name value) elements

def queryParams (E : Engine) (request : Request) (logContextIn : Option LogContext) :
    Handler Query :=
  queryParamsLoop E (LogContext.within logContextIn "queryParams") []
    (splitString '&' request.query)

/-- Whether the text of a regular expression without anchors occurs in `key`. -/
def occurs (pattern key : String) : Bool := decide (pattern.toList <:+: key.toList)

def occursLast (pattern key : String) : Bool := decide (pattern.toList <:+ key.toList)

def isLiteralNewline (key : String) : Bool :=
  occurs "-----BEGIN PUBLIC KEY-----\\n" key && occursLast "\\n-----END PUBLIC KEY-----\\n" key

def isNewline (key : String) : Bool :=
  occurs "-----BEGIN PUBLIC KEY-----\n" key && occursLast "\n-----END PUBLIC KEY-----\n" key

def IsPemPublicKey (key : String) : Prop := (isLiteralNewline key || isNewline key) = true

instance (key : String) : Decidable (IsPemPublicKey key) := by
  unfold IsPemPublicKey
  infer_instance

/-- The expressions are tested on the text of `key`, whatever `key` is. -/
def isPemPublicKey (E : Engine) (key : JsValue) (logContextIn : Option LogContext) :
    Handler Bool := do
  let logContext := LogContext.within logContextIn "isPemPublicKey"
  let text ← key.render E
  Logger.debug E "isLiteralNewline:" (some logContext) [.json (.bool (isLiteralNewline text))]
  Logger.debug E "isNewline:" (some logContext) [.json (.bool (isNewline text))]
  pure (isLiteralNewline text || isNewline text)

theorem result_isPemPublicKey (E : Engine) (key : JsValue) (logContextIn : Option LogContext) :
    (isPemPublicKey E key logContextIn).result =
      (key.render E).map fun text => isLiteralNewline text || isNewline text := by
  unfold isPemPublicKey
  cases key.render E <;> rfl

def setKeyHeaders (E : Engine) (t : Moment) : Headers :=
  [("cache-control", .str "max-age=254838"), ("date", .str (E.dateToUTCString t.now))]

def utf16Length (s : String) : ℕ :=
  (s.toList.map fun c => if c.toNat < 2 ^ 16 then 1 else 2).sum

/-- `s.substring(0, n)`; half of a surrogate pair shows as the replacement character. -/
def substringFrom0 (n : ℕ) (s : String) : String :=
  String.ofList (go n s.toList)
where
  go : ℕ → List Char → List Char
    | 0, _ | _, [] => []
    | 1, c :: _ => [if c.toNat < 2 ^ 16 then c else Char.ofNat 0xfffd]
    | n + 2, c :: cs => if c.toNat < 2 ^ 16 then c :: go (n + 1) cs else c :: go n cs

end DepaKms
