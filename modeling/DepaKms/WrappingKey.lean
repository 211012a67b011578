import DepaKms.KeyMaterial

set_option autoImplicit false

/-!
# The wrapping key of a request
-/
namespace DepaKms

def stringBuffer : JsValue → Except JsError Bytes
  | .json (.str s) => .ok (strToBuf s)
  | _ => .error ⟨"Argument must be a string"⟩

structure WrappingKey where
  wrappingKey : Bytes
  wrappingKeyHash : String

instance : Serializable WrappingKey :=
  ⟨fun k => .json (.obj [("wrappingKey", .obj []), ("wrappingKeyHash", .str k.wrappingKeyHash)])⟩

def boolText (b : Bool) : String := if b then "true" else "false"

def pemDiagnostics (keyStr : String) : Headers :=
  let hasBegin := boolText (occurs "-----BEGIN PUBLIC KEY-----" keyStr)
  let hasEnd := boolText (occurs "-----END PUBLIC KEY-----" keyStr)
  let hasLiteralNewline := boolText (occurs "\\n" keyStr)
  let hasActualNewline := boolText (occurs "\n" keyStr)
  [("x-ms-kms-error-code", .str "INVALID_PEM_FORMAT"),
    ("x-ms-kms-error-details", .str
      s!"has_begin:{hasBegin},has_end:{hasEnd},has_literal_nl:{hasLiteralNewline},has_actual_nl:{hasActualNewline}")]

def requestHasWrappingKey (h : Host) (body : JsValue) (logContextIn : Option LogContext) :
    Handler (ServiceResult WrappingKey) := do
  let logContext := LogContext.within logContextIn "requestHasWrappingKey"
  let wrappingKey ← body.get "wrappingKey"
  if wrappingKey.truthy then do
    let keyStr ← wrappingKey.render h.toEngine
    Logger.debug h.toEngine s!"requestHasWrappingKey=> wrappingKey: '{keyStr}'" none []
    let isPem ← isPemPublicKey h.toEngine wrappingKey none
    if isPem then do
      let wrappingKeyBuf ← stringBuffer wrappingKey
      let wrappingKeyHash := KeyGeneration.calculateHexHash h wrappingKeyBuf
      Logger.debug h.toEngine s!"Key->wrapping key hash: {wrappingKeyHash}" none []
      ServiceResult.succeeded h.toEngine (WrappingKey.mk wrappingKeyBuf wrappingKeyHash) logContext
        none
    else do
      Logger.error h.toEngine "Key-> Not a pem key" none []
      ServiceResult.failed h.toEngine (.of s!"{keyStr} not a PEM public key") 400 logContext
        (pemDiagnostics keyStr)
  else ServiceResult.failed h.toEngine (.of "Missing wrappingKey") 400 logContext []

/-- `key.replace(/\\n/g, "\n")` on characters. -/
def unescapeNewlines : List Char → List Char
  | [] => []
  | [c] => [c]
  | c :: d :: cs =>
    if c.toNat = 92 ∧ d = 'n' then Char.ofNat 10 :: unescapeNewlines cs
    else c :: unescapeNewlines (d :: cs)

def normalized (s : String) : String := String.ofList (unescapeNewlines s.toList)

def normalizeKey : JsValue → Except JsError String
  | .json (.str s) => .ok (normalized s)
  | .undefined => .error (cannotRead "replace" "undefined")
  | _ => .error notAFunction

def lengthText (E : Engine) (v : JsValue) : Except JsError String :=
  match v with
  | .json (.str s) => .ok (toString (utf16Length s))
  | .json (.arr xs) => .ok (toString xs.length)
  | v => do
    let length ← v.get "length"
    length.render E

/-- The only successes carry the bytes of a PEM string and their hash. -/
theorem requestHasWrappingKey_ensures (h : Host) (body : JsValue)
    (logContextIn : Option LogContext) :
    Logged.Ensures (requestHasWrappingKey h body logContextIn) fun r =>
      ∀ k, r.body = some k → ∃ s, body.get "wrappingKey" = .ok (.ofString s) ∧ IsPemPublicKey s ∧
        k.wrappingKey = strToBuf s ∧
        k.wrappingKeyHash = hexString (h.sha256 (strToBuf s)) := by
  have hfailed (error : ErrorResponse) (logContext : LogContext) (headers : Headers) :
      Logged.Ensures (ServiceResult.failed h.toEngine error 400 logContext headers)
        fun r : ServiceResult WrappingKey => ∀ k, r.body = some k →
          ∃ s, body.get "wrappingKey" = .ok (.ofString s) ∧ IsPemPublicKey s ∧
            k.wrappingKey = strToBuf s ∧
            k.wrappingKeyHash = hexString (h.sha256 (strToBuf s)) := by
    intro r hr k hk
    cases hr
    cases hk
  refine .step fun wrappingKey hw => .ite (fun _ => ?_) fun _ => hfailed _ _ _
  refine .skip fun keyStr => .skip fun _ => .step fun isPem hp => .ite (fun hpem => ?_) fun _ => ?_
  · refine .step fun buf hbuf => .skip fun _ => ?_
    intro r hr k hk
    cases hr
    cases hk
    match wrappingKey, hw, hp, hbuf with
    | .json (.str s), hw, hp, hbuf =>
      rw [result_isPemPublicKey] at hp
      simp only [JsValue.render, Json.render, Except.map, Except.ok.injEq] at hp
      cases hbuf
      exact ⟨s, hw, hp.trans hpem, rfl, rfl⟩
  · exact .skip fun _ => hfailed _ _ _

end DepaKms
