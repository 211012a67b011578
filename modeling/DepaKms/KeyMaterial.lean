import DepaKms.Maps
import DepaKms.Tooling

set_option autoImplicit false

/-!
# Key material

Generation of key items, and the formats in which keys leave the service.
-/
namespace DepaKms

variable (h : Host)

namespace KeyGeneration

def calculateHash (data : Bytes) : Bytes := h.sha256 data

def calculateHexHash (data : Bytes) : String := hexString (calculateHash h data)

def calculateKid (pubkey : String) : String :=
  h.base64UrlEncode (calculateHash h (strToBuf pubkey))

/-- The item made of a generated pair. An expiry of zero or `NaN` is not recorded. -/
def generateKeyItem (t : Moment) (keys : CryptoKeyPair) (id : ℕ) (expiry : Option ℚ) :
    Handler IKeyItem := do
  let jwk ← h.eddsaPemToJwk keys.privateKey
  let item : IKeyItem :=
    { crv := jwk.crv
      d := some jwk.d
      kid := some (calculateKid h keys.publicKey)
      kty := jwk.kty
      x := jwk.x
      timestamp := some t.now
      expiry := expiry.filter fun e => e ≠ 0
      id := some id
      receipt := none }
  Logger.secret "JWK: " [.json item.toJson]
  pure item

end KeyGeneration

structure EncryptionKey where
  name : String
  encryptionKeyType : String
  publicKeysetHandle : String
  publicKeyMaterial : String
  creationTime : String
  expirationTime : String
  publicKeySignature : String
  keyEncryptionKeyUri : String
  keyMaterial : String

def EncryptionKey.toJson (k : EncryptionKey) : Json :=
  .obj [("name", .str k.name), ("encryptionKeyType", .str k.encryptionKeyType),
    ("publicKeysetHandle", .str k.publicKeysetHandle),
    ("publicKeyMaterial", .str k.publicKeyMaterial), ("creationTime", .str k.creationTime),
    ("expirationTime", .str k.expirationTime),
    ("keyData", .arr [.obj [("publicKeySignature", .str k.publicKeySignature),
      ("keyEncryptionKeyUri", .str k.keyEncryptionKeyUri), ("keyMaterial", .str k.keyMaterial)]])]

def wrappedJson (k : EncryptionKey) : Json := .obj [("keys", .arr [k.toJson])]

namespace KeyWrapper

def keyEncryptionKeyUriPrefix : String := "azu-kms://"

def tinkKeyset (privateKey : Bytes) : Keyset :=
  let keyData : KeyData :=
    { typeUrl := "type.googleapis.com/google.crypto.tink.HpkePrivateKey"
      value := h.hpkePrivateKeyToBinary ⟨0, privateKey⟩
      keyMaterialType := .ASYMMETRIC_PRIVATE }
  { primaryKeyId := 0
    key := [{ keyData, status := .ENABLED, keyId := 0, outputPrefixType := .TINK }] }

/-- Without a wrapping key the result is as many zero bytes as the keyset has. -/
def createWrappedPrivateTinkKey (wrappingKey : Option Bytes) (payload : IKeyItem) :
    Handler String := do
  match payload.d with
  | none => throw ⟨"payload.d is undefined or not a string"⟩
  | some d => do
    let privateKey ← h.base64Decode d
    let keyset := tinkKeyset h privateKey
    Logger.secret "tink Keyset: " []
    let bufPayload := h.keysetToBinary keyset
    Logger.secret s!"Tink Wrapped payload ({utf16Length (h.keysetText keyset)}): " []
    match wrappingKey with
    | some key => do
      let wrapped ← h.wrapKey bufPayload key
      pure (h.base64Encode wrapped)
    | none => pure (h.base64Encode (List.replicate bufPayload.length 0))

def millisecondsPerYear : ℚ := 365 * 24 * 60 * 60 * 1000

def wrapKeyTink (t : Moment) (wrappingKey : Option Bytes) (payload : IKeyItem) :
    Handler EncryptionKey := do
  let encryptedKeyset ← createWrappedPrivateTinkKey h wrappingKey payload
  let encryptionKey : EncryptionKey :=
    { name := s!"encryptionKeys/{undefinedText (payload.id.map toString)}"
      encryptionKeyType := "SINGLE_PARTY_HYBRID_KEY"
      publicKeysetHandle := "TBD"
      publicKeyMaterial := "testtest"
      creationTime := h.numberToString t.now
      expirationTime := h.numberToString (t.now + millisecondsPerYear)
      publicKeySignature := ""
      keyEncryptionKeyUri := keyEncryptionKeyUriPrefix ++ undefinedText payload.kid
      keyMaterial := (Json.obj [("encryptedKeyset", .str encryptedKeyset)]).stringify h.toEngine }
  Logger.debug h.toEngine "Encryption public key: " none [.json encryptionKey.toJson]
  pure encryptionKey

/-- The text of a key that is wrapped: everything but the receipt. -/
def payloadText (payload : IKeyItem) : String :=
  { payload with receipt := none }.toJson.stringify h.toEngine

def getEncryptedKeyMaterial (wrappingKey : Option Bytes) (payload : IKeyItem) :
    Handler (String × Option String) := do
  Logger.debug h.toEngine "getEncryptedKeyMaterial: " none [.json payload.toJson]
  let receipt := payload.receipt
  let unwrappedJwtKey := payloadText h payload
  match wrappingKey with
  | some key => do
    let wrapped ← h.wrapKey (strToBuf unwrappedJwtKey) key
    pure (h.base64Encode wrapped, receipt)
  | none => pure ("", receipt)

def wrapKeyJwt (wrappingKey : Option Bytes) (payload : IKeyItem) : Handler String := do
  let (wrappedKey, _) ← getEncryptedKeyMaterial h wrappingKey payload
  pure wrappedKey

end KeyWrapper

structure ITinkPublicKey where
  id : String
  key : String

structure ITinkPublicKeySet where
  keys : List ITinkPublicKey

instance : Serializable ITinkPublicKeySet :=
  ⟨fun s => .json (.obj [("keys",
    .arr (s.keys.map fun k => .obj [("key", .str k.key), ("id", .str k.id)]))])⟩

structure ITinkKey where
  typeUrl : String
  value : String
  keyMaterialType : String
  status : String
  keyId : ℕ
  outputPrefixType : String

structure ITinkKeySet where
  primaryKeyId : ℕ
  key : List ITinkKey
  receipt : Option String

def ITinkKey.toJson (k : ITinkKey) : Json :=
  .obj [("keyData", .obj [("typeUrl", .str k.typeUrl), ("value", .str k.value),
      ("keyMaterialType", .str k.keyMaterialType)]),
    ("status", .str k.status), ("keyId", .num k.keyId),
    ("outputPrefixType", .str k.outputPrefixType)]

instance : Serializable ITinkKeySet :=
  ⟨fun s => .json (.obj ([("primaryKeyId", .num s.primaryKeyId),
    ("key", .arr (s.key.map ITinkKey.toJson))] ++
      s.receipt.toList.map fun r => ("receipt", .str r)))⟩

def transformKey (keyItem : IKeyItem) : Except JsError String :=
  (h.base64Decode keyItem.x).map h.base64Encode

def tinkPublicKey (keyItem : IKeyItem) : Except JsError ITinkPublicKeySet := do
  let key ← transformKey h keyItem
  pure ⟨[⟨undefinedText (keyItem.id.map toString), key⟩]⟩

def tinkKey (keyItem : IKeyItem) : Except JsError ITinkKeySet :=
  match keyItem.id with
  | none => .error ⟨"primaryKeyId is undefined or not a number"⟩
  | some primaryKeyId => do
    let value ← transformKey h keyItem
    pure ⟨primaryKeyId,
      [⟨"https://schema.org/PublicKey/Azure/HpkePublicKey", value, "ASYMMETRIC_PUBLIC", "ENABLED",
        primaryKeyId, "RAW"⟩], none⟩

end DepaKms
