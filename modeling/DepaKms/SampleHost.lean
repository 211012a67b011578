import DepaKms.Platform

set_option autoImplicit false

/-!
# A concrete platform

The platform of the examples. Encodings follow their standards; the hash, the
wrapping and the verification follow theirs only on the inputs of the examples.
-/
namespace DepaKms

def integerText (q : ℚ) : String := toString q.num

def decimalNumber (s : String) : Option ℚ :=
  if isDecimal s.toList then some (decimalValue s.toList) else none

def sextetChar (n : ℕ) : Char :=
  if n < 26 then Char.ofNat (65 + n)
  else if n < 52 then Char.ofNat (71 + n)
  else if n < 62 then Char.ofNat (n - 4)
  else if n = 62 then '+' else '/'

def base64Chars : Bytes → List Char
  | [] => []
  | [a] => [sextetChar (a.toNat / 4), sextetChar (a.toNat % 4 * 16), '=', '=']
  | [a, b] =>
    [sextetChar (a.toNat / 4), sextetChar (a.toNat % 4 * 16 + b.toNat / 16),
      sextetChar (b.toNat % 16 * 4), '=']
  | a :: b :: c :: rest =>
    sextetChar (a.toNat / 4) :: sextetChar (a.toNat % 4 * 16 + b.toNat / 16) ::
      sextetChar (b.toNat % 16 * 4 + c.toNat / 64) :: sextetChar (c.toNat % 64) ::
      base64Chars rest

def base64Text (b : Bytes) : String := String.ofList (base64Chars b)

def urlSafe (c : Char) : Char := if c = '+' then '-' else if c = '/' then '_' else c

def base64UrlText (b : Bytes) : String :=
  String.ofList (((base64Chars b).filter fun c => c ≠ '=').map urlSafe)

def sextet (c : Char) : Option ℕ := (List.range 64).find? fun n => urlSafe (sextetChar n) = urlSafe c

def joinSextets : List ℕ → Bytes
  | a :: b :: c :: d :: rest =>
    UInt8.ofNat (a * 4 + b / 16) :: UInt8.ofNat (b % 16 * 16 + c / 4) ::
      UInt8.ofNat (c % 4 * 64 + d) :: joinSextets rest
  | [a, b, c] => [UInt8.ofNat (a * 4 + b / 16), UInt8.ofNat (b % 16 * 16 + c / 4)]
  | [a, b] => [UInt8.ofNat (a * 4 + b / 16)]
  | _ => []

def base64Bytes (s : String) : Except JsError Bytes :=
  match (s.toList.filter fun c => c ≠ '=').mapM sextet with
  | some sextets => .ok (joinSextets sextets)
  | none => .error ⟨"malformed base64."⟩

def varint : ℕ → ℕ → Bytes
  | 0, _ => []
  | fuel + 1, n =>
    if n < 128 then [UInt8.ofNat n] else UInt8.ofNat (n % 128 + 128) :: varint fuel (n / 128)

/-- A number field; zero is not written. -/
def numberField (no n : ℕ) : Bytes := if n = 0 then [] else UInt8.ofNat (no * 8) :: varint 5 n

def bytesField (no : ℕ) (b : Bytes) : Bytes :=
  UInt8.ofNat (no * 8 + 2) :: varint 5 b.length ++ b

def protoPrivateKey (k : HpkePrivateKey) : Bytes :=
  numberField 1 k.version ++ if k.privateKey = [] then [] else bytesField 3 k.privateKey

def KeyMaterialType.number : KeyMaterialType → ℕ
  | ASYMMETRIC_PRIVATE => 2

def KeyStatusType.number : KeyStatusType → ℕ
  | ENABLED => 1

def OutputPrefixType.number : OutputPrefixType → ℕ
  | TINK => 1

def protoKeyData (d : KeyData) : Bytes :=
  bytesField 1 (strToBuf d.typeUrl) ++ bytesField 2 d.value ++
    numberField 3 d.keyMaterialType.number

def protoKeysetKey (k : KeysetKey) : Bytes :=
  bytesField 1 (protoKeyData k.keyData) ++ numberField 2 k.status.number ++
    numberField 3 k.keyId ++ numberField 4 k.outputPrefixType.number

def protoKeyset (k : Keyset) : Bytes :=
  numberField 1 k.primaryKeyId ++ k.key.flatMap fun key => bytesField 2 (protoKeysetKey key)

def cborArgument (info : ℕ) (b : Bytes) : Option (ℕ × Bytes) :=
  if info < 24 then some (info, b)
  else
    let size := 2 ^ (info - 24)
    if info ≤ 27 ∧ size ≤ b.length then
      some ((b.take size).foldl (fun n x => n * 256 + x.toNat) 0, b.drop size)
    else none

def cborItems (item : Bytes → Option (Cbor × Bytes)) : ℕ → Bytes → Option (List Cbor × Bytes)
  | 0, b => some ([], b)
  | n + 1, b => do
    let (v, b) ← item b
    let (vs, b) ← cborItems item n b
    pure (v :: vs, b)

def cborFields : List Cbor → List (String × Cbor)
  | .text key :: v :: vs => (key, v) :: cborFields vs
  | .int n :: v :: vs => (toString n, v) :: cborFields vs
  | _ => []

def asciiText (b : Bytes) : String := String.ofList (b.map fun x => Char.ofNat x.toNat)

/-- One data item; eight bytes make a `bigint` of an integer. -/
def cborItem : ℕ → Bytes → Option (Cbor × Bytes)
  | 0, _ | _, [] => none
  | fuel + 1, x :: b => do
    let (n, b) ← cborArgument (x.toNat % 32) b
    let number (n : ℤ) : Cbor := if x.toNat % 32 = 27 then .bigint n else .int n
    match x.toNat / 32 with
    | 0 => pure (number n, b)
    | 1 => pure (number (-1 - n), b)
    | 2 => if n ≤ b.length then pure (.bytes (b.take n), b.drop n) else none
    | 3 => if n ≤ b.length then pure (.text (asciiText (b.take n)), b.drop n) else none
    | 4 => do
      let (vs, b) ← cborItems (cborItem fuel) n b
      pure (.array vs, b)
    | 5 => do
      let (vs, b) ← cborItems (cborItem fuel) (2 * n) b
      pure (.record (cborFields vs), b)
    | 6 => do
      let (v, b) ← cborItem fuel b
      pure (.tagged v, b)
    | _ =>
      match n with
      | 20 => pure (.bool false, b)
      | 21 => pure (.bool true, b)
      | 22 => pure (.null, b)
      | 23 => pure (.undefined, b)
      | _ => none

def cborDocument (b : Bytes) : Except JsError Cbor :=
  match cborItem b.length b with
  | some (v, []) => .ok v
  | _ => .error ⟨"Unexpected end of CBOR data"⟩

def sampleEngine : Engine where
  numberToString := integerText
  parseFloat := decimalNumber
  stringToNumber := decimalNumber
  functionText name := s!"function {name}() \x7b\n    [native code]\n\x7d"
  dateToString _ := "Thu Jan 01 1970 00:00:00 GMT+0000"
  dateToUTCString _ := "Thu, 01 Jan 1970 00:00:00 GMT"

def samplePem : String := "-----BEGIN PUBLIC KEY-----\nAAAA\n-----END PUBLIC KEY-----\n"

def samplePemDigest : Bytes :=
  [246, 27, 52, 127, 187, 142, 100, 105, 242, 148, 193, 250, 161, 70, 211, 118, 136, 229, 193,
    200, 166, 177, 178, 86, 83, 238, 133, 173, 16, 183, 68, 122]

def sampleDigest (b : Bytes) : Bytes :=
  if b = strToBuf samplePem then samplePemDigest else (b ++ List.replicate 32 0).take 32

def sampleContent : Json :=
  .obj [("actions", .arr [.obj [("name", .str "set_key_rotation_policy"),
    ("args", .obj [("key_rotation_policy", .obj [("rotation_interval_seconds", .num 10),
      ("grace_period_seconds", .num 5)])])]])]

def sampleJson (b : Bytes) : Except JsError Json :=
  if b = strToBuf (sampleContent.stringify sampleEngine) then .ok sampleContent
  else .error ⟨"Failed to parse JSON"⟩

def sampleReport (evidence : Bytes) : SnpAttestationResult :=
  ⟨some ⟨none, none, none, none, none, none, some evidence, none, none, none, none, none, none⟩,
    none⟩

def sampleHost : Host where
  toEngine := sampleEngine
  sha256 := sampleDigest
  sha256_length b := by
    unfold sampleDigest
    split_ifs
    · rfl
    · simp
  base64Decode := base64Bytes
  base64Encode := base64Text
  base64UrlEncode := base64UrlText
  verifySnpAttestation evidence _ _ _ := .ok (sampleReport evidence)
  reportText _ := "\x7b\x7d"
  wrapKey payload key := .ok (payload ++ key)
  eddsaPemToJwk pem := .ok ⟨"X25519", "OKP", "BAUG", pem⟩
  hpkePrivateKeyToBinary := protoPrivateKey
  keysetToBinary := protoKeyset
  keysetText _ := "\x7b\x7d"
  cborDecode := cborDocument
  bufToJsonCompatible := sampleJson
  kvMapText _ := "\x7b\x7d"
  acl := false
  visitOrder := id
  visitOrder_perm _ := .refl _
  sortOrder l := List.range l.length
  sortOrder_perm _ := .refl _

def sampleMoment (now : ℚ) : Moment := ⟨now, fun _ _ => some "receipt"⟩

end DepaKms
