import DepaKms.JsValue

set_option autoImplicit false

/-!
# The platform

Functions of the CCF runtime and of third-party packages are fields of `Host`.
What differs from one call to the next, the clock and the state of the ledger's
history, is a `Moment`.
-/
namespace DepaKms

abbrev Bytes := List UInt8

def strToBuf (s : String) : Bytes := s.toUTF8.data.toList

structure SnpPolicy where
  smt : Option ℚ
  debug : Option ℚ

structure SnpSignature where
  r : Option Bytes
  s : Option Bytes

structure SnpReport where
  version : Option ℚ
  guest_svn : Option ℚ
  policy : Option SnpPolicy
  family_id : Option Bytes
  image_id : Option Bytes
  vmpl : Option ℚ
  report_data : Option Bytes
  measurement : Option Bytes
  host_data : Option Bytes
  id_key_digest : Option Bytes
  author_key_digest : Option Bytes
  report_id : Option Bytes
  signature : Option SnpSignature

structure UvmEndorsements where
  did : Option String
  feed : Option String
  svn : Option String

structure SnpAttestationResult where
  attestation : Option SnpReport
  uvm_endorsements : Option UvmEndorsements

structure CryptoKeyPair where
  privateKey : String
  publicKey : String

structure JsonWebKeyEdDSAPrivate where
  crv : String
  kty : String
  x : String
  d : String

structure HpkePrivateKey where
  version : ℕ
  privateKey : Bytes

inductive KeyMaterialType where
  | ASYMMETRIC_PRIVATE

inductive KeyStatusType where
  | ENABLED

inductive OutputPrefixType where
  | TINK

structure KeyData where
  typeUrl : String
  value : Bytes
  keyMaterialType : KeyMaterialType

structure KeysetKey where
  keyData : KeyData
  status : KeyStatusType
  keyId : ℕ
  outputPrefixType : OutputPrefixType

structure Keyset where
  primaryKeyId : ℕ
  key : List KeysetKey

/-- A number of the language. Fractions are exact. -/
inductive Number where
  | nan
  | negInfinity
  | finite (q : ℚ)
  | infinity
  deriving DecidableEq, Repr

namespace Number

/-- The place of the number among all others, which `NaN` does not have. -/
def value : Number → Option (WithBot (WithTop ℚ))
  | nan => none
  | negInfinity => some ⊥
  | finite q => some ((q : WithTop ℚ) : WithBot (WithTop ℚ))
  | infinity => some ⊤

def lt (a b : Number) : Bool :=
  match a.value, b.value with
  | some x, some y => decide (x < y)
  | _, _ => false

/-- `Math.max(a, b)`. -/
def max (a b : Number) : Number :=
  match a, b with
  | nan, _ | _, nan => nan
  | _, _ => if a.lt b then b else a

def text (E : Engine) : Number → String
  | nan => "NaN"
  | negInfinity => "-Infinity"
  | finite q => E.numberToString q
  | infinity => "Infinity"

@[simp] theorem value_eq_none_iff {a : Number} : a.value = none ↔ a = nan := by
  cases a <;> simp [value]

theorem lt_finite {p q : ℚ} : (finite p).lt (finite q) = decide (p < q) := by
  simp only [lt, value, WithBot.coe_lt_coe, WithTop.coe_lt_coe]

@[simp] theorem lt_negInfinity (a : Number) : a.lt negInfinity = false := by
  unfold lt
  cases a.value <;> simp [value]

@[simp] theorem lt_nan (a : Number) : a.lt nan = false := by
  unfold lt
  cases a.value <;> rfl

@[simp] theorem max_nan (a : Number) : a.max nan = nan := by cases a <;> rfl

theorem max_cases (a b : Number) :
    (a.max b = nan ∧ (a = nan ∨ b = nan)) ∨ (a ≠ nan ∧ b ≠ nan ∧
      ((a.max b = a ∧ a.lt b = false) ∨ (a.max b = b ∧ a.lt b = true))) := by
  by_cases ha : a = nan
  · exact .inl ⟨by rw [ha]; rfl, .inl ha⟩
  by_cases hb : b = nan
  · exact .inl ⟨by rw [hb, max_nan], .inr hb⟩
  refine .inr ⟨ha, hb, ?_⟩
  have hmax : a.max b = if a.lt b then b else a := by
    unfold max
    split
    · exact absurd rfl ha
    · exact absurd rfl hb
    · rfl
  rw [hmax]
  cases a.lt b
  · exact .inl ⟨rfl, rfl⟩
  · exact .inr ⟨rfl, rfl⟩

/-- What is not below `b` is not below anything that is not above `b`. -/
theorem not_lt_trans {a b c : Number} (hb : b ≠ nan) (hab : a.lt b = false) (hbc : b.lt c = false) :
    a.lt c = false := by
  unfold lt at *
  cases hbv : b.value with
  | none => exact absurd (value_eq_none_iff.mp hbv) hb
  | some y =>
    rw [hbv] at hab hbc
    cases hx : a.value with
    | none => rfl
    | some x =>
      cases hz : c.value with
      | none => rfl
      | some z =>
        rw [hx] at hab
        rw [hz] at hbc
        simp only [decide_eq_false_iff_not, not_lt] at hab hbc ⊢
        exact hbc.trans hab

theorem not_lt_of_lt {a b : Number} (hab : a.lt b = true) : b.lt a = false := by
  unfold lt at *
  cases ha : a.value with
  | none =>
    rw [ha] at hab
    cases hab
  | some x =>
    cases hb : b.value with
    | none => rfl
    | some y =>
      rw [ha, hb] at hab
      simp only [decide_eq_true_eq] at hab
      simp only [decide_eq_false_iff_not, not_lt]
      exact hab.le

theorem not_lt_self (a : Number) : a.lt a = false := by
  unfold lt
  cases a.value <;> simp

end Number

/-- What the CBOR decoder makes of a document: an integer of eight bytes becomes a `bigint`, a
    shorter one a number. A built-in object without the properties that the program reads, such as
    a date, is `other`, with what converting it to a number and to a text gives. -/
inductive Cbor where
  | null
  | undefined
  | bool (b : Bool)
  | int (n : ℤ)
  | float (x : Number)
  | bigint (n : ℤ)
  | bytes (b : Bytes)
  | text (s : String)
  | array (xs : List Cbor)
  | record (fields : List (String × Cbor))
  | tagged (value : Cbor)
  | other (number : Number) (text : String)

structure Host extends Engine where
  sha256 : Bytes → Bytes
  sha256_length : ∀ b, (sha256 b).length = 32
  base64Decode : String → Except JsError Bytes
  base64Encode : Bytes → String
  base64UrlEncode : Bytes → String
  verifySnpAttestation : Bytes → Bytes → Bytes → JsValue → Except JsError SnpAttestationResult
  reportText : SnpAttestationResult → String
  wrapKey : Bytes → Bytes → Except JsError Bytes
  eddsaPemToJwk : String → Except JsError JsonWebKeyEdDSAPrivate
  hpkePrivateKeyToBinary : HpkePrivateKey → Bytes
  keysetToBinary : Keyset → Bytes
  keysetText : Keyset → String
  cborDecode : Bytes → Except JsError Cbor
  bufToJsonCompatible : Bytes → Except JsError Json
  kvMapText : ℕ → String
  acl : Bool
  /-- The order in which `forEach` visits the entries of the proposals map. -/
  visitOrder : List (Bytes × Bytes) → List (Bytes × Bytes)
  visitOrder_perm : ∀ l, (visitOrder l).Perm l
  /-- The places into which `sort` brings numbers, some of which are `NaN`. -/
  sortOrder : List Number → List ℕ
  sortOrder_perm : ∀ l, (sortOrder l).Perm (List.range l.length)

structure Moment where
  now : ℚ
  /-- The serialised receipt, for a request handle and a version, once available. -/
  getStateRange : Option ℤ → ℕ → Option String

/-- `Base64.toUint8Array`, which only a string has the methods for. -/
def base64ToUint8Array (h : Host) : JsValue → Except JsError Bytes
  | .json (.str s) => h.base64Decode s
  | _ => .error notAFunction

def hexByte (b : UInt8) : List Char :=
  [Json.hexDigit (b.toNat / 16), Json.hexDigit (b.toNat % 16)]

def hexString (b : Bytes) : String := String.ofList (b.flatMap hexByte)

theorem hexDigit_injective {m n : ℕ} (hm : m < 16) (hn : n < 16)
    (h : Json.hexDigit m = Json.hexDigit n) : m = n := by
  interval_cases m <;> interval_cases n <;> first | rfl | exact absurd h (by decide)

theorem hexByte_injective {a b : UInt8} (h : hexByte a = hexByte b) : a = b := by
  have ha := a.toNat_lt
  have hb := b.toNat_lt
  simp only [hexByte, List.cons.injEq, and_true] at h
  have hq := hexDigit_injective (by omega) (by omega) h.1
  have hr := hexDigit_injective (by omega) (by omega) h.2
  exact UInt8.toNat_inj.mp (by omega)

theorem hexByte_prefix {a b : Bytes} (h : a.flatMap hexByte <+: b.flatMap hexByte) : a <+: b := by
  induction a generalizing b with
  | nil => exact List.nil_prefix
  | cons x xs ih =>
    cases b with
    | nil => simp [hexByte] at h
    | cons y ys =>
      have hh : hexByte x ++ xs.flatMap hexByte <+: hexByte y ++ ys.flatMap hexByte := by
        simpa only [List.flatMap_cons] using h
      simp only [hexByte, List.cons_append, List.nil_append, List.cons_prefix_cons] at hh
      obtain ⟨hhi, hlo, ht⟩ := hh
      have hxy : x = y := hexByte_injective (by simp only [hexByte, hhi, hlo])
      rw [hxy, List.prefix_cons_inj]
      exact ih ht

theorem hexString_prefix {a b : Bytes} (h : (hexString a).toList <+: (hexString b).toList) :
    a <+: b := by
  simp only [hexString, String.toList_ofList] at h
  exact hexByte_prefix h

end DepaKms
