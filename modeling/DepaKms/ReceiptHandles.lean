import DepaKms.Maps

set_option autoImplicit false

/-!
# The handles of receipt lookups

A lookup in the ledger's history runs under a handle made of the name of the key. Each
round of the loop that makes it shifts out what the rounds before have added.
-/
namespace DepaKms

namespace KeyStore

/-- The identifier after the first `n` rounds. -/
def rounds (buf : Bytes) (n : ℕ) : Option ℤ := (List.range n).foldl (calcVersionStep buf) (some 0)

theorem calcVersion_eq_rounds (id : String) : calcVersion id = rounds (strToBuf id) 8 := rfl

theorem rounds_succ (buf : Bytes) (n : ℕ) :
    rounds buf (n + 1) = calcVersionStep buf (rounds buf n) n := by
  unfold rounds
  rw [List.range_succ, List.foldl_append]
  rfl

/-- An identifier of one byte at most. -/
def IsByte (identifier : Option ℤ) : Prop := ∀ n, identifier = some n → 0 ≤ n ∧ n < 2 ^ 8

theorem isByte_map (b : Option UInt8) : IsByte (b.map fun b => (b.toNat : ℤ)) := by
  intro n hn
  obtain ⟨c, -, rfl⟩ := Option.map_eq_some_iff.mp hn
  have := c.toNat_lt
  omega

/-- A shift by eight leaves nothing of it. -/
theorem shift_of_isByte {identifier : Option ℤ} (hb : IsByte identifier) :
    toInt32 identifier / 2 ^ 8 = 0 := by
  cases identifier with
  | none => rfl
  | some n =>
    obtain ⟨hle, hlt⟩ := hb n rfl
    have hmod : n.bmod (2 ^ 32) = n := Int.bmod_eq_of_le (by omega) (by omega)
    change n.bmod (2 ^ 32) / 2 ^ 8 = 0
    rw [hmod]
    omega

theorem calcVersionStep_of_isByte (buf : Bytes) {identifier : Option ℤ} (hb : IsByte identifier)
    (inx : ℕ) : calcVersionStep buf identifier inx = buf[inx]?.map fun b => (b.toNat : ℤ) := by
  unfold calcVersionStep
  simp only [shift_of_isByte hb, zero_add]

theorem rounds_isByte (buf : Bytes) (n : ℕ) : IsByte (rounds buf n) := by
  induction n with
  | zero =>
    rintro k hk
    cases hk
    omega
  | succ n ih =>
    rw [rounds_succ, calcVersionStep_of_isByte buf ih]
    exact isByte_map _

/-- Each round leaves the byte that it reads, and `NaN` where there is none. -/
theorem rounds_eq (buf : Bytes) (n : ℕ) :
    rounds buf (n + 1) = buf[n]?.map fun b => (b.toNat : ℤ) := by
  rw [rounds_succ, calcVersionStep_of_isByte buf (rounds_isByte buf n)]

theorem calcVersion_eq (id : String) :
    calcVersion id = (strToBuf id)[7]?.map fun b => (b.toNat : ℤ) := by
  rw [calcVersion_eq_rounds, rounds_eq]

theorem calcVersion_eq_iff (id id' : String) :
    calcVersion id = calcVersion id' ↔ (strToBuf id)[7]? = (strToBuf id')[7]? := by
  have hinjective : Function.Injective fun b : UInt8 => (b.toNat : ℤ) := by
    intro b b' hbb
    exact UInt8.toNat_inj.mp (Int.ofNat_inj.mp hbb)
  rw [calcVersion_eq, calcVersion_eq, (Option.map_injective hinjective).eq_iff]

/-- A lookup asks the history under the handle of its key and under no other. -/
theorem receipt_asks {E : Engine} {t t' : Moment} {kv : Kv} {id : String}
    (ht : t'.getStateRange (calcVersion id) = t.getStateRange (calcVersion id)) :
    receipt E t' kv id = receipt E t kv id := by
  unfold receipt
  rw [ht]

/-- Of more keys than there are bytes, two have one handle. -/
theorem shared_handle (ids : Finset String) (hlong : ∀ id ∈ ids, 8 ≤ (strToBuf id).length)
    (hmany : 2 ^ 8 < ids.card) :
    ∃ id ∈ ids, ∃ id' ∈ ids, id ≠ id' ∧ calcVersion id = calcVersion id' := by
  let handles : Finset (Option ℤ) := (Finset.range (2 ^ 8)).image fun n : ℕ => some (n : ℤ)
  have hcard : handles.card < ids.card := by
    refine lt_of_le_of_lt Finset.card_image_le ?_
    rwa [Finset.card_range]
  refine Finset.exists_ne_map_eq_of_card_lt_of_maps_to hcard fun id hid => ?_
  have hlt : 7 < (strToBuf id).length := hlong id hid
  refine Finset.mem_coe.mpr (Finset.mem_image.mpr ⟨(strToBuf id)[7].toNat, ?_, ?_⟩)
  · exact Finset.mem_range.mpr (UInt8.toNat_lt _)
  · rw [calcVersion_eq, List.getElem?_eq_getElem hlt]
    rfl

end KeyStore

/-- Two keys with names of at least eight bytes are looked up under different handles just when
    the eighth bytes differ. -/
theorem handles_differ_iff (kid kid' : String) (hlong : 8 ≤ (strToBuf kid).length)
    (hlong' : 8 ≤ (strToBuf kid').length) :
    KeyStore.calcVersion kid ≠ KeyStore.calcVersion kid' ↔
      (strToBuf kid)[7] ≠ (strToBuf kid')[7] := by
  rw [not_iff_not, KeyStore.calcVersion_eq_iff, List.getElem?_eq_getElem hlong,
    List.getElem?_eq_getElem hlong', Option.some.injEq]

theorem sample_handles_differ :
    KeyStore.calcVersion "AAAAAAAA_1" ≠ KeyStore.calcVersion "AAAAAAAB_1" :=
  (handles_differ_iff _ _ (by decide) (by decide)).mpr (by decide)

/-- Names that differ in the first byte only share their handle. -/
theorem handles_collide : (strToBuf "AAAAAAAA_1").take 8 ≠ (strToBuf "BAAAAAAA_1").take 8 ∧
    KeyStore.calcVersion "AAAAAAAA_1" = KeyStore.calcVersion "BAAAAAAA_1" := by decide

end DepaKms
