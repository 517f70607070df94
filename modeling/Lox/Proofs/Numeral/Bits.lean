import Mathlib
import Lox.Numeral.Binary64

/-! A double is its sign and its magnitude. Negation turns the sign and keeps the magnitude, all patterns of
bits beyond the infinite magnitude are one double, and any other pattern is a double of its own. -/

namespace Lox.Numeral

open Float.Model (Format)
open Float.Model.UnpackedFloat

variable (sign : Sign) (exponent : BitVec 11) (mantissa : BitVec 52)

/-- A pattern of bits put together from the parts of a double. -/
def assemble : BitVec 64 :=
  packComponents Format.binary64 sign exponent mantissa

theorem toNat_assemble : (assemble sign exponent mantissa).toNat =
    sign.toBitVec.toNat * signWeight + (exponent.toNat * exponentWeight + mantissa.toNat) := by
  rw [assemble, packComponents, BitVec.toNat_append, BitVec.toNat_append,
    ← Nat.shiftLeft_add_eq_or_of_lt mantissa.isLt, ← Nat.shiftLeft_add_eq_or_of_lt exponent.isLt]
  simp only [Nat.shiftLeft_eq, signWeight, exponentWeight]
  omega

theorem magnitude_lt_signWeight : exponent.toNat * exponentWeight + mantissa.toNat < signWeight := by
  have exponent := exponent.isLt
  have mantissa := mantissa.isLt
  simp only [signWeight, exponentWeight]
  omega

theorem assemble_mod : (assemble sign exponent mantissa).toNat % signWeight =
    exponent.toNat * exponentWeight + mantissa.toNat := by
  rw [toNat_assemble, Nat.mul_add_mod', Nat.mod_eq_of_lt (magnitude_lt_signWeight exponent mantissa)]

theorem signWeight_le_assemble :
    signWeight ≤ (assemble sign exponent mantissa).toNat ↔ sign = .negative := by
  have below := magnitude_lt_signWeight exponent mantissa
  rw [toNat_assemble]
  cases sign with
  | positive => simpa [Sign.toBitVec] using below
  | negative => simp [Sign.toBitVec]

theorem exists_assemble (bits : BitVec 64) :
    ∃ sign exponent mantissa, bits = assemble sign exponent mantissa :=
  ⟨_, _, _, (@packComponents_unpackSign_unpackExponent_unpackMantissa Format.binary64 bits).symm⟩

/-- The exponent of all ones goes with the magnitudes from the infinite one on. -/
theorem infinityBits_le_assemble :
    infinityBits ≤ exponent.toNat * exponentWeight + mantissa.toNat ↔ exponent = -1#11 := by
  have exponent' := exponent.isLt
  have mantissa' := mantissa.isLt
  have ones : (-1#11 : BitVec 11).toNat = 2047 := by decide
  rw [← BitVec.toNat_inj, ones]
  simp only [infinityBits, exponentWeight]
  omega

theorem isNaNBits_assemble : @isNaNBits Format.binary64 (assemble sign exponent mantissa) = true ↔
    infinityBits < exponent.toNat * exponentWeight + mantissa.toNat := by
  have exponent' := exponent.isLt
  have mantissa' := mantissa.isLt
  have ones : (-1#11 : BitVec 11).toNat = 2047 := by decide
  rw [isNaNBits, decide_eq_true_iff, assemble, unpackExponent_packComponents,
    unpackMantissa_packComponents, ← BitVec.toNat_inj, ne_eq, ← BitVec.toNat_inj]
  simp only [infinityBits, exponentWeight, BitVec.toNat_zero]
  omega

theorem isFinite_unpack_assemble : (unpack Format.binary64 (assemble sign exponent mantissa)).isFinite = true ↔
    exponent ≠ -1#11 := by
  rw [unpack, assemble]
  simp only [unpackExponent_packComponents, unpackMantissa_packComponents]
  by_cases ones : exponent = -1#11
  · simp only [ones, if_true]
    split <;> simp [isFinite]
  · simp only [ones, if_false, ne_eq, not_false_iff, iff_true]
    split
    · split <;> rfl
    · rfl

theorem neg_unpack_assemble : (unpack Format.binary64 (assemble sign exponent mantissa)).neg =
    unpack Format.binary64 (assemble (-sign) exponent mantissa) := by
  simp only [unpack, assemble, unpackExponent_packComponents, unpackMantissa_packComponents,
    unpackSign_packComponents, Sign.ofBitVec_toBitVec]
  split
  · split <;> rfl
  · split
    · split <;> rfl
    · rfl

/-- A double by its parts. -/
theorem exists_parts (x : Float) :
    ∃ sign exponent mantissa, x.toBits.toBitVec = assemble sign exponent mantissa :=
  exists_assemble x.toBits.toBitVec

variable {sign : Sign} {exponent : BitVec 11} {mantissa : BitVec 52} {x y : Float} {bits : UInt64}

theorem magnitudeBits_eq (parts : x.toBits.toBitVec = assemble sign exponent mantissa) :
    magnitudeBits x = exponent.toNat * exponentWeight + mantissa.toNat := by
  rw [magnitudeBits, ← UInt64.toNat_toBitVec, parts, assemble_mod]

theorem signBit_iff (parts : x.toBits.toBitVec = assemble sign exponent mantissa) :
    signBit x = true ↔ sign = .negative := by
  rw [signBit, ← UInt64.toNat_toBitVec, parts, decide_eq_true_iff, signWeight_le_assemble]

/-- Finite doubles are those of less than infinite magnitude. -/
theorem isFinite_iff (x : Float) : x.isFinite = true ↔ magnitudeBits x < infinityBits := by
  obtain ⟨sign, exponent, mantissa, parts⟩ := exists_parts x
  have unpacked : x.isFinite = (unpack Format.binary64 x.toBits.toBitVec).isFinite := rfl
  rw [unpacked, magnitudeBits_eq parts, parts, isFinite_unpack_assemble, ← Nat.not_le, ne_eq,
    infinityBits_le_assemble]

/-- Two doubles are the same if their signs and their magnitudes are. -/
theorem eq_of_sign_magnitude (sign : signBit x = signBit y)
    (magnitude : magnitudeBits x = magnitudeBits y) : x = y := by
  have below := x.toBits.toNat_lt
  have below' := y.toBits.toNat_lt
  rw [← Float.toBits_inj, ← UInt64.toNat_inj]
  rw [signBit, signBit, decide_eq_decide] at sign
  simp only [magnitudeBits, signWeight] at sign magnitude
  omega

theorem isNaNBits_iff (x : Float) :
    @isNaNBits Format.binary64 x.toBits.toBitVec = true ↔ infinityBits < magnitudeBits x := by
  obtain ⟨sign, exponent, mantissa, parts⟩ := exists_parts x
  rw [magnitudeBits_eq parts, parts, isNaNBits_assemble]

/-- There is one double beyond the infinite magnitude. -/
theorem eq_of_nan (nan : infinityBits < magnitudeBits x) (nan' : infinityBits < magnitudeBits y) :
    x = y := by
  have packed (z : Float) (nan : infinityBits < magnitudeBits z) :
      z.toBits.toBitVec = packedNaN Format.binary64 := by
    obtain ⟨exponent, mantissa⟩ := of_decide_eq_true ((isNaNBits_iff z).mpr nan)
    exact z.toModel.valid.eq_packedNaN exponent mantissa
  rw [← Float.toBits_inj, ← UInt64.toBitVec_inj, packed x nan, packed y nan']

theorem toBitVec_ofBits (bits : UInt64) : (Float.ofBits bits).toBits.toBitVec =
    if infinityBits < bits.toNat % signWeight then packedNaN Format.binary64 else bits.toBitVec := by
  obtain ⟨sign, exponent, mantissa, parts⟩ := exists_assemble bits.toBitVec
  change pack Format.binary64 (unpack Format.binary64 bits.toBitVec) = _
  rw [pack_unpack, ← UInt64.toNat_toBitVec, parts, assemble_mod]
  simp only [isNaNBits_assemble]

/-- A pattern of at most infinite magnitude is the pattern of the double that it gives. -/
theorem toBits_ofBits (number : bits.toNat % signWeight ≤ infinityBits) :
    (Float.ofBits bits).toBits = bits := by
  rw [← UInt64.toBitVec_inj, toBitVec_ofBits, if_neg (Nat.not_lt.mpr number)]

/-- A pattern of more than infinite magnitude gives no number. -/
theorem magnitudeBits_ofBits_nan (nan : infinityBits < bits.toNat % signWeight) :
    infinityBits < magnitudeBits (Float.ofBits bits) := by
  rw [magnitudeBits, ← UInt64.toNat_toBitVec, toBitVec_ofBits, if_pos nan]
  decide

/-- Patterns give one double exactly if they are one pattern, or neither gives a number. -/
theorem ofBits_eq_iff (bits bits' : UInt64) : Float.ofBits bits = Float.ofBits bits' ↔
    bits = bits' ∨ infinityBits < bits.toNat % signWeight ∧ infinityBits < bits'.toNat % signWeight := by
  constructor
  · intro same
    by_cases nan : infinityBits < bits.toNat % signWeight
    · refine .inr ⟨nan, Nat.lt_of_not_le fun number => ?_⟩
      have magnitude := magnitudeBits_ofBits_nan nan
      rw [same, magnitudeBits, toBits_ofBits number] at magnitude
      omega
    · by_cases nan' : infinityBits < bits'.toNat % signWeight
      · have magnitude := magnitudeBits_ofBits_nan nan'
        rw [← same, magnitudeBits, toBits_ofBits (Nat.not_lt.mp nan)] at magnitude
        omega
      · left
        rw [← toBits_ofBits (Nat.not_lt.mp nan), same, toBits_ofBits (Nat.not_lt.mp nan')]
  · rintro (rfl | ⟨nan, nan'⟩)
    · rfl
    · exact eq_of_nan (magnitudeBits_ofBits_nan nan) (magnitudeBits_ofBits_nan nan')

/-- Negation turns the sign of a number. -/
theorem parts_neg (parts : x.toBits.toBitVec = assemble sign exponent mantissa)
    (number : magnitudeBits x ≤ infinityBits) :
    (-x).toBits.toBitVec = assemble (-sign) exponent mantissa := by
  change pack Format.binary64 (unpack Format.binary64 x.toBits.toBitVec).neg = _
  have number' := isNaNBits_assemble (-sign) exponent mantissa
  rw [← magnitudeBits_eq parts] at number'
  rw [parts, neg_unpack_assemble, pack_unpack, if_neg fun nan => Nat.not_lt.mpr number (number'.mp nan)]

theorem magnitudeBits_neg (number : magnitudeBits x ≤ infinityBits) :
    magnitudeBits (-x) = magnitudeBits x := by
  obtain ⟨sign, exponent, mantissa, parts⟩ := exists_parts x
  rw [magnitudeBits_eq parts, magnitudeBits_eq (parts_neg parts number)]

theorem signBit_neg (number : magnitudeBits x ≤ infinityBits) : signBit (-x) = !signBit x := by
  obtain ⟨sign, exponent, mantissa, parts⟩ := exists_parts x
  have turned := signBit_iff (parts_neg parts number)
  have kept := signBit_iff parts
  cases sign with
  | positive => rw [turned.mpr rfl, Bool.eq_false_iff.mpr (kept.not.mpr nofun), Bool.not_false]
  | negative => rw [kept.mpr rfl, Bool.eq_false_iff.mpr (turned.not.mpr nofun), Bool.not_true]

end Lox.Numeral
