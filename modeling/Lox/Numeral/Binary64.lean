/-!
Double-precision magnitudes as exact natural numbers. Without its sign, a finite double is a
count of units of `2^-1074`, and rounding a quotient to the nearest such count is exact
arithmetic on naturals.
-/

namespace Lox.Numeral

/-- The weight of the sign bit, which is `2^63`. -/
def signWeight : Nat := 0x8000000000000000

/-- The weight of the lowest exponent bit, which is `2^52`. -/
def exponentWeight : Nat := 0x10000000000000

/-- The bits of a double below its sign. They are ordered as the magnitudes they stand for. -/
def magnitudeBits (x : Float) : Nat :=
  x.toBits.toNat % signWeight

/-- Whether the sign bit is set, as it is in `-0`. -/
def signBit (x : Float) : Bool :=
  signWeight ≤ x.toBits.toNat

/-- The magnitude bits of an infinity. Larger ones are not a number. -/
def infinityBits : Nat := 0x7ff0000000000000

/-- The significand, with the leading one that a normal number leaves out. -/
def significand (bits : Nat) : Nat :=
  if bits < exponentWeight then bits else exponentWeight + bits % exponentWeight

/-- The binary place of the significand's last bit, counted from `2^-1074`. -/
def binaryPlace (bits : Nat) : Nat :=
  bits / exponentWeight - 1

/-- The magnitude in units of `2^-1074`. -/
def units (bits : Nat) : Nat :=
  significand bits * Nat.pow 2 (binaryPlace bits)

/-- The number of units in one. -/
def unitsPerOne : Nat := Nat.pow 2 1074

/-- The integer nearest to a quotient, of two equally near the even one. -/
def roundDiv (num den : Nat) : Nat :=
  let floor := num / den
  let rest := num % den
  if den < 2 * rest ∨ (den = 2 * rest ∧ floor % 2 = 1) then floor + 1 else floor

/-- The magnitude bits of the double nearest to a quotient. A significand that rounds up to the
next power of two carries into the exponent, and what exceeds every finite double is infinite. -/
def nearest (num den : Nat) : Nat :=
  let scaled := num * unitsPerOne
  let place := (scaled / den).log2 - 52
  min infinityBits (place * exponentWeight + roundDiv scaled (den * Nat.pow 2 place))

/-- The double with the given magnitude bits and no sign. -/
def ofMagnitudeBits (bits : Nat) : Float :=
  Float.ofBits (UInt64.ofNat bits)

end Lox.Numeral
