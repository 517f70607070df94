import Lox.Numeral.Shortest

/-!
Numbers as text: reading a literal, the positional and scientific layouts of a decimal, and the
three notations in which numbers are written, namely as values, as literals of a token listing
and as numbers of a JSON document.
-/

namespace Lox.Numeral

/-- The number that a string of ASCII digits writes in base ten. -/
def ofDigits (digits : List Char) : Nat :=
  digits.foldl (fun total digit => 10 * total + (digit.toNat - '0'.toNat)) 0

/-- Reads `DIGIT+ ( "." DIGIT+ )?`. -/
def readDecimal (text : List Char) : Decimal :=
  let whole := text.takeWhile Char.isDigit
  let fraction := (text.dropWhile Char.isDigit).drop 1
  ⟨ofDigits (whole ++ fraction), -(fraction.length : Int)⟩

/-- The double nearest to a literal. -/
def read (text : List Char) : Float :=
  ofMagnitudeBits (readDecimal text).toBits

namespace Decimal

def digits (decimal : Decimal) : List Char :=
  Nat.toDigits 10 decimal.coefficient

/-- The exponent of the first digit. -/
def leadingExponent (decimal : Decimal) : Int :=
  decimal.digits.length - 1 + decimal.exponent

/-- The decimal without an exponent: zeros fill the places between its digits and the point. -/
def positional (decimal : Decimal) : List Char :=
  let digits := decimal.digits
  if 0 ≤ decimal.exponent then
    digits ++ List.replicate decimal.exponent.toNat '0'
  else
    let places := (-decimal.exponent).toNat
    if places < digits.length then
      digits.take (digits.length - places) ++ '.' :: digits.drop (digits.length - places)
    else
      ['0', '.'] ++ List.replicate (places - digits.length) '0' ++ digits

/-- One digit before the point and a signed exponent. A lone digit takes no point. -/
def scientific (decimal : Decimal) : List Char :=
  let sign := if decimal.leadingExponent < 0 then '-' else '+'
  let exponent := Nat.toDigits 10 decimal.leadingExponent.natAbs
  match decimal.digits with
  | [] => []
  | [digit] => digit :: 'e' :: sign :: exponent
  | digit :: rest => digit :: '.' :: (rest ++ 'e' :: sign :: exponent)

end Decimal

/-- The integer that the magnitude equals, if it is one below `2^63`. -/
def smallInteger? (bits : Nat) : Option Nat :=
  let whole := units bits / unitsPerOne
  if units bits % unitsPerOne = 0 ∧ whole < signWeight then some whole else none

/-- A magnitude in digits: exactly if it is an integer below `2^63`, otherwise the shortest
positional decimal. -/
def positional (bits : Nat) : List Char :=
  match smallInteger? bits with
  | some whole => Nat.toDigits 10 whole
  | none => (shortest .up bits).positional

/-- The text of a number value. -/
def display (x : Float) : String :=
  let bits := magnitudeBits x
  if infinityBits < bits then "NaN"
  else
    let sign := if signBit x then ['-'] else []
    let magnitude := if bits = infinityBits then "Infinity".toList else positional bits
    String.ofList (sign ++ magnitude)

/-- The text of a literal in a token listing, where an integer below `2^63` keeps one decimal. -/
def displayLiteral (x : Float) : String :=
  let bits := magnitudeBits x
  if bits = infinityBits then "inf"
  else
    match smallInteger? bits with
    | some whole => String.ofList (Nat.toDigits 10 whole ++ ['.', '0'])
    | none => String.ofList (positional bits)

/-- The text of a nonnegative number in a JSON document. Numbers from `10^-5` and below `10^16`
are positional with at least one decimal, and JSON has no infinities. -/
def displayJson (x : Float) : String :=
  let bits := magnitudeBits x
  if infinityBits ≤ bits then "null"
  else
    let decimal := shortest .even bits
    if -5 ≤ decimal.leadingExponent ∧ decimal.leadingExponent < 16 then
      let point := if 0 ≤ decimal.exponent then ['.', '0'] else []
      String.ofList (decimal.positional ++ point)
    else
      String.ofList decimal.scientific

end Lox.Numeral
