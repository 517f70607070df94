import Lox.Numeral.Binary64

/-!
The fewest decimal digits that read back as a given double. The coarsest decimal grid with a
reading-back neighbour of the value wins, and of two such neighbours the nearer.
-/

namespace Lox.Numeral

/-- The decimal `coefficient · 10^exponent`. -/
structure Decimal where
  coefficient : Nat
  exponent : Int
deriving DecidableEq, Repr

namespace Decimal

def num (decimal : Decimal) : Nat :=
  decimal.coefficient * Nat.pow 10 decimal.exponent.toNat

def den (decimal : Decimal) : Nat :=
  Nat.pow 10 (-decimal.exponent).toNat

/-- The magnitude bits of the nearest double. -/
def toBits (decimal : Decimal) : Nat :=
  nearest decimal.num decimal.den

end Decimal

/-- Where a value lies halfway between two decimals of the shortest length, the one to take. -/
inductive Tie where
  | up
  | even

def Tie.takesUpper : Tie → (lower : Nat) → Bool
  | .up, _ => true
  | .even, lower => lower % 2 == 1

/-- The value's neighbours among the multiples of `10^exponent`, the preferred one first. -/
def neighbours (tie : Tie) (bits : Nat) (exponent : Int) : List Decimal :=
  let num := units bits * Nat.pow 10 (-exponent).toNat
  let den := unitsPerOne * Nat.pow 10 exponent.toNat
  let lower := num / den
  let twice := 2 * (num % den)
  if den < twice ∨ (den = twice ∧ tie.takesUpper lower) then
    [⟨lower + 1, exponent⟩, ⟨lower, exponent⟩]
  else
    [⟨lower, exponent⟩, ⟨lower + 1, exponent⟩]

/-- A decimal exponent whose power of ten exceeds the value. -/
def topExponent (bits : Nat) : Int :=
  ((units bits).log2 - 1073 : Int) * 30103 / 100000 + 2

/-- The first neighbour that reads back on `steps` grids, each ten times finer than the last. -/
def searchGrids (tie : Tie) (bits : Nat) : (steps : Nat) → (exponent : Int) → Option Decimal
  | 0, _ => none
  | steps + 1, exponent =>
    match (neighbours tie bits exponent).find? (·.toBits == bits) with
    | some decimal => some decimal
    | none => searchGrids tie bits steps (exponent - 1)

/-- The value itself, for which a multiple of `10^-1074` always suffices. -/
def exactDecimal (bits : Nat) : Decimal :=
  ⟨units bits * Nat.pow 5 1074, -1074⟩

/-- The shortest decimal that reads back as the double of these magnitude bits. Seventeen digits
always suffice, and the first two grids are coarser than the value. -/
def shortest (tie : Tie) (bits : Nat) : Decimal :=
  if bits = 0 then ⟨0, 0⟩
  else (searchGrids tie bits 21 (topExponent bits)).getD (exactDecimal bits)

end Lox.Numeral
