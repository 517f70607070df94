import Lox.Numeral.Shortest

/-! Finite doubles are read back exactly. A quotient that is a double is nearest to itself, so whatever grid
of decimals the shortest one comes from, it reads back as the double that it was made for. -/

namespace Lox.Numeral

variable {bits num den : Nat}

theorem roundDiv_mul (quotient : Nat) (positive : 0 < den) : roundDiv (quotient * den) den = quotient := by
  have floor : quotient * den / den = quotient := Nat.mul_div_cancel quotient positive
  have rest : quotient * den % den = 0 := Nat.mul_mod_left quotient den
  simp [roundDiv, floor, rest]
  omega

/-- Below the first normal number the place of the last bit is the lowest one, and the bits are the number. -/
theorem units_subnormal (low : bits < exponentWeight) : binaryPlace bits = 0 ∧ units bits = bits := by
  have place : binaryPlace bits = 0 := by simp [binaryPlace, Nat.div_eq_of_lt low]
  simp [units, significand, place, low]

/-- The significand of a normal number takes all its bits. -/
theorem significand_normal (high : exponentWeight ≤ bits) :
    exponentWeight ≤ significand bits ∧ significand bits < 2 * exponentWeight := by
  have rest : bits % exponentWeight < exponentWeight := Nat.mod_lt _ (by decide)
  rw [significand, if_neg (Nat.not_lt.mpr high)]
  simp only [exponentWeight] at rest ⊢
  omega

/-- The place of the last bit is told by the number of bits. -/
theorem log2_units (bits : Nat) : (units bits).log2 - 52 = binaryPlace bits := by
  by_cases low : bits < exponentWeight
  · obtain ⟨place, same⟩ := units_subnormal low
    rw [place, same]
    by_cases zero : bits = 0
    · simp [zero]
    · have short : bits.log2 < 52 := (Nat.log2_lt zero).mpr low
      omega
  · obtain ⟨least, most⟩ := significand_normal (Nat.not_lt.mp low)
    have positive : 0 < 2 ^ binaryPlace bits := Nat.two_pow_pos _
    have length : (units bits).log2 = 52 + binaryPlace bits := by
      refine (Nat.log2_eq_iff ?_).mpr ⟨?_, ?_⟩
      · exact Nat.ne_of_gt (Nat.mul_pos (by omega) positive)
      · rw [Nat.pow_add]
        exact Nat.mul_le_mul_right _ least
      · rw [Nat.add_right_comm, Nat.pow_add]
        exact Nat.mul_lt_mul_of_pos_right most positive
    omega

/-- The exponent and the significand together are the bits again. -/
theorem place_add_significand (bits : Nat) :
    binaryPlace bits * exponentWeight + significand bits = bits := by
  by_cases low : bits < exponentWeight
  · simp [units_subnormal low, significand, low]
  · have whole := Nat.div_add_mod bits exponentWeight
    have some : 0 < bits / exponentWeight := Nat.div_pos (Nat.not_lt.mp low) (by decide)
    rw [binaryPlace, significand, if_neg low]
    simp only [exponentWeight] at whole some ⊢
    omega

/-- A quotient that is a finite double is nearest to that double. -/
theorem nearest_eq (below : bits < infinityBits) (positive : 0 < den)
    (exact : num * unitsPerOne = units bits * den) : nearest num den = bits := by
  have scaled : num * unitsPerOne / den = units bits := by
    rw [exact, Nat.mul_div_cancel _ positive]
  have rounded : roundDiv (num * unitsPerOne) (den * Nat.pow 2 (binaryPlace bits)) =
      significand bits := by
    rw [exact, units, Nat.mul_assoc, Nat.mul_comm (Nat.pow 2 _) den]
    exact roundDiv_mul _ (Nat.mul_pos positive (Nat.two_pow_pos _))
  simp only [nearest, scaled, log2_units, rounded, place_add_significand]
  exact Nat.min_eq_right (Nat.le_of_lt below)

/-- What a search gives reads back. -/
theorem toBits_of_searchGrids (found : searchGrids tie bits steps exponent = some decimal) :
    decimal.toBits = bits := by
  induction steps generalizing exponent with
  | zero => cases found
  | succ steps ih =>
    rw [searchGrids] at found
    split at found
    · rename_i first held
      cases found
      simpa using List.find?_some held
    · exact ih found

theorem Decimal.num_neg (count places : Nat) :
    Decimal.num ⟨count, -(places : Int)⟩ = count := by
  simp [Decimal.num]

theorem Decimal.den_neg (count places : Nat) :
    Decimal.den ⟨count, -(places : Int)⟩ = Nat.pow 10 places := by
  simp [Decimal.den]

theorem toBits_exactDecimal (below : bits < infinityBits) : (exactDecimal bits).toBits = bits := by
  -- With the number of places a variable, no power of this size is computed.
  obtain ⟨places, one, exact⟩ : ∃ places : Nat, unitsPerOne = Nat.pow 2 places ∧
      exactDecimal bits = ⟨units bits * Nat.pow 5 places, -(places : Int)⟩ := ⟨1074, rfl, rfl⟩
  have tens : Nat.pow 5 places * Nat.pow 2 places = Nat.pow 10 places := (Nat.mul_pow 5 2 places).symm
  rw [exact, Decimal.toBits, Decimal.num_neg, Decimal.den_neg]
  exact nearest_eq below (Nat.pow_pos (by decide)) (by rw [one, Nat.mul_assoc, tens])

/-- The shortest decimal of a finite double reads back as it. -/
theorem toBits_shortest (tie : Tie) (below : bits < infinityBits) : (shortest tie bits).toBits = bits := by
  by_cases zero : bits = 0
  · subst zero
    have none : units 0 = 0 := (units_subnormal (by decide)).2
    rw [shortest, if_pos rfl, Decimal.toBits]
    have empty : Decimal.num ⟨0, 0⟩ = 0 := Nat.zero_mul _
    exact nearest_eq (by decide) Nat.zero_lt_one (by rw [empty, none, Nat.zero_mul, Nat.zero_mul])
  · rw [shortest, if_neg zero]
    cases found : searchGrids tie bits 21 (topExponent bits) with
    | none => exact toBits_exactDecimal below
    | some decimal => exact toBits_of_searchGrids found

end Lox.Numeral
