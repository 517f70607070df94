import Lox.Proofs.Numeral.Nearest
import Lox.Proofs.Token.Longest
import Mathlib.Data.List.TakeWhile

/-! A decimal without an exponent is a number of the lexical grammar, and it reads back as the decimal that it
lays out. So the digits of a finite magnitude are scanned as that magnitude. -/

namespace Lox.Numeral

theorem readDecimal_whole (whole : ∀ char ∈ text, char.isDigit = true) :
    readDecimal text = ⟨ofDigits text, 0⟩ := by
  simp [readDecimal, List.takeWhile_eq_self_iff.mpr whole, List.dropWhile_eq_nil_iff.mpr whole]

theorem readDecimal_point (whole : ∀ char ∈ text, char.isDigit = true) (fraction : List Char) :
    readDecimal (text ++ '.' :: fraction) = ⟨ofDigits (text ++ fraction), -(fraction.length : Int)⟩ := by
  have point : ('.' : Char).isDigit = false := rfl
  simp [readDecimal, List.takeWhile_append_of_pos whole, List.dropWhile_append_of_pos whole, point]

theorem ofDigits_toDigits (count : Nat) : ofDigits (Nat.toDigits 10 count) = count :=
  Nat.ofDigitChars_ten_toDigits

theorem ofDigits_append_zeros (digits : List Char) (zeros : Nat) :
    ofDigits (digits ++ List.replicate zeros '0') = Nat.pow 10 zeros * ofDigits digits := by
  change Nat.ofDigitChars 10 (digits ++ List.replicate zeros '0') 0 = _
  rw [Nat.ofDigitChars_append, Nat.ofDigitChars_replicate_zero]
  rfl

theorem ofDigits_zeros_append (zeros : Nat) (digits : List Char) :
    ofDigits (List.replicate zeros '0' ++ digits) = ofDigits digits := by
  change Nat.ofDigitChars 10 (List.replicate zeros '0' ++ digits) 0 = _
  rw [Nat.ofDigitChars_append, Nat.ofDigitChars_replicate_zero, Nat.mul_zero]
  rfl

theorem digits_toDigits (count : Nat) : Digits (Nat.toDigits 10 count) where
  nonempty := Nat.toDigits_ne_nil
  all _ member := Nat.isDigit_of_mem_toDigits (by decide) (by decide) member

theorem isDigit_replicate (member : char ∈ List.replicate zeros '0') : char.isDigit = true := by
  rw [List.eq_of_mem_replicate member]
  rfl

namespace Decimal

theorem digits_digits (decimal : Decimal) : Digits decimal.digits :=
  digits_toDigits decimal.coefficient

/-- The layout of a decimal: digits with zeros after them, or digits around a point. -/
theorem positional_cases (decimal : Decimal) :
    (0 ≤ decimal.exponent ∧
      decimal.positional = decimal.digits ++ List.replicate decimal.exponent.toNat '0') ∨
    ∃ whole fraction, decimal.positional = whole ++ '.' :: fraction ∧ Digits whole ∧ Digits fraction ∧
      decimal.exponent = -(fraction.length : Int) ∧
      ofDigits (whole ++ fraction) = decimal.coefficient := by
  have known := decimal.digits_digits
  have count : ofDigits decimal.digits = decimal.coefficient := ofDigits_toDigits _
  by_cases up : 0 ≤ decimal.exponent
  · exact .inl ⟨up, by rw [positional]; simp only [up, if_true]⟩
  · right
    generalize same : (-decimal.exponent).toNat = places
    have layout : decimal.positional =
        if places < decimal.digits.length then
          decimal.digits.take (decimal.digits.length - places) ++
            '.' :: decimal.digits.drop (decimal.digits.length - places)
        else ['0', '.'] ++ List.replicate (places - decimal.digits.length) '0' ++ decimal.digits := by
      rw [positional]
      simp only [up, if_false, same]
    by_cases short : places < decimal.digits.length
    · rw [if_pos short] at layout
      refine ⟨_, _, layout, ⟨?_, fun char member => known.all char (List.mem_of_mem_take member)⟩,
        ⟨?_, fun char member => known.all char (List.mem_of_mem_drop member)⟩, ?_, ?_⟩
      · rw [ne_eq, List.take_eq_nil_iff]
        rintro (none | none)
        · omega
        · exact known.nonempty none
      · rw [ne_eq, List.drop_eq_nil_iff]
        omega
      · rw [List.length_drop]
        omega
      · rw [List.take_append_drop, count]
    · rw [if_neg short] at layout
      refine ⟨['0'], List.replicate (places - decimal.digits.length) '0' ++ decimal.digits, ?_,
        ⟨List.cons_ne_nil _ _, by simp⟩, ⟨List.append_ne_nil_of_right_ne_nil _ known.nonempty, ?_⟩, ?_, ?_⟩
      · simpa using layout
      · intro char member
        exact (List.mem_append.mp member).elim isDigit_replicate (known.all char)
      · rw [List.length_append, List.length_replicate]
        omega
      · exact (ofDigits_zeros_append 1 _).trans ((ofDigits_zeros_append _ _).trans count)

/-- Read back, the layout of a decimal stands for the same number. -/
theorem toBits_readDecimal_positional (decimal : Decimal) :
    (readDecimal decimal.positional).toBits = decimal.toBits := by
  have known := decimal.digits_digits
  rcases decimal.positional_cases with ⟨up, layout⟩ | ⟨whole, fraction, layout, whole', -, places, count⟩
  · have all : ∀ char ∈ decimal.positional, char.isDigit = true := by
      rw [layout]
      intro char member
      exact (List.mem_append.mp member).elim (known.all char) isDigit_replicate
    have value : ofDigits decimal.positional =
        Nat.pow 10 decimal.exponent.toNat * decimal.coefficient := by
      rw [layout, ofDigits_append_zeros]
      exact congrArg _ (ofDigits_toDigits _)
    have none : (-decimal.exponent).toNat = 0 := by omega
    rw [readDecimal_whole all, value]
    simp [toBits, num, den, none, Nat.mul_comm]
  · rw [layout, readDecimal_point whole'.all, count, ← places]

/-- The layout of a decimal is a number. -/
theorem lexeme_positional (decimal : Decimal) :
    Lexeme decimal.positional (.number (read decimal.positional)) := by
  have known := decimal.digits_digits
  rcases decimal.positional_cases with ⟨-, layout⟩ | ⟨whole, fraction, layout, whole', fraction', -⟩
  · rw [layout]
    refine .whole ⟨List.append_ne_nil_of_left_ne_nil known.nonempty _, fun char member => ?_⟩
    exact (List.mem_append.mp member).elim (known.all char) isDigit_replicate
  · rw [layout]
    exact .decimal whole' fraction'

end Decimal

theorem smallInteger?_eq_some (small : smallInteger? bits = some whole) :
    units bits = whole * unitsPerOne := by
  simp only [smallInteger?, Option.ite_none_right_eq_some, Option.some.injEq] at small
  obtain ⟨⟨rest, -⟩, rfl⟩ := small
  exact (Nat.div_mul_cancel (Nat.dvd_of_mod_eq_zero rest)).symm

theorem toBits_positional (below : bits < infinityBits) :
    (readDecimal (positional bits)).toBits = bits := by
  rw [positional]
  cases small : smallInteger? bits with
  | some whole =>
    change (readDecimal (Nat.toDigits 10 whole)).toBits = bits
    rw [readDecimal_whole (digits_toDigits whole).all, ofDigits_toDigits]
    have num : Decimal.num ⟨whole, 0⟩ = whole := Nat.mul_one whole
    have den : Decimal.den ⟨whole, 0⟩ = 1 := rfl
    exact nearest_eq below Nat.zero_lt_one (by rw [num, den, Nat.mul_one, smallInteger?_eq_some small])
  | none => exact (shortest .up bits).toBits_readDecimal_positional.trans (toBits_shortest .up below)

/-- The digits of a finite magnitude read back as it. -/
theorem read_positional (below : bits < infinityBits) : read (positional bits) = ofMagnitudeBits bits := by
  rw [read, toBits_positional below]

theorem lexeme_positional (bits : Nat) :
    Lexeme (positional bits) (.number (read (positional bits))) := by
  rw [positional]
  cases smallInteger? bits with
  | some whole => exact .whole (digits_toDigits whole)
  | none => exact (shortest .up bits).lexeme_positional

end Lox.Numeral
