import Lox.Heap.Basic
import Lox.Machine.Operators
import Lox.Proofs.Numeral.Bits
import Lox.Proofs.Numeral.Positional
import Lox.Proofs.Token.Spaced

/-! The texts of values. The text of a finite number without a sign is scanned as that number, a sign stands
before the text of the magnitude, and primitive values of one kind are equal if their texts are. -/

namespace Lox

namespace Lexeme

theorem number_digit (lexeme : Lexeme text (.number value)) :
    ∃ digit rest, text = digit :: rest ∧ digit.isDigit = true := by
  cases lexeme with
  | whole digits =>
    obtain ⟨digit, rest, rfl⟩ := List.exists_cons_of_ne_nil digits.nonempty
    exact ⟨digit, rest, rfl, digits.all digit List.mem_cons_self⟩
  | decimal digits fraction =>
    obtain ⟨digit, rest, rfl⟩ := List.exists_cons_of_ne_nil digits.nonempty
    exact ⟨digit, _, List.cons_append, digits.all digit List.mem_cons_self⟩

theorem number_count (lexeme : Lexeme text (.number value)) : text.count '\n' = 0 := by
  have digits {text : List Char} (known : Digits text) : '\n' ∉ text :=
    fun member => absurd (known.all '\n' member) (by decide)
  rw [List.count_eq_zero]
  cases lexeme with
  | whole known => exact digits known
  | decimal known fraction => simp [digits known, digits fraction]

end Lexeme

namespace Numeral

variable {x y : Float} {bits bits' : Nat}

/-- The text of the magnitude of a number. -/
def magnitudeText (bits : Nat) : List Char :=
  if bits = infinityBits then "Infinity".toList else positional bits

theorem display_nan (nan : infinityBits < magnitudeBits x) : display x = "NaN" := by
  simp only [display, nan, if_true]

theorem display_number (number : magnitudeBits x ≤ infinityBits) : (display x).toList =
    (if signBit x then ['-'] else []) ++ magnitudeText (magnitudeBits x) := by
  simp only [display, magnitudeText, Nat.not_lt.mpr number, if_false, String.toList_ofList]

theorem positional_digit (bits : Nat) :
    ∃ digit rest, positional bits = digit :: rest ∧ digit.isDigit = true :=
  (lexeme_positional bits).number_digit

/-- A magnitude starts with a digit, or else is infinite. -/
theorem magnitudeText_first (bits : Nat) : ∃ first rest, magnitudeText bits = first :: rest ∧
    (bits ≠ infinityBits ∧ first.isDigit = true ∨ bits = infinityBits ∧ first = 'I') := by
  by_cases infinite : bits = infinityBits
  · exact ⟨'I', "nfinity".toList, by rw [magnitudeText, if_pos infinite]; rfl, .inr ⟨infinite, rfl⟩⟩
  · obtain ⟨digit, rest, same, known⟩ := positional_digit bits
    exact ⟨digit, rest, by rw [magnitudeText, if_neg infinite, same], .inl ⟨infinite, known⟩⟩

/-- Magnitudes with one text are one magnitude. -/
theorem magnitudeText_injective (number : bits ≤ infinityBits) (number' : bits' ≤ infinityBits)
    (same : magnitudeText bits = magnitudeText bits') : bits = bits' := by
  obtain ⟨first, rest, text, known⟩ := magnitudeText_first bits
  obtain ⟨first', rest', text', known'⟩ := magnitudeText_first bits'
  obtain ⟨rfl, -⟩ := List.cons.inj (text.symm.trans (same.trans text'))
  rcases known with ⟨finite, digit⟩ | ⟨infinite, rfl⟩
  · rcases known' with ⟨finite', -⟩ | ⟨-, rfl⟩
    · rw [magnitudeText, magnitudeText, if_neg finite, if_neg finite'] at same
      rw [← toBits_positional (Nat.lt_of_le_of_ne number finite), same,
        toBits_positional (Nat.lt_of_le_of_ne number' finite')]
    · cases digit
  · rcases known' with ⟨-, digit⟩ | ⟨infinite', -⟩
    · cases digit
    · exact infinite.trans infinite'.symm

/-- The sign comes off the text of a number, since no magnitude starts with it. -/
theorem sign_append_inj {sign sign' : Bool} (same : (if sign then ['-'] else []) ++ magnitudeText bits =
      (if sign' then ['-'] else []) ++ magnitudeText bits') :
    sign = sign' ∧ magnitudeText bits = magnitudeText bits' := by
  have unsigned (bits : Nat) (rest : List Char) : magnitudeText bits ≠ '-' :: rest := by
    obtain ⟨first, _, text, ⟨-, digit⟩ | ⟨-, rfl⟩⟩ := magnitudeText_first bits
    · rw [text]
      rintro ⟨rfl⟩
      cases digit
    · simp [text]
  cases sign with
  | true =>
    cases sign' with
    | true => exact ⟨rfl, (List.cons.inj same).2⟩
    | false => exact absurd same.symm (unsigned _ _)
  | false =>
    cases sign' with
    | true => exact absurd same (unsigned _ _)
    | false => exact ⟨rfl, same⟩

/-- No number is written as what is not a number. -/
theorem display_ne_nan (number : magnitudeBits x ≤ infinityBits) : display x ≠ "NaN" := by
  intro same
  have text := display_number number
  obtain ⟨first, rest, magnitude, known⟩ := magnitudeText_first (magnitudeBits x)
  rw [same, magnitude] at text
  cases sign : signBit x <;> rw [sign] at text
  · obtain ⟨rfl, -⟩ := List.cons.inj text
    rcases known with ⟨-, digit⟩ | ⟨-, other⟩
    · cases digit
    · cases other
  · cases text

/-- Doubles with one text are one double. -/
theorem display_injective (same : display x = display y) : x = y := by
  by_cases nan : infinityBits < magnitudeBits x
  · by_cases nan' : infinityBits < magnitudeBits y
    · exact eq_of_nan nan nan'
    · exact absurd (same.symm.trans (display_nan nan)) (display_ne_nan (Nat.not_lt.mp nan'))
  · by_cases nan' : infinityBits < magnitudeBits y
    · exact absurd (same.trans (display_nan nan')) (display_ne_nan (Nat.not_lt.mp nan))
    · have number := Nat.not_lt.mp nan
      have number' := Nat.not_lt.mp nan'
      obtain ⟨sign, magnitude⟩ := sign_append_inj
        ((display_number number).symm.trans (same ▸ display_number number'))
      exact eq_of_sign_magnitude sign (magnitudeText_injective number number' magnitude)

theorem magnitudeBits_ne (finite : x.isFinite = true) : magnitudeBits x ≠ infinityBits :=
  Nat.ne_of_lt ((isFinite_iff x).mp finite)

theorem display_finite (finite : x.isFinite = true) : (display x).toList =
    (if signBit x then ['-'] else []) ++ positional (magnitudeBits x) := by
  rw [display_number (Nat.le_of_lt ((isFinite_iff x).mp finite)), magnitudeText,
    if_neg (magnitudeBits_ne finite)]

/-- A number without a sign is its magnitude. -/
theorem ofMagnitudeBits_magnitudeBits (clear : signBit x = false) :
    ofMagnitudeBits (magnitudeBits x) = x := by
  have below : x.toBits.toNat < signWeight := by simpa [signBit] using clear
  rw [ofMagnitudeBits, magnitudeBits, Nat.mod_eq_of_lt below, UInt64.ofNat_toNat, Float.ofBits_toBits]

/-- The text of a finite number without a sign is scanned as the number. -/
theorem items_display (finite : x.isFinite = true) (clear : signBit x = false) :
    Scan.items (display x) = [.token ⟨.number x, display x, 1⟩, .token (.eof 1)] := by
  have text : (display x).toList = positional (magnitudeBits x) := by
    simp [display_finite finite, clear]
  have lexeme := lexeme_positional (magnitudeBits x)
  have scanned := lexeme.items Scan.spaced_nil 1
  rw [read_positional ((isFinite_iff x).mp finite), ofMagnitudeBits_magnitudeBits clear,
    lexeme.number_count, ← text, String.ofList_toList, List.append_nil] at scanned
  rw [Scan.items, scanned]
  simp [Scan.itemsFrom]

/-- A sign stands before the text of the number without it. -/
theorem display_negative (finite : x.isFinite = true) (sign : signBit x = true) :
    display x = "-" ++ display (-x) := by
  have number := Nat.le_of_lt ((isFinite_iff x).mp finite)
  have finite' : (-x).isFinite = true := by
    rw [isFinite_iff, magnitudeBits_neg number]
    exact (isFinite_iff x).mp finite
  apply String.toList_injective
  rw [String.toList_append, display_finite finite, display_finite finite', magnitudeBits_neg number,
    signBit_neg number, sign]
  rfl

end Numeral

/-- The kinds of values that consist of nothing else. -/
inductive Primitive where
  | nil
  | bool
  | number
  | string
deriving DecidableEq

/-- The kind of a primitive value. -/
def Value.primitive? : Value → Option Primitive
  | .nil => some .nil
  | .bool _ => some .bool
  | .number _ => some .number
  | .string _ => some .string
  | .callable _ | .object _ => none

/-- Primitive values of one kind are the same if their texts are. -/
theorem Heap.display_injective (heap : Heap) {left right : Value} (primitive : left.primitive?.isSome = true)
    (kind : left.primitive? = right.primitive?) (same : heap.display left = heap.display right) :
    left = right := by
  cases left with
  | nil => cases right <;> first | rfl | cases kind
  | bool value =>
    cases right with
    | bool value' =>
      cases value <;> cases value' <;> simp [display] at same ⊢
    | _ => cases kind
  | number value =>
    cases right with
    | number value' => exact congrArg Value.number (Numeral.display_injective same)
    | _ => cases kind
  | string contents =>
    cases right with
    | string contents' => exact congrArg Value.string same
    | _ => cases kind
  | callable callee => cases primitive
  | object ref => cases primitive

/-- The texts of primitive values tell the values. The text of a finite double without a sign is scanned as
one number of the same bits, and a sign goes before the text of the double without it. Two patterns of bits
are equal numbers if they are the same or neither is a number, and primitive values are equal if they are of
one kind and have one text. -/
theorem texts_tell_values :
    (∀ bits : UInt64, (Float.ofBits bits).isFinite = true →
      (Numeral.signBit (Float.ofBits bits) = false → ∃ value : Float, value.toBits = bits ∧
        Scan.items (Numeral.display (Float.ofBits bits)) =
          [.token ⟨.number value, Numeral.display (Float.ofBits bits), 1⟩, .token (.eof 1)]) ∧
      (Numeral.signBit (Float.ofBits bits) = true →
        Numeral.display (Float.ofBits bits) = "-" ++ Numeral.display (-Float.ofBits bits))) ∧
    (∀ bits bits' : UInt64,
      BinaryOp.equal.apply (.number (Float.ofBits bits)) (.number (Float.ofBits bits')) =
        .ok (.bool (decide (bits = bits' ∨ Numeral.infinityBits < bits.toNat % Numeral.signWeight ∧
          Numeral.infinityBits < bits'.toNat % Numeral.signWeight)))) ∧
    ∀ (heap : Heap) (left right : Value), left.primitive?.isSome = true → right.primitive?.isSome = true →
      BinaryOp.equal.apply left right = .ok (.bool (decide
        (left.primitive? = right.primitive? ∧ heap.display left = heap.display right))) := by
  refine ⟨fun bits finite => ⟨fun clear => ?_, Numeral.display_negative finite⟩, fun bits bits' => ?_,
    fun heap left right primitive _ => ?_⟩
  · refine ⟨Float.ofBits bits, Numeral.toBits_ofBits (Nat.le_of_not_lt fun nan => ?_),
      Numeral.items_display finite clear⟩
    have magnitude := Numeral.magnitudeBits_ofBits_nan nan
    have below := (Numeral.isFinite_iff _).mp finite
    omega
  · simp only [BinaryOp.apply, Value.number.injEq, Numeral.ofBits_eq_iff]
  · have equal : left = right ↔ left.primitive? = right.primitive? ∧ heap.display left = heap.display right :=
      ⟨fun same => same ▸ ⟨rfl, rfl⟩, fun ⟨kind, same⟩ => heap.display_injective primitive kind same⟩
    simp only [BinaryOp.apply, equal]

/-- One tenth, which no double is, is scanned as the double that is written so. -/
theorem tenth_told : ∃ value : Float, value.toBits = 0x3fb999999999999a ∧
    Scan.items "0.1" = [.token ⟨.number value, "0.1", 1⟩, .token (.eof 1)] := by
  have finite : (Float.ofBits 0x3fb999999999999a).isFinite = true := by decide +kernel
  have clear : Numeral.signBit (Float.ofBits 0x3fb999999999999a) = false := by decide +kernel
  have text : Numeral.display (Float.ofBits 0x3fb999999999999a) = "0.1" := by decide +kernel
  have told := (texts_tell_values.1 0x3fb999999999999a finite).1 clear
  rwa [text] at told

end Lox
