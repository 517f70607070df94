/-!
Reading UTF-8. A malformed text is refused at the first byte that no character begins at, together
with the number of bytes that are wrong there, unless the text merely ends too early.
-/

namespace Lox.Text.Utf8

/-- The first fault of a malformed text. A character that is cut off has no `length`. -/
structure Malformed where
  index : Nat
  length : Option Nat
deriving DecidableEq

/-- What the bytes begin with. -/
inductive Step where
  | char (char : Char) (length : Nat)
  | malformed (length : Nat)
  | cutOff

/-- Reads the continuation bytes of a character after `seen` bytes of it. The bounds hold for the
next byte and exclude overlong forms, surrogates and codes that are too large. -/
def continuations : (count : Nat) → (low high : UInt8) → (code seen : Nat) → List UInt8 → Step
  | 0, _, _, code, seen, _ => .char (Char.ofNat code) seen
  | _ + 1, _, _, _, _, [] => .cutOff
  | count + 1, low, high, code, seen, byte :: rest =>
    if low ≤ byte ∧ byte ≤ high then
      continuations count 0x80 0xbf (code * 64 + (byte.toNat - 0x80)) (seen + 1) rest
    else .malformed seen

/-- Reads one character, whose first byte tells how many follow it. -/
def step (lead : UInt8) (rest : List UInt8) : Step :=
  let code := lead.toNat
  if lead < 0x80 then .char (Char.ofNat code) 1
  else if 0xc2 ≤ lead ∧ lead ≤ 0xdf then continuations 1 0x80 0xbf (code - 0xc0) 1 rest
  else if lead = 0xe0 then continuations 2 0xa0 0xbf 0 1 rest
  else if lead = 0xed then continuations 2 0x80 0x9f 0xd 1 rest
  else if 0xe1 ≤ lead ∧ lead ≤ 0xef then continuations 2 0x80 0xbf (code - 0xe0) 1 rest
  else if lead = 0xf0 then continuations 3 0x90 0xbf 0 1 rest
  else if lead = 0xf4 then continuations 3 0x80 0x8f 4 1 rest
  else if 0xf1 ≤ lead ∧ lead ≤ 0xf3 then continuations 3 0x80 0xbf (code - 0xf0) 1 rest
  else .malformed 1

/-- The characters and the faults of the bytes, in order, if the first byte has the given index. -/
def pieces (index : Nat) : List UInt8 → List (Except Malformed Char)
  | [] => []
  | lead :: rest =>
    match step lead rest with
    | .char char length => .ok char :: pieces (index + length) (rest.drop (length - 1))
    | .malformed length =>
      .error ⟨index, some length⟩ :: pieces (index + length) (rest.drop (length - 1))
    | .cutOff => [.error ⟨index, none⟩]
termination_by bytes => bytes.length
decreasing_by
  all_goals
    simp only [List.length_drop, List.length_cons]
    omega

/-- The text of the bytes, or the first fault in them. -/
def decode (bytes : List UInt8) : Except Malformed String := do
  return String.ofList (← (pieces 0 bytes).mapM id)

/-- The text of the bytes with a replacement character for each fault. -/
def decodeLossy (bytes : List UInt8) : String :=
  String.ofList ((pieces 0 bytes).map fun
    | .ok char => char
    | .error _ => '\ufffd')

end Lox.Text.Utf8
