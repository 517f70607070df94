import Lox.Text.Hidden

/-!
Names in messages: a name stands between double quotes, with double quotes, backslashes and every
character that would not show written as escapes.
-/

namespace Lox.Text

def escapedChar (char : Char) : List Char :=
  if char = '\x00' then ['\\', '0']
  else if char = '\t' then ['\\', 't']
  else if char = '\n' then ['\\', 'n']
  else if char = '\r' then ['\\', 'r']
  else if char = '"' ∨ char = '\\' then ['\\', char]
  else if char.toNat < 0x20 ∨ char.toNat = 0x7f ∨ isHidden char then
    ['\\', 'u', '\x7b'] ++ Nat.toDigits 16 char.toNat ++ ['\x7d']
  else [char]

/-- The name between quotes. -/
def escaped (name : String) : String :=
  String.ofList ('"' :: (name.toList.flatMap escapedChar ++ ['"']))

end Lox.Text
