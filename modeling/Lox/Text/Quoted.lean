/-!
JSON string literals. Quotes and backslashes are escaped, control characters below U+0020 take
their short escape or a four-digit one, and every other character stands for itself.
-/

namespace Lox.Text.Quoted

/-- The short escape of a character that has one. -/
def shortEscape? (char : Char) : Option Char :=
  if char = '"' then some '"'
  else if char = '\\' then some '\\'
  else if char = '\x08' then some 'b'
  else if char = '\t' then some 't'
  else if char = '\n' then some 'n'
  else if char = '\x0c' then some 'f'
  else if char = '\r' then some 'r'
  else none

/-- The lower-case hexadecimal digits of a number below 256. -/
def hexPair (code : Nat) : List Char :=
  [Nat.digitChar (code / 16), Nat.digitChar (code % 16)]

def encodeChar (char : Char) : List Char :=
  match shortEscape? char with
  | some letter => ['\\', letter]
  | none =>
    if char.toNat < 0x20 then ['\\', 'u', '0', '0'] ++ hexPair char.toNat else [char]

/-- The inside of the literal. -/
def encode (text : List Char) : List Char :=
  text.flatMap encodeChar

end Lox.Text.Quoted

namespace Lox.Text

/-- The JSON literal of a text. -/
def quoted (text : String) : String :=
  String.ofList ('"' :: (Quoted.encode text.toList ++ ['"']))

end Lox.Text
