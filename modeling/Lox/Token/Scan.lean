import Lox.Token.Basic

/-!
From text to tokens. A nonempty text is cut into its first piece and the rest, and scanning
repeats the cut while counting lines. The cut loses nothing and always takes a character.
-/

namespace Lox

/-- Why no token starts at a character. -/
inductive LexFault where
  | unexpectedCharacter (char : Char)
  | unterminatedString
deriving DecidableEq

/-- A stretch of text that is no token, with the line on which it ends. -/
structure LexError where
  fault : LexFault
  line : Nat
deriving DecidableEq

/-- What scanning yields, in the order of the text. -/
inductive Item where
  | token (token : Token)
  | error (error : LexError)
deriving DecidableEq

namespace Scan

/-- What a piece of text is. -/
inductive Piece where
  | blank
  | token (kind : Kind)
  | fault (fault : LexFault)

/-- The first piece of a text: what it is, its characters, and the text after it. -/
structure Cut where
  piece : Piece
  text : List Char
  rest : List Char

/-- Line breaks are blanks as well, although they also count. -/
def isBlank (char : Char) : Bool :=
  char == ' ' || char == '\r' || char == '\t' || char == '\n'

/-- ASCII letters and the underscore, as identifiers and keywords begin. -/
def isWordStart (char : Char) : Bool :=
  char.isAlpha || char == '_'

def isWordChar (char : Char) : Bool :=
  char.isAlphanum || char == '_'

/-- The symbols of one character that begin no other token. -/
def single? (char : Char) : Option Terminal :=
  match char with
  | '(' => some .leftParen
  | ')' => some .rightParen
  | '\x7b' => some .leftBrace
  | '\x7d' => some .rightBrace
  | ',' => some .comma
  | '.' => some .dot
  | '-' => some .minus
  | '+' => some .plus
  | ';' => some .semicolon
  | '*' => some .star
  | _ => none

/-- The symbols that a following equals sign lengthens, without it and with it. -/
def paired? (char : Char) : Option (Terminal × Terminal) :=
  match char with
  | '!' => some (.bang, .bangEqual)
  | '=' => some (.equal, .equalEqual)
  | '<' => some (.less, .lessEqual)
  | '>' => some (.greater, .greaterEqual)
  | _ => none

/-- A symbol, or a fault at a character that begins none. -/
def cutSymbol (head : Char) (tail : List Char) : Cut :=
  match single? head, paired? head, tail with
  | some word, _, _ => ⟨.token (.terminal word), [head], tail⟩
  | none, some (_, long), '=' :: rest => ⟨.token (.terminal long), [head, '='], rest⟩
  | none, some (short, _), _ => ⟨.token (.terminal short), [head], tail⟩
  | none, none, _ => ⟨.fault (.unexpectedCharacter head), [head], tail⟩

/-- A slash, or the comment that two of them begin. It ends before the line break. -/
def cutSlash (tail : List Char) : Cut :=
  match tail with
  | '/' :: _ => ⟨.blank, '/' :: tail.takeWhile (· != '\n'), tail.dropWhile (· != '\n')⟩
  | _ => ⟨.token (.terminal .slash), ['/'], tail⟩

/-- A string runs to the next quote, over line breaks too. Without one the whole text is a fault. -/
def cutString (tail : List Char) : Cut :=
  let contents := tail.takeWhile (· != '"')
  match tail.dropWhile (· != '"') with
  | [] => ⟨.fault .unterminatedString, '"' :: tail, []⟩
  | quote :: rest => ⟨.token (.string (String.ofList contents)), '"' :: (contents ++ [quote]), rest⟩

/-- A number takes a point only if a digit follows it. -/
def cutNumber (head : Char) (tail : List Char) : Cut :=
  let whole := head :: tail.takeWhile Char.isDigit
  let literal (text rest : List Char) : Cut := ⟨.token (.number (Numeral.read text)), text, rest⟩
  match tail.dropWhile Char.isDigit with
  | '.' :: digit :: rest =>
    if digit.isDigit then
      literal (whole ++ '.' :: digit :: rest.takeWhile Char.isDigit) (rest.dropWhile Char.isDigit)
    else literal whole ('.' :: digit :: rest)
  | rest => literal whole rest

/-- A word is a keyword only if it is one as a whole. -/
def cutWord (head : Char) (tail : List Char) : Cut :=
  let word := head :: tail.takeWhile isWordChar
  let kind := match Terminal.keyword? (String.ofList word) with
    | some keyword => Kind.terminal keyword
    | none => .identifier
  ⟨.token kind, word, tail.dropWhile isWordChar⟩

/-- The first piece of a nonempty text. -/
def cut (head : Char) (tail : List Char) : Cut :=
  if isBlank head then ⟨.blank, [head], tail⟩
  else if head = '/' then cutSlash tail
  else if head = '"' then cutString tail
  else if head.isDigit then cutNumber head tail
  else if isWordStart head then cutWord head tail
  else cutSymbol head tail

/-- The characters of a piece and the rest are the text. -/
theorem cut_text_append_rest (head : Char) (tail : List Char) :
    (cut head tail).text ++ (cut head tail).rest = head :: tail := by
  unfold cut
  split
  · rfl
  split
  · subst head
    unfold cutSlash
    split <;> simp [List.takeWhile_append_dropWhile]
  split
  · subst head
    have whole := List.takeWhile_append_dropWhile (p := (· != '"')) (l := tail)
    unfold cutString
    split
    · simp
    · rename_i found
      rw [found] at whole
      simpa using whole
  split
  · have whole := List.takeWhile_append_dropWhile (p := Char.isDigit) (l := tail)
    unfold cutNumber
    split
    · rename_i found
      rw [found] at whole
      split
      · simpa [List.takeWhile_append_dropWhile] using whole
      · simpa using whole
    · simp
  split
  · simp [cutWord, List.takeWhile_append_dropWhile]
  · unfold cutSymbol
    split <;> simp

theorem cut_text_ne_nil (head : Char) (tail : List Char) : (cut head tail).text ≠ [] := by
  unfold cut
  split
  · simp
  split
  · unfold cutSlash; split <;> simp
  split
  · unfold cutString; split <;> simp
  split
  · unfold cutNumber
    split
    · split <;> simp
    · simp
  split
  · simp [cutWord]
  · unfold cutSymbol; split <;> simp

theorem cut_rest_length (head : Char) (tail : List Char) :
    (cut head tail).rest.length ≤ tail.length := by
  have whole := congrArg List.length (cut_text_append_rest head tail)
  have taken := List.length_pos_iff.mpr (cut_text_ne_nil head tail)
  simp only [List.length_append, List.length_cons] at whole
  omega

/-- The items of a text that starts on `line`. The last one is the end of the source. -/
def itemsFrom (line : Nat) : List Char → List Item
  | [] => [.token (.eof line)]
  | head :: tail =>
    let first := cut head tail
    let last := line + first.text.count '\n'
    let later := itemsFrom last first.rest
    match first.piece with
    | .blank => later
    | .token kind => .token ⟨kind, String.ofList first.text, last⟩ :: later
    | .fault fault => .error ⟨fault, last⟩ :: later
termination_by text => text.length
decreasing_by
  simpa using Nat.lt_succ_of_le (cut_rest_length head tail)

/-- The items of a source, whose lines count from one. -/
def items (source : String) : List Item :=
  itemsFrom 1 source.toList

end Scan

/-- The items of a source, tokens apart from errors. The tokens end with the end of the source. -/
structure Scan where
  tokens : List Token
  errors : List LexError

namespace Scan

def ofItems (items : List Item) : Scan where
  tokens := items.filterMap fun
    | .token token => some token
    | .error _ => none
  errors := items.filterMap fun
    | .token _ => none
    | .error error => some error

def ofSource (source : String) : Scan :=
  ofItems (items source)

end Scan

end Lox
