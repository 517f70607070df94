import Lox.Numeral.Text
import Lox.Text.Quoted

/-!
Tokens: the fixed words of the language with their spellings, the kinds of token, and the two
forms in which a token listing shows them.
-/

namespace Lox

/-- The words whose spelling is fixed: punctuation, operators and keywords. -/
inductive Terminal where
  | leftParen | rightParen | leftBrace | rightBrace | comma | dot | minus | plus | semicolon
  | slash | star | bang | bangEqual | equal | equalEqual | greater | greaterEqual | less | lessEqual
  | kwAnd | kwClass | kwElse | kwFalse | kwFun | kwFor | kwIf | kwNil | kwOr | kwPrint | kwReturn
  | kwSuper | kwThis | kwTrue | kwVar | kwWhile
deriving DecidableEq, Repr

namespace Terminal

def spelling : Terminal → String
  | leftParen => "(" | rightParen => ")" | leftBrace => "\x7b" | rightBrace => "\x7d"
  | comma => "," | dot => "." | minus => "-" | plus => "+" | semicolon => ";" | slash => "/"
  | star => "*" | bang => "!" | bangEqual => "!=" | equal => "=" | equalEqual => "=="
  | greater => ">" | greaterEqual => ">=" | less => "<" | lessEqual => "<="
  | kwAnd => "and" | kwClass => "class" | kwElse => "else" | kwFalse => "false" | kwFun => "fun"
  | kwFor => "for" | kwIf => "if" | kwNil => "nil" | kwOr => "or" | kwPrint => "print"
  | kwReturn => "return" | kwSuper => "super" | kwThis => "this" | kwTrue => "true"
  | kwVar => "var" | kwWhile => "while"

/-- The name of the word in a token listing. -/
def name : Terminal → String
  | leftParen => "LEFT_PAREN" | rightParen => "RIGHT_PAREN" | leftBrace => "LEFT_BRACE"
  | rightBrace => "RIGHT_BRACE" | comma => "COMMA" | dot => "DOT" | minus => "MINUS"
  | plus => "PLUS" | semicolon => "SEMICOLON" | slash => "SLASH" | star => "STAR"
  | bang => "BANG" | bangEqual => "BANG_EQUAL" | equal => "EQUAL" | equalEqual => "EQUAL_EQUAL"
  | greater => "GREATER" | greaterEqual => "GREATER_EQUAL" | less => "LESS"
  | lessEqual => "LESS_EQUAL" | kwAnd => "AND" | kwClass => "CLASS" | kwElse => "ELSE"
  | kwFalse => "FALSE" | kwFun => "FUN" | kwFor => "FOR" | kwIf => "IF" | kwNil => "NIL"
  | kwOr => "OR" | kwPrint => "PRINT" | kwReturn => "RETURN" | kwSuper => "SUPER"
  | kwThis => "THIS" | kwTrue => "TRUE" | kwVar => "VAR" | kwWhile => "WHILE"

/-- The words that are spelled like identifiers. -/
def keywords : List Terminal :=
  [kwAnd, kwClass, kwElse, kwFalse, kwFun, kwFor, kwIf, kwNil, kwOr, kwPrint, kwReturn, kwSuper,
    kwThis, kwTrue, kwVar, kwWhile]

/-- The keyword with the given spelling. -/
def keyword? (word : String) : Option Terminal :=
  keywords.find? (·.spelling == word)

/-- Every keyword is found under its spelling. -/
theorem keyword?_spelling : ∀ word ∈ keywords, keyword? word.spelling = some word := by
  decide

end Terminal

/-- What a token is. Literals carry the value they denote. -/
inductive Kind where
  | terminal (word : Terminal)
  | identifier
  | string (contents : String)
  | number (value : Float)
  | eof
deriving DecidableEq

namespace Kind

/-- The name of the kind in a token listing. -/
def name : Kind → String
  | .terminal word => word.name
  | .identifier => "IDENTIFIER"
  | .string _ => "STRING"
  | .number _ => "NUMBER"
  | .eof => "EOF"

/-- The literal in a token listing, `null` for kinds that carry none. -/
def literal : Kind → String
  | .string contents => contents
  | .number value => Numeral.displayLiteral value
  | _ => "null"

/-- The kind as a JSON value. Kinds with a literal are objects of one key. -/
def toJson : Kind → String
  | .string contents => "\x7b" ++ Text.quoted "STRING" ++ ":" ++ Text.quoted contents ++ "\x7d"
  | .number value => "\x7b" ++ Text.quoted "NUMBER" ++ ":" ++ Numeral.displayJson value ++ "\x7d"
  | kind => Text.quoted kind.name

end Kind

/-- A token with its exact spelling and the line on which it ends. -/
structure Token where
  kind : Kind
  lexeme : String
  line : Nat
deriving DecidableEq

namespace Token

/-- The token after the last one of a source. -/
def eof (line : Nat) : Token := ⟨.eof, "", line⟩

/-- The kind, the spelling and the literal, as a plain listing shows them. -/
def display (token : Token) : String :=
  token.kind.name ++ " " ++ token.lexeme ++ " " ++ token.kind.literal

/-- The JSON object of a token, with its keys in a fixed order and no blanks. -/
def toJson (token : Token) : String :=
  "\x7b\"token_type\":" ++ token.kind.toJson ++ ",\"lexeme\":" ++ Text.quoted token.lexeme ++
    ",\"line\":" ++ toString token.line ++ "\x7d"

end Token

end Lox
