import Lox.Machine.Fault
import Lox.Scope.Basic
import Lox.Token.Scan
import Lox.Tree.Fault

/-!
Everything that a program's user is told about, from unreadable characters to a full output, and
the text in which it is told.
-/

namespace Lox

def LexFault.message : LexFault → String
  | unexpectedCharacter char => "Unexpected character: " ++ char.toString
  | unterminatedString => "Unterminated string."

inductive Report where
  | lexical (error : LexError)
  | syntactic (error : SyntaxError)
  | scope (error : ScopeError)
  | runtime (error : RuntimeError)
  | sinkFull
deriving DecidableEq

namespace Report

/-- Whether the report keeps a program from starting. -/
def isStatic : Report → Bool
  | lexical _ | syntactic _ | scope _ => true
  | runtime _ | sinkFull => false

/-- The line in question, which a full output does not have. -/
def line? : Report → Option Nat
  | lexical error => some error.line
  | syntactic error => some error.token.line
  | scope error => some error.name.line
  | runtime error => some error.line
  | sinkFull => none

/-- Where in its line a token stands, in words. -/
def place (token : Token) : String :=
  match token.kind with
  | .eof => " at end"
  | _ => " at '" ++ token.lexeme ++ "'"

/-- A static report, which opens with its line. -/
def located (line : Nat) (place message : String) : String :=
  "[line " ++ toString line ++ "] Error" ++ place ++ ": " ++ message

def text : Report → String
  | lexical error => located error.line "" error.fault.message
  | syntactic error => located error.token.line (place error.token) error.fault.message
  | scope error => located error.name.line (" at '" ++ error.name.text ++ "'") error.fault.message
  | runtime error => error.fault.message ++ "\n[line " ++ toString error.line ++ "]"
  | sinkFull => "sink full"

end Report

end Lox
