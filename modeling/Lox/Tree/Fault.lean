import Lox.Token.Basic

/-!
Syntax errors. Each expectation of the grammar names the token that meets it and the words in
which its absence is reported.
-/

namespace Lox

/-- Where a routine stands. -/
inductive RoutineKind where
  | function
  | method
deriving DecidableEq

def RoutineKind.word : RoutineKind → String
  | function => "function"
  | method => "method"

/-- The places where the grammar admits one token only. -/
inductive Expectation where
  | className
  | superclassName
  | routineName (kind : RoutineKind)
  | parameterName
  | variableName
  | propertyName
  | superMethodName
  | parenAfterRoutineName (kind : RoutineKind)
  | parenAfterParameters
  | parenAfterFor
  | parenAfterForClauses
  | parenAfterIf
  | parenAfterIfCondition
  | parenAfterWhile
  | parenAfterWhileCondition
  | parenAfterArguments
  | parenAfterGrouping
  | braceBeforeClassBody
  | braceAfterClassBody
  | braceBeforeRoutineBody (kind : RoutineKind)
  | braceAfterBlock
  | semicolonAfterDeclaration
  | semicolonAfterLoopCondition
  | semicolonAfterPrint
  | semicolonAfterReturn
  | semicolonAfterExpression
  | dotAfterSuper
deriving DecidableEq

namespace Expectation

/-- The kind of token that meets the expectation. -/
def wanted : Expectation → Kind
  | className | superclassName | routineName _ | parameterName | variableName | propertyName
  | superMethodName => .identifier
  | parenAfterRoutineName _ | parenAfterFor | parenAfterIf | parenAfterWhile => .terminal .leftParen
  | parenAfterParameters | parenAfterForClauses | parenAfterIfCondition | parenAfterWhileCondition
  | parenAfterArguments | parenAfterGrouping => .terminal .rightParen
  | braceBeforeClassBody | braceBeforeRoutineBody _ => .terminal .leftBrace
  | braceAfterClassBody | braceAfterBlock => .terminal .rightBrace
  | semicolonAfterDeclaration | semicolonAfterLoopCondition | semicolonAfterPrint
  | semicolonAfterReturn | semicolonAfterExpression => .terminal .semicolon
  | dotAfterSuper => .terminal .dot

/-- What is expected, in words. -/
def phrase : Expectation → String
  | className => "class name"
  | superclassName => "superclass name"
  | routineName kind => kind.word ++ " name"
  | parameterName => "parameter name"
  | variableName => "variable name"
  | propertyName => "property name after '.'"
  | superMethodName => "superclass method name"
  | parenAfterRoutineName kind => "'(' after " ++ kind.word ++ " name"
  | parenAfterParameters => "')' after parameters"
  | parenAfterFor => "'(' after 'for'"
  | parenAfterForClauses => "')' after for clauses"
  | parenAfterIf => "'(' after 'if'"
  | parenAfterIfCondition => "')' after if condition"
  | parenAfterWhile => "'(' after 'while'"
  | parenAfterWhileCondition => "')' after condition"
  | parenAfterArguments => "')' after arguments"
  | parenAfterGrouping => "')' after expression"
  | braceBeforeClassBody => "'\x7b' before class body"
  | braceAfterClassBody => "'\x7d' after class body"
  | braceBeforeRoutineBody kind => "'\x7b' before " ++ kind.word ++ " body"
  | braceAfterBlock => "'\x7d' after block"
  | semicolonAfterDeclaration => "';' after variable declaration"
  | semicolonAfterLoopCondition => "';' after loop condition"
  | semicolonAfterPrint => "';' after value"
  | semicolonAfterReturn => "';' after return value"
  | semicolonAfterExpression => "';' after expression"
  | dotAfterSuper => "'.' after 'super'"

end Expectation

/-- The most parameters a routine may declare, and the most arguments a call may pass. -/
def maxArity : Nat := 255

inductive SyntaxFault where
  | missing (expectation : Expectation)
  | missingExpression
  | invalidAssignmentTarget
  | tooManyParameters
  | tooManyArguments
deriving DecidableEq

/-- A syntax error at a token, which may be the end of the source. -/
structure SyntaxError where
  fault : SyntaxFault
  token : Token
deriving DecidableEq

def SyntaxFault.message : SyntaxFault → String
  | missing expectation => "Expect " ++ expectation.phrase ++ "."
  | missingExpression => "Expect expression."
  | invalidAssignmentTarget => "Invalid assignment target."
  | tooManyParameters => "Can't have more than 255 parameters."
  | tooManyArguments => "Can't have more than 255 arguments."

end Lox
