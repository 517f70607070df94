/-!
What can go wrong while a program runs, and the words in which it is reported.
-/

namespace Lox

inductive RuntimeFault where
  | undefinedVariable (name : String)
  | undefinedProperty (name : String)
  | operandNotNumber
  | operandsNotNumbers
  | operandsNotAddable
  | notCallable
  | wrongArity (expected given : Nat)
  | stackOverflow
  | propertyOfNonInstance
  | fieldOfNonInstance
  | superclassNotClass
  | unresolvedSuper
  | unresolvedThis
deriving DecidableEq

/-- A fault with the line of the token that is blamed for it. -/
structure RuntimeError where
  fault : RuntimeFault
  line : Nat
deriving DecidableEq

def RuntimeFault.message : RuntimeFault → String
  | undefinedVariable name => "Undefined variable '" ++ name ++ "'."
  | undefinedProperty name => "Undefined property '" ++ name ++ "'."
  | operandNotNumber => "Operand must be a number."
  | operandsNotNumbers => "Operands must be numbers."
  | operandsNotAddable => "Operands must be two numbers or two strings."
  | notCallable => "Can only call functions and classes."
  | wrongArity expected given =>
    "Expected " ++ toString expected ++ " arguments but got " ++ toString given ++ "."
  | stackOverflow => "Stack overflow."
  | propertyOfNonInstance => "Only instances have properties."
  | fieldOfNonInstance => "Only instances have fields."
  | superclassNotClass => "Superclass must be a class."
  | unresolvedSuper => "Unresolved 'super'."
  | unresolvedThis => "Unresolved 'this'."

end Lox
