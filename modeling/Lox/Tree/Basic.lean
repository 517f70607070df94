import Lox.Token.Basic

/-!
The tree of a program. Expressions that refer to a binding carry an identifier, under which the
distance to that binding is recorded. A `for` statement has no form of its own.
-/

namespace Lox

/-- A name and the line where it is written. -/
structure Name where
  text : String
  line : Nat
deriving DecidableEq, Inhabited

/-- The number under which an expression's distance is recorded. -/
abbrev NodeId := Nat

inductive Literal where
  | number (value : Float)
  | string (contents : String)
  | bool (value : Bool)
  | nil
deriving DecidableEq, Inhabited

inductive UnaryOp where
  | negate
  | not
deriving DecidableEq

namespace UnaryOp

def spelling : UnaryOp → Terminal
  | negate => .minus
  | .not => .bang

def ofKind? : Kind → Option UnaryOp
  | .terminal .minus => some .negate
  | .terminal .bang => some .not
  | _ => none

end UnaryOp

inductive BinaryOp where
  | add | subtract | multiply | divide
  | equal | notEqual | greater | greaterEqual | less | lessEqual
deriving DecidableEq

namespace BinaryOp

def spelling : BinaryOp → Terminal
  | add => .plus
  | subtract => .minus
  | multiply => .star
  | divide => .slash
  | equal => .equalEqual
  | notEqual => .bangEqual
  | greater => .greater
  | greaterEqual => .greaterEqual
  | less => .less
  | lessEqual => .lessEqual

def equality? : Kind → Option BinaryOp
  | .terminal .bangEqual => some .notEqual
  | .terminal .equalEqual => some .equal
  | _ => none

def comparison? : Kind → Option BinaryOp
  | .terminal .greater => some .greater
  | .terminal .greaterEqual => some .greaterEqual
  | .terminal .less => some .less
  | .terminal .lessEqual => some .lessEqual
  | _ => none

def term? : Kind → Option BinaryOp
  | .terminal .minus => some .subtract
  | .terminal .plus => some .add
  | _ => none

def factor? : Kind → Option BinaryOp
  | .terminal .slash => some .divide
  | .terminal .star => some .multiply
  | _ => none

end BinaryOp

/-- The operators that may leave their right operand unevaluated. -/
inductive LogicalOp where
  | and
  | or
deriving DecidableEq

namespace LogicalOp

def spelling : LogicalOp → Terminal
  | .and => .kwAnd
  | .or => .kwOr

def disjunction? : Kind → Option LogicalOp
  | .terminal .kwOr => some .or
  | _ => none

def conjunction? : Kind → Option LogicalOp
  | .terminal .kwAnd => some .and
  | _ => none

end LogicalOp

/-- Expressions. A line is that of the operator, of the closing parenthesis of a call, or of the
keyword, and is where an error in the expression is reported. -/
inductive Expr where
  | literal (value : Literal)
  | grouping (inner : Expr)
  | unary (op : UnaryOp) (line : Nat) (operand : Expr)
  | binary (op : BinaryOp) (line : Nat) (left right : Expr)
  | logical (op : LogicalOp) (line : Nat) (left right : Expr)
  | read (id : NodeId) (name : Name)
  | assign (id : NodeId) (name : Name) (value : Expr)
  | call (callee : Expr) (line : Nat) (arguments : List Expr)
  | get (object : Expr) (name : Name)
  | set (object : Expr) (name : Name) (value : Expr)
  | this (id : NodeId) (line : Nat)
  | super (id : NodeId) (line : Nat) (method : Name)
deriving Inhabited

/-- The class that a class declaration extends. -/
structure Superclass where
  id : NodeId
  name : Name
deriving DecidableEq

namespace Superclass

/-- The superclass is found by reading its name. -/
def toExpr (superclass : Superclass) : Expr :=
  .read superclass.id superclass.name

end Superclass

mutual

inductive Stmt where
  | expression (value : Expr)
  | print (value : Expr)
  | declareVar (name : Name) (initializer : Option Expr)
  | block (body : List Stmt)
  | ifThen (condition : Expr) (consequent : Stmt)
  | ifElse (condition : Expr) (consequent alternative : Stmt)
  | while (condition : Expr) (body : Stmt)
  | declareFunction (routine : Routine)
  | return (line : Nat) (value : Option Expr)
  | declareClass (name : Name) (superclass : Option Superclass) (methods : List Routine)

/-- A function or method: its name, its parameters and its body. -/
structure Routine where
  name : Name
  parameters : List Name
  body : List Stmt

end

instance : Inhabited Stmt := ⟨.block []⟩

instance : Inhabited Routine := ⟨⟨default, [], []⟩⟩

/-- The method name under which a class is constructed. -/
def initializerName : String := "init"

namespace Routine

def arity (routine : Routine) : Nat :=
  routine.parameters.length

end Routine

namespace Stmt

/-- A `for` statement, as a block that runs the initializer once and then loops. Without a
condition the loop is endless, and the increment runs after the body of each round. -/
def forLoop (initializer : Option Stmt) (condition increment : Option Expr) (body : Stmt) : Stmt :=
  let round := match increment with
    | some step => .block [body, .expression step]
    | none => body
  let loop := Stmt.while (condition.getD (.literal (.bool true))) round
  match initializer with
  | some first => .block [first, loop]
  | none => loop

end Stmt

end Lox
