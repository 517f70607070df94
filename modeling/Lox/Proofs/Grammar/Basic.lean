import Lox.Tree.Fault
import Lox.Tree.Basic

/-! The grammar, as relations between token lists and trees. A form takes the tokens before it to
those after it, and the first free identifier before it to the first free one after it. Nothing here
looks ahead, so that which tokens make up a form does not depend on what follows them. -/

namespace Lox

def Token.Is (token : Token) (word : Terminal) : Prop :=
  token.kind = .terminal word

def Token.IsName (token : Token) : Prop :=
  token.kind = .identifier

def Token.toName (token : Token) : Name :=
  ⟨token.lexeme, token.line⟩

namespace Grammar

abbrev Form (α : Type) : Type :=
  NodeId → List Token → α → NodeId → List Token → Prop

inductive Optional (Item : Form α) : Form (Option α) where
  | none : Optional Item first rest none first rest
  | some (item : Item first input tree next rest) : Optional Item first input (some tree) next rest

inductive Many (Item : Form α) : Form (List α) where
  | nil : Many Item first rest [] first rest
  | cons (item : Item first input tree middle later)
      (others : Many Item middle later trees next rest) :
      Many Item first input (tree :: trees) next rest

/-- One item or more, with commas between them. -/
inductive Separated (Item : Form α) : Form (List α) where
  | last (item : Item first input tree next rest) : Separated Item first input [tree] next rest
  | comma (item : Item first input tree middle (sign :: later)) (comma : sign.Is .comma)
      (others : Separated Item middle later trees next rest) :
      Separated Item first input (tree :: trees) next rest

/-- The items of a list in parentheses, which may be empty but not longer than the greatest arity. -/
inductive Listed (Item : Form α) : Form (List α) where
  | none : Listed Item first rest [] first rest
  | some (items : Separated Item first input trees next rest) (few : trees.length ≤ maxArity) :
      Listed Item first input trees next rest

/-- The levels of expressions, from the loosest to the tightest. -/
inductive Level where
  | assignment | disjunction | conjunction | equality | comparison | term | factor | unary | call
  | primary
deriving DecidableEq

namespace Level

def tighter? : Level → Option Level
  | assignment => some disjunction
  | disjunction => some conjunction
  | conjunction => some equality
  | equality => some comparison
  | comparison => some term
  | term => some factor
  | factor => some unary
  | unary => some call
  | call => some primary
  | primary => none

/-- The operators on two values that a level chains to the left. -/
def binary? : Level → Kind → Option BinaryOp
  | equality => BinaryOp.equality?
  | comparison => BinaryOp.comparison?
  | term => BinaryOp.term?
  | factor => BinaryOp.factor?
  | _ => fun _ => none

/-- The operators on two conditions that a level chains to the left. -/
def logical? : Level → Kind → Option LogicalOp
  | disjunction => LogicalOp.disjunction?
  | conjunction => LogicalOp.conjunction?
  | _ => fun _ => none

end Level

/-- The literal that a token stands for by itself. -/
def literal? : Kind → Option Literal
  | .terminal .kwFalse => some (.bool false)
  | .terminal .kwTrue => some (.bool true)
  | .terminal .kwNil => some .nil
  | .number value => some (.number value)
  | .string contents => some (.string contents)
  | _ => none

/-- Expressions of a level. The identifier of an assigned name is drawn before the value, as if the
name were read, and again after it. -/
inductive Expression : Level → Form Expr where
  | assign (target : name.IsName) (sign : equals.Is .equal)
      (assigned : Expression .assignment (first + 1) input value next rest) :
      Expression .assignment first (name :: equals :: input) (.assign next name.toName value)
        (next + 1) rest
  | set (receiver : Expression .call first input object middle (dot :: name :: equals :: later))
      (access : dot.Is .dot) (property : name.IsName) (sign : equals.Is .equal)
      (assigned : Expression .assignment middle later value next rest) :
      Expression .assignment first input (.set object name.toName value) next rest
  | pass {inner : Level} (step : level.tighter? = some inner)
      (same : Expression inner first input tree next rest) :
      Expression level first input tree next rest
  | binary {inner : Level} (step : level.tighter? = some inner)
      (before : Expression level first input left middle (operator :: later))
      (operates : level.binary? operator.kind = some op)
      (after : Expression inner middle later right next rest) :
      Expression level first input (.binary op operator.line left right) next rest
  | logical {inner : Level} (step : level.tighter? = some inner)
      (before : Expression level first input left middle (operator :: later))
      (operates : level.logical? operator.kind = some op)
      (after : Expression inner middle later right next rest) :
      Expression level first input (.logical op operator.line left right) next rest
  | unary (operates : UnaryOp.ofKind? operator.kind = some op)
      (inside : Expression .unary first input operand next rest) :
      Expression .unary first (operator :: input) (.unary op operator.line operand) next rest
  | call (applied : Expression .call first input callee middle (opening :: later))
      (opens : opening.Is .leftParen)
      (given : Listed (Expression .assignment) middle later arguments next (closing :: rest))
      (closes : closing.Is .rightParen) :
      Expression .call first input (.call callee closing.line arguments) next rest
  | get (receiver : Expression .call first input object next (dot :: name :: rest))
      (access : dot.Is .dot) (property : name.IsName) :
      Expression .call first input (.get object name.toName) next rest
  | literal (denotes : literal? token.kind = some value) :
      Expression .primary first (token :: rest) (.literal value) first rest
  | read (refers : name.IsName) :
      Expression .primary first (name :: rest) (.read first name.toName) (first + 1) rest
  | this (refers : keyword.Is .kwThis) :
      Expression .primary first (keyword :: rest) (.this first keyword.line) (first + 1) rest
  | super (refers : keyword.Is .kwSuper) (access : dot.Is .dot) (method : name.IsName) :
      Expression .primary first (keyword :: dot :: name :: rest)
        (.super first keyword.line name.toName) (first + 1) rest
  | grouping {inner : Expr} (opens : opening.Is .leftParen)
      (inside : Expression .assignment first input inner next (closing :: rest))
      (closes : closing.Is .rightParen) :
      Expression .primary first (opening :: input) (.grouping inner) next rest

inductive ExpressionStatement : Form Stmt where
  | ended (evaluated : Expression .assignment first input value next (semicolon :: rest))
      (ends : semicolon.Is .semicolon) :
      ExpressionStatement first input (.expression value) next rest

/-- A variable declaration after its keyword. -/
inductive VarDeclaration : Form Stmt where
  | bare (names : name.IsName) (ends : semicolon.Is .semicolon) :
      VarDeclaration first (name :: semicolon :: rest) (.declareVar name.toName none) first rest
  | initialized (names : name.IsName) (sign : equals.Is .equal)
      (assigned : Expression .assignment first input value next (semicolon :: rest))
      (ends : semicolon.Is .semicolon) :
      VarDeclaration first (name :: equals :: input) (.declareVar name.toName (some value)) next rest

/-- The first clause of a `for` statement, with its semicolon. -/
inductive ForInitializer : Form (Option Stmt) where
  | none (ends : semicolon.Is .semicolon) :
      ForInitializer first (semicolon :: rest) none first rest
  | var (begins : keyword.Is .kwVar) (declaration : VarDeclaration first input tree next rest) :
      ForInitializer first (keyword :: input) (some tree) next rest
  | expression (statement : ExpressionStatement first input tree next rest) :
      ForInitializer first input (some tree) next rest

inductive Parameter : Form Name where
  | named (names : name.IsName) : Parameter first (name :: rest) name.toName first rest

/-- The clause of a class that names its superclass. -/
inductive Inheritance : Form Superclass where
  | from (sign : less.Is .less) (names : name.IsName) :
      Inheritance first (less :: name :: rest) ⟨first, name.toName⟩ (first + 1) rest

mutual

/-- Statements. An `else` belongs to the nearest `if` that can take it, so only a statement that ends
in no open `if` may stand before one: a statement is `dangling` if it ends in an open `if`. -/
inductive Statement : (dangling : Bool) → Form Stmt where
  | expression (statement : ExpressionStatement first input tree next rest) :
      Statement false first input tree next rest
  | print (begins : keyword.Is .kwPrint)
      (printed : Expression .assignment first input value next (semicolon :: rest))
      (ends : semicolon.Is .semicolon) :
      Statement false first (keyword :: input) (.print value) next rest
  | return (begins : keyword.Is .kwReturn)
      (returned : Optional (Expression .assignment) first input value next (semicolon :: rest))
      (ends : semicolon.Is .semicolon) :
      Statement false first (keyword :: input) (.return keyword.line value) next rest
  | block (opens : opening.Is .leftBrace)
      (inside : Many Declaration first input body next (closing :: rest))
      (closes : closing.Is .rightBrace) :
      Statement false first (opening :: input) (.block body) next rest
  | while (begins : keyword.Is .kwWhile) (opens : opening.Is .leftParen)
      (tested : Expression .assignment first input condition middle (closing :: later))
      (closes : closing.Is .rightParen) (repeated : Statement dangling middle later body next rest) :
      Statement dangling first (keyword :: opening :: input) (.while condition body) next rest
  | for (begins : keyword.Is .kwFor) (opens : opening.Is .leftParen)
      (started : ForInitializer first input initializer second input₂)
      (tested : Optional (Expression .assignment) second input₂ condition third
        (semicolon :: input₃))
      (ends : semicolon.Is .semicolon)
      (stepped : Optional (Expression .assignment) third input₃ increment fourth
        (closing :: input₄))
      (closes : closing.Is .rightParen) (repeated : Statement dangling fourth input₄ body next rest) :
      Statement dangling first (keyword :: opening :: input)
        (.forLoop initializer condition increment body) next rest
  | ifThen (begins : keyword.Is .kwIf) (opens : opening.Is .leftParen)
      (tested : Expression .assignment first input condition middle (closing :: later))
      (closes : closing.Is .rightParen)
      (chosen : Statement dangling middle later consequent next rest) :
      Statement true first (keyword :: opening :: input) (.ifThen condition consequent) next rest
  | ifElse (begins : keyword.Is .kwIf) (opens : opening.Is .leftParen)
      (tested : Expression .assignment first input condition second (closing :: input₂))
      (closes : closing.Is .rightParen)
      (chosen : Statement false second input₂ consequent third (divider :: input₃))
      (divides : divider.Is .kwElse)
      (otherwise : Statement dangling third input₃ alternative next rest) :
      Statement dangling first (keyword :: opening :: input)
        (.ifElse condition consequent alternative) next rest

/-- A function or method from its name on. -/
inductive Definition : Form Routine where
  | routine (names : name.IsName) (opens : opening.Is .leftParen)
      (taken : Listed Parameter first input parameters middle
        (closing :: openingBody :: later))
      (closes : closing.Is .rightParen) (opensBody : openingBody.Is .leftBrace)
      (inside : Many Declaration middle later body next (closingBody :: rest))
      (closesBody : closingBody.Is .rightBrace) :
      Definition first (name :: opening :: input) ⟨name.toName, parameters, body⟩ next rest

inductive Declaration : Form Stmt where
  | statement (statement : Statement dangling first input tree next rest) :
      Declaration first input tree next rest
  | var (begins : keyword.Is .kwVar) (declaration : VarDeclaration first input tree next rest) :
      Declaration first (keyword :: input) tree next rest
  | function (begins : keyword.Is .kwFun)
      (definition : Definition first input routine next rest) :
      Declaration first (keyword :: input) (.declareFunction routine) next rest
  | class (begins : keyword.Is .kwClass) (names : name.IsName)
      (extended : Optional Inheritance first input superclass middle (opening :: later))
      (opens : opening.Is .leftBrace)
      (owned : Many Definition middle later methods next (closing :: rest))
      (closes : closing.Is .rightBrace) :
      Declaration first (keyword :: name :: input)
        (.declareClass name.toName superclass methods) next rest

end

/-- Programs. All tokens belong to one. -/
def Program (first : NodeId) (tokens : List Token) (program : List Stmt) (next : NodeId) : Prop :=
  Many Declaration first tokens program next []

end Grammar

end Lox
