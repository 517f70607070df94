import Lox.Proofs.Tree.Ids
import Mathlib.Data.List.Forall2

/-! Trees that differ in their labels only. The labels of a tree are its identifiers and its lines:
what a program does depends on them only in that identifiers are the keys of distances, and that
lines are where errors are reported. -/

namespace Lox

/-- Which identifiers and which lines of two sides stand for each other. -/
structure Pairing where
  ids : NodeId → NodeId → Prop
  lines : Nat → Nat → Prop

variable (pairing : Pairing)

structure Token.Alike (token other : Token) : Prop where
  kind : token.kind = other.kind
  lexeme : token.lexeme = other.lexeme
  line : pairing.lines token.line other.line

structure Name.Alike (name other : Name) : Prop where
  text : name.text = other.text
  line : pairing.lines name.line other.line

structure Superclass.Alike (superclass other : Superclass) : Prop where
  id : pairing.ids superclass.id other.id
  name : Name.Alike pairing superclass.name other.name

mutual

inductive Expr.Alike : Expr → Expr → Prop where
  | literal (value : Literal) : Expr.Alike (.literal value) (.literal value)
  | grouping (inner : Expr.Alike tree tree') : Expr.Alike (.grouping tree) (.grouping tree')
  | unary (op : UnaryOp) (line : pairing.lines here here') (operand : Expr.Alike tree tree') :
      Expr.Alike (.unary op here tree) (.unary op here' tree')
  | binary (op : BinaryOp) (line : pairing.lines here here') (left : Expr.Alike first first')
      (right : Expr.Alike second second') :
      Expr.Alike (.binary op here first second) (.binary op here' first' second')
  | logical (op : LogicalOp) (line : pairing.lines here here') (left : Expr.Alike first first')
      (right : Expr.Alike second second') :
      Expr.Alike (.logical op here first second) (.logical op here' first' second')
  | read (id : pairing.ids key key') (name : Name.Alike pairing word word') :
      Expr.Alike (.read key word) (.read key' word')
  | assign (id : pairing.ids key key') (name : Name.Alike pairing word word')
      (value : Expr.Alike tree tree') :
      Expr.Alike (.assign key word tree) (.assign key' word' tree')
  | call (callee : Expr.Alike tree tree') (line : pairing.lines here here')
      (arguments : Expr.AllAlike trees trees') :
      Expr.Alike (.call tree here trees) (.call tree' here' trees')
  | get (object : Expr.Alike tree tree') (name : Name.Alike pairing word word') :
      Expr.Alike (.get tree word) (.get tree' word')
  | set (object : Expr.Alike tree tree') (name : Name.Alike pairing word word')
      (value : Expr.Alike given given') :
      Expr.Alike (.set tree word given) (.set tree' word' given')
  | this (id : pairing.ids key key') (line : pairing.lines here here') :
      Expr.Alike (.this key here) (.this key' here')
  | super (id : pairing.ids key key') (line : pairing.lines here here')
      (method : Name.Alike pairing word word') :
      Expr.Alike (.super key here word) (.super key' here' word')

inductive Expr.AllAlike : List Expr → List Expr → Prop where
  | nil : Expr.AllAlike [] []
  | cons (first : Expr.Alike tree tree') (rest : Expr.AllAlike trees trees') :
      Expr.AllAlike (tree :: trees) (tree' :: trees')

end

mutual

inductive Stmt.Alike : Stmt → Stmt → Prop where
  | expression (value : Expr.Alike pairing tree tree') :
      Stmt.Alike (.expression tree) (.expression tree')
  | print (value : Expr.Alike pairing tree tree') : Stmt.Alike (.print tree) (.print tree')
  | declareVar (name : Name.Alike pairing word word')
      (initializer : Option.Rel (Expr.Alike pairing) given given') :
      Stmt.Alike (.declareVar word given) (.declareVar word' given')
  | block (body : Stmt.AllAlike trees trees') : Stmt.Alike (.block trees) (.block trees')
  | ifThen (condition : Expr.Alike pairing tree tree') (consequent : Stmt.Alike chosen chosen') :
      Stmt.Alike (.ifThen tree chosen) (.ifThen tree' chosen')
  | ifElse (condition : Expr.Alike pairing tree tree') (consequent : Stmt.Alike chosen chosen')
      (alternative : Stmt.Alike other other') :
      Stmt.Alike (.ifElse tree chosen other) (.ifElse tree' chosen' other')
  | while (condition : Expr.Alike pairing tree tree') (body : Stmt.Alike repeated repeated') :
      Stmt.Alike (.while tree repeated) (.while tree' repeated')
  | declareFunction (routine : Routine.Alike declared declared') :
      Stmt.Alike (.declareFunction declared) (.declareFunction declared')
  | return (line : pairing.lines here here')
      (value : Option.Rel (Expr.Alike pairing) given given') :
      Stmt.Alike (.return here given) (.return here' given')
  | declareClass (name : Name.Alike pairing word word')
      (superclass : Option.Rel (Superclass.Alike pairing) parent parent')
      (methods : Routine.AllAlike owned owned') :
      Stmt.Alike (.declareClass word parent owned) (.declareClass word' parent' owned')

inductive Stmt.AllAlike : List Stmt → List Stmt → Prop where
  | nil : Stmt.AllAlike [] []
  | cons (first : Stmt.Alike tree tree') (rest : Stmt.AllAlike trees trees') :
      Stmt.AllAlike (tree :: trees) (tree' :: trees')

inductive Routine.Alike : Routine → Routine → Prop where
  | routine (name : Name.Alike pairing word word')
      (parameters : List.Forall₂ (Name.Alike pairing) words words')
      (body : Stmt.AllAlike trees trees') :
      Routine.Alike ⟨word, words, trees⟩ ⟨word', words', trees'⟩

inductive Routine.AllAlike : List Routine → List Routine → Prop where
  | nil : Routine.AllAlike [] []
  | cons (first : Routine.Alike declared declared') (rest : Routine.AllAlike owned owned') :
      Routine.AllAlike (declared :: owned) (declared' :: owned')

end

variable {pairing}

theorem Token.Alike.is {token other : Token} (alike : Token.Alike pairing token other)
    (present : token.Is word) : other.Is word :=
  alike.kind.symm.trans present

theorem Token.Alike.isName {token other : Token} (alike : Token.Alike pairing token other)
    (present : token.IsName) : other.IsName :=
  alike.kind.symm.trans present

theorem Token.Alike.toName {token other : Token} (alike : Token.Alike pairing token other) :
    Name.Alike pairing token.toName other.toName :=
  ⟨alike.lexeme, alike.line⟩

theorem Superclass.Alike.toExpr {superclass other : Superclass}
    (alike : Superclass.Alike pairing superclass other) :
    Expr.Alike pairing superclass.toExpr other.toExpr :=
  .read alike.id alike.name

theorem Routine.Alike.text {declared declared' : Routine}
    (alike : Routine.Alike pairing declared declared') :
    declared.name.text = declared'.name.text := by
  cases alike with
  | routine name => exact name.text

theorem Expr.AllAlike.length_eq : Expr.AllAlike pairing trees trees' → trees.length = trees'.length
  | .nil => rfl
  | .cons _ rest => congrArg (· + 1) rest.length_eq

theorem Stmt.Alike.forLoop {initializer initializer' : Option Stmt}
    (started : Option.Rel (Stmt.Alike pairing) initializer initializer')
    (tested : Option.Rel (Expr.Alike pairing) condition condition')
    (stepped : Option.Rel (Expr.Alike pairing) increment increment')
    (body : Stmt.Alike pairing repeated repeated') :
    Stmt.Alike pairing (Stmt.forLoop initializer condition increment repeated)
      (Stmt.forLoop initializer' condition' increment' repeated') := by
  have condition : Expr.Alike pairing (condition.getD (.literal (.bool true)))
      (condition'.getD (.literal (.bool true))) := by
    cases tested with
    | none => exact .literal _
    | some tested => exact tested
  cases started with
  | none =>
    cases stepped with
    | none => exact .while condition body
    | some stepped => exact .while condition (.block (.cons body (.cons (.expression stepped) .nil)))
  | some started =>
    cases stepped with
    | none => exact .block (.cons started (.cons (.while condition body) .nil))
    | some stepped =>
      exact .block (.cons started (.cons (.while condition
        (.block (.cons body (.cons (.expression stepped) .nil)))) .nil))

theorem Stmt.AllAlike.append (before : Stmt.AllAlike pairing trees trees')
    (after : Stmt.AllAlike pairing others others') :
    Stmt.AllAlike pairing (trees ++ others) (trees' ++ others') := by
  induction trees generalizing trees' with
  | nil =>
    cases before
    exact after
  | cons tree trees ih =>
    cases before with
    | cons first rest => exact .cons first (ih rest)

section Mono

variable {stronger : Pairing}

/-- The pairs of given identifiers that one pairing has are pairs of another one. -/
structure Pairing.Within (pairing : Pairing) (known : List NodeId) (stronger : Pairing) : Prop where
  ids : ∀ id ∈ known, ∀ other, pairing.ids id other → stronger.ids id other
  lines : ∀ line other, pairing.lines line other → stronger.lines line other

namespace Pairing.Within

variable {known known' : List NodeId}

theorem left (within : Pairing.Within pairing (known ++ known') stronger) :
    Pairing.Within pairing known stronger :=
  ⟨fun id member => within.ids id (List.mem_append_left _ member), within.lines⟩

theorem right (within : Pairing.Within pairing (known ++ known') stronger) :
    Pairing.Within pairing known' stronger :=
  ⟨fun id member => within.ids id (List.mem_append_right _ member), within.lines⟩

theorem name {word word' : Name} (within : Pairing.Within pairing known stronger)
    (alike : Name.Alike pairing word word') : Name.Alike stronger word word' :=
  ⟨alike.text, within.lines _ _ alike.line⟩

theorem names {words words' : List Name} (within : Pairing.Within pairing known stronger)
    (alike : List.Forall₂ (Name.Alike pairing) words words') :
    List.Forall₂ (Name.Alike stronger) words words' :=
  alike.imp fun _ _ alike => within.name alike

theorem id (within : Pairing.Within pairing [key] stronger) (paired : pairing.ids key key') :
    stronger.ids key key' :=
  within.ids key List.mem_cons_self key' paired

theorem superclass {parent parent' : Option Superclass}
    (within : Pairing.Within pairing (Superclass.ids? parent) stronger)
    (alike : Option.Rel (Superclass.Alike pairing) parent parent') :
    Option.Rel (Superclass.Alike stronger) parent parent' := by
  cases alike with
  | none => exact .none
  | some alike => exact .some ⟨within.id alike.id, within.name alike.name⟩

end Pairing.Within

mutual

theorem Expr.Alike.mono : Expr.Alike pairing tree tree' → pairing.Within tree.ids stronger →
    Expr.Alike stronger tree tree'
  | .literal value, _ => .literal value
  | .grouping inner, within => .grouping (inner.mono within)
  | .unary op line operand, within => .unary op (within.lines _ _ line) (operand.mono within)
  | .binary op line left right, within =>
    .binary op (within.lines _ _ line) (left.mono within.left) (right.mono within.right)
  | .logical op line left right, within =>
    .logical op (within.lines _ _ line) (left.mono within.left) (right.mono within.right)
  | .read id name, within => .read (within.id id) (within.name name)
  | .assign id name value, within =>
    .assign (within.right.id id) (within.name name) (value.mono within.left)
  | .call callee line arguments, within =>
    .call (callee.mono within.left) (within.lines _ _ line) (arguments.mono within.right)
  | .get object name, within => .get (object.mono within) (within.name name)
  | .set object name value, within =>
    .set (object.mono within.left) (within.name name) (value.mono within.right)
  | .this id line, within => .this (within.id id) (within.lines _ _ line)
  | .super id line method, within => .super (within.id id) (within.lines _ _ line) (within.name method)

theorem Expr.AllAlike.mono : Expr.AllAlike pairing trees trees' →
    pairing.Within (Expr.allIds trees) stronger → Expr.AllAlike stronger trees trees'
  | .nil, _ => .nil
  | .cons first rest, within => .cons (first.mono within.left) (rest.mono within.right)

end

theorem Expr.Alike.mono? {given given' : Option Expr}
    (alike : Option.Rel (Expr.Alike pairing) given given')
    (within : pairing.Within (Expr.ids? given) stronger) :
    Option.Rel (Expr.Alike stronger) given given' := by
  cases alike with
  | none => exact .none
  | some alike => exact .some (alike.mono within)

mutual

theorem Stmt.Alike.mono : Stmt.Alike pairing tree tree' → pairing.Within tree.ids stronger →
    Stmt.Alike stronger tree tree'
  | .expression value, within => .expression (value.mono within)
  | .print value, within => .print (value.mono within)
  | .declareVar name initializer, within =>
    .declareVar (within.name name) (Expr.Alike.mono? initializer within)
  | .block body, within => .block (body.mono within)
  | .ifThen condition consequent, within =>
    .ifThen (condition.mono within.left) (consequent.mono within.right)
  | .ifElse condition consequent alternative, within =>
    .ifElse (condition.mono within.left) (consequent.mono within.right.left)
      (alternative.mono within.right.right)
  | .while condition body, within => .while (condition.mono within.left) (body.mono within.right)
  | .declareFunction routine, within => .declareFunction (routine.mono within)
  | .return line value, within => .return (within.lines _ _ line) (Expr.Alike.mono? value within)
  | .declareClass name superclass methods, within =>
    .declareClass (within.name name) (within.left.superclass superclass)
      (methods.mono within.right)

theorem Stmt.AllAlike.mono : Stmt.AllAlike pairing trees trees' →
    pairing.Within (Stmt.allIds trees) stronger → Stmt.AllAlike stronger trees trees'
  | .nil, _ => .nil
  | .cons first rest, within => .cons (first.mono within.left) (rest.mono within.right)

theorem Routine.Alike.mono : Routine.Alike pairing declared declared' →
    pairing.Within declared.ids stronger → Routine.Alike stronger declared declared'
  | .routine name parameters body, within =>
    .routine (within.name name) (within.names parameters) (body.mono within)

theorem Routine.AllAlike.mono : Routine.AllAlike pairing owned owned' →
    pairing.Within (Routine.allIds owned) stronger → Routine.AllAlike stronger owned owned'
  | .nil, _ => .nil
  | .cons first rest, within => .cons (first.mono within.left) (rest.mono within.right)

end

end Mono

end Lox
