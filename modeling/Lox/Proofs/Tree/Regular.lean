import Lox.Proofs.Grammar.Start

/-! What holds of the trees that come from tokens. No variable is called like the bindings that only
a class makes, and a declaration stands in a block or at the top level, never as a branch or a loop
body. -/

namespace Lox

/-- A name that is none of the two that classes bind. -/
structure Name.Plain (name : Name) : Prop where
  ne_this : name.text ≠ "this"
  ne_super : name.text ≠ "super"

/-- The name that a statement declares in the scope in which it stands. -/
def Stmt.introduces : Stmt → Option Name
  | .declareVar name _ => some name
  | .declareFunction routine => some routine.name
  | .declareClass name _ _ => some name
  | _ => none

mutual

def Expr.Regular : Expr → Prop
  | .literal _ => True
  | .grouping inner => inner.Regular
  | .unary _ _ operand => operand.Regular
  | .binary _ _ left right => left.Regular ∧ right.Regular
  | .logical _ _ left right => left.Regular ∧ right.Regular
  | .read _ name => name.Plain
  | .assign _ name value => name.Plain ∧ value.Regular
  | .call callee _ arguments => callee.Regular ∧ Expr.AllRegular arguments
  | .get object _ => object.Regular
  | .set object _ value => object.Regular ∧ value.Regular
  | .this _ _ => True
  | .super _ _ _ => True

def Expr.AllRegular : List Expr → Prop
  | [] => True
  | first :: rest => first.Regular ∧ Expr.AllRegular rest

end

def Expr.Regular? (value : Option Expr) : Prop :=
  ∀ expr ∈ value, expr.Regular

mutual

def Stmt.Regular : Stmt → Prop
  | .expression value => value.Regular
  | .print value => value.Regular
  | .declareVar name initializer => name.Plain ∧ Expr.Regular? initializer
  | .block body => Stmt.AllRegular body
  | .ifThen condition consequent =>
    condition.Regular ∧ consequent.Regular ∧ consequent.introduces = none
  | .ifElse condition consequent alternative =>
    condition.Regular ∧ (consequent.Regular ∧ consequent.introduces = none) ∧
      alternative.Regular ∧ alternative.introduces = none
  | .while condition body => condition.Regular ∧ body.Regular ∧ body.introduces = none
  | .declareFunction routine => routine.name.Plain ∧ routine.Regular
  | .return _ value => Expr.Regular? value
  | .declareClass name superclass methods =>
    name.Plain ∧ (∀ parent ∈ superclass, parent.name.Plain) ∧ Routine.AllRegular methods

def Stmt.AllRegular : List Stmt → Prop
  | [] => True
  | first :: rest => first.Regular ∧ Stmt.AllRegular rest

def Routine.Regular : Routine → Prop
  | ⟨_, parameters, body⟩ => (∀ name ∈ parameters, name.Plain) ∧ Stmt.AllRegular body

def Routine.AllRegular : List Routine → Prop
  | [] => True
  | first :: rest => first.Regular ∧ Routine.AllRegular rest

end

theorem Routine.AllRegular.of_mem {methods : List Routine} (regular : Routine.AllRegular methods)
    (member : method ∈ methods) : method.Regular := by
  induction methods with
  | nil => cases member
  | cons first rest ih =>
    rcases List.mem_cons.mp member with rfl | member
    · exact regular.1
    · exact ih regular.2 member

theorem Stmt.introduces_forLoop (initializer : Option Stmt) (condition increment : Option Expr)
    (body : Stmt) : (Stmt.forLoop initializer condition increment body).introduces = none := by
  cases initializer <;> rfl

theorem Stmt.regular_forLoop (started : ∀ first ∈ initializer, Stmt.Regular first)
    (tested : Expr.Regular? condition) (stepped : Expr.Regular? increment)
    (repeated : body.Regular) (plain : body.introduces = none) :
    (Stmt.forLoop initializer condition increment body).Regular := by
  have test : (condition.getD (.literal (.bool true))).Regular := by
    cases condition with
    | none => exact trivial
    | some condition => exact tested condition rfl
  have loop : (Stmt.forLoop none condition increment body).Regular := by
    cases increment with
    | none => exact ⟨test, repeated, plain⟩
    | some step => exact ⟨test, ⟨repeated, stepped step rfl, trivial⟩, rfl⟩
  cases initializer with
  | none => exact loop
  | some first => exact ⟨started first rfl, loop, trivial⟩

namespace Grammar

/-- Tokens of which no identifier is spelled like the bindings that classes make. -/
def PlainTokens (tokens : List Token) : Prop :=
  ∀ token ∈ tokens, token.IsName → token.toName.Plain

theorem PlainTokens.suffix (plain : PlainTokens input) (suffix : rest <:+ input) :
    PlainTokens rest :=
  fun token member => plain token (suffix.subset member)

theorem PlainTokens.tail (plain : PlainTokens (token :: rest)) : PlainTokens rest :=
  plain.suffix (List.suffix_cons ..)

theorem PlainTokens.head (plain : PlainTokens (token :: rest)) (names : token.IsName) :
    token.toName.Plain :=
  plain token List.mem_cons_self names

mutual

theorem Expression.regular : Expression level first input tree next rest → PlainTokens input →
    tree.Regular
  | .assign target _ assigned, plain => ⟨plain.head target, assigned.regular plain.tail.tail⟩
  | .set receiver _ _ _ assigned, plain =>
    ⟨receiver.regular plain,
      assigned.regular (plain.suffix receiver.opens.suffix).tail.tail.tail⟩
  | .pass _ same, plain => same.regular plain
  | .binary _ before _ after, plain | .logical _ before _ after, plain =>
    ⟨before.regular plain, after.regular (plain.suffix before.opens.suffix).tail⟩
  | .unary _ inside, plain => inside.regular plain.tail
  | .call applied _ given _, plain =>
    ⟨applied.regular plain, given.regular (plain.suffix applied.opens.suffix).tail⟩
  | .get receiver _ _, plain => receiver.regular plain
  | .literal _, _ => trivial
  | .read refers, plain => plain.head refers
  | .this _, _ | .super _ _ _, _ => trivial
  | .grouping _ inside _, plain => inside.regular plain.tail

theorem Listed.regular : Listed (Expression .assignment) first input trees next rest →
    PlainTokens input → Expr.AllRegular trees
  | .none, _ => trivial
  | .some items _, plain => items.regular plain

theorem Separated.regular : Separated (Expression .assignment) first input trees next rest →
    PlainTokens input → Expr.AllRegular trees
  | .last item, plain => ⟨item.regular plain, trivial⟩
  | .comma item _ others, plain =>
    ⟨item.regular plain, others.regular (plain.suffix item.opens.suffix).tail⟩

end

theorem Optional.regular (optional : Optional (Expression .assignment) first input value next rest)
    (plain : PlainTokens input) : Expr.Regular? value := by
  cases optional with
  | none => exact nofun
  | some item =>
    rintro _ ⟨⟩
    exact item.regular plain

theorem ExpressionStatement.regular (form : ExpressionStatement first input tree next rest)
    (plain : PlainTokens input) : tree.Regular := by
  cases form with
  | ended evaluated _ => exact evaluated.regular plain

theorem VarDeclaration.regular (form : VarDeclaration first input tree next rest)
    (plain : PlainTokens input) : tree.Regular := by
  cases form with
  | bare names _ => exact ⟨plain.head names, nofun⟩
  | initialized names _ assigned _ =>
    refine ⟨plain.head names, ?_⟩
    rintro _ ⟨⟩
    exact assigned.regular plain.tail.tail

theorem ForInitializer.regular (form : ForInitializer first input tree next rest)
    (plain : PlainTokens input) : ∀ initializer ∈ tree, initializer.Regular := by
  cases form with
  | none => exact nofun
  | var _ declaration =>
    rintro _ ⟨⟩
    exact declaration.regular plain.tail
  | expression statement =>
    rintro _ ⟨⟩
    exact statement.regular plain

theorem Inheritance.regular (optional : Optional Inheritance first input superclass next rest)
    (plain : PlainTokens input) : ∀ parent ∈ superclass, parent.name.Plain := by
  cases optional with
  | none => exact nofun
  | some clause =>
    cases clause with
    | «from» _ names =>
      rintro _ ⟨⟩
      exact plain.tail.head names

theorem Listed.parameters_plain (items : Listed Parameter first input names next rest)
    (plain : PlainTokens input) : ∀ name ∈ names, name.Plain := by
  cases items with
  | none => exact nofun
  | some items few =>
    induction items with
    | last item =>
      cases item with
      | named names => simpa using plain.head names
    | comma item _ _ ih =>
      cases item with
      | named names =>
        have later := ih plain.tail.tail (Nat.le_of_succ_le few)
        simpa [plain.head names] using later

theorem ExpressionStatement.introduces (form : ExpressionStatement first input tree next rest) :
    tree.introduces = none := by
  cases form; rfl

theorem Statement.introduces (form : Statement dangling first input tree next rest) :
    tree.introduces = none := by
  cases form with
  | expression statement => exact statement.introduces
  | «for» => exact Stmt.introduces_forLoop ..
  | _ => rfl

mutual

theorem Statement.regular : Statement dangling first input tree next rest → PlainTokens input →
    tree.Regular
  | .expression statement, plain => statement.regular plain
  | .print _ printed _, plain => printed.regular plain.tail
  | .return _ returned _, plain => returned.regular plain.tail
  | .block _ inside _, plain => inside.regular plain.tail
  | .while _ _ tested _ repeated, plain =>
    ⟨tested.regular plain.tail.tail,
      repeated.regular (plain.tail.tail.suffix tested.opens.suffix).tail, repeated.introduces⟩
  | .for _ _ started tested _ stepped _ repeated, plain => by
    have second := plain.tail.tail.suffix started.suffix
    have third := (second.suffix tested.suffix).tail
    have fourth := (third.suffix stepped.suffix).tail
    exact Stmt.regular_forLoop (started.regular plain.tail.tail) (tested.regular second)
      (stepped.regular third) (repeated.regular fourth) repeated.introduces
  | .ifThen _ _ tested _ chosen, plain =>
    ⟨tested.regular plain.tail.tail,
      chosen.regular (plain.tail.tail.suffix tested.opens.suffix).tail, chosen.introduces⟩
  | .ifElse _ _ tested _ chosen _ otherwise, plain => by
    have second := (plain.tail.tail.suffix tested.opens.suffix).tail
    have third := (second.suffix chosen.opens.suffix).tail
    exact ⟨tested.regular plain.tail.tail, ⟨chosen.regular second, chosen.introduces⟩,
      otherwise.regular third, otherwise.introduces⟩

theorem Definition.regular : Definition first input routine next rest → PlainTokens input →
    routine.name.Plain ∧ routine.Regular
  | .routine names _ taken _ _ inside _, plain =>
    ⟨plain.head names, taken.parameters_plain plain.tail.tail,
      inside.regular (plain.tail.tail.suffix taken.parameters_suffix).tail.tail⟩

theorem Declaration.regular : Declaration first input tree next rest → PlainTokens input →
    tree.Regular
  | .statement statement, plain => statement.regular plain
  | .var _ declaration, plain => declaration.regular plain.tail
  | .function _ definition, plain => definition.regular plain.tail
  | .class _ names extended _ owned _, plain => by
    have second := (plain.tail.tail.suffix (Inheritance.suffix extended)).tail
    exact ⟨plain.tail.head names, Inheritance.regular extended plain.tail.tail,
      owned.definitions_regular second⟩

/-- The tree of a program is regular, because keywords are no identifiers. -/
theorem Many.regular : Many Declaration first input trees next rest → PlainTokens input →
    Stmt.AllRegular trees
  | .nil, _ => trivial
  | .cons item others, plain =>
    ⟨item.regular plain, others.regular (plain.suffix item.opens.suffix)⟩

theorem Many.definitions_regular : Many Definition first input routines next rest →
    PlainTokens input → Routine.AllRegular routines
  | .nil, _ => trivial
  | .cons item others, plain =>
    ⟨(item.regular plain).2, others.definitions_regular (plain.suffix item.opens.suffix)⟩

end

end Grammar

end Lox
