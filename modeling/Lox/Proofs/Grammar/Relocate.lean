import Lox.Proofs.Grammar.Basic
import Lox.Proofs.Tree.Alike

/-! Forms in another place. The tokens of a form, with other lines and before other tokens, are a form
again, and its tree is the same up to labels. Hence programs can be joined. -/

namespace Lox.Grammar

/-- Tokens alike, with more after them. -/
inductive Follows (pairing : Pairing) (more : List Token) : List Token → List Token → Prop where
  | token (here : Token.Alike pairing head head') (rest : Follows pairing more input input') :
      Follows pairing more (head :: input) (head' :: input')
  | done : Follows pairing more [] more

/-- How far the identifiers are moved, and that the pairing knows it. -/
def Shifts (pairing : Pairing) (offset : Nat) : Prop :=
  ∀ id, pairing.ids id (id + offset)

theorem Follows.of_alike {own own' : List Token}
    (alike : List.Forall₂ (Token.Alike pairing) own own') (more : List Token) :
    Follows pairing more own (own' ++ more) := by
  induction alike with
  | nil => exact .done
  | cons here _ ih => exact .token here ih

/-- Whether the form can be moved along with its tokens. -/
def Moves (pairing : Pairing) (offset : Nat) (more : List Token) (Item : Form α)
    (alike : α → α → Prop) (first : NodeId) (input : List Token) (tree : α) (next : NodeId)
    (rest : List Token) : Prop :=
  ∀ input', Follows pairing more input input' → ∃ tree' rest', Follows pairing more rest rest' ∧
    alike tree tree' ∧ Item (first + offset) input' tree' (next + offset) rest'

variable {pairing : Pairing} {offset : Nat} {more : List Token}

mutual

theorem Expression.moves (shifts : Shifts pairing offset) :
    Expression level first input tree next rest →
    Moves pairing offset more (Expression level) (Expr.Alike pairing) first input tree next rest
  | .assign target sign assigned, _, .token name (.token equals follows) => by
    obtain ⟨value, rest, follows, alike, assigned⟩ := assigned.moves shifts _ follows
    rw [Nat.add_right_comm] at assigned
    have moved := Expression.assign (name.isName target) (equals.is sign) assigned
    rw [Nat.add_right_comm] at moved
    exact ⟨_, rest, follows, .assign (shifts _) name.toName alike, moved⟩
  | .set receiver access property sign assigned, _, follows => by
    obtain ⟨object, _, ⟨dot, name, equals, follows⟩, alike, receiver⟩ :=
      receiver.moves shifts _ follows
    obtain ⟨value, rest, follows, alike', assigned⟩ := assigned.moves shifts _ follows
    exact ⟨_, rest, follows, .set alike name.toName alike',
      .set receiver (dot.is access) (name.isName property) (equals.is sign) assigned⟩
  | .pass step same, _, follows => by
    obtain ⟨tree, rest, follows, alike, same⟩ := same.moves shifts _ follows
    exact ⟨tree, rest, follows, alike, .pass step same⟩
  | .binary step before operates after, _, follows => by
    obtain ⟨left, _, ⟨operator, follows⟩, alike, before⟩ := before.moves shifts _ follows
    obtain ⟨right, rest, follows, alike', after⟩ := after.moves shifts _ follows
    exact ⟨_, rest, follows, .binary _ operator.line alike alike',
      .binary step before (operator.kind ▸ operates) after⟩
  | .logical step before operates after, _, follows => by
    obtain ⟨left, _, ⟨operator, follows⟩, alike, before⟩ := before.moves shifts _ follows
    obtain ⟨right, rest, follows, alike', after⟩ := after.moves shifts _ follows
    exact ⟨_, rest, follows, .logical _ operator.line alike alike',
      .logical step before (operator.kind ▸ operates) after⟩
  | .unary operates inside, _, .token operator follows => by
    obtain ⟨operand, rest, follows, alike, inside⟩ := inside.moves shifts _ follows
    exact ⟨_, rest, follows, .unary _ operator.line alike, .unary (operator.kind ▸ operates) inside⟩
  | .call applied opens given closes, _, follows => by
    obtain ⟨callee, _, ⟨opening, follows⟩, alike, applied⟩ := applied.moves shifts _ follows
    obtain ⟨arguments, _, ⟨closing, follows⟩, alike', given⟩ := given.moves shifts _ follows
    exact ⟨_, _, follows, .call alike closing.line alike',
      .call applied (opening.is opens) given (closing.is closes)⟩
  | .get receiver access property, _, follows => by
    obtain ⟨object, _, ⟨dot, name, follows⟩, alike, receiver⟩ :=
      receiver.moves shifts _ follows
    exact ⟨_, _, follows, .get alike name.toName,
      .get receiver (dot.is access) (name.isName property)⟩
  | .literal denotes, _, .token token follows =>
    ⟨_, _, follows, .literal _, .literal (token.kind ▸ denotes)⟩
  | .read refers, _, .token name follows => by
    rw [Nat.add_right_comm]
    exact ⟨_, _, follows, .read (shifts _) name.toName, .read (name.isName refers)⟩
  | .this refers, _, .token keyword follows => by
    rw [Nat.add_right_comm]
    exact ⟨_, _, follows, .this (shifts _) keyword.line, .this (keyword.is refers)⟩
  | .super refers access method, _, .token keyword (.token dot (.token name follows)) => by
    rw [Nat.add_right_comm]
    exact ⟨_, _, follows, .super (shifts _) keyword.line name.toName,
      .super (keyword.is refers) (dot.is access) (name.isName method)⟩
  | .grouping opens inside closes, _, .token opening follows => by
    obtain ⟨inner, _, ⟨closing, follows⟩, alike, inside⟩ := inside.moves shifts _ follows
    exact ⟨_, _, follows, .grouping alike, .grouping (opening.is opens) inside (closing.is closes)⟩

theorem Listed.moves (shifts : Shifts pairing offset) :
    Listed (Expression .assignment) first input trees next rest →
    Moves pairing offset more (Listed (Expression .assignment)) (Expr.AllAlike pairing) first input
      trees next rest
  | .none, _, follows => ⟨[], _, follows, .nil, .none⟩
  | .some items few, _, follows => by
    obtain ⟨trees, rest, follows, alike, items⟩ := items.moves shifts _ follows
    exact ⟨trees, rest, follows, alike, .some items (alike.length_eq ▸ few)⟩

theorem Separated.moves (shifts : Shifts pairing offset) :
    Separated (Expression .assignment) first input trees next rest →
    Moves pairing offset more (Separated (Expression .assignment)) (Expr.AllAlike pairing) first
      input trees next rest
  | .last item, _, follows => by
    obtain ⟨tree, rest, follows, alike, item⟩ := item.moves shifts _ follows
    exact ⟨[tree], rest, follows, .cons alike .nil, .last item⟩
  | .comma item divides others, _, follows => by
    obtain ⟨tree, _, ⟨sign, follows⟩, alike, item⟩ := item.moves shifts _ follows
    obtain ⟨trees, rest, follows, alike', others⟩ := others.moves shifts _ follows
    exact ⟨tree :: trees, rest, follows, .cons alike alike', .comma item (sign.is divides) others⟩

end

theorem Optional.moves {Item : Form α} {alike : α → α → Prop}
    (Moved : ∀ {first input tree next rest}, Item first input tree next rest →
      Moves pairing offset more Item alike first input tree next rest) :
    Optional Item first input tree next rest →
    Moves pairing offset more (Optional Item) (Option.Rel alike) first input tree next rest
  | .none, _, follows => ⟨.none, _, follows, .none, .none⟩
  | .some item, _, follows => by
    obtain ⟨tree, rest, follows, alike, item⟩ := Moved item _ follows
    exact ⟨.some tree, rest, follows, .some alike, .some item⟩

theorem ExpressionStatement.moves (shifts : Shifts pairing offset) :
    ExpressionStatement first input tree next rest →
    Moves pairing offset more ExpressionStatement (Stmt.Alike pairing) first input tree next rest
  | .ended evaluated ends, _, follows => by
    obtain ⟨value, _, ⟨semicolon, follows⟩, alike, evaluated⟩ := evaluated.moves shifts _ follows
    exact ⟨_, _, follows, .expression alike, .ended evaluated (semicolon.is ends)⟩

theorem VarDeclaration.moves (shifts : Shifts pairing offset) :
    VarDeclaration first input tree next rest →
    Moves pairing offset more VarDeclaration (Stmt.Alike pairing) first input tree next rest
  | .bare names ends, _, .token name (.token semicolon follows) =>
    ⟨_, _, follows, .declareVar name.toName .none,
      .bare (name.isName names) (semicolon.is ends)⟩
  | .initialized names sign assigned ends, _, .token name (.token equals follows) => by
    obtain ⟨value, _, ⟨semicolon, follows⟩, alike, assigned⟩ := assigned.moves shifts _ follows
    exact ⟨_, _, follows, .declareVar name.toName (.some alike),
      .initialized (name.isName names) (equals.is sign) assigned (semicolon.is ends)⟩

theorem ForInitializer.moves (shifts : Shifts pairing offset) :
    ForInitializer first input tree next rest →
    Moves pairing offset more ForInitializer (Option.Rel (Stmt.Alike pairing)) first input tree next
      rest
  | .none ends, _, .token semicolon follows => ⟨_, _, follows, .none, .none (semicolon.is ends)⟩
  | .var begins declaration, _, .token keyword follows => by
    obtain ⟨tree, rest, follows, alike, declaration⟩ := declaration.moves shifts _ follows
    exact ⟨_, rest, follows, .some alike, .var (keyword.is begins) declaration⟩
  | .expression statement, _, follows => by
    obtain ⟨tree, rest, follows, alike, statement⟩ := statement.moves shifts _ follows
    exact ⟨_, rest, follows, .some alike, .expression statement⟩

theorem Parameter.moves (parameter : Parameter first input name next rest) :
    Moves pairing offset more Parameter (Name.Alike pairing) first input name next rest := by
  intro input' follows
  cases parameter with
  | named names =>
    obtain ⟨name, follows⟩ := follows
    exact ⟨_, _, follows, name.toName, .named (name.isName names)⟩

theorem Separated.parameters_moves : Separated Parameter first input names next rest →
    Moves pairing offset more (Separated Parameter) (List.Forall₂ (Name.Alike pairing)) first input
      names next rest
  | .last item, _, follows => by
    obtain ⟨name, rest, follows, alike, item⟩ := item.moves _ follows
    exact ⟨[name], rest, follows, .cons alike .nil, .last item⟩
  | .comma item divides others, _, follows => by
    obtain ⟨name, _, ⟨sign, follows⟩, alike, item⟩ := item.moves _ follows
    obtain ⟨names, rest, follows, alike', others⟩ := others.parameters_moves _ follows
    exact ⟨name :: names, rest, follows, .cons alike alike', .comma item (sign.is divides) others⟩

theorem Listed.parameters_moves : Listed Parameter first input names next rest →
    Moves pairing offset more (Listed Parameter) (List.Forall₂ (Name.Alike pairing)) first input names
      next rest
  | .none, _, follows => ⟨[], _, follows, .nil, .none⟩
  | .some items few, _, follows => by
    obtain ⟨names, rest, follows, alike, items⟩ := items.parameters_moves _ follows
    exact ⟨names, rest, follows, alike, .some items (alike.length_eq ▸ few)⟩

theorem Inheritance.moves (shifts : Shifts pairing offset) :
    Inheritance first input superclass next rest →
    Moves pairing offset more Inheritance (Superclass.Alike pairing) first input superclass next rest
  | .from sign names, _, .token less (.token name follows) => by
    rw [Nat.add_right_comm]
    exact ⟨_, _, follows, ⟨shifts _, name.toName⟩, .from (less.is sign) (name.isName names)⟩

mutual

theorem Statement.moves (shifts : Shifts pairing offset) :
    Statement dangling first input tree next rest →
    Moves pairing offset more (Statement dangling) (Stmt.Alike pairing) first input tree next rest
  | .expression statement, _, follows => by
    obtain ⟨tree, rest, follows, alike, statement⟩ := statement.moves shifts _ follows
    exact ⟨tree, rest, follows, alike, .expression statement⟩
  | .print begins printed ends, _, .token keyword follows => by
    obtain ⟨value, _, ⟨semicolon, follows⟩, alike, printed⟩ := printed.moves shifts _ follows
    exact ⟨_, _, follows, .print alike, .print (keyword.is begins) printed (semicolon.is ends)⟩
  | .return begins returned ends, _, .token keyword follows => by
    obtain ⟨value, _, ⟨semicolon, follows⟩, alike, returned⟩ :=
      returned.moves (Expression.moves shifts) _ follows
    exact ⟨_, _, follows, .return keyword.line alike,
      .return (keyword.is begins) returned (semicolon.is ends)⟩
  | .block opens inside closes, _, .token opening follows => by
    obtain ⟨body, _, ⟨closing, follows⟩, alike, inside⟩ := inside.moves shifts _ follows
    exact ⟨_, _, follows, .block alike, .block (opening.is opens) inside (closing.is closes)⟩
  | .while begins opens tested closes repeated, _, .token keyword (.token opening follows) => by
    obtain ⟨condition, _, ⟨closing, follows⟩, alike, tested⟩ := tested.moves shifts _ follows
    obtain ⟨body, rest, follows, alike', repeated⟩ := repeated.moves shifts _ follows
    exact ⟨_, rest, follows, .while alike alike',
      .while (keyword.is begins) (opening.is opens) tested (closing.is closes) repeated⟩
  | .for begins opens started tested ends stepped closes repeated, _,
      .token keyword (.token opening follows) => by
    obtain ⟨initializer, _, follows, alike₁, started⟩ := started.moves shifts _ follows
    obtain ⟨condition, _, ⟨semicolon, follows⟩, alike₂, tested⟩ :=
      tested.moves (Expression.moves shifts) _ follows
    obtain ⟨increment, _, ⟨closing, follows⟩, alike₃, stepped⟩ :=
      stepped.moves (Expression.moves shifts) _ follows
    obtain ⟨body, rest, follows, alike₄, repeated⟩ := repeated.moves shifts _ follows
    exact ⟨_, rest, follows, .forLoop alike₁ alike₂ alike₃ alike₄,
      .for (keyword.is begins) (opening.is opens) started tested (semicolon.is ends) stepped
        (closing.is closes) repeated⟩
  | .ifThen begins opens tested closes chosen, _, .token keyword (.token opening follows) => by
    obtain ⟨condition, _, ⟨closing, follows⟩, alike, tested⟩ := tested.moves shifts _ follows
    obtain ⟨consequent, rest, follows, alike', chosen⟩ := chosen.moves shifts _ follows
    exact ⟨_, rest, follows, .ifThen alike alike',
      .ifThen (keyword.is begins) (opening.is opens) tested (closing.is closes) chosen⟩
  | .ifElse begins opens tested closes chosen divides otherwise, _,
      .token keyword (.token opening follows) => by
    obtain ⟨condition, _, ⟨closing, follows⟩, alike₁, tested⟩ := tested.moves shifts _ follows
    obtain ⟨consequent, _, ⟨divider, follows⟩, alike₂, chosen⟩ := chosen.moves shifts _ follows
    obtain ⟨alternative, rest, follows, alike₃, otherwise⟩ := otherwise.moves shifts _ follows
    exact ⟨_, rest, follows, .ifElse alike₁ alike₂ alike₃,
      .ifElse (keyword.is begins) (opening.is opens) tested (closing.is closes) chosen
        (divider.is divides) otherwise⟩

theorem Definition.moves (shifts : Shifts pairing offset) :
    Definition first input routine next rest →
    Moves pairing offset more Definition (Routine.Alike pairing) first input routine next rest
  | .routine names opens taken closes opensBody inside closesBody, _,
      .token name (.token opening follows) => by
    obtain ⟨parameters, _, ⟨closing, openingBody, follows⟩, alike, taken⟩ :=
      taken.parameters_moves _ follows
    obtain ⟨body, _, ⟨closingBody, follows⟩, alike', inside⟩ := inside.moves shifts _ follows
    exact ⟨_, _, follows, .routine name.toName alike alike',
      .routine (name.isName names) (opening.is opens) taken (closing.is closes)
        (openingBody.is opensBody) inside (closingBody.is closesBody)⟩

theorem Declaration.moves (shifts : Shifts pairing offset) :
    Declaration first input tree next rest →
    Moves pairing offset more Declaration (Stmt.Alike pairing) first input tree next rest
  | .statement statement, _, follows => by
    obtain ⟨tree, rest, follows, alike, statement⟩ := statement.moves shifts _ follows
    exact ⟨tree, rest, follows, alike, .statement statement⟩
  | .var begins declaration, _, .token keyword follows => by
    obtain ⟨tree, rest, follows, alike, declaration⟩ := declaration.moves shifts _ follows
    exact ⟨tree, rest, follows, alike, .var (keyword.is begins) declaration⟩
  | .function begins definition, _, .token keyword follows => by
    obtain ⟨routine, rest, follows, alike, definition⟩ := definition.moves shifts _ follows
    exact ⟨_, rest, follows, .declareFunction alike, .function (keyword.is begins) definition⟩
  | .class begins names extended opens owned closes, _, .token keyword (.token name follows) => by
    obtain ⟨superclass, _, ⟨opening, follows⟩, alike, extended⟩ :=
      extended.moves (Inheritance.moves shifts) _ follows
    obtain ⟨methods, _, ⟨closing, follows⟩, alike', owned⟩ :=
      owned.definitions_moves shifts _ follows
    exact ⟨_, _, follows, .declareClass name.toName alike alike',
      .class (keyword.is begins) (name.isName names) extended (opening.is opens) owned
        (closing.is closes)⟩

theorem Many.moves (shifts : Shifts pairing offset) :
    Many Declaration first input trees next rest →
    Moves pairing offset more (Many Declaration) (Stmt.AllAlike pairing) first input trees next rest
  | .nil, _, follows => ⟨[], _, follows, .nil, .nil⟩
  | .cons item others, _, follows => by
    obtain ⟨tree, _, follows, alike, item⟩ := item.moves shifts _ follows
    obtain ⟨trees, rest, follows, alike', others⟩ := others.moves shifts _ follows
    exact ⟨tree :: trees, rest, follows, .cons alike alike', .cons item others⟩

theorem Many.definitions_moves (shifts : Shifts pairing offset) :
    Many Definition first input routines next rest →
    Moves pairing offset more (Many Definition) (Routine.AllAlike pairing) first input routines next
      rest
  | .nil, _, follows => ⟨[], _, follows, .nil, .nil⟩
  | .cons item others, _, follows => by
    obtain ⟨routine, _, follows, alike, item⟩ := item.moves shifts _ follows
    obtain ⟨routines, rest, follows, alike', others⟩ := others.definitions_moves shifts _ follows
    exact ⟨routine :: routines, rest, follows, .cons alike alike', .cons item others⟩

end

theorem Many.append {Item : Form α} (before : Many Item first input trees middle later)
    (after : Many Item middle later others next rest) :
    Many Item first input (trees ++ others) next rest := by
  induction before with
  | nil => exact after
  | cons item _ ih => exact .cons item (ih after)

namespace Program

theorem nil (first : NodeId) : Program first [] [] first :=
  Many.nil

/-- The tokens of a program are a program before those of another one, with any lines and
identifiers. -/
theorem join (program : Program first tokens trees middle) (shifts : Shifts pairing offset)
    (alike : List.Forall₂ (Token.Alike pairing) tokens tokens')
    (later : Program (middle + offset) others rest next) :
    ∃ trees', Stmt.AllAlike pairing trees trees' ∧
      Program (first + offset) (tokens' ++ others) (trees' ++ rest) next := by
  obtain ⟨trees', _, follows, same, moved⟩ :=
    program.moves shifts (tokens' ++ others) (.of_alike alike others)
  cases follows
  exact ⟨trees', same, moved.append later⟩

end Program

end Lox.Grammar
