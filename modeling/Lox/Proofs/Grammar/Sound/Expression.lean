import Lox.Proofs.Grammar.Sound.Basic
import Lox.Proofs.Grammar.Start
import Lox.Tree.Parse.Expression

/-! Parsed expressions are expressions of the grammar, level by level. An assignment's target is
parsed before it is known to be one, so a tree that is a name or a property has to be traced back to
the tokens it stands for. -/

namespace Lox.Parse

open Grammar

theorem callArguments_sound {expression : Parse Expr}
    (sound : Sound expression (Expression .assignment)) (callee : Expr) :
    Sound (callArguments expression callee) fun middle input tree next rest =>
      ∀ first before opening, opening.Is .leftParen →
        Expression .call first before callee middle (opening :: input) →
        Expression .call first before tree next rest := by
  refine (listed_sound sound fun item => Nat.le_of_lt item.opens.shorter).bind fun arguments =>
    (expect_sound _).bind fun paren => .pure ?_
  rintro next rest _ _ ⟨closes⟩ middle input given first before opening opens applied
  exact .call applied opens given closes

private theorem literal_sound (denotes : literal? token.kind = some value) :
    Sound (do skip; return .literal value) fun first input tree next rest =>
      ∀ others, input = token :: others → Expression .primary first input tree next rest := by
  refine skip_sound.bind fun _ => .pure ?_
  rintro first rest _ before ⟨⟩ others rfl
  exact .literal denotes

theorem primary_sound {expression : Parse Expr}
    (sound : Sound expression (Expression .assignment)) :
    Sound (primary expression) (Expression .primary) := by
  refine .peek (fun line => .fail) fun token => ?_
  split
  · exact literal_sound (by simp only [literal?, *])
  · exact literal_sound (by simp only [literal?, *])
  · exact literal_sound (by simp only [literal?, *])
  · exact literal_sound (by simp only [literal?, *])
  · exact literal_sound (by simp only [literal?, *])
  · rename_i refers
    refine skip_sound.bind fun _ => (discard_expect_sound _).bind fun _ =>
      (expectName_sound _).bind fun method => freshId_sound.bind fun id => .pure ?_
    rintro _ rest first input ⟨⟩ _ _ ⟨⟨isName⟩⟩ _ _ ⟨⟨access⟩⟩ _ before skipped
      others rfl
    cases skipped
    exact .super refers access isName
  · rename_i refers
    refine skip_sound.bind fun _ => freshId_sound.bind fun id => .pure ?_
    rintro _ rest first input ⟨⟩ _ before ⟨⟩ others rfl
    exact .this refers
  · rename_i refers
    refine skip_sound.bind fun _ => freshId_sound.bind fun id => .pure ?_
    rintro _ rest first input ⟨⟩ _ before ⟨⟩ others rfl
    exact .read refers
  · rename_i opens
    refine skip_sound.bind fun _ => sound.bind fun inner => (discard_expect_sound _).bind fun _ =>
      .pure ?_
    rintro next rest _ _ ⟨⟨closes⟩⟩ middle input inside _ before ⟨⟩ others rfl
    exact .grouping opens inside closes
  · exact .fail

theorem callsFrom_sound {expression : Parse Expr}
    (sound : Sound expression (Expression .assignment)) (bound : Nat) (callee : Expr) :
    Sound (callsFrom expression bound callee) fun middle input tree next rest =>
      ∀ first before, Expression .call first before callee middle input →
        Expression .call first before tree next rest := by
  induction bound generalizing callee with
  | zero => exact .pure fun _ _ _ _ applied => applied
  | succ bound ih =>
    refine take_sound.bind fun
      | true => (callArguments_sound sound callee).bind fun applied => (ih applied).weaken ?_
      | false => take_sound.bind fun
        | true => (expectName_sound _).bind fun name => (ih (.get callee name)).weaken ?_
        | false => .pure ?_
    · rintro middle input tree next rest later _ _ called _ _ ⟨opens⟩ first before applied
      exact later first before (called first before _ opens applied)
    · rintro middle input tree next rest later _ _ ⟨⟨isName⟩⟩ _ _ ⟨access⟩ _ _ ⟨_⟩
        first before applied
      exact later first before (.get applied access isName)
    · rintro middle rest _ _ ⟨_⟩ _ _ ⟨_⟩ first before applied
      exact applied

theorem call_sound {expression : Parse Expr}
    (sound : Sound expression (Expression .assignment)) :
    Sound (call expression) (Expression .call) := by
  refine (primary_sound sound).bind fun callee => .remaining fun count =>
    (callsFrom_sound sound count callee).weaken ?_
  intro middle input tree next rest later _ first before primary
  exact later first before (.pass rfl primary)

/-- Operators that were read off in a run stand around what follows them. -/
private theorem leadingUnary_sound (input : List Token)
    (inside : Expression .unary first (leadingUnary input).2 operand next rest) :
    Expression .unary first input
      ((leadingUnary input).1.foldr (fun (op, line) inner => .unary op line inner) operand) next
      rest := by
  induction input with
  | nil => exact inside
  | cons token later ih =>
    cases operates : UnaryOp.ofKind? token.kind with
    | none =>
      simp only [leadingUnary, operates] at inside ⊢
      exact inside
    | some op =>
      simp only [leadingUnary, operates] at inside ⊢
      exact .unary operates (ih inside)

private theorem unaryOperators_sound :
    Sound unaryOperators fun first input operators next rest =>
      next = first ∧ leadingUnary input = (operators, rest) := by
  intro state operators after run clean
  cases run
  exact ⟨clean, rfl, rfl⟩

theorem unary_sound {expression : Parse Expr}
    (sound : Sound expression (Expression .assignment)) :
    Sound (unary expression) (Expression .unary) := by
  refine unaryOperators_sound.bind fun operators => (call_sound sound).bind fun operand => .pure ?_
  rintro next rest _ _ called first input ⟨rfl, read⟩
  rw [show operators = (leadingUnary input).1 by rw [read]]
  exact leadingUnary_sound input (by rw [read]; exact .pass rfl called)

/-- A level's chain of operators, given that the level takes in single operands and one more operand
on the right. -/
theorem chain_sound {operator? : Kind → Option α} {join : α → Nat → Expr → Expr → Expr}
    {operand : Parse Expr} {inner level : Form Expr} (sound : Sound operand inner)
    (ending : operator? .eof = none)
    (single : ∀ {first input tree next rest}, inner first input tree next rest →
      level first input tree next rest)
    (joined : ∀ {first input left middle operator later right next rest op},
      level first input left middle (operator :: later) → operator? operator.kind = some op →
      inner middle later right next rest →
      level first input (join op operator.line left right) next rest) :
    Sound (chain operator? join operand) level := by
  have loop (bound : Nat) (left : Expr) : Sound (chainFrom operator? join operand bound left)
      fun middle input tree next rest => ∀ first before,
        level first before left middle input → level first before tree next rest := by
    induction bound generalizing left with
    | zero => exact .pure fun _ _ _ _ chained => chained
    | succ bound ih =>
      refine (takeOperator?_sound ending).bind fun
        | some (op, line) => sound.bind fun right => (ih (join op line left right)).weaken ?_
        | none => .pure ?_
      · rintro middle input tree next rest later _ _ right _ _ ⟨operates⟩ first before chained
        exact later first before (joined chained operates right)
      · rintro middle rest _ _ ⟨⟩ first before chained
        exact chained
  refine sound.bind fun left => .remaining fun count => (loop count left).weaken ?_
  intro middle input tree next rest later _ first before left
  exact later first before (single left)

theorem factor_sound {expression : Parse Expr}
    (sound : Sound expression (Expression .assignment)) :
    Sound (factor expression) (Expression .factor) :=
  chain_sound (unary_sound sound) rfl (.pass rfl) fun left operates right =>
    .binary rfl left operates right

theorem term_sound {expression : Parse Expr}
    (sound : Sound expression (Expression .assignment)) :
    Sound (term expression) (Expression .term) :=
  chain_sound (factor_sound sound) rfl (.pass rfl) fun left operates right =>
    .binary rfl left operates right

theorem comparison_sound {expression : Parse Expr}
    (sound : Sound expression (Expression .assignment)) :
    Sound (comparison expression) (Expression .comparison) :=
  chain_sound (term_sound sound) rfl (.pass rfl) fun left operates right =>
    .binary rfl left operates right

theorem equality_sound {expression : Parse Expr}
    (sound : Sound expression (Expression .assignment)) :
    Sound (equality expression) (Expression .equality) :=
  chain_sound (comparison_sound sound) rfl (.pass rfl) fun left operates right =>
    .binary rfl left operates right

theorem conjunction_sound {expression : Parse Expr}
    (sound : Sound expression (Expression .assignment)) :
    Sound (conjunction expression) (Expression .conjunction) :=
  chain_sound (equality_sound sound) rfl (.pass rfl) fun left operates right =>
    .logical rfl left operates right

theorem disjunction_sound {expression : Parse Expr}
    (sound : Sound expression (Expression .assignment)) :
    Sound (disjunction expression) (Expression .disjunction) :=
  chain_sound (conjunction_sound sound) rfl (.pass rfl) fun left operates right =>
    .logical rfl left operates right

/-- What the tokens of an expression are if its tree is one that can be assigned to. -/
private def Traced (first : NodeId) (input : List Token) (next : NodeId) (rest : List Token) :
    Expr → Prop
  | .read _ name =>
    ∃ token, input = token :: rest ∧ token.IsName ∧ name = token.toName ∧ next = first + 1
  | .get object name =>
    ∃ dot token, Expression .call first input object next (dot :: token :: rest) ∧ dot.Is .dot ∧
      token.IsName ∧ name = token.toName
  | _ => True

private theorem traced : Expression level first input tree next rest →
    Traced first input next rest tree
  | .pass _ same => traced same
  | .read refers => ⟨_, rfl, refers, rfl, rfl⟩
  | .get receiver access property => ⟨_, _, receiver, access, property, rfl⟩
  | .assign .. | .set .. | .binary .. | .logical .. | .unary .. | .call .. | .literal .. | .this ..
  | .super .. | .grouping .. => trivial

theorem assignment_sound {expression : Parse Expr}
    (sound : Sound expression (Expression .assignment)) :
    Sound (assignment expression) (Expression .assignment) := by
  have assigned (target : Expr) (equals : Token) : Sound (do
      if ← take .equal then
        let value ← expression
        match target with
        | .read _ name => return .assign (← freshId) name value
        | .get object name => return .set object name value
        | other =>
          report ⟨.invalidAssignmentTarget, equals⟩
          return other
      else
        return target) fun middle input tree next rest =>
          ∀ first before, Expression .disjunction first before target middle input →
            Expression .assignment first before tree next rest := by
    refine take_sound.bind fun
      | true => sound.bind fun value => ?_
      | false => .pure ?_
    · split
      · refine freshId_sound.bind fun id => .pure ?_
        rintro _ rest next _ ⟨⟩ middle input value _ _ ⟨sign⟩ first before target
        obtain ⟨name, rfl, refers, rfl, rfl⟩ := traced target
        exact .assign refers sign value
      · refine .pure ?_
        rintro next rest middle input value _ _ ⟨sign⟩ first before target
        obtain ⟨dot, name, receiver, access, property, rfl⟩ := traced target
        exact .set receiver access property sign value
      · exact .report .trivial
    · rintro middle rest _ _ ⟨_⟩ first before target
      exact .pass rfl target
  refine (disjunction_sound sound).bind fun target => .peek (fun line => assigned target _) ?_
  exact fun equals => (assigned target equals).weaken fun _ _ _ _ _ formed _ _ => formed

theorem expressionWithin_sound (depth : Nat) :
    Sound (expressionWithin depth) (Expression .assignment) := by
  induction depth with
  | zero => exact .fail
  | succ depth ih => exact assignment_sound ih

theorem expression_sound : Sound expression (Expression .assignment) :=
  .remaining fun count => (expressionWithin_sound (count + 1)).weaken fun _ _ _ _ _ form _ => form

end Lox.Parse
