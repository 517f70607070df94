import Lox.Proofs.Lexical.Fuel
import Lox.Proofs.Scope.Addressed

/-! `for` statements by what they mean. The initializer runs once in a scope of its own. Each round tests
the condition, runs the body and, if the body ended normally, evaluates the increment, all in that scope.
The blocks and the `while` statement that stand for the loop do the same. -/

namespace Lox

/-- The clauses of a `for` statement and its body, which is no declaration. -/
structure ForLoop where
  initializer : Option Stmt
  condition : Option Expr
  increment : Option Expr
  body : Stmt
  plain : body.introduces = none

namespace ForLoop

/-- The blocks and the `while` statement that stand for it. -/
def tree (loop : ForLoop) : Stmt :=
  .forLoop loop.initializer loop.condition loop.increment loop.body

/-- What is repeated there. -/
def repeated (loop : ForLoop) : Stmt :=
  match loop.increment with
  | some step => .block [loop.body, .expression step]
  | none => loop.body

def repetition (loop : ForLoop) : Stmt :=
  .while (loop.condition.getD (.literal (.bool true))) loop.repeated

theorem tree_eq (loop : ForLoop) : loop.tree = match loop.initializer with
    | some first => .block [first, loop.repetition]
    | none => loop.repetition :=
  rfl

end ForLoop

namespace Lexical

namespace Eval

section Direct

variable (clock : Nat → Float)

/-- Whether there is another round. Without a condition there always is. -/
def test (fuel : Nat) (environment : Environment) : Option Expr → Eval Bool
  | none => return true
  | some condition => return (← evaluate clock fuel environment condition).isTruthy

/-- Evaluates the increment, if there is one. -/
def advance (fuel : Nat) (environment : Environment) : Option Expr → Eval Unit
  | none => return ()
  | some step => discard <| evaluate clock fuel environment step

/-- The body and, if it ended normally, the increment. -/
def round (fuel : Nat) (place : Place) (loop : ForLoop) : Eval Flow := do
  match ← execute clock fuel place loop.body with
  | .normal => do
    advance clock fuel place.environment loop.increment
    return .normal
  | .returned value => return .returned value

def rounds (place : Place) (loop : ForLoop) : (fuel : Nat) → Eval Flow
  | 0 => halt .outOfFuel
  | fuel + 1 => do
    if ← test clock fuel place.environment loop.condition then
      match ← round clock fuel place loop with
      | .normal => rounds place loop fuel
      | .returned value => return .returned value
    else
      return .normal

/-- Runs an initializer in a new scope and goes on there. An initializer is a variable declaration or an
expression, so none returns. -/
def enter (fuel : Nat) (place : Place) (first : Stmt) (later : Place → Eval Flow) : Eval Flow := do
  let place ← introduce (.within place.environment) first
  match ← execute clock fuel place first with
  | .normal => later place
  | .returned value => return .returned value

/-- A whole loop. Only with an initializer does it have a scope. -/
def forLoop (fuel : Nat) (place : Place) (loop : ForLoop) : Eval Flow :=
  match loop.initializer with
  | none => rounds clock place loop fuel
  | some first => enter clock fuel place first fun place => rounds clock place loop fuel

end Direct

variable {clock : Nat → Float} {fuel : Nat} {place : Place} {loop : ForLoop} {stmt : Stmt}

theorem introduce_plain (plain : stmt.introduces = none) (later : Place → Eval Flow) :
    introduce place stmt >>= later = later place := by
  unfold introduce
  rw [plain, pure_bind]

theorem executeAll_cons (plain : stmt.introduces = none) (rest : List Stmt) :
    executeAll clock (fuel + 1) place (stmt :: rest) = (do
      match ← execute clock fuel place stmt with
      | .normal => executeAll clock fuel place rest
      | .returned value => return .returned value) :=
  introduce_plain plain _

/-- A step after which nothing is left to do. -/
theorem bind_flow (step : Eval Flow) : (do
    match ← step with
    | .normal => return .normal
    | .returned value => return .returned value) = step := by
  conv => rhs; rw [← bind_pure step]
  refine congrArg _ (funext fun flow => ?_)
  cases flow <;> rfl

theorem executeAll_alone (plain : stmt.introduces = none) :
    executeAll clock (fuel + 2) place [stmt] = execute clock (fuel + 1) place stmt := by
  rw [executeAll_cons plain]
  exact bind_flow _

theorem round_eq (absent : loop.increment = none) :
    round clock fuel place loop = execute clock fuel place loop.body := by
  unfold round
  rw [absent]
  exact bind_flow _

theorem repetition_succ : execute clock (fuel + 1) place loop.repetition = (do
    let goes ← (do return (← evaluate clock fuel place.environment
      (loop.condition.getD (.literal (.bool true)))).isTruthy : Eval Bool)
    if goes then
      match ← execute clock fuel place loop.repeated with
      | .normal => execute clock fuel place loop.repetition
      | .returned value => return .returned value
    else
      return .normal) := by
  rw [bind_assoc]
  rfl

/-- A statement that declares nothing does the same in a block. -/
theorem execute_within (plain : stmt.introduces = none) (addressed : stmt.Addressed table scoping) :
    execute clock fuel (.within place.environment) stmt = execute clock fuel place stmt := by
  induction fuel generalizing stmt with
  | zero => rfl
  | succ fuel ih =>
    cases stmt with
    | expression value => rfl
    | print value => rfl
    | block body => rfl
    | ifThen condition consequent =>
      obtain ⟨_, chosen, inside⟩ := addressed
      simp only [execute, ih chosen inside]
      rfl
    | ifElse condition consequent alternative =>
      obtain ⟨_, ⟨chosen, inside⟩, otherwise, inside'⟩ := addressed
      simp only [execute, ih chosen inside, ih otherwise inside']
      rfl
    | «while» condition body =>
      obtain ⟨_, repeated, inside⟩ := id addressed
      simp only [execute, ih repeated inside, ih plain addressed]
      rfl
    | «return» line value => cases value <;> rfl
    | declareVar => cases plain
    | declareFunction => cases plain
    | declareClass => cases plain

namespace Approximates

theorem alone_below (plain : stmt.introduces = none) :
    Approximates (executeAll clock fuel place [stmt]) (execute clock fuel place stmt) := by
  rcases fuel with _ | _ | fuel
  · exact (Completes.refl clock 0).execute place stmt
  · rw [executeAll_cons plain]
    exact outOfFuel ((Completes.refl clock 1).execute place stmt)
  · rw [executeAll_alone plain]
    exact (Completes.of_le clock (Nat.le_succ _)).execute place stmt

/-- The condition of the `while` statement, which is never absent. -/
theorem test_below : Approximates (do
      return (← evaluate clock fuel environment (condition.getD (.literal (.bool true)))).isTruthy)
    (test clock fuel environment condition) := by
  cases condition with
  | some condition => exact ((Completes.refl clock fuel).evaluate _ condition).bind fun _ => .pure _
  | none =>
    cases fuel with
    | zero => exact outOfFuel (.pure true)
    | succ fuel => exact .pure true

theorem test_above : Approximates (test clock fuel environment condition) (do
      return (← evaluate clock (fuel + 4) environment
        (condition.getD (.literal (.bool true)))).isTruthy) := by
  cases condition with
  | some condition =>
    exact ((Completes.of_le clock (Nat.le_add_right ..)).evaluate _ condition).bind fun _ => .pure _
  | none => exact .pure true

theorem round_refl : Fueled (round clock fuel place loop) := by
  have full := Completes.refl clock fuel
  refine (full.execute place loop.body).flow ?_
  cases loop.increment with
  | none => exact .pure _
  | some step => exact (full.evaluate _ step).discard.bind fun _ => .pure _

theorem enter (place : Place) (first : Stmt) (le : fuel ≤ more) {later later' : Place → Eval Flow}
    (rest : ∀ inner, Approximates (later inner) (later' inner)) :
    Approximates (Eval.enter clock fuel place first later) (Eval.enter clock more place first later') :=
  (introduce _ first).bind fun inner =>
    ((Completes.of_le clock le).execute inner first).flow (rest inner)

section Loop

variable (same : ∀ place fuel,
  execute clock fuel (.within place.environment) loop.body = execute clock fuel place loop.body)

include same

theorem round_below : Approximates (execute clock fuel place loop.repeated)
    (round clock fuel place loop) := by
  unfold ForLoop.repeated
  cases stepped : loop.increment with
  | none =>
    rw [round_eq stepped]
    exact (Completes.refl clock fuel).execute place loop.body
  | some step =>
    rcases fuel with _ | _ | fuel
    · exact outOfFuel round_refl
    · exact outOfFuel round_refl
    · have block : execute clock (fuel + 2) place (.block [loop.body, .expression step]) =
          executeAll clock (fuel + 1) (.within place.environment) [loop.body, .expression step] :=
        rfl
      rw [block, executeAll_cons loop.plain, same]
      unfold round
      rw [stepped]
      have repeated := (Completes.of_le clock (Nat.le_add_right fuel 2)).execute place loop.body
      have stepped := (Completes.of_le clock (Nat.le_add_right fuel 3)).execute
        (.within place.environment) (.expression step)
      exact repeated.flow ((alone_below rfl).trans stepped)

-- The block takes a step, and so does each place in its list, the end of the list among them.
theorem round_above : Approximates (round clock fuel place loop)
    (execute clock (fuel + 4) place loop.repeated) := by
  unfold ForLoop.repeated
  cases stepped : loop.increment with
  | none =>
    rw [round_eq stepped]
    exact (Completes.of_le clock (Nat.le_add_right fuel 4)).execute place loop.body
  | some step =>
    have block : execute clock (fuel + 4) place (.block [loop.body, .expression step]) =
        executeAll clock (fuel + 3) (.within place.environment) [loop.body, .expression step] :=
      rfl
    rw [block, executeAll_cons loop.plain, same, executeAll_alone rfl]
    unfold round
    rw [stepped]
    have repeated := (Completes.of_le clock (Nat.le_add_right fuel 2)).execute place loop.body
    exact repeated.flow
      (((Completes.refl clock fuel).evaluate _ step).discard.bind fun _ => .pure _)

theorem rounds_below : Approximates (execute clock fuel place loop.repetition)
    (rounds clock place loop fuel) := by
  induction fuel with
  | zero => exact .halt _
  | succ fuel ih =>
    rw [repetition_succ]
    refine test_below.bind fun goes => ?_
    split
    · exact (round_below same).flow ih
    · exact .pure _

theorem rounds_above : Approximates (rounds clock place loop fuel)
    (execute clock (fuel + 4) place loop.repetition) := by
  induction fuel with
  | zero => exact outOfFuel ((Completes.refl clock 4).execute place loop.repetition)
  | succ fuel ih =>
    rw [Nat.add_right_comm, repetition_succ]
    refine test_above.bind fun goes => ?_
    split
    · exact (round_above same).flow ih
    · exact .pure _

theorem forLoop_below : Approximates (execute clock fuel place loop.tree)
    (Eval.forLoop clock fuel place loop) := by
  rw [ForLoop.tree_eq]
  unfold Eval.forLoop
  cases loop.initializer with
  | none => exact rounds_below same
  | some first =>
    have full : Fueled
        (Eval.enter clock fuel place first fun inner => rounds clock inner loop fuel) :=
      enter place first (Nat.le_refl fuel) fun _ => (rounds_below same).whole
    rcases fuel with _ | _ | fuel
    · exact outOfFuel full
    · exact outOfFuel full
    · refine enter place first (Nat.le_add_right fuel 2) fun inner => ?_
      have later := (Completes.of_le clock (Nat.le_add_right fuel 2)).execute inner loop.repetition
      exact ((alone_below rfl).trans later).trans (rounds_below same)

theorem forLoop_above : Approximates (Eval.forLoop clock fuel place loop)
    (execute clock (fuel + 7) place loop.tree) := by
  rw [ForLoop.tree_eq]
  unfold Eval.forLoop
  cases loop.initializer with
  | none =>
    exact (rounds_above same).trans ((Completes.of_le clock (Nat.le_add_right _ 3)).execute ..)
  | some first =>
    refine enter place first (Nat.le_add_right fuel 5) fun inner => ?_
    have alone : executeAll clock (fuel + 5) inner [loop.repetition] =
        execute clock (fuel + 4) inner loop.repetition :=
      executeAll_alone rfl
    rw [alone]
    exact rounds_above same

end Loop

end Approximates

end Eval

end Lexical

end Lox
