import Lox.Proofs.Parse.Composed
import Lox.Proofs.Steps

/-! The errors on record are not looked at. Whatever is parsed after some errors is parsed in the same way
without them, and its own errors come after them. -/

namespace Lox.Parse

/-- The same state with earlier errors on record. -/
def State.after (earlier : Array SyntaxError) (state : State) : State :=
  { state with errors := earlier ++ state.errors }

def resultAfter (earlier : Array SyntaxError) :
    EStateM.Result SyntaxError State α → EStateM.Result SyntaxError State α
  | .ok value state => .ok value (state.after earlier)
  | .error error state => .error error (state.after earlier)

/-- A parser that does not look at the errors on record. -/
def Blind (parse : Parse α) : Prop :=
  ∀ earlier state, parse (state.after earlier) = resultAfter earlier (parse state)

theorem Blind.bind {parse : Parse α} {later : α → Parse β} (first : Blind parse)
    (rest : ∀ value, Blind (later value)) : Blind (parse >>= later) := by
  intro earlier state
  rw [bind_apply, bind_apply, first earlier state]
  cases parse state with
  | ok value middle => exact rest value earlier middle
  | error error middle => rfl

theorem Blind.recovering {parse : Parse Stmt} (inside : Blind parse) : Blind (Parse.recovering parse) := by
  intro earlier state
  unfold Parse.recovering
  rw [inside earlier state]
  cases parse state with
  | ok stmt after => rfl
  | error error after => simp only [resultAfter, State.after, Array.append_push]

theorem Composed.blind {parse : Parse α} (composed : Composed parse) : Blind parse := by
  induction composed with
  | pure | peek | atEnd | remaining | check | fail | skip | freshId | unaryOperators =>
    exact fun _ _ => rfl
  | report error => exact fun _ _ => by simp only [resultAfter, Parse.report, State.after, Array.append_push]
  | bind _ _ first rest => exact first.bind rest
  | recovering _ inside => exact inside.recovering

end Lox.Parse
