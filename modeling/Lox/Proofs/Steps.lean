/-! Steps one after another. How the first of two steps ends decides what both of them do. -/

namespace Lox

variable {ε σ α β : Type} {step : EStateM ε σ α} {later : α → EStateM ε σ β} {state middle : σ}

theorem bind_apply (step : EStateM ε σ α) (later : α → EStateM ε σ β) (state : σ) :
    (step >>= later) state =
      match step state with
      | .ok value middle => later value middle
      | .error reason middle => .error reason middle :=
  rfl

theorem bind_ok (ran : step state = .ok value middle) :
    (step >>= later) state = later value middle := by
  rw [bind_apply, ran]

theorem bind_error (ran : step state = .error reason middle) :
    (step >>= later) state = .error reason middle := by
  rw [bind_apply, ran]

/-- If both steps succeed, so does the first one. -/
theorem bind_eq_ok (ran : (step >>= later) state = .ok result last) :
    ∃ value middle, step state = .ok value middle ∧ later value middle = .ok result last := by
  cases first : step state with
  | ok value middle => exact ⟨value, middle, rfl, by rwa [bind_ok first] at ran⟩
  | error reason middle =>
    rw [bind_error first] at ran
    cases ran

/-- If one of the steps fails, it is the first one or, after that, the second one. -/
theorem bind_eq_error (ran : (step >>= later) state = .error reason last) :
    step state = .error reason last ∨
      ∃ value middle, step state = .ok value middle ∧ later value middle = .error reason last := by
  cases first : step state with
  | ok value middle => exact .inr ⟨value, middle, rfl, by rwa [bind_ok first] at ran⟩
  | error cause middle =>
    rw [bind_error first] at ran
    cases ran
    exact .inl rfl

end Lox
