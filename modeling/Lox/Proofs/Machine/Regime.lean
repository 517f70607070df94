import Lox.Proofs.Steps

/-! Steps under a regime. However a step ends, it leads from a good state to a good state that follows on
it. -/

namespace Lox

/-- What is good of states and how states follow on each other. -/
structure Regime (σ : Type) where
  good : σ → Prop
  later : σ → σ → Prop
  refl : ∀ state, later state state
  trans : ∀ {one two three}, later one two → later two three → later one three

variable {ε σ α β : Type} {regime : Regime σ} {state : σ} {post : σ → α → Prop}

/-- A step from a state, with what is known of the state and the value with which it ends. -/
def Regime.Runs (regime : Regime σ) (step : EStateM ε σ α) (state : σ) (post : σ → α → Prop) : Prop :=
  match step state with
  | .ok value after => regime.good after ∧ regime.later state after ∧ post after value
  | .error _ after => regime.good after ∧ regime.later state after

namespace Regime.Runs

theorem pure (good : regime.good state) (held : post state value) :
    regime.Runs (Pure.pure value : EStateM ε σ α) state post :=
  ⟨good, regime.refl state, held⟩

theorem ok {step : EStateM ε σ α} (ran : step state = .ok value after) (good : regime.good after)
    (later : regime.later state after) (held : post after value) : regime.Runs step state post := by
  unfold Runs
  rw [ran]
  exact ⟨good, later, held⟩

theorem error {step : EStateM ε σ α} (ran : step state = .error reason after)
    (good : regime.good after) (later : regime.later state after) : regime.Runs step state post := by
  unfold Runs
  rw [ran]
  exact ⟨good, later⟩

/-- A step either halts or gives what is known of it. -/
theorem cases {step : EStateM ε σ α} (runs : regime.Runs step state post) :
    (∃ value after, step state = .ok value after ∧ regime.good after ∧ regime.later state after ∧
      post after value) ∨
    ∃ reason after, step state = .error reason after ∧ regime.good after ∧
      regime.later state after := by
  unfold Runs at runs
  cases ran : step state with
  | ok value after =>
    rw [ran] at runs
    exact .inl ⟨value, after, rfl, runs⟩
  | error reason after =>
    rw [ran] at runs
    exact .inr ⟨reason, after, rfl, runs⟩

theorem bind {mid : σ → α → Prop} {post : σ → β → Prop} {step : EStateM ε σ α}
    {next : α → EStateM ε σ β} (first : regime.Runs step state mid)
    (rest : ∀ value after, regime.good after → regime.later state after → mid after value →
      regime.Runs (next value) after post) : regime.Runs (step >>= next) state post := by
  rcases first.cases with ⟨value, middle, ran, good, later, held⟩ |
      ⟨reason, middle, ran, good, later⟩
  · have composed : (step >>= next) state = next value middle := bind_ok ran
    rcases (rest value middle good later held).cases with
      ⟨value', last, ran', good', later', held'⟩ | ⟨reason, last, ran', good', later'⟩
    · exact .ok (composed.trans ran') good' (regime.trans later later') held'
    · exact .error (composed.trans ran') good' (regime.trans later later')
  · exact .error (bind_error ran) good later

theorem weaken {post' : σ → α → Prop} {step : EStateM ε σ α} (runs : regime.Runs step state post)
    (implies : ∀ after value, post after value → post' after value) :
    regime.Runs step state post' := by
  rcases runs.cases with ⟨value, after, ran, good, later, held⟩ |
      ⟨reason, after, ran, good, later⟩
  · exact .ok ran good later (implies _ _ held)
  · exact .error ran good later

end Regime.Runs

end Lox
