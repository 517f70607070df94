import Lox.Proofs.Dispatch.Sound

/-! Steps from sound journals. Wherever a step ends, the journal is sound, and where it does not halt the
run the heap has only got more and the machine is in the scope in which it was. -/

namespace Lox

/-- The heap contains what a statement returns, if it returns anything. -/
def Flow.Known (heap : Heap) : Flow → Prop
  | .normal => True
  | .returned value => value.Known heap

namespace Course

variable {α β : Type} {setting : Setting} {table : Entries} {journal middle : Journal}
  {post mid : Heap → α → Prop}

/-- What a step that does not halt the run makes of a journal. -/
structure After (setting : Setting) (table : Entries) (journal after : Journal) : Prop where
  sound : Sound setting table after
  later : journal.machine.heap.Later after.machine.heap
  scope : after.machine.scope = journal.machine.scope
  points : journal.points ⊆ after.points

/-- A step from a journal, with what is known of the heap and the value with which it ends. -/
def Runs (setting : Setting) (table : Entries) (course : Course α) (journal : Journal)
    (post : Heap → α → Prop) : Prop :=
  match course journal with
  | .ok value after => After setting table journal after ∧ post after.machine.heap value
  | .error _ after => Sound setting table after

namespace After

theorem refl (sound : Sound setting table journal) : After setting table journal journal :=
  ⟨sound, .refl _, rfl, List.Subset.refl _⟩

theorem trans (first : After setting table one two) (second : After setting table two three) :
    After setting table one three :=
  ⟨second.sound, first.later.trans second.later, second.scope.trans first.scope,
    List.Subset.trans first.points second.points⟩

end After

namespace Runs

theorem pure (sound : Sound setting table journal) (held : post journal.machine.heap value) :
    Runs setting table (Pure.pure value) journal post :=
  ⟨.refl sound, held⟩

theorem bind {course : Course α} {later : α → Course β} {post : Heap → β → Prop}
    (first : Runs setting table course journal mid)
    (rest : ∀ value after, After setting table journal after → mid after.machine.heap value →
      Runs setting table (later value) after post) :
    Runs setting table (course >>= later) journal post := by
  unfold Runs at first ⊢
  cases ran : course journal with
  | error reason after =>
    rw [ran] at first
    rw [bind_error ran]
    exact first
  | ok value after =>
    rw [ran] at first
    rw [bind_ok ran]
    have second := rest value after first.1 first.2
    unfold Runs at second
    cases ran' : later value after with
    | error reason last =>
      rw [ran'] at second
      exact second
    | ok value' last =>
      rw [ran'] at second
      exact ⟨first.1.trans second.1, second.2⟩

theorem discard {course : Course α} (first : Runs setting table course journal mid) :
    Runs setting table (Functor.discard course) journal fun _ _ => True :=
  first.bind fun _ _ after _ => .pure after.sound trivial

theorem view {look : Journal → β} {later : β → Course α}
    (rest : Runs setting table (later (look journal)) journal post) :
    Runs setting table (view look >>= later) journal post :=
  rest

theorem within {course : Course α} (scope : ScopeRef)
    (inside : Runs setting table course { journal with machine.scope := scope } post) :
    Runs setting table (within scope course) journal post := by
  unfold Runs Course.within at *
  dsimp only at *
  cases ran : course { journal with machine.scope := scope } with
  | error reason after =>
    rw [ran] at inside
    exact inside.move rfl
  | ok value after =>
    rw [ran] at inside
    exact ⟨⟨inside.1.sound.move rfl, inside.1.later, rfl, inside.1.points⟩, inside.2⟩

/-- Too many calls leave the journal as it is. -/
theorem deeper {course : Course α} (line : Nat) (sound : Sound setting table journal)
    (inside : Runs setting table course
      { journal with machine.depth := journal.machine.depth + 1 } post) :
    Runs setting table (deeper line course) journal post := by
  unfold Runs Course.deeper at *
  dsimp only at *
  by_cases room : journal.machine.depth < maxDepth
  · rw [if_pos room]
    cases ran : course { journal with machine.depth := journal.machine.depth + 1 } with
    | error reason after =>
      rw [ran] at inside
      exact inside.move rfl
    | ok value after =>
      rw [ran] at inside
      exact ⟨⟨inside.1.sound.move rfl, inside.1.later, inside.1.scope, inside.1.points⟩, inside.2⟩
  · rw [if_neg room]
    exact sound.advance sound.closed (.refl _) (fun _ old new => absurd new (Nat.not_lt.mpr old))
      (fun _ old new => absurd new (Nat.not_lt.mpr old))

/-- The end of a task is always noted rightly. -/
theorem observe {course : Course α} {place : Place} {task : Task}
    (sound : Sound setting table journal)
    (right : Point.Right setting journal.points ⟨task, .started, place, journal.machine⟩)
    (inside : Sound setting table (journal.note task .started place) →
      Runs setting table course (journal.note task .started place) post) :
    Runs setting table (observe place task course) journal post := by
  have steps := inside (sound.note right)
  unfold Runs Course.observe at *
  cases ran : course (journal.note task .started place) with
  | error reason after =>
    rw [ran] at steps
    exact steps.note trivial
  | ok value after =>
    rw [ran] at steps
    refine ⟨⟨steps.1.sound.note trivial, steps.1.later, steps.1.scope, ?_⟩, steps.2⟩
    intro point member
    exact List.mem_cons_of_mem _ (steps.1.points (List.mem_cons_of_mem _ member))

/-- A step with its result. -/
theorem making_ok {step : Eval α} {owner : Option ClassRef} {machine : Machine}
    (ran : step journal.machine = .ok value machine)
    (sound : Sound setting table (journal.advance owner machine))
    (later : journal.machine.heap.Later machine.heap) (scope : machine.scope = journal.machine.scope)
    (held : post machine.heap value) : Runs setting table (making owner step) journal post := by
  unfold Runs making
  rw [ran]
  exact ⟨⟨sound, later, scope, List.Subset.refl _⟩, held⟩

theorem advance_same (sound : Sound setting table journal) {machine : Machine}
    {owner : Option ClassRef} (heap : machine.heap = journal.machine.heap) :
    Sound setting table (journal.advance owner machine) :=
  sound.advance (heap ▸ sound.closed) (heap ▸ .refl _)
    (fun _ old new => absurd new (Nat.not_lt.mpr (heap ▸ old)))
    (fun _ old new => absurd new (Nat.not_lt.mpr (heap ▸ old)))

/-- A step that changes nothing in the heap. -/
theorem still {step : Eval α} {owner : Option ClassRef} {machine : Machine}
    (sound : Sound setting table journal) (ran : step journal.machine = .ok value machine)
    (heap : machine.heap = journal.machine.heap) (scope : machine.scope = journal.machine.scope)
    (held : post journal.machine.heap value) :
    Runs setting table (making owner step) journal post :=
  making_ok ran (advance_same sound heap) (heap ▸ .refl _) scope (heap ▸ held)

theorem failed {step : Eval α} {owner : Option ClassRef} {machine : Machine}
    (sound : Sound setting table journal) (ran : step journal.machine = .error reason machine)
    (heap : machine.heap = journal.machine.heap) :
    Runs setting table (making owner step) journal post := by
  unfold Runs making
  rw [ran]
  exact advance_same sound heap

/-- New scopes and new values of names need nothing to be known of functions and classes. -/
theorem changed {step : Eval α} {owner : Option ClassRef} {machine : Machine}
    (sound : Sound setting table journal) (ran : step journal.machine = .ok value machine)
    (closed : machine.heap.Closed) (later : journal.machine.heap.Later machine.heap)
    (functions : machine.heap.functions.size = journal.machine.heap.functions.size)
    (classes : machine.heap.classes.size = journal.machine.heap.classes.size)
    (scope : machine.scope = journal.machine.scope) (held : post machine.heap value) :
    Runs setting table (making owner step) journal post :=
  making_ok ran
    (sound.advance closed later (fun _ old new => absurd (functions ▸ new) (Nat.not_lt.mpr old))
      (fun _ old new => absurd (classes ▸ new) (Nat.not_lt.mpr old))) later scope held

/-- Functions that a composed step makes belong to the same class, whichever of its parts makes them. -/
theorem making_bind {step : Eval α} {later : α → Eval β} {owner : Option ClassRef}
    {post : Heap → β → Prop} (first : Runs setting table (making owner step) journal mid)
    (rest : ∀ value after, After setting table journal after → mid after.machine.heap value →
      Runs setting table (making owner (later value)) after post) :
    Runs setting table (making owner (step >>= later)) journal post := by
  have same (machine machine' : Machine) (more : journal.machine.heap.functions.size ≤
      machine.heap.functions.size) :
      (journal.advance owner machine).advance owner machine' = journal.advance owner machine' := by
    unfold Journal.advance
    simp only [Journal.mk.injEq, true_and, and_true]
    funext ref
    by_cases former : ref.index < journal.machine.heap.functions.size
    · simp only [if_pos (Nat.lt_of_lt_of_le former more)]
    · simp only [former, if_false, ite_self]
  unfold Runs making at first ⊢
  cases ran : step journal.machine with
  | error reason machine =>
    rw [ran] at first
    rw [bind_error ran]
    exact first
  | ok value machine =>
    rw [ran] at first
    rw [bind_ok ran]
    have second := rest value _ first.1 first.2
    have joined (machine' : Machine) := same machine machine' first.1.later.functions
    unfold Runs making at second
    have there : (journal.advance owner machine).machine = machine := rfl
    rw [there] at second
    cases ran' : later value machine with
    | error reason machine' =>
      rw [ran'] at second
      simp only [joined] at second
      exact second
    | ok value' machine' =>
      rw [ran'] at second
      simp only [joined] at second
      exact ⟨first.1.trans second.1, second.2⟩

theorem weaken {course : Course α} {post' : Heap → α → Prop}
    (runs : Runs setting table course journal post)
    (implies : ∀ heap value, post heap value → post' heap value) :
    Runs setting table course journal post' := by
  unfold Runs at *
  cases ran : course journal with
  | error reason after =>
    rw [ran] at runs
    exact runs
  | ok value after =>
    rw [ran] at runs
    exact ⟨runs.1, implies _ _ runs.2⟩

end Runs

end Course

end Lox
