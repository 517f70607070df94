import Lox.Proofs.Machine.Restored

/-! The course of a run: all points that it passes, each with the calls in progress and with the class
to whose declaration the code belongs that runs there. Steps note the points and are the steps of the
evaluator otherwise. -/

namespace Lox

def Heap.holderWithin? (heap : Heap) (name : String) : (bound : Nat) → ClassRef → Option ClassRef
  | 0, _ => none
  | bound + 1, ref =>
    match (heap.classAt ref).methods.find? name with
    | some _ => some ref
    | none => (heap.classAt ref).superclass.bind (heap.holderWithin? name bound)

/-- The class from which a method comes, which is the class itself or the nearest one above it. -/
def Heap.holder? (heap : Heap) (ref : ClassRef) (name : String) : Option ClassRef :=
  heap.holderWithin? name heap.classes.size ref

namespace Course

/-- What an evaluation is about to do. -/
inductive Task where
  | evaluate (tree : Expr)
  | evaluateAll (trees : List Expr)
  | call (callee : Callable) (arguments : List Value)
  | invoke (closure : Closure) (arguments : List Value)
  | execute (tree : Stmt)
  | executeAll (trees : List Stmt)

inductive Stage where
  | started
  | finished

/-- The calls in progress, the latest first, and the class that the nearest class declaration around
the running code has made. A call is in progress from when it has passed its checks until it ends. -/
structure Place where
  calls : List Callable
  owner : Option ClassRef

namespace Place

/-- Outside all calls and classes. -/
def outermost : Place := ⟨[], none⟩

end Place

/-- The start or the end of a task, with the machine in which it starts or ends. -/
structure Point where
  task : Task
  stage : Stage
  place : Place
  machine : Machine

/-- A machine with the classes to which the functions in its heap belong, and with the points passed
so far, the latest first. -/
structure Journal where
  machine : Machine
  owners : FunctionRef → Option ClassRef
  points : List Point

namespace Journal

def start (capacity : Option Nat) : Journal := ⟨.start capacity, fun _ => none, []⟩

def note (journal : Journal) (task : Task) (stage : Stage) (place : Place) : Journal :=
  { journal with points := ⟨task, stage, place, journal.machine⟩ :: journal.points }

/-- The journal after a step, in which the functions that it has made belong to a class. -/
def advance (journal : Journal) (owner : Option ClassRef) (machine : Machine) : Journal where
  machine := machine
  owners ref := if ref.index < journal.machine.heap.functions.size then journal.owners ref else owner
  points := journal.points

end Journal

end Course

/-- A step that notes the course of a run. -/
abbrev Course := EStateM Halt Course.Journal

namespace Course

variable {α β : Type}

/-- A step that may make functions, which then belong to the given class. -/
def making (owner : Option ClassRef) (step : Eval α) : Course α := fun journal =>
  match step journal.machine with
  | .ok value machine => .ok value (journal.advance owner machine)
  | .error reason machine => .error reason (journal.advance owner machine)

def lift (step : Eval α) : Course α :=
  making none step

/-- A look at the journal. -/
def view (look : Journal → α) : Course α := fun journal => .ok (look journal) journal

/-- Notes the start of a task and its end, however it ends. -/
def observe (place : Place) (task : Task) (step : Course α) : Course α := fun journal =>
  match step (journal.note task .started place) with
  | .ok value after => .ok value (after.note task .finished place)
  | .error reason after => .error reason (after.note task .finished place)

/-- Runs a step inside a scope and comes back to the present one, however the step ends. -/
def within (scope : ScopeRef) (step : Course α) : Course α := fun journal =>
  let outer := journal.machine.scope
  match step { journal with machine.scope := scope } with
  | .ok value after => .ok value { after with machine.scope := outer }
  | .error reason after => .error reason { after with machine.scope := outer }

/-- Counts a call as in progress during a step, however the step ends. -/
def deeper (line : Nat) (step : Course α) : Course α := fun journal =>
  let depth := journal.machine.depth
  if depth < maxDepth then
    match step { journal with machine.depth := depth + 1 } with
    | .ok value after => .ok value { after with machine.depth := depth }
    | .error reason after => .error reason { after with machine.depth := depth }
  else
    lift (Eval.fault .stackOverflow line) journal

def erase : EStateM.Result Halt Journal α → EStateM.Result Halt Machine α
  | .ok value journal => .ok value journal.machine
  | .error reason journal => .error reason journal.machine

/-- The journal at the end of a step, also where it halts the run. -/
def ended : EStateM.Result Halt Journal α → Journal
  | .ok _ journal | .error _ journal => journal

/-- As many calls are in progress as the machine has counted, and not too many. -/
def Point.Counted (point : Point) : Prop :=
  point.machine.depth = point.place.calls.length ∧ point.place.calls.length ≤ maxDepth

structure Journal.Counted (calls : List Callable) (journal : Journal) : Prop where
  depth : journal.machine.depth = calls.length
  bound : calls.length ≤ maxDepth
  points : ∀ point ∈ journal.points, point.Counted

namespace Journal.Counted

variable {calls : List Callable} {journal : Journal}

theorem note (counted : journal.Counted calls) (task : Task) (stage : Stage)
    (owner : Option ClassRef) : (journal.note task stage ⟨calls, owner⟩).Counted calls := by
  refine ⟨counted.depth, counted.bound, ?_⟩
  intro point member
  rcases List.mem_cons.mp member with rfl | member
  · exact ⟨counted.depth, counted.bound⟩
  · exact counted.points point member

theorem move (counted : journal.Counted calls) {other : Journal}
    (depth : other.machine.depth = journal.machine.depth) (points : other.points = journal.points) :
    other.Counted calls :=
  ⟨depth.trans counted.depth, counted.bound, points ▸ counted.points⟩

end Journal.Counted

/-- A noting step that is a step of the evaluator apart from the notes, and that counts calls right
where the given ones are in progress. -/
structure Follows (calls : List Callable) (course : Course α) (step : Eval α) : Prop where
  erases : ∀ journal, erase (course journal) = step journal.machine
  counts : ∀ journal, journal.Counted calls → (ended (course journal)).Counted calls

namespace Follows

variable {calls : List Callable}

theorem pure (value : α) : Follows calls (Pure.pure value) (Pure.pure value) :=
  ⟨fun _ => rfl, fun _ counted => counted⟩

theorem bind {course : Course α} {step : Eval α} {later : α → Course β} {later' : α → Eval β}
    (first : Follows calls course step) (rest : ∀ value, Follows calls (later value) (later' value)) :
    Follows calls (course >>= later) (step >>= later') where
  erases journal := by
    rw [bind_apply, bind_apply, ← first.erases journal]
    cases course journal with
    | ok value middle => exact (rest value).erases middle
    | error reason middle => rfl
  counts journal counted := by
    have here := first.counts journal counted
    cases ran : course journal with
    | ok value middle =>
      rw [ran] at here
      rw [bind_ok ran]
      exact (rest value).counts middle here
    | error reason middle =>
      rw [ran] at here
      rw [bind_error ran]
      exact here

theorem discard {course : Course α} {step : Eval α} (first : Follows calls course step) :
    Follows calls (Functor.discard course) (Functor.discard step) :=
  first.bind fun _ => pure ()

theorem making (owner : Option ClassRef) {step : Eval α} (composed : step.Composed) :
    Follows calls (making owner step) step where
  erases journal := by
    unfold Course.making
    cases step journal.machine <;> rfl
  counts journal counted := by
    have steady := (Eval.Along.composed Machine.Restores.kept composed journal.machine).depth
    unfold Eval.after at steady
    unfold Course.making
    cases ran : step journal.machine <;>
      · simp only [ran] at steady
        exact counted.move steady rfl

theorem lift {step : Eval α} (composed : step.Composed) : Follows calls (lift step) step :=
  making none composed

/-- A look changes nothing, whatever it finds. -/
theorem view (look : Journal → α) {course : α → Course β} {step : Eval β}
    (rest : ∀ value, Follows calls (course value) step) :
    Follows calls (view look >>= course) step where
  erases journal := (rest (look journal)).erases journal
  counts journal counted := (rest (look journal)).counts journal counted

theorem observe {place : Place} (task : Task) {course : Course α} {step : Eval α}
    (inside : Follows place.calls course step) :
    Follows place.calls (observe place task course) step where
  erases journal := by
    have here := inside.erases (journal.note task .started place)
    unfold Course.observe
    cases ran : course (journal.note task .started place) <;>
      · rw [ran] at here
        exact here
  counts journal counted := by
    have here := inside.counts _ (counted.note task .started place.owner)
    unfold Course.observe
    cases ran : course (journal.note task .started place) <;>
      · simp only [ran] at here ⊢
        exact here.note task .finished place.owner

theorem within (scope : ScopeRef) {course : Course α} {step : Eval α}
    (inside : Follows calls course step) :
    Follows calls (within scope course) (Eval.within scope step) where
  erases journal := by
    have here := inside.erases { journal with machine.scope := scope }
    unfold Course.within Eval.within
    dsimp only at here ⊢
    rw [← here]
    cases course { journal with machine.scope := scope } <;> rfl
  counts journal counted := by
    have here := inside.counts { journal with machine.scope := scope } (counted.move rfl rfl)
    unfold Course.within
    dsimp only
    cases ran : course { journal with machine.scope := scope } <;>
      · rw [ran] at here
        exact here.move rfl rfl

/-- Inside there is one more call in progress, for which there was room. -/
theorem deeper {callee : Callable} (line : Nat) {course : Course α} {step : Eval α}
    (inside : Follows (callee :: calls) course step) :
    Follows calls (deeper line course) (Eval.deeper line step) where
  erases journal := by
    have here := inside.erases { journal with machine.depth := journal.machine.depth + 1 }
    unfold Course.deeper Eval.deeper
    dsimp only at here ⊢
    split
    · rw [← here]
      cases course { journal with machine.depth := journal.machine.depth + 1 } <;> rfl
    · rfl
  counts journal counted := by
    unfold Course.deeper
    dsimp only
    split
    · rename_i room
      have entered : Journal.Counted (callee :: calls)
          { journal with machine.depth := journal.machine.depth + 1 } := by
        have depth := counted.depth
        refine ⟨by simp [depth], ?_, counted.points⟩
        rw [List.length_cons]
        omega
      have here := inside.counts _ entered
      cases ran : course { journal with machine.depth := journal.machine.depth + 1 } <;>
        · rw [ran] at here
          exact ⟨counted.depth, counted.bound, here.points⟩
    · exact counted.move rfl rfl

end Follows

end Course

end Lox
