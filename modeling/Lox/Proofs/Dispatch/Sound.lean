import Lox.Proofs.Course.Evaluate
import Lox.Proofs.Dispatch.Nested
import Lox.Proofs.Lexical.Steps
import Lox.Proofs.Machine.Methods
import Lox.Proofs.Tree.Receivers

/-! What a journal shows of classes. Every class was made by a class declaration that the run has
executed, code belongs to the class of the nearest declaration around it, and `this` and `super` are
right at every point at which they were evaluated. -/

namespace Lox

/-- A class declaration. -/
structure Declaration where
  name : Name
  superclass : Option Superclass
  methods : List Routine

namespace Declaration

def toStmt (declaration : Declaration) : Stmt :=
  .declareClass declaration.name declaration.superclass declaration.methods

/-- The places of `this` and `super` in the methods. -/
def receivers (declaration : Declaration) : List Expr :=
  declaration.methods.flatMap Routine.receivers

end Declaration

/-- A method bound to an instance. -/
structure Heap.Bound (heap : Heap) (method : Closure) (receiver : InstanceRef) (closure : Closure) :
    Prop where
  routine : closure.routine = method.routine
  isInitializer : closure.isInitializer = method.isInitializer
  around : heap.scopes.enclosing? closure.scope = some method.scope
  this : heap.scopes.valueIn? closure.scope "this" = some (.object receiver)

namespace Course

/-- The class in the heap is the one that was made when the run executed the declaration at the point.
Its superclass is the value that the name of the superclass had at that point, and of several methods
of one name the class has the last one. -/
structure Point.Makes (setting : Setting) (point : Point) (declaration : Declaration) (heap : Heap)
    (owner : ClassRef) : Prop where
  task : point.task = .execute declaration.toStmt
  stage : point.stage = .started
  next : owner.index = point.machine.heap.classes.size
  made : owner.index < heap.classes.size
  base : declaration.superclass = none → (heap.classAt owner).superclass = none
  derived : ∀ extended ∈ declaration.superclass, ∃ parent,
    Eval.readSuperclass setting extended point.machine = .ok parent point.machine ∧
      (heap.classAt owner).superclass = some parent
  methods : ∀ name, ((heap.classAt owner).methods.find? name).map (·.routine) =
    declaration.methods.reverse.find? (·.name.text = name)

/-- The class to which code belongs was made by a declaration in whose methods it stands. -/
def Belongs (setting : Setting) (points : List Point) (heap : Heap) (owner : Option ClassRef)
    (receivers : List Expr) : Prop :=
  ∀ around ∈ owner, ∃ point ∈ points, ∃ declaration,
    point.Makes setting declaration heap around ∧ receivers ⊆ declaration.receivers

/-- At a point `this` is an instance of the class to which the code belongs, or of one that inherits
from it, and it is bound right inside the scope in which the methods of that class were declared. -/
structure Point.Present (setting : Setting) (points : List Point) (point : Point) (tree : Expr)
    (around : ClassRef) (receiver : InstanceRef) : Prop where
  owner : point.place.owner = some around
  belongs : Belongs setting points point.machine.heap (some around) [tree]
  denotes : ∃ inner home, point.machine.heap.Denotes point.machine.scope receiver around inner home
  isA : point.machine.heap.IsA receiver around

/-- At a point `super` gives the first method on the way up from the superclass of the class to which
the code belongs, bound to the instance that `this` denotes. -/
def Point.Dispatches (setting : Setting) (points : List Point) (point : Point) (tree : Expr)
    (method : Name) : Prop :=
  ∃ around receiver parent, point.Present setting points tree around receiver ∧
    (point.machine.heap.classAt around).superclass = some parent ∧
    (∀ holder found, point.machine.heap.Finds method.text parent holder found →
      ∀ fuel, ∃ ref after, Eval.evaluate setting (fuel + 1) tree point.machine =
          .ok (.callable (.ofFunction ref)) after ∧
        after.heap.Bound found receiver (after.heap.closureAt ref)) ∧
    ((∀ holder found, ¬ point.machine.heap.Finds method.text parent holder found) →
      ∀ fuel, Eval.evaluate setting (fuel + 1) tree point.machine =
        .error (.fault ⟨.undefinedProperty method.text, method.line⟩) point.machine)

/-- What is right at a point where `this` or `super` is about to be evaluated. -/
def Point.Right (setting : Setting) (points : List Point) (point : Point) : Prop :=
  match point.stage, point.task with
  | .started, .evaluate (.this id line) => ∃ around receiver,
    point.Present setting points (.this id line) around receiver ∧
      ∀ fuel, Eval.evaluate setting (fuel + 1) (.this id line) point.machine =
        .ok (.object receiver) point.machine
  | .started, .evaluate (.super id line method) =>
    point.Dispatches setting points (.super id line method) method
  | _, _ => True

/-- A routine in the scope of its declaration, with the class to which it belongs. -/
def Placed (setting : Setting) (table : Entries) (points : List Point) (heap : Heap)
    (closure : Closure) (owner : Option ClassRef) : Prop :=
  ∃ scoping, heap.Nested scoping closure.scope owner ∧ closure.routine.Addressed table scoping ∧
    Belongs setting points heap owner closure.routine.receivers

/-- A class with the declaration that has made it and the scope in which its methods are declared. -/
def Declared (setting : Setting) (table : Entries) (points : List Point) (heap : Heap)
    (owner : ClassRef) : Prop :=
  ∃ point ∈ points, ∃ declaration scoping scope, point.Makes setting declaration heap owner ∧
    heap.Home owner scoping scope ∧
    (heap.classAt owner).methods = Eval.methodTable scope declaration.methods ∧
    Routine.AllAddressed table (Scoping.frame ["this"] :: scoping) declaration.methods

structure Sound (setting : Setting) (table : Entries) (journal : Journal) : Prop where
  closed : journal.machine.heap.Closed
  functions : ∀ ref, ref.index < journal.machine.heap.functions.size →
    Placed setting table journal.points journal.machine.heap (journal.machine.heap.closureAt ref)
      (journal.owners ref)
  classes : ∀ owner, owner.index < journal.machine.heap.classes.size →
    Declared setting table journal.points journal.machine.heap owner
  points : ∀ point ∈ journal.points, point.Right setting journal.points

variable {setting : Setting} {table : Entries} {points points' : List Point} {heap heap' : Heap}
  {journal journal' : Journal}

theorem Point.Makes.later {point : Point} {declaration : Declaration}
    (makes : point.Makes setting declaration heap owner) (later : heap.Later heap') :
    point.Makes setting declaration heap' owner := by
  have same := later.classAt makes.made
  exact {
    task := makes.task
    stage := makes.stage
    next := makes.next
    made := Nat.lt_of_lt_of_le makes.made later.classes
    base := by rw [same]; exact makes.base
    derived := by rw [same]; exact makes.derived
    methods := by rw [same]; exact makes.methods }

theorem Belongs.later (belongs : Belongs setting points heap owner receivers)
    (more : points ⊆ points') (later : heap.Later heap') :
    Belongs setting points' heap' owner receivers := by
  intro around same
  obtain ⟨point, member, declaration, makes, stands⟩ := belongs around same
  exact ⟨point, more member, declaration, makes.later later, stands⟩

/-- Part of some code belongs where all of it does. -/
theorem Belongs.part (belongs : Belongs setting points heap owner receivers)
    (part : receivers' ⊆ receivers) : Belongs setting points heap owner receivers' := by
  intro around same
  obtain ⟨point, member, declaration, makes, stands⟩ := belongs around same
  exact ⟨point, member, declaration, makes, List.Subset.trans part stands⟩

theorem Point.Present.more {point : Point} (present : point.Present setting points tree around receiver)
    (more : points ⊆ points') : point.Present setting points' tree around receiver :=
  { present with belongs := present.belongs.later more (.refl _) }

theorem Point.Right.more {point : Point} (right : point.Right setting points)
    (more : points ⊆ points') : point.Right setting points' := by
  unfold Point.Right at right ⊢
  split at right
  · obtain ⟨around, receiver, present, denoted⟩ := right
    exact ⟨around, receiver, present.more more, denoted⟩
  · obtain ⟨around, receiver, parent, present, dispatched⟩ := right
    exact ⟨around, receiver, parent, present.more more, dispatched⟩
  · exact trivial

theorem Placed.later {closure : Closure} (placed : Placed setting table points heap closure owner)
    (more : points ⊆ points') (later : heap.Later heap') :
    Placed setting table points' heap' closure owner := by
  obtain ⟨scoping, nested, addressed, belongs⟩ := placed
  exact ⟨scoping, nested.later later, addressed, belongs.later more later⟩

theorem Declared.later (declared : Declared setting table points heap owner)
    (more : points ⊆ points') (later : heap.Later heap') :
    Declared setting table points' heap' owner := by
  obtain ⟨point, member, declaration, scoping, scope, makes, home, own, addressed⟩ := declared
  refine ⟨point, more member, declaration, scoping, scope, makes.later later, home.later later, ?_,
    addressed⟩
  rw [later.classAt makes.made]
  exact own

namespace Sound

/-- Only functions and classes that are new need a place of their own. -/
theorem advance (sound : Sound setting table journal) {machine : Machine} {owner : Option ClassRef}
    (closed : machine.heap.Closed) (later : journal.machine.heap.Later machine.heap)
    (functions : ∀ ref : FunctionRef, journal.machine.heap.functions.size ≤ ref.index →
      ref.index < machine.heap.functions.size →
      Placed setting table journal.points machine.heap (machine.heap.closureAt ref) owner)
    (classes : ∀ ref : ClassRef, journal.machine.heap.classes.size ≤ ref.index →
      ref.index < machine.heap.classes.size →
      Declared setting table journal.points machine.heap ref) :
    Sound setting table (journal.advance owner machine) where
  closed := closed
  functions ref inside := by
    by_cases former : ref.index < journal.machine.heap.functions.size
    · simp only [Journal.advance, if_pos former, later.closureAt former]
      exact (sound.functions ref former).later (List.Subset.refl _) later
    · simp only [Journal.advance, if_neg former]
      exact functions ref (Nat.le_of_not_lt former) inside
  classes ref inside := by
    by_cases former : ref.index < journal.machine.heap.classes.size
    · exact (sound.classes ref former).later (List.Subset.refl _) later
    · exact classes ref (Nat.le_of_not_lt former) inside
  points := sound.points

/-- Another point may be noted where it is right. -/
theorem note (sound : Sound setting table journal)
    (right : Point.Right setting journal.points ⟨task, stage, place, journal.machine⟩) :
    Sound setting table (journal.note task stage place) where
  closed := sound.closed
  functions ref inside := (sound.functions ref inside).later (List.subset_cons_self ..) (.refl _)
  classes ref inside := (sound.classes ref inside).later (List.subset_cons_self ..) (.refl _)
  points point member := by
    rcases List.mem_cons.mp member with rfl | member
    · exact right.more (List.subset_cons_self ..)
    · exact (sound.points point member).more (List.subset_cons_self ..)

/-- The scope of the machine and its depth play no part. -/
theorem move (sound : Sound setting table journal) {machine : Machine}
    (heap : machine.heap = journal.machine.heap) :
    Sound setting table { journal with machine := machine } where
  closed := heap ▸ sound.closed
  functions := heap ▸ sound.functions
  classes := heap ▸ sound.classes
  points := sound.points

theorem start (setting : Setting) (table : Entries) (capacity : Option Nat) :
    Sound setting table (.start capacity) where
  closed := Heap.closed_start
  functions _ inside := by cases inside
  classes _ inside := by cases inside
  points := nofun

/-- A method of a class, bound to an instance of it, belongs to the class. -/
theorem method (sound : Sound setting table journal) {holder : ClassRef} {method closure : Closure}
    (known : holder.index < journal.machine.heap.classes.size)
    (own : (journal.machine.heap.classAt holder).methods.find? name = some method)
    (later : journal.machine.heap.Later heap') (bound : heap'.Bound method receiver closure)
    (isA : heap'.IsA receiver holder) :
    Placed setting table journal.points heap' closure (some holder) := by
  obtain ⟨point, member, declaration, scoping, scope, makes, home, held, addressed⟩ :=
    sound.classes holder known
  rw [held] at own
  obtain ⟨listed, declared⟩ := Eval.mem_of_find?_methodTable own
  have houses : journal.machine.heap.Houses scope holder := by
    refine ⟨known, ?_⟩
    intro wanted other found
    rw [held] at found
    exact (Eval.mem_of_find?_methodTable found).2
  have around := bound.around
  rw [declared] at around
  refine ⟨_, (home.later later).enter (houses.later later) isA around bound.this,
    bound.routine ▸ addressed.of_mem listed, ?_⟩
  rintro _ ⟨⟩
  refine ⟨point, member, declaration, makes.later later, ?_⟩
  rw [bound.routine]
  intro tree stands
  exact List.mem_flatMap.mpr ⟨method.routine, listed, stands⟩

end Sound

end Course

end Lox
