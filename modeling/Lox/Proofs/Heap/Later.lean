import Lox.Proofs.Heap.Classes
import Lox.Proofs.Lexical.Linked

/-! How a heap changes. What it refers to it contains, and it only gets more of everything: scopes stay
nested as they are, functions and classes stay what they are, instances stay instances of their classes,
and no scope gains or loses what classes bind. -/

namespace Lox

namespace Scopes

theorem mem_of_valueIn?_define {scopes : Scopes}
    (found : (scopes.define scope name value).valueIn? other wanted = some held) :
    held = value ∨ scopes.valueIn? other wanted = some held := by
  unfold valueIn? at found ⊢
  rw [cells_define] at found
  split at found
  · cases present : scopes.cells[other.index]? with
    | none => simp [present] at found
    | some cell =>
      simp only [present, Option.map_some, Option.bind_some, Bindings.find?_insert] at found
      split at found
      · exact .inl (Option.some.inj found).symm
      · exact .inr found
  · exact .inr found

/-- Writing one name leaves the other names as they are. -/
theorem valueIn?_define_of_ne (scopes : Scopes) (scope other : ScopeRef) (value : Value)
    (different : wanted ≠ name) :
    (scopes.define scope name value).valueIn? other wanted = scopes.valueIn? other wanted := by
  unfold valueIn?
  rw [cells_define]
  split
  · cases scopes.cells[other.index]? with
    | none => rfl
    | some cell => simp [Bindings.find?_insert, different]
  · rfl

end Scopes

/-- The heap contains what the value refers to. -/
def Value.Known (heap : Heap) : Value → Prop
  | .callable (.ofFunction ref) => ref.index < heap.functions.size
  | .callable (.ofClass ref) => ref.index < heap.classes.size
  | .object ref => ref.index < heap.instances.size
  | _ => True

namespace Heap

/-- The heap contains all that it refers to. -/
structure Closed (heap : Heap) : Prop where
  bound : ∀ {scope name value}, heap.scopes.valueIn? scope name = some value → value.Known heap
  fields : ∀ {ref name value}, heap.field? ref name = some value → value.Known heap
  owners : ∀ {ref : InstanceRef}, ref.index < heap.instances.size →
    (heap.instanceAt ref).owner.index < heap.classes.size
  ranked : heap.Ranked

/-- What evaluation does to a heap. -/
structure Later (heap heap' : Heap) : Prop where
  nested : ∀ {scope outer}, heap.scopes.enclosing? scope = some outer →
    heap'.scopes.enclosing? scope = some outer
  receivers : ∀ {scope outer name}, heap.scopes.enclosing? scope = some outer →
    name = "this" ∨ name = "super" → heap'.scopes.valueIn? scope name = heap.scopes.valueIn? scope name
  functions : heap.functions.size ≤ heap'.functions.size
  classes : heap.classes.size ≤ heap'.classes.size
  instances : heap.instances.size ≤ heap'.instances.size
  closureAt : ∀ {ref : FunctionRef}, ref.index < heap.functions.size →
    heap'.closureAt ref = heap.closureAt ref
  classAt : ∀ {ref : ClassRef}, ref.index < heap.classes.size → heap'.classAt ref = heap.classAt ref
  owner : ∀ {ref : InstanceRef}, ref.index < heap.instances.size →
    (heap'.instanceAt ref).owner = (heap.instanceAt ref).owner

variable {heap heap' : Heap}

namespace Later

theorem refl (heap : Heap) : heap.Later heap :=
  ⟨id, fun _ _ => rfl, Nat.le_refl _, Nat.le_refl _, Nat.le_refl _, fun _ => rfl, fun _ => rfl,
    fun _ => rfl⟩

theorem trans (first : Later one two) (second : Later two three) : Later one three where
  nested link := second.nested (first.nested link)
  receivers link name := (second.receivers (first.nested link) name).trans (first.receivers link name)
  functions := Nat.le_trans first.functions second.functions
  classes := Nat.le_trans first.classes second.classes
  instances := Nat.le_trans first.instances second.instances
  closureAt inside :=
    (second.closureAt (Nat.lt_of_lt_of_le inside first.functions)).trans (first.closureAt inside)
  classAt inside :=
    (second.classAt (Nat.lt_of_lt_of_le inside first.classes)).trans (first.classAt inside)
  owner inside :=
    (second.owner (Nat.lt_of_lt_of_le inside first.instances)).trans (first.owner inside)

end Later

end Heap

theorem Value.Known.later {heap heap' : Heap} {value : Value} (known : value.Known heap)
    (later : heap.Later heap') : value.Known heap' := by
  cases value with
  | callable callee =>
    cases callee with
    | clock => exact trivial
    | ofFunction ref => exact Nat.lt_of_lt_of_le known later.functions
    | ofClass ref => exact Nat.lt_of_lt_of_le known later.classes
  | object ref => exact Nat.lt_of_lt_of_le known later.instances
  | _ => exact trivial

namespace Heap

variable {heap heap' : Heap}

theorem classAt_absent (outside : ¬ ref.index < heap.classes.size) : heap.classAt ref = default := by
  simp [classAt, Array.getD_eq_getD_getElem?, outside]

/-- Only classes that exist have superclasses. -/
theorem known_of_superclass (superclass : (heap.classAt ref).superclass = some parent) :
    ref.index < heap.classes.size := by
  by_contra outside
  rw [classAt_absent outside] at superclass
  cases superclass

theorem Later.superclass (later : heap.Later heap')
    (superclass : (heap.classAt ref).superclass = some parent) :
    (heap'.classAt ref).superclass = some parent := by
  rw [later.classAt (known_of_superclass superclass)]
  exact superclass

theorem Inherits.later (inherits : Inherits heap low high) (later : heap.Later heap') :
    Inherits heap' low high := by
  induction inherits with
  | refl => exact .refl _
  | up superclass _ ih => exact .up (later.superclass superclass) ih

theorem Closed.known_of_inherits (closed : heap.Closed) (inherits : Inherits heap low high)
    (known : low.index < heap.classes.size) : high.index < heap.classes.size := by
  induction inherits with
  | refl => exact known
  | up superclass _ ih => exact ih (Nat.lt_trans (closed.ranked _ _ superclass) known)

/-- An instance of a class or of one that inherits from it. -/
structure IsA (heap : Heap) (receiver : InstanceRef) (owner : ClassRef) : Prop where
  known : receiver.index < heap.instances.size
  inherits : Inherits heap (heap.instanceAt receiver).owner owner

theorem IsA.later (isA : IsA heap receiver owner) (later : heap.Later heap') :
    IsA heap' receiver owner :=
  ⟨Nat.lt_of_lt_of_le isA.known later.instances,
    (later.owner isA.known).symm ▸ isA.inherits.later later⟩

theorem IsA.up (isA : IsA heap receiver owner) (inherits : Inherits heap owner ancestor) :
    IsA heap receiver ancestor :=
  ⟨isA.known, isA.inherits.trans inherits⟩

section Changes

theorem later_newScope (heap : Heap) (bindings : Bindings Value) (enclosing : Option ScopeRef) :
    heap.Later { heap with scopes := heap.scopes.push bindings enclosing } where
  nested {scope outer} link := by
    rw [Scopes.enclosing?_push, if_neg]
    · exact link
    · rintro rfl
      rw [Scopes.enclosing?_next] at link
      cases link
  receivers {scope outer name} link _ := by
    rw [Scopes.valueIn?_push, if_neg]
    rintro rfl
    rw [Scopes.enclosing?_next] at link
    cases link
  functions := Nat.le_refl _
  classes := Nat.le_refl _
  instances := Nat.le_refl _
  closureAt _ := rfl
  classAt _ := rfl
  owner _ := rfl

theorem later_define (heap : Heap) (scope : ScopeRef) {name : String} (value : Value)
    (plain : name ≠ "this" ∧ name ≠ "super") :
    heap.Later { heap with scopes := heap.scopes.define scope name value } where
  nested link := by rwa [Scopes.enclosing?_define]
  receivers {_ _ wanted} _ special := by
    apply Scopes.valueIn?_define_of_ne
    rintro rfl
    rcases special with same | same
    · exact plain.1 same
    · exact plain.2 same
  functions := Nat.le_refl _
  classes := Nat.le_refl _
  instances := Nat.le_refl _
  closureAt _ := rfl
  classAt _ := rfl
  owner _ := rfl

theorem later_newFunction (heap : Heap) (closure : Closure) :
    heap.Later { heap with functions := heap.functions.push closure } where
  nested := id
  receivers _ _ := rfl
  functions := by simp
  classes := Nat.le_refl _
  instances := Nat.le_refl _
  closureAt {ref} inside := by
    unfold Heap.closureAt
    rw [getD_push, if_neg (Nat.ne_of_lt inside)]
  classAt _ := rfl
  owner _ := rfl

theorem later_newClass (heap : Heap) (object : ClassObject) :
    heap.Later { heap with classes := heap.classes.push object } where
  nested := id
  receivers _ _ := rfl
  functions := Nat.le_refl _
  classes := by simp
  instances := Nat.le_refl _
  closureAt _ := rfl
  classAt {ref} inside := by
    unfold Heap.classAt
    rw [getD_push, if_neg (Nat.ne_of_lt inside)]
  owner _ := rfl

theorem later_newInstance (heap : Heap) (created : Instance) :
    heap.Later { heap with instances := heap.instances.push created } where
  nested := id
  receivers _ _ := rfl
  functions := Nat.le_refl _
  classes := Nat.le_refl _
  instances := by simp
  closureAt _ := rfl
  classAt _ := rfl
  owner {ref} inside := by
    unfold Heap.instanceAt
    rw [getD_push, if_neg (Nat.ne_of_lt inside)]

theorem instanceAt_setField (heap : Heap) (ref other : InstanceRef) (name : String) (value : Value) :
    ((heap.setField ref name value).instanceAt other).owner = (heap.instanceAt other).owner ∧
      ∀ wanted held, (heap.setField ref name value).field? other wanted = some held →
        held = value ∨ heap.field? other wanted = some held := by
  obtain ⟨index⟩ := ref
  obtain ⟨position⟩ := other
  simp only [Heap.instanceAt, Heap.field?, Heap.setField, Array.getD_eq_getD_getElem?,
    Array.getElem?_modify]
  by_cases same : index = position
  · subst same
    simp only [if_pos]
    cases heap.instances[index]? with
    | none => exact ⟨rfl, fun _ _ found => .inr found⟩
    | some created =>
      refine ⟨rfl, ?_⟩
      intro wanted held found
      simp only [Option.map_some, Option.getD_some, Bindings.find?_insert] at found
      split at found
      · exact .inl (Option.some.inj found).symm
      · exact .inr found
  · simp only [if_neg same]
    exact ⟨trivial, fun _ _ found => .inr found⟩

theorem later_setField (heap : Heap) (ref : InstanceRef) (name : String) (value : Value) :
    heap.Later (heap.setField ref name value) where
  nested := id
  receivers _ _ := rfl
  functions := Nat.le_refl _
  classes := Nat.le_refl _
  instances := by simp [Heap.setField]
  closureAt _ := rfl
  classAt _ := rfl
  owner _ := (heap.instanceAt_setField ..).1

end Changes

namespace Closed

variable (closed : heap.Closed)

include closed

/-- A change of the scopes alone keeps the heap closed if it binds what the heap contains. -/
theorem withScopes {scopes : Scopes} (bound : ∀ {scope name value},
      scopes.valueIn? scope name = some value → value.Known heap) :
    Closed { heap with scopes } where
  bound found := by
    have known := bound found
    exact known
  fields := closed.fields
  owners := closed.owners
  ranked := closed.ranked

theorem newScope {bindings : Bindings Value} (enclosing : Option ScopeRef)
    (known : ∀ name value, bindings.find? name = some value → value.Known heap) :
    Closed { heap with scopes := heap.scopes.push bindings enclosing } := by
  apply closed.withScopes
  intro scope name value found
  rw [Scopes.valueIn?_push] at found
  split at found
  · exact known name value found
  · exact closed.bound found

theorem define (scope : ScopeRef) (name : String) {value : Value} (known : value.Known heap) :
    Closed { heap with scopes := heap.scopes.define scope name value } := by
  apply closed.withScopes
  intro other wanted held found
  rcases Scopes.mem_of_valueIn?_define found with rfl | former
  · exact known
  · exact closed.bound former

theorem newFunction (closure : Closure) :
    Closed { heap with functions := heap.functions.push closure } where
  bound found := (closed.bound found).later (later_newFunction heap closure)
  fields found := (closed.fields found).later (later_newFunction heap closure)
  owners := closed.owners
  ranked := closed.ranked

theorem newClass {object : ClassObject}
    (known : ∀ parent ∈ object.superclass, parent.index < heap.classes.size) :
    Closed { heap with classes := heap.classes.push object } where
  bound found := (closed.bound found).later (later_newClass heap object)
  fields found := (closed.fields found).later (later_newClass heap object)
  owners inside := Nat.lt_of_lt_of_le (closed.owners inside) (later_newClass heap object).classes
  ranked ref parent superclass := by
    have former := closed.ranked ref parent
    unfold Heap.classAt at former superclass
    rw [getD_push] at superclass
    split at superclass
    · rename_i new
      rw [new]
      exact known parent superclass
    · exact former superclass

theorem newInstance {owner : ClassRef} (known : owner.index < heap.classes.size) :
    Closed { heap with instances := heap.instances.push ⟨owner, .empty⟩ } where
  bound found := (closed.bound found).later (later_newInstance heap _)
  fields {ref name value} found := by
    apply Value.Known.later _ (later_newInstance heap ⟨owner, .empty⟩)
    have former := @Closed.fields _ closed ref name value
    unfold Heap.field? Heap.instanceAt at former found
    rw [getD_push] at found
    split at found
    · cases found
    · exact former found
  owners {ref} _ := by
    have former := @Closed.owners _ closed ref
    unfold Heap.instanceAt at former ⊢
    rw [getD_push]
    split
    · exact known
    · rename_i inside other
      rw [Array.size_push] at inside
      exact former (by omega)
  ranked := closed.ranked

theorem setField (ref : InstanceRef) (name : String) {value : Value} (known : value.Known heap) :
    Closed (heap.setField ref name value) where
  bound found := (closed.bound found).later (later_setField heap ref name value)
  fields {other wanted held} found := by
    apply Value.Known.later _ (later_setField heap ref name value)
    rcases (heap.instanceAt_setField ref other name value).2 wanted held found with rfl | former
    · exact known
    · exact closed.fields former
  owners {other} inside := by
    rw [(heap.instanceAt_setField ref other name value).1]
    exact closed.owners (by simpa [Heap.setField] using inside)
  ranked := closed.ranked

end Closed

theorem closed_start : Heap.start.Closed where
  bound {scope name value} found := by
    unfold Heap.start at found
    rw [Scopes.valueIn?_push] at found
    split at found
    · rw [Bindings.find?_insert] at found
      split at found
      · cases found
        exact trivial
      · cases found
    · cases found
  fields found := by cases found
  owners inside := by cases inside
  ranked _ _ superclass := by cases superclass

end Heap

end Lox
