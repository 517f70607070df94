import Lox.Proofs.Lexical.Steps

/-! Declarations in lockstep. Where evaluation by lexical scoping gives a declared name its location
before the declaration is executed, the machine does nothing yet, and both bind the name at the
end. -/

namespace Lox

/-- The scopes in which a statement is executed: the name that it declares is not ready yet. -/
def Scoping.pending (scoping : Scoping) (stmt : Stmt) : Scoping :=
  match stmt.introduces with
  | some name => scoping.bind name.text false
  | none => scoping

@[simp] theorem Scoping.pending_nil (stmt : Stmt) : Scoping.pending [] stmt = [] := by
  unfold pending
  split <;> rfl

namespace Lexical

variable {table : Entries} {slots slots' : Slots} {machine machine' : Machine}
  {state state' : State} {scoping : Scoping} {place : Place}

/-- Only the top level is in no scope. -/
def Stands : Place → Scoping → Prop
  | .globals, scoping => scoping = []
  | .within _, scoping => scoping ≠ []

theorem Stands.after (stands : Stands place scoping) (stmt : Stmt) :
    Stands place (scoping.after stmt) := by
  cases place with
  | globals =>
    cases stands
    exact Scoping.after_nil stmt
  | within environment =>
    cases scoping with
    | nil => exact absurd rfl stands
    | cons inner outer =>
      unfold Scoping.after
      split <;> exact List.cons_ne_nil _ _

theorem known_of_enclosing? {scopes : Scopes} (nested : scopes.enclosing? scope = some outer) :
    scope.index < scopes.cells.size := by
  unfold Scopes.enclosing? at nested
  cases cell : scopes.cells[scope.index]? with
  | none =>
    rw [cell] at nested
    cases nested
  | some => exact (Array.getElem?_eq_some_iff.mp cell).1

theorem Linked.of_nil (linked : Linked slots scopes [] scope environment) :
    scope = Heap.globals ∧ environment = [] := by
  cases linked
  exact ⟨rfl, rfl⟩

theorem Linked.declared {inner : Bindings Bool}
    (linked : Linked slots scopes (inner :: outer) scope environment)
    (contains : inner.contains name = true) :
    ∃ location, environment.find? name = some location ∧
      slots[location.index]? = some (scope, name) := by
  have here : Scoping.distance? (inner :: outer) name = some 0 := by
    simp [Scoping.distance?_cons, contains]
  obtain ⟨target, location, reached, _⟩ := linked.reaches here
  cases reached.ancestor
  exact ⟨location, reached.found, reached.slot⟩

/-- Binding a declared name makes it ready around the scopes inside too. -/
theorem Linked.settleOuter (linked : Linked slots scopes (frame :: scoping.bind name false) scope
      environment)
    (nested : scopes.enclosing? scope = some outer)
    (settled : Linked slots scopes (scoping.bind name true) outer environment') :
    Linked slots scopes (frame :: scoping.bind name true) scope environment := by
  cases linked with
  | inside nested' apart names placed bound around =>
    cases nested.symm.trans nested'
    refine .inside nested' apart names placed bound ?_
    cases scoping with
    | nil => exact around
    | cons inner rest =>
      cases settled with
      | inside _ _ _ _ ready _ =>
        exact around.settle (ready name (by rw [Bindings.find?_insert, if_pos rfl]))

/-- The name that a statement declares gets its location. -/
theorem introduce (similar : Similar table slots machine state)
    (linked : Linked slots machine.heap.scopes scoping machine.scope place.environment)
    (owned : Owned slots machine.scope scoping) (stands : Stands place scoping) (stmt : Stmt)
    (fresh : ∀ name ∈ stmt.introduces, scoping.Fresh name.text) :
    ∃ place' state' slots', Eval.introduce place stmt state = .ok place' state' ∧
      After table (some machine.scope) slots machine slots' machine state' ∧
      Linked slots' machine.heap.scopes (scoping.pending stmt) machine.scope place'.environment ∧
      Owned slots' machine.scope (scoping.pending stmt) ∧ Stands place' scoping := by
  unfold Eval.introduce Scoping.pending
  cases introduces : stmt.introduces with
  | none => exact ⟨place, state, slots, rfl, ⟨.refl, similar, rfl⟩, linked, owned, stands⟩
  | some name =>
    cases place with
    | globals =>
      cases stands
      exact ⟨.globals, state, slots, rfl, ⟨.refl, similar, rfl⟩, linked, owned, rfl⟩
    | within environment =>
      cases scoping with
      | nil => exact absurd rfl stands
      | cons inner outer =>
        have absent : inner.contains name.text = false := fresh name introduces inner rfl
        have unused : ∀ index : Nat, slots[index]? ≠ some (machine.scope, name.text) := by
          intro index found
          obtain ⟨_, ⟨⟩, contains⟩ := owned index name.text found
          rw [absent] at contains
          cases contains
        have declared := linked.declare name.text
        cases linked with
        | inside nested apart names placed bound around =>
          have grows := Grows.declare slots machine.heap.scopes machine.scope name.text
          have stored := similar.stored.declare apart (known_of_enclosing? nested) unused .nil
          refine ⟨.within _, _, _, rfl, ⟨grows, similar.restore grows stored, rfl⟩, ?_, ?_, nofun⟩
          · rw [similar.stored.counted] at declared
            exact declared
          · intro index wanted found
            refine ⟨_, rfl, ?_⟩
            rw [Bindings.contains_insert]
            rcases newSlots_found found with old | ⟨_, offset, _, new⟩
            · obtain ⟨_, ⟨⟩, contains⟩ := owned index wanted old
              simp [contains]
            · have same := List.mem_of_getElem? new
              simp only [List.mem_singleton] at same
              simp [same]

/-- A function may as well be created once its name is bound to it. -/
theorem define_newFunction (closure : Lox.Closure) (name : String) (machine : Machine) :
    (Lox.Eval.newFunction closure >>= Lox.Eval.define name) machine =
      (Lox.Eval.define name (.callable (.ofFunction ⟨machine.heap.functions.size⟩)) >>= fun _ =>
        discard (Lox.Eval.newFunction closure)) machine :=
  rfl

theorem settle_newFunction (closure : Closure) (place : Place) (name : String) (state : State) :
    (Eval.newFunction closure >>= Eval.settle place name) state =
      (Eval.settle place name (.callable (.ofFunction ⟨state.functions.size⟩)) >>= fun _ =>
        discard (Eval.newFunction closure)) state := by
  cases place with
  | globals => rfl
  | within environment =>
    cases found : environment.find? name <;>
      simp only [bind, EStateM.bind, Eval.newFunction, Eval.settle, found] <;> rfl

theorem define_newClass (object : Lox.ClassObject) (name : String) (machine : Machine) :
    (Lox.Eval.newClass object >>= Lox.Eval.define name) machine =
      (Lox.Eval.define name (.callable (.ofClass ⟨machine.heap.classes.size⟩)) >>= fun _ =>
        discard (Lox.Eval.newClass object)) machine :=
  rfl

theorem settle_newClass (object : ClassObject) (place : Place) (name : String) (state : State) :
    (Eval.newClass object >>= Eval.settle place name) state =
      (Eval.settle place name (.callable (.ofClass ⟨state.classes.size⟩)) >>= fun _ =>
        discard (Eval.newClass object)) state := by
  cases place with
  | globals => rfl
  | within environment =>
    cases found : environment.find? name <;>
      simp only [bind, EStateM.bind, Eval.newClass, Eval.settle, found] <;> rfl

theorem sameMethods (linked : Linked slots scopes scoping scope environment)
    (addressed : Routine.AllAddressed table (Scoping.frame ["this"] :: scoping) methods)
    (name : String) :
    Option.Rel (SameMethod table slots scopes) ((Lox.Eval.methodTable scope methods).find? name)
      ((Eval.methodTable environment methods).find? name) := by
  refine Bindings.rel_ofList (List.forall₂_map_left_iff.mpr (List.forall₂_map_right_iff.mpr ?_)) name
  refine List.forall₂_same.mpr fun method member => ⟨rfl, ?_⟩
  exact ⟨scoping, ⟨rfl, rfl, rfl, rfl, linked⟩, addressed.of_mem member⟩

namespace Lockstep

variable {setting : Setting}

/-- A declared name gets its first value. -/
theorem settle (similar : Similar table slots machine state)
    (linked : Linked slots machine.heap.scopes (scoping.bind name false) machine.scope
      place.environment)
    (stands : Stands place scoping) (holds : Holds name value) :
    Lockstep table none (fun slots scopes _ _ =>
        Linked slots scopes (scoping.bind name true) machine.scope place.environment)
      (Lox.Eval.define name value) (Eval.settle place name value) slots machine state := by
  refine scope_left ?_
  cases place with
  | globals =>
    cases stands
    rw [linked.of_nil.1]
    exact (defineGlobal similar name value).weaken fun _ _ _ _ => .globals
  | within environment =>
    cases scoping with
    | nil => exact absurd rfl stands
    | cons inner outer =>
      obtain ⟨location, found, slot⟩ := linked.declared (show (Bindings.contains _ name) = true from by
        simp [Bindings.contains_insert])
      simp only [Eval.settle, Place.environment] at found ⊢
      rw [found]
      exact (define similar machine.scope location slot holds).weaken fun _ _ after bound =>
        (linked.grow after.grows).settle bound

theorem settleFunction {closure : Lox.Closure} (similar : Similar table slots machine state)
    (linked : Linked slots machine.heap.scopes (scoping.bind name false) machine.scope
      place.environment)
    (stands : Stands place scoping) (holds : ∀ value, Holds name value)
    (same : ∀ {slots scopes},
      Linked slots scopes (scoping.bind name true) machine.scope place.environment →
      SameFunction table slots scopes closure closure') :
    Lockstep table none (fun slots scopes _ _ =>
        Linked slots scopes (scoping.bind name true) machine.scope place.environment)
      (Lox.Eval.newFunction closure >>= Lox.Eval.define name)
      (Eval.newFunction closure' >>= Eval.settle place name) slots machine state := by
  unfold Lockstep
  rw [define_newFunction, settle_newFunction, ← similar.functions.1]
  refine (settle similar linked stands (holds _)).bind fun _ _ after linked => ?_
  exact (newFunction after.similar (same linked)).bind fun _ _ after' _ =>
    pure after'.similar (linked.grow after'.grows)

theorem settleClass (similar : Similar table slots machine state)
    (linked : Linked slots machine.heap.scopes (scoping.bind name false) machine.scope
      place.environment)
    (stands : Stands place scoping) (holds : ∀ value, Holds name value)
    (same : ∀ {slots' machine' state'}, After table none slots machine slots' machine' state' →
      Linked slots' machine'.heap.scopes (scoping.bind name true) machine.scope place.environment →
      SameClass table slots' machine'.heap.scopes object object') :
    Lockstep table none (fun slots scopes _ _ =>
        Linked slots scopes (scoping.bind name true) machine.scope place.environment)
      (Lox.Eval.newClass object >>= Lox.Eval.define name)
      (Eval.newClass object' >>= Eval.settle place name) slots machine state := by
  unfold Lockstep
  rw [define_newClass, settle_newClass, ← similar.classes.1]
  refine (settle similar linked stands (holds _)).bind fun _ _ after linked => ?_
  exact (newClass after.similar (same after linked)).bind fun _ _ after' _ =>
    pure after'.similar (linked.grow after'.grows)

theorem declareClass (keeps : setting.Keeps table) (similar : Similar table slots machine state)
    (linked : Linked slots machine.heap.scopes (scoping.bind name.text false) machine.scope
      place.environment)
    (stands : Stands place scoping)
    (addressed : (Stmt.declareClass name superclass methods).Addressed table scoping) :
    Lockstep table none (fun slots scopes _ _ =>
        Linked slots scopes (scoping.bind name.text true) machine.scope place.environment)
      (Lox.Eval.declareClass setting name superclass methods)
      (Eval.declareClass place name superclass methods) slots machine state := by
  cases superclass with
  | none =>
    obtain ⟨_, plain, methods⟩ := addressed
    exact scope_left (settleClass similar linked stands (.plain plain) fun _ linked =>
      ⟨rfl, rfl, sameMethods linked methods⟩)
  | some superclass =>
    obtain ⟨_, plain, ⟨ready, entry⟩, other, methods⟩ := addressed
    rw [Scoping.find?_bind _ _ other] at ready
    rw [Scoping.distance?_bind _ _ other] at entry
    refine (readSuperclass keeps similar linked superclass ⟨?_, ?_⟩).bind ?_
    · rwa [Scoping.find?_bind _ _ other]
    · rwa [Scoping.distance?_bind _ _ other]
    rintro slots₁ machine₁ state₁ parent _ before rfl
    have outer := linked.grow before.grows
    rw [← before.scope] at outer ⊢
    refine scope_left ((newScope before.similar [("super", .callable (.ofClass parent))] (by simp) ?_
      outer).bind ?_)
    · simpa using ⟨nofun, fun _ => ⟨parent, rfl⟩⟩
    rintro slots₂ machine₂ state₂ scope environment entered ⟨inside, _, _, nested⟩
    have outer := outer.grow entered.grows
    rw [← entered.scope] at outer nested ⊢
    exact settleClass entered.similar outer stands (.plain plain) fun after settled =>
      ⟨rfl, rfl, sameMethods
        ((inside.grow after.grows).settleOuter (after.grows.nested nested) settled) methods⟩

/-- An initializer gives the instance that it is bound to. -/
theorem callResult {closure : Lox.Closure} (similar : Similar table slots machine state)
    (same : SameFunction table slots machine.heap.scopes closure closure') (flow : Flow) :
    Lockstep table none Equal (Lox.Eval.callResult closure flow) (Eval.callResult closure' flow)
      slots machine state := by
  obtain ⟨_, captured, _, receives⟩ := same
  unfold Lox.Eval.callResult Eval.callResult
  rw [captured.isInitializer]
  cases initializes : closure.isInitializer with
  | true =>
    obtain ⟨outer, rfl⟩ := receives initializes
    have nearest : Scoping.distance? (Scoping.frame ["this"] :: outer) "this" = some 0 := by
      simp [Scoping.distance?_cons, Scoping.contains_frame]
    obtain ⟨location, value, found, held, stored, _⟩ := similar.value captured.linked nearest
      (by simp [Scoping.find?, Scoping.find?_frame])
    exact inspect_left held (local_right found stored (pure similar rfl))
  | false =>
    cases flow with
    | normal => exact pure similar rfl
    | returned value => exact pure similar rfl

end Lockstep

end Lexical

end Lox
