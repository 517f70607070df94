import Lox.Proofs.Dispatch.Steps

/-! `this` and `super` where code belongs to a class, and the making of classes. -/

namespace Lox

namespace Eval

variable {setting : Setting} {machine : Machine}

/-- With both scopes as they should be, `super` is a matter of looking for the method. -/
theorem readSuper_eq {id : NodeId} {parent : ClassRef} {receiver : InstanceRef}
    (entry : setting.distances[id]? = some (distance + 1))
    (super : machine.heap.scopes.lookupAt? machine.scope (distance + 1) "super" =
      some (.callable (.ofClass parent)))
    (this : machine.heap.scopes.lookupAt? machine.scope distance "this" = some (.object receiver))
    (line : Nat) (method : Name) :
    readSuper setting id line method machine =
      (match machine.heap.method? parent method.text with
        | some found => bindMethod found receiver >>= newFunction
        | none => fault (.undefinedProperty method.text) method.line) machine := by
  cases found : machine.heap.method? parent method.text with
  | none =>
    simp [readSuper, entry, bind, EStateM.bind, orElseFault, pure, EStateM.pure, currentScope,
      inspect, super, this, found]
  | some closure =>
    simp [readSuper, entry, bind, EStateM.bind, orElseFault, pure, EStateM.pure, currentScope,
      inspect, super, this, found]

theorem newBound_ok (method : Closure) (receiver : InstanceRef) (machine : Machine) :
    ∃ ref after, (bindMethod method receiver >>= newFunction) machine =
        .ok (.callable (.ofFunction ref)) after ∧
      after.heap.Bound method receiver (after.heap.closureAt ref) := by
  refine ⟨_, _, rfl, ?_⟩
  have created (heap : Heap) (closure : Closure) : Heap.closureAt { heap with
      functions := heap.functions.push closure } ⟨heap.functions.size⟩ = closure := by
    simp [Heap.closureAt]
  rw [created]
  refine ⟨rfl, rfl, ?_, ?_⟩
  · simp [Scopes.enclosing?_push]
  · simp [Scopes.valueIn?_push, Bindings.find?_insert]

end Eval

/-- What a statement declares is an ordinary name. -/
theorem Stmt.Addressed.plain {stmt : Stmt} (addressed : stmt.Addressed table scoping) :
    ∀ name ∈ stmt.introduces, name.Plain := by
  cases stmt with
  | declareVar name initializer =>
    rintro _ ⟨⟩
    exact addressed.2.1
  | declareFunction routine =>
    rintro _ ⟨⟩
    exact addressed.2.1
  | declareClass name superclass methods =>
    rintro _ ⟨⟩
    cases superclass <;> exact addressed.2.1
  | _ => exact nofun

namespace Course

variable {α : Type} {setting : Setting} {table : Entries} {journal journal' : Journal}
  {scoping : Scoping} {place : Place} {owner : Option ClassRef} {receivers receivers' : List Expr}

/-- Code where it may run: in a chain of scopes that belongs to the class to which the code belongs. -/
structure Stands (setting : Setting) (table : Entries) (scoping : Scoping) (owner : Option ClassRef)
    (receivers : List Expr) (journal : Journal) : Prop where
  sound : Sound setting table journal
  nested : journal.machine.heap.Nested scoping journal.machine.scope owner
  belongs : Belongs setting journal.points journal.machine.heap owner receivers

namespace Stands

theorem after (stands : Stands setting table scoping owner receivers journal)
    (later : After setting table journal journal') :
    Stands setting table scoping owner receivers journal' where
  sound := later.sound
  nested := later.scope ▸ stands.nested.later later.later
  belongs := stands.belongs.later later.points later.later

theorem part (stands : Stands setting table scoping owner receivers journal)
    (within : receivers' ⊆ receivers) : Stands setting table scoping owner receivers' journal :=
  { stands with belongs := stands.belongs.part within }

theorem noted (stands : Stands setting table scoping owner receivers journal)
    (sound : Sound setting table (journal.note task stage place)) :
    Stands setting table scoping owner receivers (journal.note task stage place) where
  sound := sound
  nested := stands.nested
  belongs := stands.belongs.later (List.subset_cons_self ..) (.refl _)

/-- After a statement the name is in scope that it has declared. -/
theorem follow {stmt : Stmt} (stands : Stands setting table scoping owner receivers journal)
    (addressed : stmt.Addressed table scoping) :
    Stands setting table (scoping.after stmt) owner receivers journal :=
  { stands with nested := stands.nested.after addressed.plain }

theorem present {tree : Expr}
    (stands : Stands setting table scoping place.owner [tree] journal) (task : Task) (stage : Stage)
    (declared : scoping.distance? "this" = some distance) :
    ∃ around receiver,
      Point.Present setting journal.points ⟨task, stage, place, journal.machine⟩ tree around receiver ∧
      journal.machine.heap.scopes.lookupAt? journal.machine.scope distance "this" =
        some (.object receiver) := by
  obtain ⟨around, receiver, inner, home, same, found, denotes, isA⟩ := stands.nested.this declared
  have belongs := stands.belongs
  rw [same] at belongs
  exact ⟨around, receiver, ⟨same, belongs, ⟨inner, home, denotes⟩, isA⟩, found⟩

theorem this_right {id : NodeId} {line : Nat} (keeps : setting.Keeps table)
    (stands : Stands setting table scoping place.owner [.this id line] journal)
    (addressed : (Expr.this id line).Addressed table scoping) :
    Point.Right setting journal.points
      ⟨.evaluate (.this id line), .started, place, journal.machine⟩ := by
  obtain ⟨distance, _, declared, entry⟩ := addressed
  obtain ⟨around, receiver, present, found⟩ := stands.present _ _ declared
  refine ⟨around, receiver, present, fun fuel => ?_⟩
  have read := Eval.readName_local ⟨"this", line⟩ journal.machine (keeps _ _ entry)
  rw [found] at read
  exact read

/-- Where `super` is evaluated. -/
theorem super {id : NodeId} {line : Nat} {method : Name} (keeps : setting.Keeps table)
    (stands : Stands setting table scoping place.owner [.super id line method] journal)
    (addressed : (Expr.super id line method).Addressed table scoping) :
    ∃ distance around receiver parent, setting.distances[id]? = some (distance + 1) ∧
      Point.Present setting journal.points
        ⟨.evaluate (.super id line method), .started, place, journal.machine⟩
        (.super id line method) around receiver ∧
      (journal.machine.heap.classAt around).superclass = some parent ∧
      journal.machine.heap.scopes.lookupAt? journal.machine.scope (distance + 1) "super" =
        some (.callable (.ofClass parent)) ∧
      journal.machine.heap.scopes.lookupAt? journal.machine.scope distance "this" =
        some (.object receiver) := by
  obtain ⟨distance, _, _, declared, declared', entry⟩ := addressed
  obtain ⟨around, receiver, present, this⟩ := stands.present _ _ declared'
  obtain ⟨around', parent, same, superclass, super⟩ := stands.nested.super declared' declared
  cases present.owner.symm.trans same
  exact ⟨distance, around, receiver, parent, keeps _ _ entry, present, superclass, super, this⟩

theorem super_right {id : NodeId} {line : Nat} {method : Name} (keeps : setting.Keeps table)
    (stands : Stands setting table scoping place.owner [.super id line method] journal)
    (addressed : (Expr.super id line method).Addressed table scoping) :
    Point.Right setting journal.points
      ⟨.evaluate (.super id line method), .started, place, journal.machine⟩ := by
  obtain ⟨distance, around, receiver, parent, entry, present, superclass, super, this⟩ :=
    stands.super keeps addressed
  have ranked := stands.sound.closed.ranked
  have known := Nat.lt_trans (ranked _ _ superclass) (Heap.known_of_superclass superclass)
  refine ⟨around, receiver, parent, present, superclass, ?_, ?_⟩
  · intro holder found finds fuel
    rcases Heap.lookup_cases ranked known method.text with ⟨_, _, held, _, finds'⟩ | ⟨_, none⟩
    · obtain ⟨rfl, rfl⟩ := finds.unique finds'
      obtain ⟨ref, after, ran, bound⟩ := Eval.newBound_ok found receiver journal.machine
      refine ⟨ref, after, ?_, bound⟩
      change Eval.readSuper setting id line method journal.machine = _
      rw [Eval.readSuper_eq entry super this, held]
      exact ran
    · exact absurd finds (none holder found)
  · intro none fuel
    rcases Heap.lookup_cases ranked known method.text with ⟨holder, found, _, _, finds⟩ | ⟨missing, _⟩
    · exact absurd finds (none holder found)
    · change Eval.readSuper setting id line method journal.machine = _
      rw [Eval.readSuper_eq entry super this, missing]
      rfl

end Stands

namespace Runs

/-- A method of the superclass belongs to the class in which it is found. -/
theorem readSuper {id : NodeId} {line : Nat} {method : Name} (keeps : setting.Keeps table)
    (stands : Stands setting table scoping place.owner [.super id line method] journal)
    (addressed : (Expr.super id line method).Addressed table scoping) :
    Runs setting table (making (superHolder? setting id method journal)
      (Eval.readSuper setting id line method)) journal fun heap value => value.Known heap := by
  obtain ⟨distance, around, receiver, parent, entry, present, superclass, super, this⟩ :=
    stands.super keeps addressed
  have closed := stands.sound.closed
  have known := Nat.lt_trans (closed.ranked _ _ superclass) (Heap.known_of_superclass superclass)
  have holder : superHolder? setting id method journal =
      journal.machine.heap.holder? parent method.text := by
    simp [superHolder?, entry, super]
  rw [holder]
  refine congr (Eval.readSuper_eq entry super this line method) ?_
  rcases Heap.lookup_cases closed.ranked known method.text with
    ⟨holder, found, held, same, finds⟩ | ⟨missing, _⟩
  · rw [held, same]
    exact boundFunction stands.sound (closed.known_of_inherits finds.inherits known) finds.held
      (present.isA.up (.up superclass finds.inherits))
  · rw [missing]
    exact fault stands.sound _ _

/-- A class that is made for a declaration under which it is executed, and then named. -/
theorem settleClass {declaration : Declaration} {home : ScopeRef} {parent : Option ClassRef}
    (sound : Sound setting table journal) (plain : declaration.name.Plain)
    (known : ∀ above ∈ parent, above.index < journal.machine.heap.classes.size)
    {point : Point} (member : point ∈ journal.points)
    (task : point.task = .execute declaration.toStmt) (stage : point.stage = .started)
    (classes : journal.machine.heap.classes = point.machine.heap.classes)
    (base : declaration.superclass = none → parent = none)
    (derived : ∀ extended ∈ declaration.superclass, ∃ above,
      Eval.readSuperclass setting extended point.machine = .ok above point.machine ∧
        parent = some above)
    (addressed : Routine.AllAddressed table (Scoping.frame ["this"] :: scoping) declaration.methods)
    (housed : ∀ owner heap, journal.machine.heap.Later heap →
      (heap.classAt owner).superclass = parent → heap.Home owner scoping home) :
    Runs setting table (making owner (Eval.newClass ⟨declaration.name.text, parent,
        Eval.methodTable home declaration.methods⟩ >>= Eval.define declaration.name.text)) journal
      fun _ _ => True := by
  have made : Runs setting table (making owner (Eval.newClass ⟨declaration.name.text, parent,
      Eval.methodTable home declaration.methods⟩)) journal fun heap value => value.Known heap := by
    refine newClass sound known ?_
    intro ref heap next later new same
    have above : (heap.classAt ref).superclass = parent := by rw [same]
    have methods : (heap.classAt ref).methods = Eval.methodTable home declaration.methods := by
      rw [same]
    refine ⟨point, member, declaration, scoping, home, ?_, housed ref heap later above, methods,
      addressed⟩
    exact {
      task := task
      stage := stage
      next := next.trans (congrArg Array.size classes)
      made := new
      base := fun none => above.trans (base none)
      derived := by
        intro extended same'
        obtain ⟨higher, ran, found⟩ := derived extended same'
        exact ⟨higher, ran, above.trans found⟩
      methods := by
        intro wanted
        rw [methods, Eval.find?_methodTable, Option.map_map]
        exact Option.map_id' }
  apply made.making_bind
  intro value after later known
  exact define later.sound plain known

/-- The class that is made when a declaration is executed. -/
theorem declareClass (declaration : Declaration) {around : Option ClassRef}
    (stands : Stands setting table scoping around [] journal)
    (addressed : declaration.toStmt.Addressed table scoping) {point : Point}
    (member : point ∈ journal.points) (task : point.task = .execute declaration.toStmt)
    (stage : point.stage = .started) (machine : point.machine = journal.machine) :
    Runs setting table (making owner (Eval.declareClass setting declaration.name
      declaration.superclass declaration.methods)) journal fun _ _ => True := by
  obtain ⟨name, superclass, methods⟩ := declaration
  cases superclass with
  | none =>
    obtain ⟨_, plain, routines⟩ := addressed
    refine atScope (settleClass stands.sound plain nofun member task stage (machine ▸ rfl)
      (fun _ => rfl) nofun routines ?_)
    intro ref heap later _
    exact .base ((stands.nested.bind plain true).later later)
  | some superclass =>
    obtain ⟨_, plain, _, _, routines⟩ := addressed
    rcases Eval.readSuperclass_cases stands.sound.closed setting superclass with
      ⟨parent, ran, known⟩ | ⟨reason, ran⟩
    · have entered : Runs setting table (making owner (Eval.newScope
          (Bindings.empty.insert "super" (.callable (.ofClass parent))) journal.machine.scope >>=
          fun scope => Eval.newClass ⟨name.text, some parent, Eval.methodTable scope methods⟩ >>=
            Eval.define name.text)) journal fun _ _ => True := by
        have held : (Value.callable (.ofClass parent)).Known journal.machine.heap := known
        apply (newScope_single stands.sound held "super" journal.machine.scope).making_bind
        rintro scope after later ⟨link, bound, classes⟩
        refine settleClass later.sound plain ?_ (later.points member) task stage
          (classes.trans (machine ▸ rfl)) nofun ?_ routines ?_
        · rintro _ ⟨⟩
          exact Nat.lt_of_lt_of_le known later.later.classes
        · rintro _ ⟨⟩
          exact ⟨parent, machine ▸ ran, rfl⟩
        · intro ref heap more above
          have around := (stands.nested.bind plain true).later (later.later.trans more)
          exact .derived (more.nested link) ((more.receivers link (.inr rfl)).trans bound) above around
      exact congr (bind_ok ran) entered
    · exact failed stands.sound (bind_error ran) rfl

end Runs

end Course

end Lox
