import Lox.Proofs.Heap.Populated
import Lox.Proofs.Lexical.Recorded
import Lox.Proofs.Machine.Names

/-! Recording steps that give existing scopes no other names than expected, and whose assignments
overwrite. Such steps can be put together, and so can those inside a new scope. -/

namespace Lox

/-- Of the scopes that exist only the given one gains names, and only the given ones. -/
def Heap.Gains (heap later : Heap) (scope : ScopeRef) (names : List String) : Prop :=
  ∀ other name, other.index < heap.scopes.cells.size →
    (later.scopes.valueIn? other name).isSome →
    (heap.scopes.valueIn? other name).isSome ∨ other = scope ∧ name ∈ names

namespace Heap.Gains

variable {heap middle later : Heap} {scope : ScopeRef} {names : List String}

theorem refl (heap : Heap) (scope : ScopeRef) (names : List String) : heap.Gains heap scope names :=
  fun _ _ _ bound => .inl bound

theorem trans (first : heap.Gains middle scope names) (stays : heap.Stays middle)
    (second : middle.Gains later scope names) : heap.Gains later scope names := by
  intro other name inside bound
  rcases second other name (stays.links inside).1 bound with bound | gained
  · exact first other name inside bound
  · exact .inr gained

theorem mono (gains : heap.Gains later scope names) (subset : names ⊆ more) :
    heap.Gains later scope more :=
  fun other name inside bound => (gains other name inside bound).imp_right fun gained =>
    ⟨gained.1, subset gained.2⟩

/-- What a new scope gains no existing one does. -/
theorem outside {inner : ScopeRef} (first : heap.Gains middle scope [])
    (stays : heap.Stays middle)
    (new : heap.scopes.cells.size ≤ inner.index) (second : middle.Gains later inner names) :
    heap.Gains later scope [] := by
  intro other name inside bound
  rcases second other name (stays.links inside).1 bound with bound | ⟨rfl, _⟩
  · exact first other name inside bound
  · exact absurd inside (Nat.not_lt.mpr new)

theorem newScope (heap : Heap) (bindings : Bindings Value) (enclosing : Option ScopeRef)
    (scope : ScopeRef) :
    heap.Gains { heap with scopes := heap.scopes.push bindings enclosing } scope names := by
  intro other name inside bound
  have old : other ≠ heap.scopes.next := by
    rintro rfl
    exact Nat.lt_irrefl _ inside
  rw [Scopes.valueIn?_push, if_neg old] at bound
  exact .inl bound

theorem define (heap : Heap) (scope : ScopeRef) (name : String) (value : Value)
    (own : name ∈ names) :
    heap.Gains { heap with scopes := heap.scopes.define scope name value } scope names :=
  fun _ _ _ bound => (Scopes.isSome_of_define bound).imp_right fun ⟨here, same⟩ =>
    ⟨here, same ▸ own⟩

end Heap.Gains

theorem Eval.readSuperclass_ends (setting : Setting) (superclass : Superclass) (machine : Machine) :
    (∃ parent, readSuperclass setting superclass machine = .ok parent machine) ∨
      ∃ reason, readSuperclass setting superclass machine = .error reason machine := by
  rcases readName_ends setting superclass.id superclass.name machine with
    ⟨value, ran⟩ | ⟨reason, failed⟩
  · have same : readSuperclass setting superclass machine = _ := bind_ok ran
    split at same
    · exact .inl ⟨_, same⟩
    · exact .inr ⟨_, same⟩
  · exact .inr ⟨reason, bind_error failed⟩

namespace Trace

open Eval (targetScope)

variable {α β : Type} {setting : Setting} {known : Known} {names : List String} {log : Log}

/-- A performed assignment finds its name in the scope that it writes. Only in the initializer of a local
variable of that name the variable may be missing, and then its scope is the present one. -/
def Visit.Overwrites (setting : Setting) (known : Known) : Visit → Prop
  | ⟨.assign id name, machine⟩ => ∀ target after,
    targetScope setting id name machine = .ok target after →
      (machine.heap.scopes.valueIn? target name.text).isSome ∨
        target = machine.scope ∧ ∃ position, known ⟨position, .assign id name⟩ ∧
          position.initializing = some name.text
  | _ => True

structure Sound (setting : Setting) (known : Known) (log : Log) : Prop where
  stands : log.machine.heap.Stands known
  overwrites : ∀ visit ∈ log.visits, visit.Overwrites setting known

theorem Sound.enter (sound : Sound setting known log) (scope : ScopeRef) :
    Sound setting known { log with machine.scope := scope } :=
  ⟨sound.stands, sound.overwrites⟩

/-- What a step makes of a log if it may give the present scope the given names. -/
structure After (setting : Setting) (known : Known) (names : List String) (log after : Log) :
    Prop where
  sound : Sound setting known after
  stays : log.machine.heap.Stays after.machine.heap
  gains : log.machine.heap.Gains after.machine.heap log.machine.scope names
  scope : after.machine.scope = log.machine.scope

/-- A step from a log, with what is known of the heap and the value with which it ends. -/
def Runs (setting : Setting) (known : Known) (names : List String) (traced : Traced α) (log : Log)
    (post : Heap → α → Prop) : Prop :=
  match traced log with
  | .ok value after => After setting known names log after ∧ post after.machine.heap value
  | .error _ after => After setting known names log after

namespace After

theorem refl (sound : Sound setting known log) : After setting known names log log :=
  ⟨sound, .refl _, .refl _ _ _, rfl⟩

theorem trans (first : After setting known names one two) (second : After setting known names two three) :
    After setting known names one three :=
  ⟨second.sound, first.stays.trans second.stays,
    first.gains.trans first.stays (first.scope ▸ second.gains), second.scope.trans first.scope⟩

theorem mono (after : After setting known names one two) (subset : names ⊆ more) :
    After setting known more one two :=
  { after with gains := after.gains.mono subset }

end After

namespace Runs

variable {post : Heap → α → Prop}

theorem pure (sound : Sound setting known log) (held : post log.machine.heap value) :
    Runs setting known names (Pure.pure value) log post :=
  ⟨.refl sound, held⟩

theorem bind {mid : Heap → α → Prop} {post : Heap → β → Prop} {traced : Traced α}
    {later : α → Traced β}
    (first : Runs setting known names traced log mid)
    (rest : ∀ value after, After setting known names log after → mid after.machine.heap value →
      Runs setting known names (later value) after post) :
    Runs setting known names (traced >>= later) log post := by
  unfold Runs at first ⊢
  cases ran : traced log with
  | error reason after =>
    rw [ran] at first
    rw [bind_error ran]
    exact first
  | ok value after =>
    rw [ran] at first
    rw [bind_ok ran]
    have second := rest value after first.1 first.2
    unfold Runs at second
    cases ran' : later value after with
    | error reason last =>
      rw [ran'] at second
      exact first.1.trans second
    | ok value' last =>
      rw [ran'] at second
      exact ⟨first.1.trans second.1, second.2⟩

theorem mono {traced : Traced α} (runs : Runs setting known names traced log post)
    (subset : names ⊆ more) (implies : ∀ value after, After setting known names log after →
      post after.machine.heap value → other after.machine.heap value) :
    Runs setting known more traced log other := by
  unfold Runs at *
  cases ran : traced log with
  | error reason after =>
    rw [ran] at runs
    exact runs.mono subset
  | ok value after =>
    rw [ran] at runs
    exact ⟨runs.1.mono subset, implies _ _ runs.1 runs.2⟩

theorem widen {traced : Traced α} (runs : Runs setting known names traced log post)
    (subset : names ⊆ more) : Runs setting known more traced log post :=
  runs.mono subset fun _ _ _ => id

/-- A step that may give no names may also give some. -/
theorem quiet {traced : Traced α} (runs : Runs setting known [] traced log post) :
    Runs setting known names traced log post :=
  runs.widen (List.nil_subset _)

/-- What holds at the end of a step, however it ends. -/
theorem ended {traced : Traced α} {step : Eval α} (runs : Runs setting known names traced log post)
    (erases : erase (traced log) = step log.machine) :
    After setting known names log ⟨step.after log.machine, recorded (traced log)⟩ := by
  unfold Runs at runs
  unfold Eval.after
  rw [← erases]
  cases ran : traced log with
  | error reason after =>
    rw [ran] at runs
    exact runs
  | ok value after =>
    rw [ran] at runs
    exact runs.1

theorem discard {traced : Traced α} (first : Runs setting known names traced log post) :
    Runs setting known names (Functor.discard traced) log fun _ _ => True :=
  first.bind fun _ _ after _ => .pure after.sound trivial

theorem congr {traced other : Traced α} (same : traced log = other log)
    (runs : Runs setting known names other log post) : Runs setting known names traced log post := by
  unfold Runs at *
  rwa [same]

theorem record {traced : Traced α} (use : Use) (sound : Sound setting known log)
    (right : Visit.Overwrites setting known ⟨use, log.machine⟩)
    (rest : ∀ visits, Sound setting known ⟨log.machine, visits⟩ →
      Runs setting known names traced ⟨log.machine, visits⟩ post) :
    Runs setting known names (record use >>= fun _ => traced) log post := by
  have runs := rest (⟨use, log.machine⟩ :: log.visits)
    ⟨sound.stands, List.forall_mem_cons.mpr ⟨right, sound.overwrites⟩⟩
  have same : (Trace.record use >>= fun _ => traced) log =
      traced ⟨log.machine, ⟨use, log.machine⟩ :: log.visits⟩ := rfl
  unfold Runs at *
  rw [same]
  cases ran : traced ⟨log.machine, ⟨use, log.machine⟩ :: log.visits⟩ with
  | error reason after =>
    rw [ran] at runs
    exact ⟨runs.sound, runs.stays, runs.gains, runs.scope⟩
  | ok value after =>
    rw [ran] at runs
    exact ⟨⟨runs.1.sound, runs.1.stays, runs.1.gains, runs.1.scope⟩, runs.2⟩

theorem lift_ok {step : Eval α} {machine : Machine} (sound : Sound setting known log)
    (ran : step log.machine = .ok value machine) (stands : machine.heap.Stands known)
    (stays : log.machine.heap.Stays machine.heap)
    (gains : log.machine.heap.Gains machine.heap log.machine.scope names)
    (scope : machine.scope = log.machine.scope) (held : post machine.heap value) :
    Runs setting known names (lift step) log post := by
  unfold Runs Trace.lift
  rw [ran]
  exact ⟨⟨⟨stands, sound.overwrites⟩, stays, gains, scope⟩, held⟩

theorem lift_error {step : Eval α} (sound : Sound setting known log)
    (failed : step log.machine = .error reason log.machine) :
    Runs setting known names (lift step) log post := by
  unfold Runs Trace.lift
  rw [failed]
  exact .refl sound

/-- A step that changes no heap. -/
theorem still {step : Eval α} {machine : Machine} (sound : Sound setting known log)
    (ran : step log.machine = .ok value machine) (heap : machine.heap = log.machine.heap)
    (scope : machine.scope = log.machine.scope) (held : post log.machine.heap value) :
    Runs setting known names (lift step) log post :=
  lift_ok sound ran (heap ▸ sound.stands) (heap ▸ .refl _) (heap ▸ .refl _ _ _) scope (heap ▸ held)

theorem halt (sound : Sound setting known log) (reason : Halt) :
    Runs setting known names (lift (Eval.halt reason)) log post :=
  lift_error sound rfl

theorem fault (sound : Sound setting known log) (reason : RuntimeFault) (line : Nat) :
    Runs setting known names (lift (Eval.fault reason line)) log post :=
  halt sound _

theorem orFault (sound : Sound setting known log) (result : Except RuntimeFault α) :
    Runs setting known names (lift (Eval.orFault line result)) log fun _ _ => True := by
  cases result with
  | ok value => exact still sound rfl rfl rfl trivial
  | error reason => exact fault sound reason line

theorem inspect {view : Heap → α} (sound : Sound setting known log)
    (held : post log.machine.heap (view log.machine.heap)) :
    Runs setting known names (lift (Eval.inspect view)) log post :=
  still sound rfl rfl rfl held

theorem printed (sound : Sound setting known log) (value : Value) :
    Runs setting known names (lift (Eval.inspect (·.display value) >>= Eval.printLine)) log
      fun _ _ => True := by
  let text := log.machine.heap.display value
  by_cases room : log.machine.sink.admits (text ++ "\n").toUTF8
  · have ran : (Eval.inspect (·.display value) >>= Eval.printLine) log.machine =
        .ok () { log.machine with sink := log.machine.sink.write (text ++ "\n").toUTF8 } :=
      if_pos room
    exact still sound ran rfl rfl trivial
  · have failed : (Eval.inspect (·.display value) >>= Eval.printLine) log.machine =
        .error .sinkFull
          { log.machine with sink := log.machine.sink.write (text ++ "\n").toUTF8 } :=
      if_neg room
    unfold Runs Trace.lift
    rw [failed]
    exact ⟨⟨sound.stands, sound.overwrites⟩, .refl _, .refl _ _ _, rfl⟩

/-- Looking a name up changes nothing. -/
theorem readName (sound : Sound setting known log) (id : NodeId) (name : Name) :
    Runs setting known names (lift (Eval.readName setting id name)) log fun _ _ => True := by
  rcases Eval.readName_ends setting id name log.machine with ⟨value, ran⟩ | ⟨reason, failed⟩
  · exact still sound ran rfl rfl trivial
  · exact lift_error sound failed

theorem readClock (sound : Sound setting known log) :
    Runs setting known names (lift (Eval.readClock setting)) log fun _ _ => True :=
  still sound rfl rfl rfl trivial

theorem setField (sound : Sound setting known log) (receiver : InstanceRef) (name : String)
    (value : Value) :
    Runs setting known names (lift (Eval.setField receiver name value)) log fun _ _ => True :=
  lift_ok sound rfl (sound.stands.instances _) (.setField _ receiver name value)
    (.refl _ _ _) rfl trivial

theorem callResult (sound : Sound setting known log) (closure : Closure) (flow : Flow) :
    Runs setting known names (lift (Eval.callResult closure flow)) log fun _ _ => True := by
  unfold Eval.callResult
  split
  · exact still sound rfl rfl rfl trivial
  · cases flow <;> exact still sound rfl rfl rfl trivial

/-- A step inside a new scope gives no existing scope a name. -/
theorem enter {traced : Traced α} (sound : Sound setting known log) (bindings : Bindings Value)
    (enclosing : ScopeRef) (names : List String)
    (body : ∀ (after : Log) (inner : ScopeRef), After setting known [] log after →
      after.machine.heap.scopes.enclosing? inner = some enclosing →
      (∀ name, after.machine.heap.scopes.valueIn? inner name = bindings.find? name) →
      Runs setting known names traced { after with machine.scope := inner } fun _ _ => True) :
    Runs setting known [] (lift (Eval.newScope bindings enclosing) >>= fun inner =>
      within inner traced) log fun _ _ => True := by
  let inner := log.machine.heap.scopes.next
  let scopes := log.machine.heap.scopes.push bindings (some enclosing)
  let opened : Log := { log with machine.heap.scopes := scopes }
  have stays : log.machine.heap.Stays opened.machine.heap := .newScope _ _ _
  have before : After setting known [] log opened :=
    ⟨⟨sound.stands.scopes stays, sound.overwrites⟩, stays, .newScope _ _ _ _, rfl⟩
  have inside := body opened inner before
    ((Scopes.enclosing?_push ..).trans (if_pos rfl))
    fun name => (Scopes.valueIn?_push ..).trans (if_pos rfl)
  have same : (lift (Eval.newScope bindings enclosing) >>= fun inner => within inner traced) log =
      within inner traced opened := rfl
  have closes {after : Log}
      (runs : After setting known names { opened with machine.scope := inner } after) :
      After setting known [] log { after with machine.scope := log.machine.scope } :=
    ⟨⟨runs.sound.stands, runs.sound.overwrites⟩, stays.trans runs.stays,
      before.gains.outside stays (Nat.le_refl _) runs.gains, rfl⟩
  unfold Runs Trace.within at *
  rw [same]
  dsimp only
  cases ran : traced { opened with machine.scope := inner } with
  | error reason after =>
    rw [ran] at inside
    exact closes inside
  | ok value after =>
    rw [ran] at inside
    exact ⟨closes inside.1, trivial⟩

theorem deeper {traced : Traced α} (line : Nat) (sound : Sound setting known log)
    (inside : Runs setting known names traced
      { log with machine.depth := log.machine.depth + 1 } post) :
    Runs setting known names (deeper line traced) log post := by
  have closes {after : Log}
      (runs : After setting known names { log with machine.depth := log.machine.depth + 1 } after) :
      After setting known names log { after with machine.depth := log.machine.depth } :=
    ⟨⟨runs.sound.stands, runs.sound.overwrites⟩, runs.stays, runs.gains, runs.scope⟩
  by_cases room : log.machine.depth < maxDepth
  · unfold Runs Trace.deeper at *
    dsimp only
    rw [if_pos room]
    cases ran : traced { log with machine.depth := log.machine.depth + 1 } with
    | error reason after =>
      rw [ran] at inside
      exact closes inside
    | ok value after =>
      rw [ran] at inside
      exact ⟨closes inside.1, inside.2⟩
  · refine congr (if_neg room) (fault sound _ _)

/-- A composed step in a record of its parts. -/
theorem composed {step : Eval β} {later : β → Eval α}
    (runs : Runs setting known names (lift step >>= fun value => lift (later value)) log post) :
    Runs setting known names (lift (step >>= later)) log post := by
  refine congr ?_ runs
  simp only [bind_apply, Trace.lift]
  cases step log.machine <;> rfl

theorem newInstance (sound : Sound setting known log) (owner : ClassRef) :
    Runs setting known names (lift (Eval.newInstance owner)) log fun heap _ =>
      ∀ name, heap.method? owner name = log.machine.heap.method? owner name :=
  lift_ok sound rfl (sound.stands.instances _) (.newInstance _ _) (.refl _ _ _) rfl fun name =>
    log.machine.heap.methodWithin?_instances _ name _ owner

theorem bindMethod {method : Closure} (sound : Sound setting known log)
    (stands : method.Stands log.machine.heap.scopes known [["this"]]) (receiver : InstanceRef) :
    Runs setting known names (lift (Eval.bindMethod method receiver)) log fun heap closure =>
      closure.Stands heap.scopes known [] ∧ closure.routine = method.routine := by
  let bindings : Bindings Value := Bindings.empty.insert "this" (.object receiver)
  let opened := log.machine.heap.scopes.push bindings (some method.scope)
  have stays := Heap.Stays.newScope log.machine.heap bindings (some method.scope)
  have this : (opened.valueIn? log.machine.heap.scopes.next "this").isSome := by
    rw [Scopes.valueIn?_push, if_pos rfl, Bindings.find?_insert, if_pos rfl]
    rfl
  have link : opened.enclosing? log.machine.heap.scopes.next = some method.scope :=
    (Scopes.enclosing?_push ..).trans (if_pos rfl)
  exact lift_ok sound rfl (sound.stands.scopes stays) stays (.newScope _ _ _ _) rfl
    ⟨(stands.stays stays).bound link this, rfl⟩

/-- A method that is read as a value. -/
theorem boundFunction {method : Closure} (sound : Sound setting known log)
    (stands : method.Stands log.machine.heap.scopes known [["this"]]) (receiver : InstanceRef) :
    Runs setting known names (lift (Eval.bindMethod method receiver >>= Eval.newFunction)) log
      fun _ _ => True :=
  composed ((bindMethod sound stands receiver).bind fun closure _ later ⟨stands, _⟩ =>
    lift_ok later.sound rfl (later.sound.stands.newFunction stands) (.newFunction _ closure)
      (.refl _ _ _) rfl trivial)

/-- A look at the heap does not count as a step. -/
theorem looking {view : Heap → β} {later : β → Eval α}
    (rest : Runs setting known names (lift (later (view log.machine.heap))) log post) :
    Runs setting known names (lift (Eval.inspect view >>= later)) log post :=
  rest

theorem atScope {later : ScopeRef → Eval α}
    (rest : Runs setting known names (lift (later log.machine.scope)) log post) :
    Runs setting known names (lift (Eval.currentScope >>= later)) log post :=
  rest

theorem orElse {found : Option β} {later : β → Eval α} (sound : Sound setting known log)
    (rest : ∀ value, Runs setting known names (lift (later value)) log post) :
    Runs setting known names (lift (Eval.orElseFault line reason found >>= later)) log post := by
  cases found with
  | some value => exact rest value
  | none => exact lift_error sound rfl

theorem readProperty (sound : Sound setting known log) (receiver : InstanceRef) (name : Name) :
    Runs setting known names (lift (Eval.readProperty receiver name)) log fun _ _ => True := by
  refine looking ?_
  cases log.machine.heap.field? receiver name.text with
  | some value => exact still sound rfl rfl rfl trivial
  | none =>
    refine looking ?_
    cases found : log.machine.heap.method? (log.machine.heap.instanceAt receiver).owner name.text with
    | some method => exact boundFunction sound (sound.stands.method? found) receiver
    | none => exact fault sound _ _

theorem readSuper (sound : Sound setting known log) (id : NodeId) (line : Nat) (method : Name) :
    Runs setting known names (lift (Eval.readSuper setting id line method)) log fun _ _ => True := by
  refine orElse sound fun distance => atScope (looking ?_)
  split
  · refine looking ?_
    split
    · rename_i parent _ _ receiver _
      refine looking ?_
      cases found : log.machine.heap.method? parent method.text with
      | some method => exact boundFunction sound (sound.stands.method? found) receiver
      | none => exact fault sound _ _
    · exact fault sound _ _
  · exact fault sound _ _

section Names

variable {levels : Levels} (sound : Sound setting known log)
  (populated : log.machine.heap.scopes.Populated none levels log.machine.scope)

include sound populated

theorem define (name : String) (value : Value) :
    Runs setting known [name] (lift (Eval.define name value)) log fun heap _ =>
      heap.scopes.Populated none (levels.declare [name]) log.machine.scope := by
  have stays := Heap.Stays.define log.machine.heap log.machine.scope name value
  exact lift_ok sound rfl (sound.stands.scopes stays) stays
    (.define _ _ _ _ (List.mem_singleton.mpr rfl)) rfl (Heap.populated_define populated name value)

/-- A function is in the scope of its own name. -/
theorem declareFunction {routine : Routine} (regular : routine.Regular)
    (inside : ∀ occurrence ∈ routine.occurrences (levels.declare [routine.name.text]),
      known occurrence) :
    Runs setting known [routine.name.text] (lift (do
        let created ← Eval.newFunction ⟨routine, ← Eval.currentScope, false⟩
        Eval.define routine.name.text created)) log fun heap _ =>
      heap.scopes.Populated none (levels.declare [routine.name.text]) log.machine.scope := by
  let created : Value := .callable (.ofFunction ⟨log.machine.heap.functions.size⟩)
  have populated' := Heap.populated_define populated routine.name.text created
  have stays := Heap.Stays.define log.machine.heap log.machine.scope routine.name.text created
  exact lift_ok sound rfl
    ((sound.stands.scopes stays).newFunction ⟨_, populated', regular, inside⟩)
    (stays.trans (.newFunction _ _)) (Heap.Gains.define _ _ _ _ (List.mem_singleton.mpr rfl)) rfl
    populated'

theorem declareClass (name : Name) {methods : List Routine} (regular : Routine.AllRegular methods)
    (inside : ∀ occurrence ∈ Routine.allOccurrences (["this"] :: levels.declare [name.text]) methods,
      known occurrence) :
    Runs setting known [name.text] (lift (Eval.declareClass setting name none methods)) log
      fun heap _ => heap.scopes.Populated none (levels.declare [name.text]) log.machine.scope := by
  let created : Value := .callable (.ofClass ⟨log.machine.heap.classes.size⟩)
  have populated' := Heap.populated_define populated name.text created
  have stays := Heap.Stays.define log.machine.heap log.machine.scope name.text created
  have methods : ∀ {wanted method}, (Eval.methodTable log.machine.scope methods).find? wanted =
      some method → method.Stands _ known [["this"]] :=
    Eval.stands_of_methodTable populated' regular inside
  exact lift_ok sound rfl ((sound.stands.scopes stays).newClass methods)
    (stays.trans (.newClass _ _)) (Heap.Gains.define _ _ _ _ (List.mem_singleton.mpr rfl)) rfl
    populated'

/-- Around its methods a class with a superclass has a scope for `super`. -/
theorem declareSubclass (name : Name) (superclass : Superclass) {methods : List Routine}
    (regular : Routine.AllRegular methods)
    (inside : ∀ occurrence ∈ Routine.allOccurrences
      (["this"] :: ["super"] :: levels.declare [name.text]) methods, known occurrence) :
    Runs setting known [name.text] (lift (Eval.declareClass setting name (some superclass) methods))
      log fun heap _ => heap.scopes.Populated none (levels.declare [name.text]) log.machine.scope := by
  rcases Eval.readSuperclass_ends setting superclass log.machine with
    ⟨parent, read⟩ | ⟨reason, failed⟩
  · let scope := log.machine.scope
    let inner := log.machine.heap.scopes.next
    let created : Value := .callable (.ofClass ⟨log.machine.heap.classes.size⟩)
    let bindings : Bindings Value := Bindings.empty.insert "super" (.callable (.ofClass parent))
    let opened : Heap := { log.machine.heap with
      scopes := log.machine.heap.scopes.push bindings (some scope) }
    have entered : log.machine.heap.Stays opened := .newScope _ _ _
    have stays := Heap.Stays.define opened scope name.text created
    have populated' := Heap.populated_define (entered.populated populated) name.text created
    have super : (opened.scopes.valueIn? inner "super").isSome := by
      rw [Scopes.valueIn?_push, if_pos rfl, Bindings.find?_insert, if_pos rfl]
      rfl
    have link : opened.scopes.enclosing? inner = some scope :=
      (Scopes.enclosing?_push ..).trans (if_pos rfl)
    have within : (opened.scopes.define scope name.text created).Populated none
        (["super"] :: levels.declare [name.text]) inner :=
      .inside ((Scopes.enclosing?_define ..).trans link)
        (fun wanted member _ => List.mem_singleton.mp member ▸ stays.names super) populated'
    have methods : ∀ {wanted method}, (Eval.methodTable inner methods).find? wanted =
        some method → method.Stands _ known [["this"]] :=
      Eval.stands_of_methodTable within regular inside
    exact lift_ok sound (bind_ok read)
      (((sound.stands.scopes entered).scopes stays).newClass methods)
      ((entered.trans stays).trans (.newClass _ _))
      ((Heap.Gains.newScope _ bindings _ _).trans entered
        (.define opened _ _ _ (List.mem_singleton.mpr rfl))) rfl populated'
  · exact lift_error sound (bind_error failed)

end Names

end Runs

end Trace

end Lox
