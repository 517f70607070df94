import Lox.Proofs.Chronicle.Accounts
import Lox.Proofs.Chronicle.Returns
import Lox.Proofs.Dispatch.Program

/-! Construction. In every run of an accepted source a call of a class that succeeds gives an instance that
there was not before, on which the nearest initializer has been run once, and an initializer that is taken
from an instance gives this instance whenever it is called. -/

namespace Lox

namespace Heap

variable {heap heap' : Heap} {owner : ClassRef} {receiver : InstanceRef}

/-- How many arguments a class takes: as many as its nearest initializer has parameters, and none if there is
no initializer. -/
structure Expects (heap : Heap) (owner : ClassRef) (count : Nat) : Prop where
  initializer : ∀ {holder method}, heap.Finds initializerName owner holder method →
    count = method.routine.parameters.length
  plain : (∀ holder method, ¬ heap.Finds initializerName owner holder method) → count = 0

theorem Founded.expects (founded : heap.Founded) (owner : ClassRef) :
    heap.Expects owner (heap.arity (.ofClass owner)) := by
  have arity : heap.arity (.ofClass owner) =
      (heap.method? owner initializerName).elim 0 (·.routine.arity) := rfl
  rw [arity]
  constructor
  · intro holder method finds
    rw [founded.method?_eq finds]
    rfl
  · intro never
    cases found : heap.method? owner initializerName with
    | none => rfl
    | some method =>
      obtain ⟨holder, finds⟩ := exists_finds found
      exact absurd finds (never holder method)

theorem Initializes.later {closure : Closure} (initializes : heap.Initializes closure receiver)
    (later : heap.Later heap') : heap'.Initializes closure receiver :=
  ⟨initializes.1.later later, initializes.2⟩

/-- At most one instance is the one that a closure initializes. -/
theorem Initializes.unique {closure : Closure} (initializes : heap.Initializes closure receiver)
    (initializes' : heap.Initializes closure receiver') : receiver = receiver' := by
  obtain ⟨⟨_, _, _, _, bound⟩, _⟩ := initializes
  obtain ⟨⟨_, _, _, _, bound'⟩, _⟩ := initializes'
  cases bound.this.symm.trans bound'.this
  rfl

/-- An instance that was not there before differs from all values that were. -/
theorem Creates.different (creates : heap.Creates heap' owner created) (known : Value.Known heap other) :
    Value.object created ≠ other := by
  rintro rfl
  have old : created.index < heap.instances.size := known
  exact Nat.ne_of_lt old creates.new

/-- What is taken under the name of initializers is one. -/
theorem Takes.initializes (takes : heap.Takes heap' owner initializerName receiver value)
    (founded : heap.Founded) (later : heap.Later heap') :
    ∃ ref, value = .callable (.ofFunction ref) ∧ heap'.Initializes (heap'.closureAt ref) receiver := by
  obtain ⟨method, ref, found, rfl, bound⟩ := takes
  obtain ⟨⟨_, _, named, _⟩, holder, inside, own⟩ := founded.method? found
  have name : (heap'.closureAt ref).routine.name.text = initializerName := by
    rw [bound.routine, named]
  refine ⟨ref, rfl, ⟨holder, method, Nat.lt_of_lt_of_le inside later.classes, ?_, bound⟩, name⟩
  rw [name, later.classAt inside]
  exact own

end Heap

/-- Different parameters are each bound to the argument beside them. -/
theorem Machine.Enters.parameters {machine : Machine} {closure : Closure}
    (enters : machine.Enters closure arguments)
    (distinct : (closure.routine.parameters.map (·.text)).Nodup)
    (count : arguments.length = closure.routine.parameters.length) :
    List.Forall₂ (fun parameter argument =>
        machine.heap.scopes.valueIn? machine.scope parameter.text = some argument)
      closure.routine.parameters arguments := by
  refine List.forall₂_iff_zip.mpr ⟨count.symm, ?_⟩
  intro parameter argument member
  have keys : ((closure.routine.parameters.map (·.text)).zip arguments).map (·.1) =
      closure.routine.parameters.map (·.text) :=
    List.map_fst_zip (by simp [count])
  rw [enters.bound, Bindings.find?_ofList _ (by rw [keys]; exact distinct)]
  apply Bindings.findEntry?_of_mem (by rw [keys]; exact distinct)
  rw [List.zip_map_left]
  exact List.mem_map.mpr ⟨(parameter, argument), member, rfl⟩

namespace Chronicle

variable {record : Record} {earlier : List Event}

namespace Record.Founded

variable (founded : record.Founded) {episode : Episode} (has : record.Has episode earlier)

include founded has

theorem began : Event.Founded (.began episode.task episode.start) ∧
    episode.start.heap.Later record.machine.heap := by
  obtain ⟨later, same, _⟩ := has.began
  exact ⟨founded.events _ (by simp [same]), (founded.around same).1⟩

theorem ended : Event.Founded (.ended episode.task episode.result episode.last) ∧
    episode.last.heap.Later record.machine.heap := by
  obtain ⟨later, same⟩ := has.ended
  exact ⟨founded.events _ (by simp [same]), (founded.around same).1⟩

/-- During an episode there is what there was when it began. -/
theorem during : ∀ event ∈ episode.events, episode.start.heap.Later event.machine.heap := by
  intro event member
  obtain ⟨later, same, inside⟩ := has.began
  rcases inside event member with rfl | member
  · exact .refl _
  · exact (founded.around same).2.1 event member

/-- When an episode ends there is what there was inside of it. -/
theorem since : ∀ event ∈ episode.inside, event.machine.heap.Later episode.last.heap := by
  intro event member
  obtain ⟨later, same⟩ := has.ended
  exact (founded.around same).2.2 event (List.mem_append_left _ member)

end Record.Founded

/-- A value that there is at a point of a run: an instance that has been made, or what is bound to a name, is
held in a field or has been handed on before. -/
inductive Present (heap : Heap) (before : List Event) : Value → Prop where
  | made (inside : ref.index < heap.instances.size) : Present heap before (.object ref)
  | bound (found : heap.scopes.valueIn? scope name = some value) : Present heap before value
  | held (found : heap.field? ref name = some value) : Present heap before value
  | handed (member : event ∈ before) (passed : value ∈ event.values) : Present heap before value

theorem Present.known {episode : Episode} {value : Value} (founded : record.Founded)
    (has : record.Has episode earlier)
    (present : Present episode.start.heap (.began episode.task episode.start :: earlier) value) :
    value.Known episode.start.heap := by
  obtain ⟨later, same, _⟩ := has.began
  have here := (founded.began has).1
  cases present with
  | made inside => exact inside
  | bound found => exact here.machine.heap.closed.bound found
  | held found => exact here.machine.heap.closed.fields found
  | @handed event _ member passed =>
    rcases List.mem_cons.mp member with rfl | member
    · exact here.values value passed
    · have there := founded.events event (by simp [same, member])
      exact (there.values value passed).later ((founded.around same).2.2 _ member)

/-- What has been created differs from all that there was. -/
theorem Present.differs {episode : Episode} {value : Value} (founded : record.Founded)
    (has : record.Has episode earlier) (creates : episode.start.heap.Creates after owner created)
    (present : Present episode.start.heap (.began episode.task episode.start :: earlier) value) :
    BinaryOp.equal.apply (.object created) value = .ok (.bool false) ∧
      BinaryOp.equal.apply value (.object created) = .ok (.bool false) := by
  have apart := creates.different (present.known founded has)
  simp [BinaryOp.apply, apart, apart.symm]

/-- A run of a method that is bound to an instance, the whole body of it in a scope that binds the parameters
to the arguments, inside one in which `this` is the instance all along. -/
structure Initialization (method closure : Closure) (arguments : List Value) (created : InstanceRef)
    (run body : Episode) : Prop where
  task : run.task = .invoke closure arguments
  inside : run.inside = body.events
  statements : body.task = .executeAll method.routine.body
  ended : ∃ flow, body.result = .flow flow
  scope : body.start.heap.scopes.enclosing? body.start.scope = some closure.scope
  around : body.start.heap.scopes.enclosing? closure.scope = some method.scope
  this : ∀ event ∈ run.events,
    event.machine.heap.scopes.valueIn? closure.scope "this" = some (.object created)
  parameters : List.Forall₂ (fun parameter argument =>
      body.start.heap.scopes.valueIn? body.start.scope parameter.text = some argument)
    method.routine.parameters arguments

/-- A call of a class has given an instance of it that equals nothing that there was before, and in it the
nearest initializer has been run once, if there is any, and nothing else has been done. -/
structure Constructed (call : Episode) (earlier : List Event) (owner : ClassRef) (arguments : List Value)
    (created : InstanceRef) : Prop where
  different : ∀ {other}, Present call.start.heap (.began call.task call.start :: earlier) other →
    BinaryOp.equal.apply (.object created) other = .ok (.bool false) ∧
      BinaryOp.equal.apply other (.object created) = .ok (.bool false)
  instanceOf : (call.last.heap.instanceAt created).owner = owner
  initialized : ∀ {holder method}, call.start.heap.Finds initializerName owner holder method →
    ∃ closure run body, call.inside = run.events ∧
      Initialization method closure arguments created run body
  plain : (∀ holder method, ¬ call.start.heap.Finds initializerName owner holder method) →
    call.inside = [] ∧ arguments = []

/-- An expression takes the initializer of an instance: as a property of the instance that is not a field, or
through `super`, where the instance is `this`. -/
inductive Episode.Takes (distances : Distances) (access : Episode) (receiver : InstanceRef) : Prop where
  | property {first : Episode} (task : access.task = .evaluate (.get object name))
      (named : name.text = initializerName) (inside : access.inside = first.events)
      (given : first.result = .value (.object receiver))
      (method : first.last.heap.field? receiver name.text = none)
  | super {id : NodeId} (task : access.task = .evaluate (.super id line name))
      (named : name.text = initializerName) (address : distances[id]? = some distance)
      (this : access.start.heap.scopes.lookupAt? access.start.scope (distance - 1) "this" =
        some (.object receiver))

/-- How classes construct their instances. All that has ended is an episode of the record. A call of a class
that gives a value has constructed it, and it is not made unless as many arguments are given as the class
takes. Calls of an initializer that has been taken from an instance, however they come to it, give the
instance. -/
structure Record.ConstructsInstances (record : Record) (distances : Distances) : Prop where
  episodes : ∀ {task result last}, .ended task result last ∈ record.events →
    ∃ (episode : Episode) (earlier : List Event), episode.task = task ∧ episode.result = result ∧
      episode.last = last ∧ record.Has episode earlier
  constructed : ∀ {call earlier owner arguments value}, record.Has call earlier →
    call.task = .call (.ofClass owner) arguments → call.result = .value value →
    ∃ created, value = .object created ∧ Constructed call earlier owner arguments created
  counted : ∀ {expression earlier callee line arguments}, record.Has expression earlier →
    expression.task = .evaluate (.call callee line arguments) →
    Applies callee line arguments expression.inside expression.result
  expected : ∀ heap ∈ record.heaps, ∀ owner, heap.Expects owner (heap.arity (.ofClass owner))
  through : ∀ {access earlier id line name value}, record.Has access earlier →
    access.task = .evaluate (.super id line name) → name.text = initializerName →
    access.result = .value value → ∃ receiver, access.Takes distances receiver
  taken : ∀ {access earlier receiver value}, record.Has access earlier →
    access.Takes distances receiver → access.result = .value value →
    ∀ {call earlier callee arguments result}, record.Has call earlier →
      call.task = .call callee arguments → value = .callable callee → call.result = .value result →
      result = .object receiver

section

variable {setting : Setting} {call access run : Episode} {method closure : Closure} {owner : ClassRef}
  {arguments : List Value} {created receiver : InstanceRef} {value : Value} (founded : record.Founded)
  (whole : Whole setting record.events)

include founded whole

theorem Record.Has.initialization (has : record.Has run earlier) (task : run.task = .invoke closure arguments)
    (ended : run.result = .value value) (bound : run.start.heap.Bound method created closure)
    (distinct : (method.routine.parameters.map (·.text)).Nodup)
    (count : arguments.length = method.routine.parameters.length) :
    ∃ body, Initialization method closure arguments created run body := by
  have accords := has.accords whole
  simp only [Episode.Accords, task] at accords
  obtain ⟨body, flow, statements, result, enters, inside⟩ := accords value ended
  have later := founded.during has
  have entered : run.start.heap.Later body.start.heap :=
    later (.began body.task body.start) (by simp [Episode.events, inside])
  refine ⟨body, ?_⟩
  exact {
    task := task
    inside := inside
    statements := bound.routine ▸ statements
    ended := ⟨flow, result⟩
    scope := enters.enclosing
    around := (bound.later entered).around
    this event member := (bound.later (later event member)).this
    parameters := by
      rw [← bound.routine] at distinct count ⊢
      exact enters.parameters distinct count }

theorem Record.Has.constructed (has : record.Has call earlier)
    (distinct : ∀ {owner name method},
      (record.machine.heap.classAt owner).methods.find? name = some method →
      (method.routine.parameters.map (·.text)).Nodup)
    (task : call.task = .call (.ofClass owner) arguments) (ended : call.result = .value value) :
    ∃ created, value = .object created ∧ Constructed call earlier owner arguments created := by
  have accords := has.accords whole
  simp only [Episode.Accords, task] at accords
  obtain ⟨created, rfl, constructs⟩ := accords value ended
  obtain ⟨began, later⟩ := founded.began has
  rw [task] at began
  have good : call.start.heap.Founded := began.machine.heap
  -- The arguments were counted before the call began.
  have expects : call.start.heap.Expects owner arguments.length :=
    began.counted rfl ▸ good.expects owner
  refine ⟨created, rfl, ?_⟩
  generalize inside : call.inside = events at constructs
  cases constructs with
  | plain none creates =>
    have never {holder : ClassRef} {method : Closure} :
        ¬ call.start.heap.Finds initializerName owner holder method :=
      fun finds => nomatch none.symm.trans (good.method?_eq finds)
    exact {
      different := Present.differs founded has creates
      instanceOf := creates.owner
      initialized := fun finds => absurd finds never
      plain := fun none => ⟨inside, List.eq_nil_of_length_eq_zero (expects.plain none)⟩ }
  | @initialized given method closure run found task' ended' creates bound =>
    have within := has.inner inside
    have after : run.start.heap.Later call.last.heap :=
      founded.since has (.began run.task run.start) (by simp [inside, Episode.events])
    obtain ⟨holder, finds⟩ := Heap.exists_finds found
    -- The class is at the end of the run what it was then, so its methods have different parameters.
    have owned := later.classAt (Heap.known_of_method finds.held) ▸ finds.held
    obtain ⟨body, initialization⟩ := within.initialization founded whole task' ended' bound
      (distinct owned) (expects.initializer finds)
    refine ⟨Present.differs founded has creates, (after.owner creates.made).trans creates.owner, ?_,
      fun never => absurd finds (never _ _)⟩
    intro other method' finds'
    obtain ⟨_, rfl⟩ := finds.unique finds'
    exact ⟨closure, run, body, inside, initialization⟩

omit whole in
theorem Record.Has.took {heap : Heap} (has : record.Has access earlier)
    (given : access.result = .value value)
    (takes : heap.Takes access.last.heap owner initializerName receiver value) (good : heap.Founded)
    (later : heap.Later access.last.heap) :
    ∃ ref, value = .callable (.ofFunction ref) ∧
      record.machine.heap.Initializes (record.machine.heap.closureAt ref) receiver := by
  obtain ⟨ref, rfl, initializes⟩ := takes.initializes good later
  obtain ⟨ended, later⟩ := founded.ended has
  have made : ref.index < access.last.heap.functions.size :=
    ended.values (.callable (.ofFunction ref)) (by simp [Event.values, Result.yielded, given])
  refine ⟨ref, rfl, ?_⟩
  rw [later.closureAt made]
  exact initializes.later later

/-- An initializer that has been taken from an instance is bound to it ever after. -/
theorem Record.Has.initializes (has : record.Has access earlier)
    (takes : access.Takes setting.distances receiver) (given : access.result = .value value) :
    ∃ ref, value = .callable (.ofFunction ref) ∧
      record.machine.heap.Initializes (record.machine.heap.closureAt ref) receiver := by
  have accords := has.accords whole
  cases takes with
  | @property object name first task named inside object' method =>
    simp only [Episode.Accords, task] at accords
    obtain ⟨other, receiver', _, object'', inside', read⟩ := accords value given
    obtain rfl : first = other := Episode.unique (inside.symm.trans inside')
    cases object'.symm.trans object''
    rcases read with found | ⟨_, taken⟩
    · cases method.symm.trans found
    · obtain ⟨ended, _⟩ := founded.ended (has.inner inside)
      have later : first.last.heap.Later access.last.heap :=
        founded.since has (.ended first.task first.result first.last) (by simp [inside, Episode.events])
      rw [named] at taken
      exact has.took founded given taken ended.machine.heap later
  | @super name line distance id task named address this =>
    simp only [Episode.Accords, task] at accords
    obtain ⟨_, _, _, address', _, this', taken⟩ := accords value given
    cases address.symm.trans address'
    cases this.symm.trans this'
    obtain ⟨began, _⟩ := founded.began has
    have later : access.start.heap.Later access.last.heap :=
      founded.during has (.ended access.task access.result access.last) (List.mem_cons_self ..)
    rw [named] at taken
    exact has.took founded given taken began.machine.heap later

/-- A call of an initializer that is bound to an instance gives the instance. -/
theorem Record.Has.gives (has : record.Has call earlier) (ends : record.ReturnsEndCalls)
    (initializes : record.machine.heap.Initializes (record.machine.heap.closureAt ref) receiver)
    (task : call.task = .call (.ofFunction ref) arguments) (given : call.result = .value value) :
    value = .object receiver := by
  have accords := has.accords whole
  simp only [Episode.Accords, task] at accords
  obtain ⟨run, task', given', inside⟩ := accords value given
  obtain ⟨began, later⟩ := founded.began has
  rw [task] at began
  have known : ref.index < call.start.heap.functions.size :=
    began.values (.callable (.ofFunction ref)) (List.mem_cons_self ..)
  rw [← later.closureAt known] at task'
  obtain ⟨ended, later'⟩ := founded.ended (has.inner inside)
  obtain ⟨events, same⟩ := (has.inner inside).ended
  rw [task', given'] at same
  obtain ⟨_, _, _, _, _, yields⟩ := ends.result same
  have initializer := (founded.machine.heap.isInitializer initializes.1).trans
    (decide_eq_true initializes.2)
  -- What it is bound to when the call ends is what it is bound to at the end of the run.
  obtain ⟨receiver', method⟩ := (ended.ready task').bound initializer
  have there : run.last.heap.Initializes _ receiver' := ⟨method, initializes.2⟩
  rw [yields.initializer receiver' there, (there.later later').unique initializes]

end

/-- The parameters of a method of an accepted source are different. -/
theorem ofRun_distinct (checked : (checkSource source 0).outcome = .ok program) (clock : Nat → Float)
    (fuel : Nat) (capacity : Option Nat)
    (found : ((Record.ofRun clock fuel capacity source).machine.heap.classAt owner).methods.find? name =
      some method) :
    (method.routine.parameters.map (·.text)).Nodup := by
  have keeps : Setting.Keeps ⟨program.distances, clock⟩ fun id found =>
    id ∈ Stmt.allIds program.body ∧ program.distances[id]? = found := fun _ _ known => known.2
  have sound := Course.interpret_sound keeps fuel capacity program.body (checkSource_addressed checked)
  have same : (Record.ofRun clock fuel capacity source).machine = (Course.ended (Course.interpret
      ⟨program.distances, clock⟩ fuel program.body (.start capacity))).machine := by
    have erased := Course.erase_interpret ⟨program.distances, clock⟩ fuel capacity program.body
    unfold Record.ofRun
    rw [checked]
    dsimp only
    rw [Record.proceed_machine]
    unfold Machine.interpret
    change _ = Eval.interpret _ fuel program.body (Record.start capacity).machine at erased
    rw [← erased]
    cases Course.interpret ⟨program.distances, clock⟩ fuel program.body (.start capacity) <;> rfl
  rw [same] at found
  obtain ⟨_, _, declaration, _, _, _, _, methods, addressed⟩ :=
    sound.classes owner (Heap.known_of_method found)
  rw [methods] at found
  obtain ⟨member, _⟩ := Eval.mem_of_find?_methodTable found
  obtain ⟨⟨_, parameters, body⟩, _, _⟩ := method
  exact (addressed.of_mem member).1

end Chronicle

open Chronicle

/-- Construction always yields the new instance. In every run of an accepted source a call of a class gives an
instance that was not there before, on which the nearest initializer has been run exactly once, whatever that
returns. The arguments that are accepted are as many as this has parameters, and whenever an initializer is
called that was taken from an instance it gives this instance. -/
theorem construction_yields_instance (checked : (checkSource source 0).outcome = .ok program)
    (clock : Nat → Float) (fuel : Nat) (capacity : Option Nat) :
    let record := Record.ofRun clock fuel capacity source
    record.machine.sink.written = (run clock fuel capacity source).output ∧
      record.ConstructsInstances program.distances := by
  have founded := Record.founded_invariant.ofRun clock fuel capacity source
  have whole := ofRun_whole checked clock fuel capacity
  have ends := (orderly_invariant.ofRun clock fuel capacity source).1.returnsEndCalls founded
  refine ⟨Record.ofRun_output .., ?_⟩
  exact {
    episodes := Record.Has.of_ended whole
    constructed := fun has => has.constructed founded whole (ofRun_distinct checked clock fuel capacity)
    counted := by
      intro expression earlier callee line arguments has task
      have accords := has.accords whole
      simpa only [Episode.Accords, task] using accords
    expected := fun heap member owner => (founded.all heap member).expects owner
    through := by
      intro access earlier id line name value has task named given
      have accords := has.accords whole
      simp only [Episode.Accords, task] at accords
      obtain ⟨_, _, receiver, address, _, this, _⟩ := accords value given
      exact ⟨receiver, .super task named address this⟩
    taken := by
      intro access earlier receiver value has takes given call earlier' callee arguments result has'
        task same given'
      obtain ⟨ref, same', initializes⟩ := has.initializes founded whole takes given
      cases same.symm.trans same'
      exact has'.gives founded whole ends initializes task given' }

/-- An initializer that is inherited, returns out of a loop, and is taken from an instance and called. -/
private def inherited : String :=
  "class A { init(x) { while (true) { return; } } } class B < A {} B(1).init(2);"

private def Chronicle.Event.constructs : Event → Bool
  | .ended (.call (.ofClass _) (_ :: _)) (.value _) _ => true
  | _ => false

private def Chronicle.Event.takes (events : List Event) : Event → Bool
  | .ended (.evaluate (.get _ name)) (.value (.callable taken)) _ =>
    name.text = initializerName ∧ events.any fun
      | .ended (.call callee _) (.value _) _ => callee = taken
      | _ => false
  | _ => false

/-- No instance has a field that hides its initializer. -/
private def Chronicle.Event.bare (event : Event) : Bool :=
  event.machine.heap.instances.all fun held => (held.fields.find? initializerName).isNone

private theorem Chronicle.Event.field?_bare {event : Event} (bare : event.bare = true)
    (receiver : InstanceRef) : event.machine.heap.field? receiver initializerName = none := by
  unfold Heap.field? Heap.instanceAt
  by_cases inside : receiver.index < event.machine.heap.instances.size
  · have none := Array.all_eq_true.mp bare receiver.index inside
    simpa [Array.getD_eq_getD_getElem?, inside] using none
  · simp [Array.getD_eq_getD_getElem?, inside]
    rfl

private theorem inherited_takes (checked : (checkSource inherited 0).outcome = .ok program) :
    let record := Record.ofRun (fun _ => 0) 40 none inherited
    ∃ access earlier receiver callee, record.Has access earlier ∧
      access.Takes program.distances receiver ∧ access.result = .value (.callable callee) ∧
      ∃ arguments value last, .ended (.call callee arguments) (.value value) last ∈ record.events := by
  have takes : let events := (Record.ofRun (fun _ => 0) 40 none inherited).events
      events.any (Event.takes events) ∧ events.all Event.bare := by decide +kernel
  obtain ⟨takes, bare⟩ := takes
  have whole := ofRun_whole checked (fun _ => 0) 40 none
  obtain ⟨event, written, takes⟩ := List.any_eq_true.mp takes
  unfold Event.takes at takes
  split at takes
  · rename_i object name taken last
    obtain ⟨named, called⟩ := of_decide_eq_true takes
    obtain ⟨access, earlier, task, given, _, has⟩ := Record.Has.of_ended whole written
    have accords := has.accords whole
    simp only [Episode.Accords, task] at accords
    obtain ⟨first, receiver, _, object', inside, _⟩ := accords _ given
    obtain ⟨_, same⟩ := (has.inner inside).ended
    have own := Event.field?_bare (List.all_eq_true.mp bare
      (.ended first.task first.result first.last) (by simp [same])) receiver
    refine ⟨access, earlier, receiver, taken, has,
      .property task named inside object' (named ▸ own), given, ?_⟩
    obtain ⟨event, written', calls⟩ := List.any_eq_true.mp called
    split at calls
    · rename_i callee arguments value last
      obtain rfl := of_decide_eq_true calls
      exact ⟨arguments, value, last, written'⟩
    · cases calls
  · cases takes

theorem inherited_constructs : ∃ program, (checkSource inherited 0).outcome = .ok program ∧
    let record := Record.ofRun (fun _ => 0) 40 none inherited
    (∃ call earlier owner arguments created, record.Has call earlier ∧
      call.task = .call (.ofClass owner) arguments ∧ Constructed call earlier owner arguments created ∧
      ∃ method closure run body, call.inside = run.events ∧
        Initialization method closure arguments created run body) ∧
    ∃ access earlier receiver call earlier' callee arguments, record.Has access earlier ∧
      access.Takes program.distances receiver ∧ access.result = .value (.callable callee) ∧
      record.Has call earlier' ∧ call.task = .call callee arguments ∧
      call.result = .value (.object receiver) := by
  have accepted : (checkSource inherited 0).outcome.isOk = true := by decide +kernel
  have constructs : (Record.ofRun (fun _ => 0) 40 none inherited).events.any Event.constructs = true := by
    decide +kernel
  cases checked : (checkSource inherited 0).outcome with
  | error reports =>
    rw [checked] at accepted
    cases accepted
  | ok program =>
    have classes := (construction_yields_instance checked (fun _ => 0) 40 none).2
    refine ⟨program, rfl, ?_, ?_⟩
    · obtain ⟨event, written, constructs⟩ := List.any_eq_true.mp constructs
      unfold Event.constructs at constructs
      split at constructs
      · rename_i owner argument arguments value last
        obtain ⟨call, earlier, task, given, _, has⟩ := classes.episodes written
        obtain ⟨created, _, constructed⟩ := classes.constructed has task given
        refine ⟨call, earlier, owner, argument :: arguments, created, has, task, constructed, ?_⟩
        by_cases initializer : ∃ holder method, call.start.heap.Finds initializerName owner holder method
        · obtain ⟨holder, method, finds⟩ := initializer
          exact ⟨method, constructed.initialized finds⟩
        · have plain := constructed.plain fun holder method finds => initializer ⟨holder, method, finds⟩
          cases plain.2
      · cases constructs
    · obtain ⟨access, earlier, receiver, callee, has, takes, given, arguments, value, last, written⟩ :=
        inherited_takes checked
      obtain ⟨call, earlier', task, given', _, has'⟩ := classes.episodes written
      obtain rfl := classes.taken has takes given has' task rfl given'
      exact ⟨access, earlier, receiver, call, earlier', callee, arguments, has, takes, given, has', task,
        given'⟩

end Lox
