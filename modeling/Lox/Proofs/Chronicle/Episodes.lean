import Lox.Proofs.Chronicle.Continues
import Lox.Proofs.Chronicle.Program
import Lox.Proofs.Dispatch.Super

/-! Episodes. What a run writes down consists of tasks that are whole, each with the events between its start
and its end, and of these the calls are accounted for: what was counted, created, bound and invoked on the
way. -/

namespace Lox

/-- A value is a method of a class, bound to an instance. -/
def Heap.Takes (before last : Heap) (owner : ClassRef) (name : String) (receiver : InstanceRef)
    (value : Value) : Prop :=
  ∃ method ref, before.method? owner name = some method ∧ value = .callable (.ofFunction ref) ∧
    last.Bound method receiver (last.closureAt ref)

/-- An instance of a class that did not exist before. -/
structure Heap.Creates (before after : Heap) (owner : ClassRef) (created : InstanceRef) : Prop where
  new : created.index = before.instances.size
  made : created.index < after.instances.size
  owner : (after.instanceAt created).owner = owner

namespace Chronicle

open Course (Task)

/-- Events of which each end comes with the beginning of its task, and with all that is in between. -/
inductive Balanced : List Event → Prop where
  | nil : Balanced []
  | next (inside : Balanced between) (before : Balanced events) :
      Balanced (.ended task result last :: (between ++ .began task start :: events))

/-- There is one way only to go back from an end to the beginning. -/
theorem Balanced.unique (balanced : Balanced between) (balanced' : Balanced between')
    (same : between ++ .began task start :: events = between' ++ .began task' start' :: events') :
    between = between' ∧ start = start' ∧ events = events' := by
  induction balanced generalizing between' task start events task' start' events' with
  | nil =>
    cases balanced' with
    | nil =>
      obtain ⟨here, rest⟩ := List.cons.inj same
      cases here
      exact ⟨rfl, rfl, rest⟩
    | next => cases same
  | next _ _ ihInside ihBefore =>
    cases balanced' with
    | nil => cases same
    | next inside before =>
      simp only [List.append_assoc, List.cons_append] at same
      obtain ⟨here, rest⟩ := List.cons.inj same
      cases here
      obtain ⟨rfl, rfl, further⟩ := ihInside inside rest
      obtain ⟨rfl, rfl, rfl⟩ := ihBefore before further
      exact ⟨rfl, rfl, rfl⟩

/-- A task from its start to its end, with the events in between, the latest first. -/
structure Episode where
  task : Task
  start : Machine
  inside : List Event
  result : Result
  last : Machine
  balanced : Balanced inside

def Episode.events (episode : Episode) : List Event :=
  .ended episode.task episode.result episode.last ::
    (episode.inside ++ [.began episode.task episode.start])

theorem Episode.unique {episode other : Episode} (same : episode.events = other.events) :
    episode = other := by
  obtain ⟨task, start, inside, result, last, balanced⟩ := episode
  obtain ⟨task', start', inside', result', last', balanced'⟩ := other
  obtain ⟨here, rest⟩ := List.cons.inj same
  cases here
  obtain ⟨rfl, rfl, _⟩ := balanced.unique balanced' rest
  rfl

theorem Balanced.episode (episode : Episode) (before : Balanced events) :
    Balanced (episode.events ++ events) := by
  simp only [Episode.events, List.cons_append, List.append_assoc, List.nil_append]
  exact .next episode.balanced before

/-- The callee of a call expression has given what can be called, and the arguments have given values. -/
structure Prepares (callee : Expr) (arguments : List Expr) (function : Callable) (values : List Value)
    (first second : Episode) : Prop where
  callee : first.task = .evaluate callee
  function : first.result = .value (.callable function)
  arguments : second.task = .evaluateAll arguments
  values : second.result = .values values

/-- What a call expression does and comes to. The values of the arguments are counted, and if they are as many
as the callee takes, and not too many calls are in progress, it is called. -/
inductive Applies (callee : Expr) (line : Nat) (arguments : List Expr) : List Event → Result → Prop where
  | exhausted : Applies callee line arguments [] (.halted .outOfFuel)
  | unready {first : Episode} (task : first.task = .evaluate callee)
      (other : ∀ function, first.result ≠ .value (.callable function)) :
      Applies callee line arguments first.events (.halted reason)
  | interrupted {first second : Episode} (task : first.task = .evaluate callee)
      (function : first.result = .value (.callable function)) (task' : second.task = .evaluateAll arguments)
      (halts : second.result = .halted reason) :
      Applies callee line arguments (second.events ++ first.events) (.halted reason)
  | refused {first second : Episode} (prepares : Prepares callee arguments function values first second)
      (count : values.length ≠ second.last.heap.arity function) :
      Applies callee line arguments (second.events ++ first.events)
        (.halted (.fault ⟨.wrongArity (second.last.heap.arity function) values.length, line⟩))
  | full {first second : Episode} (prepares : Prepares callee arguments function values first second)
      (count : values.length = second.last.heap.arity function) (full : maxDepth ≤ second.last.depth) :
      Applies callee line arguments (second.events ++ first.events)
        (.halted (.fault ⟨.stackOverflow, line⟩))
  | called {first second third : Episode} (prepares : Prepares callee arguments function values first second)
      (count : values.length = second.last.heap.arity function) (task : third.task = .call function values)
      (heap : third.start.heap = second.last.heap) :
      Applies callee line arguments (third.events ++ (second.events ++ first.events)) third.result

/-- What a call of a class does that gives an instance: if there is an initializer, it invokes that, bound to
the instance, and nothing else. -/
inductive Constructs (owner : ClassRef) (arguments : List Value) (before last : Heap)
    (created : InstanceRef) : List Event → Prop where
  | plain (none : before.method? owner initializerName = none)
      (creates : before.Creates last owner created) : Constructs owner arguments before last created []
  | initialized {method closure : Closure} {run : Episode}
      (found : before.method? owner initializerName = some method)
      (task : run.task = .invoke closure arguments) (ended : run.result = .value given)
      (creates : before.Creates run.start.heap owner created)
      (bound : run.start.heap.Bound method created closure) :
      Constructs owner arguments before last created run.events

namespace Episode

/-- How calls, and what gives methods, come to their values. -/
def Accords (setting : Setting) (episode : Episode) : Prop :=
  match episode.task with
  | .evaluate (.call callee line arguments) =>
    Applies callee line arguments episode.inside episode.result
  | .evaluate (.get object name) => ∀ value, episode.result = .value value →
    ∃ (first : Episode) (receiver : InstanceRef), first.task = .evaluate object ∧
      first.result = .value (.object receiver) ∧ episode.inside = first.events ∧
      (first.last.heap.field? receiver name.text = some value ∨
        first.last.heap.field? receiver name.text = none ∧
          first.last.heap.Takes episode.last.heap (first.last.heap.instanceAt receiver).owner name.text
            receiver value)
  | .evaluate (.super id _ name) => ∀ value, episode.result = .value value →
    ∃ distance parent receiver, setting.distances[id]? = some distance ∧
      episode.start.heap.scopes.lookupAt? episode.start.scope distance "super" =
        some (.callable (.ofClass parent)) ∧
      episode.start.heap.scopes.lookupAt? episode.start.scope (distance - 1) "this" =
        some (.object receiver) ∧
      episode.start.heap.Takes episode.last.heap parent name.text receiver value
  | .call (.ofClass owner) arguments => ∀ value, episode.result = .value value →
    ∃ created, value = .object created ∧
      Constructs owner arguments episode.start.heap episode.last.heap created episode.inside
  | .call (.ofFunction ref) arguments => ∀ value, episode.result = .value value →
    ∃ run : Episode, run.task = .invoke (episode.start.heap.closureAt ref) arguments ∧
      run.result = .value value ∧ episode.inside = run.events
  | .invoke closure arguments => ∀ value, episode.result = .value value →
    ∃ (body : Episode) (flow : Flow), body.task = .executeAll closure.routine.body ∧
      body.result = .flow flow ∧ body.start.Enters closure arguments ∧ episode.inside = body.events
  | _ => True

end Episode

/-- Events of episodes, of which each accords with what was done in it. -/
inductive Whole (setting : Setting) : List Event → Prop where
  | nil : Whole setting []
  | next (episode : Episode) (inside : Whole setting episode.inside) (accords : episode.Accords setting)
      (before : Whole setting events) : Whole setting (episode.events ++ events)

namespace Whole

variable {setting : Setting}

theorem append (later : Whole setting events) (before : Whole setting events') :
    Whole setting (events ++ events') := by
  induction later with
  | nil => exact before
  | next episode inside accords _ _ ih =>
    rw [List.append_assoc]
    exact .next episode inside accords ih

theorem single (episode : Episode) (inside : Whole setting episode.inside)
    (accords : episode.Accords setting) : Whole setting episode.events := by
  have alone := next episode inside accords .nil
  rwa [List.append_nil] at alone

theorem balanced (whole : Whole setting events) : Balanced events := by
  induction whole with
  | nil => exact .nil
  | next episode _ _ _ _ ih => exact .episode episode ih

/-- What has ended is a whole episode. -/
theorem episode (whole : Whole setting events) (same : events = later ++ .ended task result last :: before) :
    ∃ (episode : Episode) (earlier : List Event), episode.task = task ∧ episode.result = result ∧
      episode.last = last ∧ before = episode.inside ++ .began task episode.start :: earlier ∧
      episode.Accords setting := by
  -- By induction on the episodes: the end stands in what is inside of one, or before it, or is its own.
  induction whole generalizing later before with
  | nil => simp at same
  | @next events episode _ accords _ ihInside ihBefore =>
    cases later with
    | nil =>
      obtain ⟨here, rest⟩ := List.cons.inj same
      cases here
      refine ⟨episode, events, rfl, rfl, rfl, ?_, accords⟩
      simpa using rest.symm
    | cons event later =>
      have rest : episode.inside ++ .began episode.task episode.start :: events =
          later ++ .ended task result last :: before := by
        simpa using (List.cons.inj same).2
      rcases List.append_eq_append_iff.mp rest with ⟨more, rfl, split⟩ | ⟨more, split, rest⟩
      · cases more with
        | nil => cases split
        | cons event more =>
          obtain ⟨-, rest⟩ := List.cons.inj split
          exact ihBefore rest
      · cases more with
        | nil => cases rest
        | cons event more =>
          rw [List.cons_append] at rest
          obtain ⟨rfl, after⟩ := List.cons.inj rest
          obtain ⟨found, earlier, task, result, last, here, accords⟩ := ihInside split
          refine ⟨found, earlier ++ .began episode.task episode.start :: events, task, result, last, ?_,
            accords⟩
          rw [after, here, List.append_assoc, List.cons_append]

/-- An episode accords with what was done in it, wherever it stands. -/
theorem accords {episode : Episode} (whole : Whole setting events)
    (same : events = later ++ (episode.events ++ before)) :
    episode.Accords setting := by
  obtain ⟨task, start, inside, result, last, balanced⟩ := episode
  simp only [Episode.events, List.cons_append, List.append_assoc, List.nil_append] at same
  obtain ⟨found, _, rfl, rfl, rfl, split, accords⟩ := whole.episode same
  obtain ⟨rfl, rfl, -⟩ := balanced.unique found.balanced split
  exact accords

end Whole

namespace Record

variable {record : Record} {earlier : List Event}

/-- The record contains an episode, and earlier events before it. -/
def Has (record : Record) (episode : Episode) (earlier : List Event) : Prop :=
  ∃ later, record.events = later ++ (episode.events ++ earlier)

namespace Has

variable {episode : Episode} (has : record.Has episode earlier)

include has

theorem ended : ∃ later, record.events = later ++ .ended episode.task episode.result episode.last ::
    (episode.inside ++ .began episode.task episode.start :: earlier) := by
  obtain ⟨later, same⟩ := has
  exact ⟨later, by simpa [Episode.events] using same⟩

theorem began : ∃ later, record.events = later ++ .began episode.task episode.start :: earlier ∧
    ∀ event ∈ episode.events, event = .began episode.task episode.start ∨ event ∈ later := by
  obtain ⟨later, same⟩ := has
  refine ⟨later ++ .ended episode.task episode.result episode.last :: episode.inside, ?_, ?_⟩
  · simpa [Episode.events] using same
  · intro event member
    simp only [Episode.events, List.mem_cons, List.mem_append, List.not_mem_nil, or_false] at member ⊢
    tauto

/-- An episode that is all that is inside of another one is contained in the record too. -/
theorem inner {other : Episode} (inside : episode.inside = other.events) :
    record.Has other (.began episode.task episode.start :: earlier) := by
  obtain ⟨later, same⟩ := has.ended
  exact ⟨later ++ [.ended episode.task episode.result episode.last], by simpa [inside] using same⟩

theorem accords (whole : Whole setting record.events) : episode.Accords setting := by
  obtain ⟨later, same⟩ := has
  exact whole.accords same

end Has

/-- What has ended is an episode of the record. -/
theorem Has.of_ended (whole : Whole setting record.events)
    (member : .ended task result last ∈ record.events) :
    ∃ (episode : Episode) (earlier : List Event), episode.task = task ∧ episode.result = result ∧
      episode.last = last ∧ record.Has episode earlier := by
  obtain ⟨later, before, same⟩ := List.append_of_mem member
  obtain ⟨episode, earlier, rfl, rfl, rfl, rfl, _⟩ := whole.episode same
  exact ⟨episode, earlier, rfl, rfl, rfl, later, by simpa [Episode.events] using same⟩

end Record

end Chronicle

end Lox
