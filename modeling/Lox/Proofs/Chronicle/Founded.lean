import Lox.Proofs.Chronicle.Basic
import Lox.Proofs.Machine.Founded

/-! Founded chronicles. Statements of the parser keep the heap founded at every point of a run, only closures
that can be called are, what is called is handed as many arguments as it takes, and the heap contains what is
passed to tasks and what comes of them. -/

namespace Lox

namespace Chronicle

open Course (Task)

/-- The values that a task is handed. -/
def handed : Task → List Value
  | .call callee arguments => .callable callee :: arguments
  | .invoke _ arguments => arguments
  | _ => []

/-- The values that come of a task. -/
def Result.yielded : Result → List Value
  | .value single => [single]
  | .values several => several
  | .flow (.returned single) => [single]
  | _ => []

def Event.values : Event → List Value
  | .began task _ => handed task
  | .ended task result _ => handed task ++ result.yielded

/-- The machine is founded, what is called can be, with as many arguments as it takes, and the heap contains
the values that are handed on. -/
structure Event.Founded (event : Event) : Prop where
  machine : event.machine.Founded
  ready : ∀ {closure arguments}, event.task = .invoke closure arguments →
    event.machine.heap.Ready closure
  counted : ∀ {callee arguments machine}, event = .began (.call callee arguments) machine →
    arguments.length = machine.heap.arity callee
  values : Value.AllKnown event.machine.heap event.values

/-- The heaps at all points, the latest first. -/
def Record.heaps (record : Record) : List Heap :=
  record.machine.heap :: record.events.map (·.machine.heap)

theorem Record.heaps_note {record : Record} (here : event.machine = record.machine) :
    (record.note event).heaps = record.machine.heap :: record.heaps := by
  simp only [heaps, Record.note, List.map_cons, here]

structure Record.Founded (record : Record) : Prop where
  machine : record.machine.Founded
  events : ∀ event ∈ record.events, event.Founded
  order : record.heaps.Pairwise fun later earlier => earlier.Later later

def founding : Regime Record where
  good := Record.Founded
  later record after := record.machine.Later after.machine
  refl record := .refl record.machine
  trans := .trans

variable {α β : Type} {record : Record} {post : Heap → α → Prop}

/-- A step from a founded record, with what is known of the heap and the value with which it ends. -/
def Founds (chronicle : Chronicle α) (record : Record) (post : Heap → α → Prop) : Prop :=
  founding.Runs chronicle record fun after value => post after.machine.heap value

theorem Record.Founded.note (founded : record.Founded) (right : event.Founded)
    (here : event.machine = record.machine) : (record.note event).Founded := by
  refine ⟨founded.machine, ?_, ?_⟩
  · intro other member
    rcases List.mem_cons.mp member with rfl | member
    · exact right
    · exact founded.events other member
  · rw [heaps_note here]
    refine List.pairwise_cons.mpr ⟨?_, founded.order⟩
    intro heap member
    rcases List.mem_cons.mp member with rfl | member
    · exact .refl _
    · exact List.rel_of_pairwise_cons founded.order member

/-- Another machine of which the heap is later. -/
theorem Record.Founded.change (founded : record.Founded) {after : Machine} (good : after.Founded)
    (later : record.machine.heap.Later after.heap) :
    Record.Founded { record with machine := after } := by
  obtain ⟨now, before⟩ := List.pairwise_cons.mp founded.order
  exact ⟨good, founded.events,
    List.pairwise_cons.mpr ⟨fun heap member => (now heap member).trans later, before⟩⟩

/-- At all points the heap is founded. -/
theorem Record.Founded.all (founded : record.Founded) : ∀ heap ∈ record.heaps, heap.Founded := by
  intro heap member
  rcases List.mem_cons.mp member with rfl | member
  · exact founded.machine.heap
  · obtain ⟨event, recorded, rfl⟩ := List.mem_map.mp member
    exact (founded.events event recorded).machine.heap

/-- At an event there is what there was at earlier ones, and later ones have what there was at it. -/
theorem Record.Founded.around (founded : record.Founded)
    (same : record.events = later ++ event :: before) :
    event.machine.heap.Later record.machine.heap ∧
      (∀ other ∈ later, event.machine.heap.Later other.machine.heap) ∧
      ∀ other ∈ before, other.machine.heap.Later event.machine.heap := by
  obtain ⟨last, order⟩ := List.pairwise_cons.mp founded.order
  rw [same, List.map_append, List.map_cons] at last order
  obtain ⟨_, inner, across⟩ := List.pairwise_append.mp order
  refine ⟨last _ (by simp), ?_, ?_⟩
  · intro other member
    exact across _ (List.mem_map_of_mem member) _ (List.mem_cons_self ..)
  · intro other member
    exact List.rel_of_pairwise_cons inner (List.mem_map_of_mem member)

namespace Founds

theorem bind {mid : Heap → α → Prop} {post : Heap → β → Prop} {chronicle : Chronicle α}
    {next : α → Chronicle β} (first : Founds chronicle record mid)
    (rest : ∀ value after, after.Founded → record.machine.Later after.machine →
      mid after.machine.heap value → Founds (next value) after post) :
    Founds (chronicle >>= next) record post :=
  Regime.Runs.bind first rest

theorem pure (founded : record.Founded) (held : post record.machine.heap value) :
    Founds (Pure.pure value) record post :=
  Regime.Runs.pure founded held

theorem step (founded : record.Founded) {single : Eval α}
    (founds : single.Founds record.machine post) : Founds (Host.step single) record post := by
  change Founds (lift single) record post
  rcases founds.cases with ⟨value, after, ran, good, later, held⟩ |
      ⟨reason, after, ran, good, later⟩
  · have lifted : lift single record = .ok value { record with machine := after } := by
      simp only [lift, ran]
    exact .ok lifted (founded.change good later.heap) later held
  · have lifted : lift single record = .error reason { record with machine := after } := by
      simp only [lift, ran]
    exact .error lifted (founded.change good later.heap) later

theorem fault (founded : record.Founded) (reason : RuntimeFault) (line : Nat) :
    Founds (Host.step (Eval.fault reason line)) record post :=
  step founded (.fault founded.machine reason line)

theorem inspect {look : Heap → α} (founded : record.Founded)
    (held : post record.machine.heap (look record.machine.heap)) :
    Founds (Host.step (Eval.inspect look)) record post :=
  step founded (.still founded.machine rfl rfl rfl held)

/-- A step that runs another one elsewhere and comes back. -/
theorem concluded {outer inner : Chronicle α} {moved : Record} {change : Record → Record}
    (inside : Founds inner moved post) (ran : outer record = conclude change (inner moved))
    (back : ∀ {after : Record}, after.Founded → moved.machine.Later after.machine →
      (change after).Founded ∧ record.machine.Later (change after).machine)
    (same : ∀ after, (change after).machine.heap = after.machine.heap) : Founds outer record post := by
  rcases inside.cases with ⟨value, after, ended, good, later, held⟩ | ⟨reason, after, ended, good, later⟩
  · have concludes : outer record = .ok value (change after) := by
      rw [ran, ended]
      rfl
    obtain ⟨good, later⟩ := back good later
    refine .ok concludes good later ?_
    rw [same]
    exact held
  · have concludes : outer record = .error reason (change after) := by
      rw [ran, ended]
      rfl
    obtain ⟨good, later⟩ := back good later
    exact .error concludes good later

/-- Inside there is another scope, and afterwards the former one is there still. -/
theorem within {chronicle : Chronicle α} {scope : ScopeRef} (founded : record.Founded)
    (inside : Founds chronicle { record with machine.scope := scope } post) :
    Founds (Host.within scope chronicle) record post := by
  refine inside.concluded rfl ?_ fun _ => rfl
  intro after good later
  exact ⟨⟨⟨good.machine.heap, (later.stays.links founded.machine.scope).1⟩, good.events, good.order⟩,
    later.heap, later.stays, rfl⟩

theorem deeper {chronicle : Chronicle α} (line : Nat) (founded : record.Founded)
    (inside : Founds chronicle { record with machine.depth := record.machine.depth + 1 } post) :
    Founds (Host.deeper line chronicle) record post := by
  by_cases room : record.machine.depth < maxDepth
  · refine inside.concluded (if_pos room) ?_ fun _ => rfl
    intro after good later
    exact ⟨⟨⟨good.machine.heap, good.machine.scope⟩, good.events, good.order⟩, later.heap, later.stays,
      later.scope⟩
  · have refused : Host.deeper line chronicle record = .error (.fault ⟨.stackOverflow, line⟩) record :=
      if_neg room
    exact .error refused founded (.refl _)

/-- What is called can be called still when it has ended, and what is handed on is contained in the heap. -/
theorem observe {chronicle : Chronicle α} {task : Task} {result : α → Result}
    (founded : record.Founded)
    (ready : ∀ {closure arguments}, task = .invoke closure arguments →
      record.machine.heap.Ready closure)
    (counted : ∀ {callee arguments}, task = .call callee arguments →
      arguments.length = record.machine.heap.arity callee)
    (known : Value.AllKnown record.machine.heap (handed task))
    (gives : ∀ {heap value}, post heap value → Value.AllKnown heap (result value).yielded)
    (inside : (record.note (.began task record.machine)).Founded →
      Founds chronicle (record.note (.began task record.machine)) post) :
    Founds (observe task result chronicle) record post := by
  have right {after : Record} (good : after.Founded) (later : record.machine.Later after.machine)
      {result : Result} (gives : Value.AllKnown after.machine.heap result.yielded) :
      (after.note (.ended task result after.machine)).Founded := by
    refine good.note ⟨good.machine, fun same => (ready same).later later.heap later.stays, nofun, ?_⟩ rfl
    exact List.forall_mem_append.mpr ⟨known.later later.heap, gives⟩
  have begun : (Event.began task record.machine).Founded := by
    refine ⟨founded.machine, ready, ?_, known⟩
    rintro callee arguments _ ⟨⟩
    exact counted rfl
  rcases (inside (founded.note begun rfl)).cases with
    ⟨value, after, ran, good, later, held⟩ | ⟨reason, after, ran, good, later⟩
  · have ended : Chronicle.observe task result chronicle record =
        .ok value (after.note (.ended task (result value) after.machine)) := by
      simp only [Chronicle.observe, ran]
    exact .ok ended (right good later (gives held)) later held
  · have ended : Chronicle.observe task result chronicle record =
        .error reason (after.note (.ended task (.halted reason) after.machine)) := by
      simp only [Chronicle.observe, ran]
    exact .error ended (right good later (List.forall_mem_nil _)) later

end Founds

/-- Parts that are evaluated from founded records. -/
structure Grounds (parts : Parts Chronicle) : Prop where
  evaluate : ∀ {record} tree, Record.Founded record → Expr.Regular tree →
    Founds (parts.evaluate tree) record fun heap value => value.Known heap
  evaluateAll : ∀ {record} trees, Record.Founded record → Expr.AllRegular trees →
    Founds (parts.evaluateAll trees) record fun heap values => Value.AllKnown heap values
  call : ∀ {record} callee arguments, Record.Founded record →
    (Value.callable callee).Known record.machine.heap →
    Value.AllKnown record.machine.heap arguments →
    arguments.length = record.machine.heap.arity callee →
    Founds (parts.call callee arguments) record fun heap value => value.Known heap
  invoke : ∀ {record} closure arguments, Record.Founded record →
    record.machine.heap.Ready closure → Value.AllKnown record.machine.heap arguments →
    Founds (parts.invoke closure arguments) record fun heap value => value.Known heap
  execute : ∀ {record} tree, Record.Founded record → Stmt.Regular tree →
    Founds (parts.execute tree) record fun heap flow => flow.Known heap
  executeAll : ∀ {record} trees, Record.Founded record → Stmt.AllRegular trees →
    Founds (parts.executeAll trees) record fun heap flow => flow.Known heap

namespace Grounds

theorem exhausted : Grounds .exhausted := by
  have halts {α : Type} {record : Record} {post : Heap → α → Prop} (founded : record.Founded) :
      Founds (Host.step (Eval.halt .outOfFuel)) record post :=
    .step founded (.failed founded.machine rfl rfl rfl)
  exact ⟨fun _ founded _ => halts founded, fun _ founded _ => halts founded,
    fun _ _ founded _ _ _ => halts founded, fun _ _ founded _ _ => halts founded,
    fun _ founded _ => halts founded, fun _ founded _ => halts founded⟩

variable {parts : Parts Chronicle} (grounds : Grounds parts) {setting : Setting} {record : Record}
  (founded : record.Founded)

include grounds founded

theorem evaluateAllWhole (trees : List Expr) (regular : Expr.AllRegular trees) :
    Founds (parts.evaluateAllWhole trees) record fun heap values => Value.AllKnown heap values := by
  cases trees with
  | nil => exact .pure founded nofun
  | cons first rest =>
    apply (grounds.evaluate first founded regular.1).bind
    intro value after founded _ known
    apply (grounds.evaluateAll rest founded regular.2).bind
    intro values last founded later known'
    refine .pure founded ?_
    intro other member
    rcases List.mem_cons.mp member with rfl | member
    · exact known.later later.heap
    · exact known' other member

theorem evaluateWhole_call (callee : Expr) (line : Nat) (arguments : List Expr)
    (regular : (Expr.call callee line arguments).Regular) :
    Founds (parts.evaluateWhole setting (.call callee line arguments)) record
      fun heap value => value.Known heap := by
  apply (grounds.evaluate callee founded regular.1).bind
  intro value after founded _ known
  cases value with
  | callable function =>
    apply (grounds.evaluateAll arguments founded regular.2).bind
    intro values last founded later given
    have looked : Founds (Host.step (Eval.inspect (·.arity function))) last fun heap arity =>
        arity = heap.arity function := .inspect founded rfl
    apply looked.bind
    rintro arity final founded later' rfl
    split
    · rename_i count
      refine .deeper line founded
        (grounds.call function values ⟨⟨?_, ?_⟩, founded.events, founded.order⟩ ?_ ?_ count)
      · exact founded.machine.heap
      · exact founded.machine.scope
      · exact (known.later later.heap).later later'.heap
      · exact given.later later'.heap
    · exact .fault founded _ _
  | _ => exact .fault founded _ _

theorem evaluateWhole (tree : Expr) (regular : tree.Regular) :
    Founds (parts.evaluateWhole setting tree) record fun heap value => value.Known heap := by
  cases tree with
  | literal value => exact .pure founded (Value.known_ofLiteral ..)
  | grouping inner => exact grounds.evaluate inner founded regular
  | unary op line operand =>
    apply (grounds.evaluate operand founded regular).bind
    intro value after founded _ _
    exact .step founded (.orFault founded.machine line fun _ same => UnaryOp.known_of_apply same)
  | binary op line left right =>
    apply (grounds.evaluate left founded regular.1).bind
    intro value after founded _ _
    apply (grounds.evaluate right founded regular.2).bind
    intro value' last founded _ _
    exact .step founded (.orFault founded.machine line fun _ same => BinaryOp.known_of_apply same)
  | logical op line left right =>
    apply (grounds.evaluate left founded regular.1).bind
    intro value after founded _ known
    split
    · exact .pure founded known
    · exact grounds.evaluate right founded regular.2
  | read id name => exact .step founded (.readName founded.machine id name)
  | assign id name value =>
    apply (grounds.evaluate value founded regular.2).bind
    intro value after founded _ known
    exact .step founded (.assign founded.machine regular.1 known id)
  | call callee line arguments => exact grounds.evaluateWhole_call founded callee line arguments regular
  | get object name =>
    apply (grounds.evaluate object founded regular).bind
    intro value after founded _ known
    cases value with
    | object receiver => exact .step founded (.readProperty founded.machine known name)
    | _ => exact .fault founded _ _
  | set object name value =>
    apply (grounds.evaluate object founded regular.1).bind
    intro held after founded _ _
    cases held with
    | object receiver =>
      apply (grounds.evaluate value founded regular.2).bind
      intro value last founded _ known
      exact .step founded (.assignField founded.machine known receiver name.text)
    | _ => exact .fault founded _ _
  | this id line => exact .step founded (.readName founded.machine _ _)
  | super id line method => exact .step founded (.readSuper founded.machine id line method)

theorem callWhole (callee : Callable) (arguments : List Value)
    (known : (Value.callable callee).Known record.machine.heap)
    (given : Value.AllKnown record.machine.heap arguments) :
    Founds (parts.callWhole setting callee arguments) record fun heap value => value.Known heap := by
  cases callee with
  | clock => exact .step founded (.readClock founded.machine)
  | ofFunction ref =>
    have looked : Founds (Host.step (Eval.inspect (·.closureAt ref))) record
        fun heap closure => heap.Ready closure :=
      .inspect founded (founded.machine.heap.functions known)
    apply looked.bind
    intro closure after founded later ready
    exact grounds.invoke closure arguments founded ready (given.later later.heap)
  | ofClass ref =>
    apply (Founds.step founded (.newInstance founded.machine known)).bind
    intro created after founded later inside
    have given := given.later later.heap
    have looked : Founds (Host.step (Eval.inspect (·.method? ref initializerName))) after
        fun heap found => ∀ method ∈ found, heap.method? ref initializerName = some method ∧
          created.index < heap.instances.size :=
      .inspect founded fun method found => ⟨found, inside⟩
    apply looked.bind
    intro found last founded later present
    cases found with
    | none => exact .pure founded (Nat.lt_of_lt_of_le inside later.heap.instances)
    | some method =>
      obtain ⟨found, inside⟩ := present method rfl
      -- The initializer is bound to the new instance, which makes the closure one that can be called.
      apply (Founds.step founded (.bindMethod founded.machine found inside)).bind
      intro bound final founded later' ready
      apply (grounds.invoke bound arguments founded ready
        ((given.later later.heap).later later'.heap)).bind
      intro _ end' founded later'' _
      exact .pure founded (Nat.lt_of_lt_of_le inside
        (Nat.le_trans later'.heap.instances later''.heap.instances))

theorem invokeWhole (closure : Closure) (arguments : List Value)
    (ready : record.machine.heap.Ready closure)
    (given : Value.AllKnown record.machine.heap arguments) :
    Founds (parts.invokeWhole closure arguments) record fun heap value => value.Known heap := by
  apply (Founds.step founded (.activation founded.machine ready given)).bind
  intro scope after founded _ inside
  have body : Stmt.AllRegular closure.routine.body := by
    have regular := ready.regular
    obtain ⟨⟨name, parameters, body⟩, _, _⟩ := closure
    exact regular.2
  have entered : Record.Founded { after with machine.scope := scope } :=
    ⟨⟨founded.machine.heap, inside⟩, founded.events, founded.order⟩
  apply (Founds.within founded (grounds.executeAll closure.routine.body entered body)).bind
  intro flow last founded _ known
  exact .step founded (.callResult founded.machine closure known)

theorem executeAllWhole (trees : List Stmt) (regular : Stmt.AllRegular trees) :
    Founds (parts.executeAllWhole trees) record fun heap flow => flow.Known heap := by
  cases trees with
  | nil => exact .pure founded trivial
  | cons first rest =>
    apply (grounds.execute first founded regular.1).bind
    intro flow after founded _ known
    cases flow with
    | normal => exact grounds.executeAll rest founded regular.2
    | returned value => exact .pure founded known

theorem executeWhole_block (body : List Stmt) (regular : Stmt.AllRegular body) :
    Founds (parts.executeWhole setting (.block body)) record fun heap flow => flow.Known heap := by
  have present : Founds (Host.step Eval.currentScope) record fun heap scope =>
      scope.index < heap.scopes.cells.size :=
    .step founded (.still founded.machine rfl rfl rfl founded.machine.scope)
  apply present.bind
  intro scope after founded _ inside
  have known (name : String) (value : Value) :
      Bindings.empty.find? name = some value → value.Known after.machine.heap := nofun
  apply (Founds.step founded (.newScope founded.machine inside known)).bind
  rintro inner last founded _ ⟨inside, _⟩
  have entered : Record.Founded { last with machine.scope := inner } :=
    ⟨⟨founded.machine.heap, inside⟩, founded.events, founded.order⟩
  exact .within founded (grounds.executeAll body entered regular)

theorem executeWhole (tree : Stmt) (regular : tree.Regular) :
    Founds (parts.executeWhole setting tree) record fun heap flow => flow.Known heap := by
  cases tree with
  | expression value =>
    apply (grounds.evaluate value founded regular).bind
    intro value after founded _ _
    exact .pure founded trivial
  | print value =>
    apply (grounds.evaluate value founded regular).bind
    intro value after founded _ _
    exact .step founded (.inspected (.normally (.printLine founded.machine _)))
  | declareVar name initializer =>
    cases initializer with
    | none => exact .step founded (.normally (.define founded.machine regular.1 trivial))
    | some initializer =>
      apply (grounds.evaluate initializer founded (regular.2 _ rfl)).bind
      intro value after founded _ known
      exact .step founded (.normally (.define founded.machine regular.1 known))
  | block body => exact grounds.executeWhole_block founded body regular
  | ifThen condition consequent =>
    apply (grounds.evaluate condition founded regular.1).bind
    intro value after founded _ _
    split
    · exact grounds.execute consequent founded regular.2.1
    · exact .pure founded trivial
  | ifElse condition consequent alternative =>
    apply (grounds.evaluate condition founded regular.1).bind
    intro value after founded _ _
    split
    · exact grounds.execute consequent founded regular.2.1.1
    · exact grounds.execute alternative founded regular.2.2.1
  | «while» condition body =>
    apply (grounds.evaluate condition founded regular.1).bind
    intro value after founded _ _
    split
    · apply (grounds.execute body founded regular.2.1).bind
      intro flow last founded _ known
      cases flow with
      | normal => exact grounds.execute (.while condition body) founded regular
      | returned value => exact .pure founded known
    · exact .pure founded trivial
  | declareFunction routine =>
    exact .step founded (.normally (.declareFunction founded.machine regular.1 regular.2))
  | «return» line value =>
    cases value with
    | none => exact .pure founded trivial
    | some value =>
      apply (grounds.evaluate value founded (regular _ rfl)).bind
      intro value after founded _ known
      exact .pure founded known
  | declareClass name superclass methods =>
    exact .step founded (.normally (.declareClass founded.machine regular.1 regular.2.2))

omit founded in
/-- What is written down on the way keeps the record founded. -/
theorem observed (setting : Setting) : Grounds (Chronicle.observed (parts.whole setting)) := by
  have single {heap : Heap} {value : Value} (known : value.Known heap) :
      Value.AllKnown heap (Result.value value).yielded := List.forall_mem_singleton.mpr known
  have flows {heap : Heap} {flow : Flow} (known : flow.Known heap) :
      Value.AllKnown heap (Result.flow flow).yielded := by
    cases flow with
    | normal => exact List.forall_mem_nil _
    | returned value => exact List.forall_mem_singleton.mpr known
  refine ⟨?_, ?_, ?_, ?_, ?_, ?_⟩
  · intro record tree founded regular
    exact .observe founded nofun nofun nofun single fun founded =>
      grounds.evaluateWhole founded tree regular
  · intro record trees founded regular
    exact .observe founded nofun nofun nofun id fun founded =>
      grounds.evaluateAllWhole founded trees regular
  · intro record callee arguments founded known given count
    refine .observe founded nofun ?_ (List.forall_mem_cons.mpr ⟨known, given⟩) single fun founded =>
      grounds.callWhole founded callee arguments known given
    rintro _ _ ⟨⟩
    exact count
  · intro record closure arguments founded ready given
    refine .observe founded ?_ nofun given single fun founded =>
      grounds.invokeWhole founded closure arguments ready given
    rintro _ _ ⟨⟩
    exact ready
  · intro record tree founded regular
    exact .observe founded nofun nofun nofun flows fun founded =>
      grounds.executeWhole founded tree regular
  · intro record trees founded regular
    exact .observe founded nofun nofun nofun flows fun founded =>
      grounds.executeAllWhole founded trees regular

end Grounds

/-- By induction on the fuel, evaluation with a chronicle is grounded. -/
theorem parts_ground (setting : Setting) (fuel : Nat) : Grounds (parts setting fuel) := by
  induction fuel with
  | zero => exact .exhausted
  | succ fuel grounds => exact grounds.observed setting

/-- Statements at the top level keep a record founded, however their run ends. -/
theorem interpret_founds {record : Record} (founded : record.Founded) (setting : Setting) (fuel : Nat)
    {body : List Stmt} (regular : Stmt.AllRegular body) :
    Founds (interpret setting fuel body) record fun _ _ => True := by
  induction body generalizing record with
  | nil => exact .pure founded trivial
  | cons first rest ih =>
    apply ((parts_ground setting fuel).execute first founded regular.1).bind
    intro _ after founded _ _
    exact ih founded regular.2

end Chronicle

end Lox
