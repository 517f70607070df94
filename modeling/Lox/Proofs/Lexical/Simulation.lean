import Lox.Proofs.Lexical.Recorded

/-! Evaluation under right distances in lockstep with evaluation by lexical scoping, for every amount
of fuel. -/

namespace Lox

theorem Scoping.pending_eq (scoping : Scoping) (plain : Stmt.introduces stmt = none) :
    scoping.pending stmt = scoping := by
  simp [pending, plain]

/-- A name that a statement declares is not declared yet in the scope in which it stands. -/
theorem Stmt.Addressed.fresh {stmt : Stmt} (addressed : stmt.Addressed table scoping) :
    ∀ name ∈ stmt.introduces, scoping.Fresh name.text := by
  cases stmt with
  | declareVar name initializer =>
    rintro _ ⟨⟩
    exact addressed.1
  | declareFunction routine =>
    rintro _ ⟨⟩
    exact addressed.1
  | declareClass name superclass methods =>
    rintro _ ⟨⟩
    cases superclass <;> exact addressed.1
  | _ => exact nofun

namespace Lexical

variable {α β : Type} {table : Entries} {here : Option ScopeRef} {slots slots' : Slots}
  {machine machine' : Machine} {state state' : State} {scoping : Scoping} {place : Place}
  {environment : Environment} {setting : Setting}

theorem After.linked (after : After table here slots machine slots' machine' state')
    (linked : Linked slots machine.heap.scopes scoping machine.scope environment) :
    Linked slots' machine'.heap.scopes scoping machine'.scope environment := by
  rw [after.scope]
  exact linked.grow after.grows

theorem Linked.known (linked : Linked slots scopes scoping scope environment)
    (stored : Stored slots scopes store held) : scope.index < scopes.cells.size := by
  cases linked with
  | globals => exact stored.nonempty
  | inside nested => exact known_of_enclosing? nested

/-- What happens in new scopes leaves the locations of an old one as they are. -/
theorem Owned.grow (owned : Owned slots scope scoping)
    (grows : Grows none slots scopes slots' scopes') (known : scope.index < scopes.cells.size) :
    Owned slots' scope scoping := by
  intro index name found
  rcases grows.added found with old | own | new
  · exact owned index name old
  · cases own
  · exact absurd known (Nat.not_lt.mpr new)

theorem Owned.after (owned : Owned slots scope (scoping.pending stmt)) :
    Owned slots scope (scoping.after stmt) := by
  unfold Scoping.pending at owned
  unfold Scoping.after
  cases introduces : stmt.introduces with
  | none =>
    rw [introduces] at owned
    exact owned
  | some name =>
    rw [introduces] at owned
    intro index wanted found
    obtain ⟨inner, head, contains⟩ := owned index wanted found
    cases scoping with
    | nil => cases head
    | cons inner outer =>
      cases head
      rw [Bindings.contains_insert] at contains
      exact ⟨_, rfl, (Bindings.contains_insert ..).trans contains⟩

theorem extend_nil (environment : Environment) :
    Eval.extend environment [] = (pure environment : Eval Environment) := by
  funext state
  simp [Eval.extend, Eval.locationsFrom, pure, EStateM.pure]

/-- How a statement ends that declares what its scopes gain. -/
def Ended (scoping : Scoping) (scope : ScopeRef) (environment : Environment) : Related Flow Flow :=
  fun slots scopes flow flow' =>
    flow = flow' ∧ Linked slots scopes scoping scope environment

/-- Evaluation with some fuel in lockstep from all similar states. -/
structure Simulates (setting : Setting) (table : Entries) (fuel : Nat) : Prop where
  evaluate : ∀ {slots machine state scoping environment} (expr : Expr),
    Similar table slots machine state →
    Linked slots machine.heap.scopes scoping machine.scope environment →
    expr.Addressed table scoping →
    Recorded setting.distances table none Equal (Trace.evaluate setting fuel expr)
      (Eval.evaluate setting.clock fuel environment expr) slots machine state
  evaluateAll : ∀ {slots machine state scoping environment} (exprs : List Expr),
    Similar table slots machine state →
    Linked slots machine.heap.scopes scoping machine.scope environment →
    Expr.AllAddressed table scoping exprs →
    Recorded setting.distances table none Equal (Trace.evaluateAll setting fuel exprs)
      (Eval.evaluateAll setting.clock fuel environment exprs) slots machine state
  call : ∀ {slots machine state} (callee : Callable) (arguments : List Value),
    Similar table slots machine state →
    arguments.length = machine.heap.arity callee →
    Recorded setting.distances table none Equal (Trace.call setting fuel callee arguments)
      (Eval.call setting.clock fuel callee arguments) slots machine state
  invoke : ∀ {slots machine state closure closure'} (arguments : List Value),
    Similar table slots machine state →
    SameFunction table slots machine.heap.scopes closure closure' →
    arguments.length = closure.routine.arity →
    Recorded setting.distances table none Equal (Trace.invoke setting fuel closure arguments)
      (Eval.invoke setting.clock fuel closure' arguments) slots machine state
  execute : ∀ {slots machine state scoping} {place : Place} (stmt : Stmt),
    Similar table slots machine state →
    Linked slots machine.heap.scopes (scoping.pending stmt) machine.scope place.environment →
    Stands place scoping → stmt.Addressed table scoping →
    Recorded setting.distances table none (Ended (scoping.after stmt) machine.scope place.environment)
      (Trace.execute setting fuel stmt) (Eval.execute setting.clock fuel place stmt) slots
      machine state
  executeAll : ∀ {slots machine state scoping} {place : Place} (body : List Stmt),
    Similar table slots machine state →
    Linked slots machine.heap.scopes scoping machine.scope place.environment →
    Owned slots machine.scope scoping → Stands place scoping →
    Stmt.AllAddressed table scoping body →
    Recorded setting.distances table (some machine.scope) Equal (Trace.executeAll setting fuel body)
      (Eval.executeAll setting.clock fuel place body) slots machine state

namespace Simulates

theorem zero (setting : Setting) (table : Entries) : Simulates setting table 0 where
  evaluate _ similar _ _ := .halt similar _
  evaluateAll _ similar _ _ := .halt similar _
  call _ _ similar _ := .halt similar .outOfFuel
  invoke _ similar _ _ := .halt similar .outOfFuel
  execute _ similar _ _ _ := .halt similar _
  executeAll _ similar _ _ _ _ := .halt similar _

variable {fuel : Nat} (within : Simulates setting table fuel)

section Evaluate

variable (keeps : setting.Keeps table)

include within keeps

theorem evaluate_succ (similar : Similar table slots machine state)
    (linked : Linked slots machine.heap.scopes scoping machine.scope environment) (expr : Expr)
    (addressed : expr.Addressed table scoping) :
    Recorded setting.distances table none Equal (Trace.evaluate setting (fuel + 1) expr)
      (Eval.evaluate setting.clock (fuel + 1) environment expr) slots machine state := by
  cases expr with
  | literal value => exact .pure similar rfl
  | grouping inner => exact within.evaluate inner similar linked addressed
  | unary op line operand =>
    refine (within.evaluate operand similar linked addressed).bind ?_
    rintro slots' machine' state' value _ after rfl
    exact (Lockstep.orFault after.similar line _).lift
  | binary op line left right =>
    refine (within.evaluate left similar linked addressed.1).bind ?_
    rintro slots' machine' state' first _ after rfl
    refine (within.evaluate right after.similar (after.linked linked) addressed.2).bind ?_
    rintro slots' machine' state' second _ after rfl
    exact (Lockstep.orFault after.similar line _).lift
  | logical op line left right =>
    refine (within.evaluate left similar linked addressed.1).bind ?_
    rintro slots' machine' state' first _ after rfl
    split
    · exact .pure after.similar rfl
    · exact within.evaluate right after.similar (after.linked linked) addressed.2
  | read id name =>
    obtain ⟨ready, entry⟩ := addressed
    have entry := keeps id _ entry
    refine .record _ (sound_read similar linked ready entry) ?_
    exact (Lockstep.readName similar linked id name ready entry).lift
  | assign id name value =>
    obtain ⟨value', plain, entry⟩ := addressed
    have entry := keeps id _ entry
    refine (within.evaluate value similar linked value').bind ?_
    rintro slots' machine' state' result _ after rfl
    have linked := after.linked linked
    refine .record _ (sound_assign linked entry) ?_
    have written := Lockstep.writeName after.similar linked id name plain result entry
    exact written.lift.bind fun _ _ after _ => .pure after.similar rfl
  | call callee line arguments =>
    refine (within.evaluate callee similar linked addressed.1).bind ?_
    rintro slots' machine' state' value _ after rfl
    cases value with
    | callable callee =>
      refine (within.evaluateAll arguments after.similar (after.linked linked) addressed.2).bind ?_
      rintro slots'' machine'' state'' values _ after rfl
      refine .inspect_left rfl (.inspect_right (after.similar.arity callee) ?_)
      split
      · rename_i fits
        refine .deeper after.similar line (within.call callee values ?_ fits)
        exact { after.similar with depth := congrArg (· + 1) after.similar.depth }
      · exact .fault after.similar _ _
    | _ => exact .fault after.similar _ _
  | get object name =>
    refine (within.evaluate object similar linked addressed).bind ?_
    rintro slots' machine' state' value _ after rfl
    cases value with
    | object receiver => exact (Lockstep.readProperty after.similar receiver name).lift
    | _ => exact .fault after.similar _ _
  | set object name value =>
    refine (within.evaluate object similar linked addressed.1).bind ?_
    rintro slots' machine' state' held _ after rfl
    cases held with
    | object receiver =>
      refine (within.evaluate value after.similar (after.linked linked) addressed.2).bind ?_
      rintro slots'' machine'' state'' result _ after rfl
      have written := Lockstep.setField after.similar receiver name.text result
      exact written.lift.bind fun _ _ after _ => .pure after.similar rfl
    | _ => exact .fault after.similar _ _
  | this id line =>
    obtain ⟨distance, ready, declared, entry⟩ := addressed
    have entry := keeps id _ entry
    refine .record _ (sound_this similar linked ready declared entry line) ?_
    exact (Lockstep.readName similar linked id ⟨"this", line⟩ (by simp [ready])
      (entry.trans declared.symm)).lift
  | super id line method =>
    refine .record _ (sound_super similar keeps linked addressed) ?_
    exact (Lockstep.readSuper keeps similar linked id line method addressed).lift

end Evaluate

include within

theorem evaluateAll_succ (similar : Similar table slots machine state)
    (linked : Linked slots machine.heap.scopes scoping machine.scope environment)
    (exprs : List Expr) (addressed : Expr.AllAddressed table scoping exprs) :
    Recorded setting.distances table none Equal (Trace.evaluateAll setting (fuel + 1) exprs)
      (Eval.evaluateAll setting.clock (fuel + 1) environment exprs) slots machine state := by
  cases exprs with
  | nil => exact .pure similar rfl
  | cons first rest =>
    refine (within.evaluate first similar linked addressed.1).bind ?_
    rintro slots' machine' state' value _ after rfl
    refine (within.evaluateAll rest after.similar (after.linked linked) addressed.2).bind ?_
    rintro slots'' machine'' state'' values _ after rfl
    exact .pure after.similar rfl

theorem call_succ (similar : Similar table slots machine state) (callee : Callable)
    (arguments : List Value) (fits : arguments.length = machine.heap.arity callee) :
    Recorded setting.distances table none Equal (Trace.call setting (fuel + 1) callee arguments)
      (Eval.call setting.clock (fuel + 1) callee arguments) slots machine state := by
  cases callee with
  | clock => exact (Lockstep.readClock similar setting).lift
  | ofFunction ref =>
    exact .inspect_left rfl (.inspect_right rfl
      (within.invoke arguments similar (similar.functions.2 ref) fits))
  | ofClass ref =>
    refine .newInstance_bind similar ref fun created similar same => ?_
    have method := similar.method? ref initializerName
    refine .inspect_left (same initializerName) (.inspect_right rfl ?_)
    rw [same initializerName] at method
    rw [Heap.arity] at fits
    revert method fits
    generalize machine.heap.method? ref initializerName = found
    generalize State.method? _ ref initializerName = found'
    intro fits method
    cases method with
    | none => exact .pure similar rfl
    | some method =>
      refine (Lockstep.bindMethod similar method created).lift.bind ?_
      rintro slots' machine' state' closure closure' after ⟨same, routine⟩
      have invoked := within.invoke arguments after.similar same (by rw [routine]; exact fits)
      exact invoked.discard.bind fun _ _ after _ => .pure after.similar rfl

theorem invoke_succ {closure : Lox.Closure} (similar : Similar table slots machine state)
    (same : SameFunction table slots machine.heap.scopes closure closure')
    (arguments : List Value) (fits : arguments.length = closure.routine.arity) :
    Recorded setting.distances table none Equal (Trace.invoke setting (fuel + 1) closure arguments)
      (Eval.invoke setting.clock (fuel + 1) closure' arguments) slots machine state := by
  obtain ⟨scoping, captured, addressed, _⟩ := id same
  obtain ⟨⟨name, parameters, body⟩, scope, isInitializer⟩ := closure
  obtain ⟨distinct, plain, body'⟩ := addressed
  have names : ((parameters.map (·.text)).zip arguments).map (·.1) = parameters.map (·.text) := by
    rw [List.map_fst_zip]
    simpa [Routine.arity] using Nat.le_of_eq fits.symm
  have holds : ∀ entry ∈ (parameters.map (·.text)).zip arguments, Holds entry.1 entry.2 := by
    rintro ⟨text, value⟩ member
    obtain ⟨parameter, inside, rfl⟩ := List.mem_map.mp (List.of_mem_zip member).1
    exact .plain (plain parameter inside) value
  simp only [Trace.invoke, Eval.invoke, Lox.Eval.activation, captured.parameters, captured.body]
  rw [← names] at distinct body'
  rw [← bind_assoc, ← bind_assoc]
  refine Recorded.bind (.enter Equal similar _ distinct holds captured.linked ?_) ?_
  · exact fun scope environment after linked owned =>
      within.executeAll body { after.similar with } linked owned (List.cons_ne_nil _ _) body'
  · rintro slots' machine' state' flow _ after rfl
    have same := same.grow after.grows
    refine .record _ (sound_result after.similar same) ?_
    exact (Lockstep.callResult after.similar same flow).lift

/-- A statement that declares nothing. -/
theorem branch (similar : Similar table slots machine state) (stmt : Stmt)
    (linked : Linked slots machine.heap.scopes scoping machine.scope place.environment)
    (stands : Stands place scoping) (plain : stmt.introduces = none)
    (addressed : stmt.Addressed table scoping) :
    Recorded setting.distances table none (Ended scoping machine.scope place.environment)
      (Trace.execute setting fuel stmt) (Eval.execute setting.clock fuel place stmt)
      slots machine state := by
  rw [← scoping.pending_eq plain] at linked
  rw [← scoping.after_eq plain]
  exact within.execute stmt similar linked stands addressed

theorem execute_succ (keeps : setting.Keeps table) (similar : Similar table slots machine state)
    (stmt : Stmt)
    (linked : Linked slots machine.heap.scopes (scoping.pending stmt) machine.scope
      place.environment)
    (stands : Stands place scoping) (addressed : stmt.Addressed table scoping) :
    Recorded setting.distances table none
      (Ended (scoping.after stmt) machine.scope place.environment)
      (Trace.execute setting (fuel + 1) stmt) (Eval.execute setting.clock (fuel + 1) place stmt)
      slots machine state := by
  cases stmt with
  | expression value =>
    refine (within.evaluate value similar linked addressed).discard.bind ?_
    exact fun _ _ after _ => .pure after.similar ⟨rfl, linked.grow after.grows⟩
  | print value =>
    refine (within.evaluate value similar linked addressed).bind ?_
    rintro slots' machine' state' value _ after rfl
    have linked := linked.grow after.grows
    have printed : Lockstep table none Equal
        (Lox.Eval.inspect (·.display value) >>= Lox.Eval.printLine)
        (Eval.inspect (·.display value) >>= Eval.printLine) slots' machine' state' :=
      .inspect_left rfl (.inspect_right (after.similar.display value)
        (.printLine after.similar _))
    rw [← bind_assoc]
    exact printed.lift.bind fun _ _ after' _ =>
      .pure after'.similar ⟨rfl, linked.grow after'.grows⟩
  | declareVar name initializer =>
    obtain ⟨fresh, plain, initializer'⟩ := addressed
    cases initializer with
    | none =>
      refine (Lockstep.settle similar linked stands (.plain plain _)).lift.bind ?_
      exact fun _ _ after linked => .pure after.similar ⟨rfl, linked⟩
    | some initializer =>
      refine (within.evaluate initializer similar linked (initializer' _ rfl)).bind ?_
      rintro slots' machine' state' value _ before rfl
      have linked := before.linked linked
      rw [← before.scope]
      refine (Lockstep.settle before.similar linked stands (.plain plain _)).lift.bind ?_
      exact fun _ _ after linked => .pure after.similar ⟨rfl, linked⟩
  | block body =>
    simp only [Trace.execute, Eval.execute]
    rw [← pure_bind place.environment fun environment =>
      Eval.executeAll setting.clock fuel (.within environment) body, ← extend_nil]
    refine Recorded.weaken
      (.enter Equal similar [] List.nodup_nil (List.forall_mem_nil _) linked ?_) ?_
    · exact fun scope environment after linked owned =>
        within.executeAll body { after.similar with } linked owned (List.cons_ne_nil _ _) addressed
    · exact fun _ _ after same => ⟨same, linked.grow after.grows⟩
  | ifThen condition consequent =>
    obtain ⟨condition', plain, consequent'⟩ := addressed
    refine (within.evaluate condition similar linked condition').bind ?_
    rintro slots' machine' state' value _ after rfl
    split
    · have linked := after.linked linked
      rw [← after.scope]
      exact within.branch after.similar consequent linked stands plain consequent'
    · exact .pure after.similar ⟨rfl, linked.grow after.grows⟩
  | ifElse condition consequent alternative =>
    obtain ⟨condition', ⟨plain, consequent'⟩, plain', alternative'⟩ := addressed
    refine (within.evaluate condition similar linked condition').bind ?_
    rintro slots' machine' state' value _ after rfl
    have linked := after.linked linked
    rw [← after.scope]
    split
    · exact within.branch after.similar consequent linked stands plain consequent'
    · exact within.branch after.similar alternative linked stands plain' alternative'
  | «while» condition body =>
    obtain ⟨condition', plain, body'⟩ := id addressed
    refine (within.evaluate condition similar linked condition').bind ?_
    rintro slots' machine' state' value _ after rfl
    split
    · have linked := after.linked linked
      rw [← after.scope]
      refine (within.branch after.similar body linked stands plain body').bind ?_
      rintro slots'' machine'' state'' flow _ after' ⟨rfl, linked⟩
      cases flow with
      | normal =>
        rw [← after'.scope] at linked ⊢
        exact within.branch after'.similar (.while condition body) linked stands rfl addressed
      | returned value => exact .pure after'.similar ⟨rfl, linked⟩
    · exact .pure after.similar ⟨rfl, linked.grow after.grows⟩
  | declareFunction routine =>
    obtain ⟨fresh, plain, routine'⟩ := addressed
    have same : ∀ {slots scopes}, Linked slots scopes (scoping.bind routine.name.text true)
        machine.scope place.environment → SameFunction table slots scopes
          ⟨routine, machine.scope, false⟩ (.ofRoutine routine place.environment false) :=
      fun linked => ⟨_, ⟨rfl, rfl, rfl, rfl, linked⟩, routine', fun bound => Bool.noConfusion bound⟩
    have settled := Lockstep.settleFunction similar linked stands (.plain plain) same
    have steps : Eval.execute setting.clock (fuel + 1) place (.declareFunction routine) =
        (Eval.newFunction (.ofRoutine routine place.environment false) >>=
          Eval.settle place routine.name.text) >>= fun _ => Pure.pure .normal :=
      (bind_assoc _ _ _).symm
    rw [steps]
    refine Recorded.bind (Lockstep.scope_left settled).lift ?_
    exact fun _ _ after linked => .pure after.similar ⟨rfl, linked⟩
  | «return» line value =>
    cases value with
    | none => exact .pure similar ⟨rfl, linked⟩
    | some value =>
      refine (within.evaluate value similar linked (addressed _ rfl)).bind ?_
      rintro slots' machine' state' value _ after rfl
      exact .pure after.similar ⟨rfl, linked.grow after.grows⟩
  | declareClass name superclass methods =>
    have declared := Lockstep.declareClass keeps similar linked stands addressed
    cases superclass with
    | none =>
      exact declared.lift.bind fun _ _ after linked => .pure after.similar ⟨rfl, linked⟩
    | some superclass =>
      obtain ⟨_, _, ⟨ready, entry⟩, other, _⟩ := addressed
      rw [Scoping.find?_bind _ _ other] at ready
      rw [Scoping.distance?_bind _ _ other] at entry
      refine .record _ (sound_read similar linked ?_ (keeps _ _ ?_)) ?_
      · exact (Scoping.find?_bind _ _ other).symm ▸ ready
      · exact (Scoping.distance?_bind _ _ other).symm ▸ entry
      · exact declared.lift.bind fun _ _ after linked => .pure after.similar ⟨rfl, linked⟩

theorem executeAll_succ (similar : Similar table slots machine state)
    (body : List Stmt)
    (linked : Linked slots machine.heap.scopes scoping machine.scope place.environment)
    (owned : Owned slots machine.scope scoping) (stands : Stands place scoping)
    (addressed : Stmt.AllAddressed table scoping body) :
    Recorded setting.distances table (some machine.scope) Equal
      (Trace.executeAll setting (fuel + 1) body)
      (Eval.executeAll setting.clock (fuel + 1) place body) slots machine state := by
  cases body with
  | nil => exact .pure similar rfl
  | cons first rest =>
    obtain ⟨first', rest'⟩ := addressed
    obtain ⟨place', state', slots', ran, introduced, linked, owned, stands⟩ :=
      introduce similar linked owned stands first first'.fresh
    simp only [Trace.executeAll, Eval.executeAll]
    refine .introduce_right introduced ran ?_
    refine (within.execute first introduced.similar linked stands first').bind ?_
    rintro slots'' machine' state'' flow _ after ⟨rfl, linked'⟩
    have owned := (owned.grow after.grows (linked.known introduced.similar.stored)).after
    rw [← after.scope] at linked' owned ⊢
    cases flow with
    | normal =>
      exact within.executeAll rest after.similar linked' owned (stands.after first) rest'
    | returned value => exact .pure after.similar rfl

end Simulates

/-- Any amount of fuel. -/
theorem simulates (keeps : setting.Keeps table) (fuel : Nat) : Simulates setting table fuel := by
  induction fuel with
  | zero => exact .zero setting table
  | succ fuel within =>
    exact {
      evaluate := fun expr similar linked => within.evaluate_succ keeps similar linked expr
      evaluateAll := fun exprs similar linked => within.evaluateAll_succ similar linked exprs
      call := fun callee arguments similar => within.call_succ similar callee arguments
      invoke := fun arguments similar same => within.invoke_succ similar same arguments
      execute := fun stmt similar => within.execute_succ keeps similar stmt
      executeAll := fun body similar => within.executeAll_succ similar body }

end Lexical

end Lox
