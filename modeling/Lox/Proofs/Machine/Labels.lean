import Lox.Program
import Lox.Proofs.Machine.Alike

/-! Labels do not matter to evaluation. Alike trees are evaluated alongside each other, with any
amount of fuel, if identifiers that stand for each other have the same distances. -/

namespace Lox.Eval

variable {pairing : Pairing} {before : ByteArray} {setting setting' : Setting}

/-- Evaluation with some fuel alongside that of alike trees. -/
structure Together (pairing : Pairing) (before : ByteArray) (setting setting' : Setting)
    (fuel : Nat) : Prop where
  evaluate : ∀ {tree tree'}, Expr.Alike pairing tree tree' →
    Alongside pairing before Eq (evaluate setting fuel tree) (evaluate setting' fuel tree')
  evaluateAll : ∀ {trees trees'}, Expr.AllAlike pairing trees trees' →
    Alongside pairing before Eq (evaluateAll setting fuel trees) (evaluateAll setting' fuel trees')
  call : ∀ callee arguments,
    Alongside pairing before Eq (call setting fuel callee arguments)
      (call setting' fuel callee arguments)
  invoke : ∀ {closure closure'} arguments, Closure.Alike pairing closure closure' →
    Alongside pairing before Eq (invoke setting fuel closure arguments)
      (invoke setting' fuel closure' arguments)
  execute : ∀ {tree tree'}, Stmt.Alike pairing tree tree' →
    Alongside pairing before Eq (execute setting fuel tree) (execute setting' fuel tree')
  executeAll : ∀ {trees trees'}, Stmt.AllAlike pairing trees trees' →
    Alongside pairing before Eq (executeAll setting fuel trees) (executeAll setting' fuel trees')

section Steps

variable (alike : Setting.Alike pairing setting setting')

include alike

theorem readName_alike (id : pairing.ids key key') (name : Name.Alike pairing word word') :
    Alongside pairing before Eq (readName setting key word) (readName setting' key' word') := by
  unfold readName
  rw [name.text, alike.distances _ _ id]
  refine Alongside.currentScope.bind_eq fun scope => ?_
  refine (Alongside.inspect Eq fun heap other same => ?_).bind_eq fun found =>
    .orElseFault name.line _ found
  rw [same.scopes]

theorem targetScope_alike (id : pairing.ids key key') (name : Name.Alike pairing word word') :
    Alongside pairing before Eq (targetScope setting key word) (targetScope setting' key' word') := by
  unfold targetScope
  rw [name.text, alike.distances _ _ id]
  refine Alongside.currentScope.bind_eq fun scope => ?_
  refine (Alongside.inspect Eq fun heap other same => ?_).bind_eq fun found =>
    .orElseFault name.line _ found
  rw [same.scopes]

omit alike in
theorem bindMethod_alike {closure : Closure} (method : Closure.Alike pairing closure closure')
    (receiver : InstanceRef) :
    Alongside pairing before (Closure.Alike pairing) (bindMethod closure receiver)
      (bindMethod closure' receiver) := by
  unfold bindMethod
  rw [method.scope]
  exact (Alongside.newScope _ _).bind_eq fun scope => .pure { method with scope := rfl }

omit alike in
theorem newBound_alike {closure : Closure} (method : Closure.Alike pairing closure closure')
    (receiver : InstanceRef) :
    Alongside pairing before Eq (bindMethod closure receiver >>= newFunction)
      (bindMethod closure' receiver >>= newFunction) :=
  (bindMethod_alike method receiver).bind fun _ _ bound => .newFunction bound

omit alike in
theorem readProperty_alike (receiver : InstanceRef) (name : Name.Alike pairing word word') :
    Alongside pairing before Eq (readProperty receiver word) (readProperty receiver word') := by
  unfold readProperty
  rw [name.text]
  refine (Alongside.inspect Eq fun heap other same => ?_).bind_eq fun field => ?_
  · unfold Heap.field?
    rw [same.instanceAt]
  cases field with
  | some value => exact .pure rfl
  | none =>
    refine (Alongside.inspect (Option.Rel (Closure.Alike pairing)) fun heap other same => ?_).bind
      fun method method' found => ?_
    · rw [same.instanceAt]
      exact same.method? _ _
    cases found with
    | some method => exact newBound_alike method receiver
    | none => exact .fault _ name.line

theorem readSuper_alike (id : pairing.ids key key') (line : pairing.lines here there)
    (method : Name.Alike pairing word word') :
    Alongside pairing before Eq (readSuper setting key here word)
      (readSuper setting' key' there word') := by
  unfold readSuper
  rw [method.text, alike.distances _ _ id]
  refine (Alongside.orElseFault line _ _).bind_eq fun distance => ?_
  refine Alongside.currentScope.bind_eq fun scope => ?_
  refine (Alongside.inspect Eq fun heap other same => ?_).bind_eq fun found => ?_
  · rw [same.scopes]
  split
  · refine (Alongside.inspect Eq fun heap other same => ?_).bind_eq fun found => ?_
    · rw [same.scopes]
    split
    · refine (Alongside.inspect (Option.Rel (Closure.Alike pairing)) fun heap other same =>
        same.method? _ _).bind fun closure closure' found => ?_
      cases found with
      | some found => exact newBound_alike found _
      | none => exact .fault _ method.line
    · exact .fault _ line
  · exact .fault _ line

theorem readSuperclass_alike (superclass : Superclass.Alike pairing parent parent') :
    Alongside pairing before Eq (readSuperclass setting parent) (readSuperclass setting' parent') := by
  refine (readName_alike alike superclass.id superclass.name).bind_eq fun value => ?_
  split
  · exact .pure rfl
  · exact .fault _ superclass.name.line

omit alike in
theorem closure_alike (routine : Routine.Alike pairing declared declared') (scope : ScopeRef)
    (isInitializer : Bool) :
    Closure.Alike pairing ⟨declared, scope, isInitializer⟩ ⟨declared', scope, isInitializer⟩ := by
  cases routine with
  | routine name parameters body =>
    refine ⟨name.text, ?_, body, rfl, rfl⟩
    induction parameters with
    | nil => rfl
    | cons first _ ih => simp [first.text, ih]

omit alike in
theorem methodTable_alike (methods : Routine.AllAlike pairing owned owned') (scope : ScopeRef)
    (name : String) :
    Option.Rel (Closure.Alike pairing) ((methodTable scope owned).find? name)
      ((methodTable scope owned').find? name) := by
  refine Bindings.rel_ofList ?_ name
  induction owned generalizing owned' with
  | nil =>
    cases methods
    exact .nil
  | cons method rest ih =>
    cases methods with
    | cons first others =>
      refine .cons ⟨first.text, ?_⟩ (ih others)
      simp only [first.text]
      exact closure_alike first scope _

omit alike in
theorem defineClass_alike (methods : Routine.AllAlike pairing owned owned') (name : String)
    (parent : Option ClassRef) (scope : ScopeRef) :
    Alongside pairing before Eq
      (newClass ⟨name, parent, methodTable scope owned⟩ >>= define name)
      (newClass ⟨name, parent, methodTable scope owned'⟩ >>= define name) := by
  have object : ClassObject.Alike pairing ⟨name, parent, methodTable scope owned⟩
      ⟨name, parent, methodTable scope owned'⟩ := ⟨rfl, rfl, methodTable_alike methods scope⟩
  exact (Alongside.newClass object).bind_eq fun created => .define name created

theorem declareClass_alike (name : Name.Alike pairing word word')
    (superclass : Option.Rel (Superclass.Alike pairing) parent parent')
    (methods : Routine.AllAlike pairing owned owned') :
    Alongside pairing before Eq (declareClass setting word parent owned)
      (declareClass setting' word' parent' owned') := by
  unfold declareClass
  rw [name.text]
  cases superclass with
  | none =>
    exact Alongside.currentScope.bind_eq fun scope => defineClass_alike methods _ none scope
  | some superclass =>
    refine (readSuperclass_alike alike superclass).bind_eq fun ref => ?_
    refine Alongside.currentScope.bind_eq fun scope => ?_
    refine (Alongside.newScope _ scope).bind_eq fun scope => ?_
    exact defineClass_alike methods _ (some ref) scope

omit alike in
theorem callResult_alike {closure : Closure} (same : Closure.Alike pairing closure closure')
    (flow : Flow) :
    Alongside pairing before Eq (callResult closure flow) (callResult closure' flow) := by
  unfold callResult
  rw [same.isInitializer, same.scope]
  split
  · refine (Alongside.inspect Eq fun heap other alike => ?_).bind_eq fun this => .pure rfl
    rw [alike.scopes]
  · cases flow <;> exact .pure rfl

end Steps

namespace Together

theorem zero : Together pairing before setting setting' 0 where
  evaluate _ := .halt .outOfFuel
  evaluateAll _ := .halt .outOfFuel
  call _ _ := .halt .outOfFuel
  invoke _ _ := .halt .outOfFuel
  execute _ := .halt .outOfFuel
  executeAll _ := .halt .outOfFuel

variable (alike : Setting.Alike pairing setting setting') {fuel : Nat}
  (together : Together pairing before setting setting' fuel)

include together

theorem call_evaluated (callee : Expr.Alike pairing tree tree') (line : pairing.lines here there)
    (arguments : Expr.AllAlike pairing trees trees') :
    Alongside pairing before Eq (Eval.evaluate setting (fuel + 1) (.call tree here trees))
      (Eval.evaluate setting' (fuel + 1) (.call tree' there trees')) := by
  simp only [Eval.evaluate]
  refine (together.evaluate callee).bind_eq fun value => ?_
  cases value with
  | callable callee =>
    refine (together.evaluateAll arguments).bind_eq fun values => ?_
    refine (Alongside.inspect Eq fun heap other same => same.arity callee).bind_eq fun arity => ?_
    split
    · exact .deeper line (together.call callee values)
    · exact .fault _ line
  | _ => exact .fault _ line

theorem set_evaluated (object : Expr.Alike pairing tree tree')
    (name : Name.Alike pairing word word') (value : Expr.Alike pairing given given') :
    Alongside pairing before Eq (Eval.evaluate setting (fuel + 1) (.set tree word given))
      (Eval.evaluate setting' (fuel + 1) (.set tree' word' given')) := by
  simp only [Eval.evaluate, name.text]
  refine (together.evaluate object).bind_eq fun object => ?_
  cases object with
  | object receiver =>
    refine (together.evaluate value).bind_eq fun value => ?_
    exact (Alongside.setField receiver _ value).bind_eq fun _ => .pure rfl
  | _ => exact .fault _ name.line

theorem evaluateAll_succ (alike : Expr.AllAlike pairing trees trees') :
    Alongside pairing before Eq (Eval.evaluateAll setting (fuel + 1) trees)
      (Eval.evaluateAll setting' (fuel + 1) trees') := by
  cases alike with
  | nil => exact .pure rfl
  | cons first rest =>
    simp only [Eval.evaluateAll]
    refine (together.evaluate first).bind_eq fun value => ?_
    exact (together.evaluateAll rest).bind_eq fun values => .pure rfl

theorem invoke_succ {closure : Closure} (arguments : List Value)
    (same : Closure.Alike pairing closure closure') :
    Alongside pairing before Eq (Eval.invoke setting (fuel + 1) closure arguments)
      (Eval.invoke setting' (fuel + 1) closure' arguments) := by
  simp only [Eval.invoke, activation, same.parameters, same.scope]
  refine (Alongside.newScope _ _).bind_eq fun scope => ?_
  refine (Alongside.within scope (together.executeAll same.body)).bind_eq fun flow => ?_
  exact callResult_alike same flow

theorem executeAll_succ (alike : Stmt.AllAlike pairing trees trees') :
    Alongside pairing before Eq (Eval.executeAll setting (fuel + 1) trees)
      (Eval.executeAll setting' (fuel + 1) trees') := by
  cases alike with
  | nil => exact .pure rfl
  | cons first rest =>
    simp only [Eval.executeAll]
    refine (together.execute first).bind_eq fun flow => ?_
    cases flow with
    | normal => exact together.executeAll rest
    | returned value => exact .pure rfl

include alike

theorem evaluate_succ (same : Expr.Alike pairing tree tree') :
    Alongside pairing before Eq (Eval.evaluate setting (fuel + 1) tree)
      (Eval.evaluate setting' (fuel + 1) tree') := by
  cases same with
  | literal value => exact .pure rfl
  | grouping inner => exact together.evaluate inner
  | unary op line operand =>
    exact (together.evaluate operand).bind_eq fun value => .orFault line _
  | binary op line left right =>
    refine (together.evaluate left).bind_eq fun left => ?_
    exact (together.evaluate right).bind_eq fun right => .orFault line _
  | logical op line left right =>
    simp only [Eval.evaluate]
    refine (together.evaluate left).bind_eq fun left => ?_
    split
    · exact .pure rfl
    · exact together.evaluate right
  | read id name => exact readName_alike alike id name
  | assign id name value =>
    simp only [Eval.evaluate, name.text]
    refine (together.evaluate value).bind_eq fun value => ?_
    refine (targetScope_alike alike id name).bind_eq fun scope => ?_
    exact (Alongside.defineIn scope _ value).bind_eq fun _ => .pure rfl
  | call callee line arguments => exact together.call_evaluated callee line arguments
  | get object name =>
    simp only [Eval.evaluate]
    refine (together.evaluate object).bind_eq fun object => ?_
    cases object with
    | object receiver => exact readProperty_alike receiver name
    | _ => exact .fault _ name.line
  | set object name value => exact together.set_evaluated object name value
  | this id line => exact readName_alike alike id ⟨rfl, line⟩
  | super id line method => exact readSuper_alike alike id line method

theorem call_succ (callee : Callable) (arguments : List Value) :
    Alongside pairing before Eq (Eval.call setting (fuel + 1) callee arguments)
      (Eval.call setting' (fuel + 1) callee arguments) := by
  cases callee with
  | clock => exact .readClock alike
  | ofFunction ref =>
    refine (Alongside.inspect (Closure.Alike pairing) fun heap other same =>
      same.closureAt ref).bind fun closure closure' same => ?_
    exact together.invoke arguments same
  | ofClass ref =>
    simp only [Eval.call]
    refine (Alongside.newInstance ref).bind_eq fun created => ?_
    refine (Alongside.inspect (Option.Rel (Closure.Alike pairing)) fun heap other same =>
      same.method? ref initializerName).bind fun method method' found => ?_
    cases found with
    | none => exact .pure rfl
    | some method =>
      have invoked := (bindMethod_alike method created).bind fun _ _ bound =>
        together.invoke arguments bound
      exact invoked.discard.bind_eq fun _ => .pure rfl

theorem execute_succ (same : Stmt.Alike pairing tree tree') :
    Alongside pairing before Eq (Eval.execute setting (fuel + 1) tree)
      (Eval.execute setting' (fuel + 1) tree') := by
  cases same with
  | expression value => exact (together.evaluate value).discard.bind_eq fun _ => .pure rfl
  | print value =>
    refine (together.evaluate value).bind_eq fun value => ?_
    refine (Alongside.inspect Eq fun heap other same => same.display value).bind_eq fun text => ?_
    exact (Alongside.printLine text).bind_eq fun _ => .pure rfl
  | declareVar name initializer =>
    cases initializer with
    | none =>
      simp only [Eval.execute, name.text]
      exact (Alongside.define _ .nil).bind_eq fun _ => .pure rfl
    | some value =>
      simp only [Eval.execute, name.text]
      refine (together.evaluate value).bind_eq fun value => ?_
      exact (Alongside.define _ value).bind_eq fun _ => .pure rfl
  | block body =>
    refine Alongside.currentScope.bind_eq fun scope => ?_
    refine (Alongside.newScope .empty scope).bind_eq fun scope => ?_
    exact .within scope (together.executeAll body)
  | ifThen condition consequent =>
    simp only [Eval.execute]
    refine (together.evaluate condition).bind_eq fun value => ?_
    split
    · exact together.execute consequent
    · exact .pure rfl
  | ifElse condition consequent alternative =>
    simp only [Eval.execute]
    refine (together.evaluate condition).bind_eq fun value => ?_
    split
    · exact together.execute consequent
    · exact together.execute alternative
  | «while» condition body =>
    simp only [Eval.execute]
    refine (together.evaluate condition).bind_eq fun value => ?_
    split
    · refine (together.execute body).bind_eq fun flow => ?_
      cases flow with
      | normal => exact together.execute (.while condition body)
      | returned value => exact .pure rfl
    · exact .pure rfl
  | declareFunction routine =>
    simp only [Eval.execute, routine.text]
    refine Alongside.currentScope.bind_eq fun scope => ?_
    refine (Alongside.newFunction (closure_alike routine scope false)).bind_eq fun created => ?_
    exact (Alongside.define _ created).bind_eq fun _ => .pure rfl
  | «return» line value =>
    cases value with
    | none => exact .pure rfl
    | some value => exact (together.evaluate value).bind_eq fun value => .pure rfl
  | declareClass name superclass methods =>
    exact (declareClass_alike alike name superclass methods).bind_eq fun _ => .pure rfl

end Together

variable (alike : Setting.Alike pairing setting setting')

include alike

/-- Any amount of fuel. -/
theorem together (fuel : Nat) : Together pairing before setting setting' fuel := by
  induction fuel with
  | zero => exact .zero
  | succ fuel ih =>
    exact {
      evaluate := ih.evaluate_succ alike
      evaluateAll := ih.evaluateAll_succ
      call := ih.call_succ alike
      invoke := ih.invoke_succ
      execute := ih.execute_succ alike
      executeAll := ih.executeAll_succ }

/-- Alike programs run alongside each other. -/
theorem interpret_alike (fuel : Nat) (same : Stmt.AllAlike pairing body body') :
    Alongside pairing before Eq (interpret setting fuel body) (interpret setting' fuel body') := by
  induction body generalizing body' with
  | nil =>
    cases same
    exact .pure rfl
  | cons first rest ih =>
    cases same with
    | cons first rest =>
      exact ((together alike fuel).execute first).discard.bind_eq fun _ => ih rest

end Lox.Eval
