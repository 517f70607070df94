import Lox.Machine.Evaluate

/-! Steps that are composed of single steps on a machine. Evaluation consists of such steps, of steps
inside a scope and of calls, so what holds of single steps and of compositions holds of the former. -/

namespace Lox.Eval

/-- The compositions of single steps. Only where something is printed a full sink halts the run. -/
inductive Composed : {α : Type} → Eval α → Prop where
  | pure (value : α) : Composed (Pure.pure value)
  | halt (reason : Halt) (other : reason ≠ .sinkFull) : Composed (Eval.halt reason : Eval α)
  | bind {step : Eval α} {later : α → Eval β} (first : Composed step)
      (rest : ∀ value, Composed (later value)) : Composed (step >>= later)
  | inspect (view : Heap → α) : Composed (Eval.inspect view)
  | currentScope : Composed Eval.currentScope
  | newScope (bindings : Bindings Value) (enclosing : ScopeRef) :
      Composed (Eval.newScope bindings enclosing)
  | defineIn (scope : ScopeRef) (name : String) (value : Value) :
      Composed (Eval.defineIn scope name value)
  | newFunction (closure : Closure) : Composed (Eval.newFunction closure)
  | newClass (object : ClassObject) : Composed (Eval.newClass object)
  | newInstance (owner : ClassRef) : Composed (Eval.newInstance owner)
  | setField (ref : InstanceRef) (name : String) (value : Value) :
      Composed (Eval.setField ref name value)
  | readClock (setting : Setting) : Composed (Eval.readClock setting)
  | printLine (text : String) : Composed (Eval.printLine text)

namespace Composed

variable {α : Type}

theorem outOfFuel : Composed (Eval.halt .outOfFuel : Eval α) :=
  .halt _ nofun

theorem fault (reason : RuntimeFault) (line : Nat) : Composed (Eval.fault reason line : Eval α) :=
  .halt _ nofun

theorem orFault (line : Nat) (result : Except RuntimeFault α) : Composed (Eval.orFault line result) := by
  cases result with
  | ok value => exact .pure value
  | error reason => exact fault reason line

theorem orElseFault (line : Nat) (reason : RuntimeFault) (result : Option α) :
    Composed (Eval.orElseFault line reason result) := by
  cases result with
  | some value => exact .pure value
  | none => exact fault reason line

theorem define (name : String) (value : Value) : Composed (Eval.define name value) :=
  .bind .currentScope fun scope => .defineIn scope name value

theorem readName (setting : Setting) (id : NodeId) (name : Name) :
    Composed (Eval.readName setting id name) :=
  .bind .currentScope fun _ => .bind (.inspect _) fun _ => orElseFault _ _ _

theorem targetScope (setting : Setting) (id : NodeId) (name : Name) :
    Composed (Eval.targetScope setting id name) :=
  .bind .currentScope fun _ => .bind (.inspect _) fun _ => orElseFault _ _ _

theorem bindMethod (method : Closure) (receiver : InstanceRef) :
    Composed (Eval.bindMethod method receiver) :=
  .bind (.newScope _ _) fun _ => .pure _

theorem newBound (method : Closure) (receiver : InstanceRef) :
    Composed (Eval.bindMethod method receiver >>= Eval.newFunction) :=
  .bind (bindMethod method receiver) .newFunction

theorem readProperty (receiver : InstanceRef) (name : Name) :
    Composed (Eval.readProperty receiver name) := by
  apply bind (.inspect _)
  intro field
  cases field with
  | some value => exact .pure value
  | none =>
    apply bind (.inspect _)
    intro method
    cases method with
    | some method => exact newBound method receiver
    | none => exact fault _ _

theorem readSuper (setting : Setting) (id : NodeId) (line : Nat) (method : Name) :
    Composed (Eval.readSuper setting id line method) := by
  apply bind (orElseFault _ _ _)
  intro distance
  apply bind .currentScope
  intro scope
  apply bind (.inspect _)
  intro parent
  split
  · apply bind (.inspect _)
    intro this
    split
    · apply bind (.inspect _)
      intro found
      cases found with
      | some found => exact newBound found _
      | none => exact fault _ _
    · exact fault _ _
  · exact fault _ _

theorem readSuperclass (setting : Setting) (superclass : Superclass) :
    Composed (Eval.readSuperclass setting superclass) := by
  apply bind (readName _ _ _)
  intro value
  split
  · exact .pure _
  · exact fault _ _

theorem settleClass (object : ClassObject) (name : String) :
    Composed (Eval.newClass object >>= Eval.define name) :=
  .bind (.newClass object) (define name)

theorem declareClass (setting : Setting) (name : Name) (superclass : Option Superclass)
    (methods : List Routine) : Composed (Eval.declareClass setting name superclass methods) := by
  cases superclass with
  | none => exact .bind .currentScope fun _ => settleClass _ _
  | some superclass =>
    apply bind (readSuperclass _ _)
    intro parent
    apply bind .currentScope
    intro scope
    exact .bind (.newScope _ _) fun _ => settleClass _ _

theorem activation (closure : Closure) (arguments : List Value) :
    Composed (Eval.activation closure arguments) :=
  .newScope _ _

theorem callResult (closure : Closure) (flow : Flow) : Composed (Eval.callResult closure flow) := by
  by_cases initializer : closure.isInitializer
  · simp only [Eval.callResult, if_pos initializer]
    exact .bind (.inspect _) fun _ => .pure _
  · simp only [Eval.callResult, if_neg initializer]
    cases flow <;> exact .pure _

end Composed

end Lox.Eval
