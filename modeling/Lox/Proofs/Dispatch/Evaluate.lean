import Lox.Proofs.Dispatch.Super

/-! Evaluation keeps journals sound, for every amount of fuel. -/

namespace Lox.Course

open Eval (halt)

variable {setting : Setting} {table : Entries} {fuel : Nat}

/-- Evaluation with some fuel runs from every sound journal in which the code stands. -/
structure Sustains (setting : Setting) (table : Entries) (fuel : Nat) : Prop where
  evaluate : ∀ {place scoping journal} (tree : Expr),
    Stands setting table scoping place.owner tree.receivers journal →
    tree.Addressed table scoping →
    Runs setting table (Course.evaluate setting fuel place tree) journal fun heap value => value.Known heap
  evaluateAll : ∀ {place scoping journal} (trees : List Expr),
    Stands setting table scoping place.owner (Expr.allReceivers trees) journal →
    Expr.AllAddressed table scoping trees →
    Runs setting table (Course.evaluateAll setting fuel place trees) journal fun heap values =>
      ∀ value ∈ values, value.Known heap
  call : ∀ {place journal} (callee : Callable) (arguments : List Value),
    Sound setting table journal → (Value.callable callee).Known journal.machine.heap →
    (∀ value ∈ arguments, value.Known journal.machine.heap) →
    Runs setting table (Course.call setting fuel place callee arguments) journal
      fun heap value => value.Known heap
  invoke : ∀ {place journal closure} (arguments : List Value),
    Sound setting table journal →
    Placed setting table journal.points journal.machine.heap closure place.owner →
    (∀ value ∈ arguments, value.Known journal.machine.heap) →
    Runs setting table (Course.invoke setting fuel place closure arguments) journal
      fun heap value => value.Known heap
  execute : ∀ {place scoping journal} (tree : Stmt),
    Stands setting table scoping place.owner tree.receivers journal →
    tree.Addressed table scoping →
    Runs setting table (Course.execute setting fuel place tree) journal fun heap flow => flow.Known heap
  executeAll : ∀ {place scoping journal} (trees : List Stmt),
    Stands setting table scoping place.owner (Stmt.allReceivers trees) journal →
    Stmt.AllAddressed table scoping trees →
    Runs setting table (Course.executeAll setting fuel place trees) journal fun heap flow => flow.Known heap

namespace Sustains

theorem zero (setting : Setting) (table : Entries) : Sustains setting table 0 where
  evaluate _ stands _ := .halt stands.sound _
  evaluateAll _ stands _ := .halt stands.sound _
  call _ _ sound _ _ := .halt sound .outOfFuel
  invoke _ sound _ _ := .halt sound .outOfFuel
  execute _ stands _ := .halt stands.sound _
  executeAll _ stands _ := .halt stands.sound _

variable (within : Sustains setting table fuel)

section Evaluate

variable {place : Place} {scoping : Scoping} {journal : Journal}

include within

theorem evaluate_call (callee : Expr) (line : Nat) (arguments : List Expr)
    (stands : Stands setting table scoping place.owner (Expr.call callee line arguments).receivers
      journal)
    (addressed : (Expr.call callee line arguments).Addressed table scoping) :
    Runs setting table (Course.evaluate setting (fuel + 1) place (.call callee line arguments)) journal
      fun heap value => value.Known heap := by
  refine .observe stands.sound trivial fun sound => ?_
  have stands := stands.noted sound
  apply (within.evaluate callee (stands.part (List.subset_append_left ..)) addressed.1).bind
  intro value after later known
  have stands := stands.after later
  cases value with
  | callable function =>
    apply (within.evaluateAll arguments (stands.part (List.subset_append_right ..)) addressed.2).bind
    intro values last later' known'
    have looked : Runs setting table (lift (Eval.inspect (·.arity function))) last fun _ _ => True :=
      .inspect later'.sound trivial
    apply looked.bind
    intro arity final later'' _
    split
    · refine .deeper line later''.sound (within.call function values ?_ ?_ ?_)
      · exact later''.sound.move rfl
      · exact (known.later later'.later).later later''.later
      · intro value member
        exact (known' value member).later later''.later
    · exact .fault later''.sound _ _
  | _ => exact .fault later.sound _ _

theorem evaluate_get (object : Expr) (name : Name)
    (stands : Stands setting table scoping place.owner (Expr.get object name).receivers journal)
    (addressed : (Expr.get object name).Addressed table scoping) :
    Runs setting table (Course.evaluate setting (fuel + 1) place (.get object name)) journal
      fun heap value => value.Known heap := by
  refine .observe stands.sound trivial fun sound => ?_
  apply (within.evaluate object (stands.noted sound) addressed).bind
  intro value after later known
  cases value with
  | object receiver => exact .view (.readProperty later.sound known name)
  | _ => exact .fault later.sound _ _

theorem evaluate_set (object : Expr) (name : Name) (value : Expr)
    (stands : Stands setting table scoping place.owner (Expr.set object name value).receivers journal)
    (addressed : (Expr.set object name value).Addressed table scoping) :
    Runs setting table (Course.evaluate setting (fuel + 1) place (.set object name value)) journal
      fun heap value => value.Known heap := by
  refine .observe stands.sound trivial fun sound => ?_
  have stands := stands.noted sound
  apply (within.evaluate object (stands.part (List.subset_append_left ..)) addressed.1).bind
  intro held after later _
  cases held with
  | object receiver =>
    apply (within.evaluate value
      ((stands.after later).part (List.subset_append_right ..)) addressed.2).bind
    intro result last later' known
    exact .assignField later'.sound known receiver name.text
  | _ => exact .fault later.sound _ _

theorem evaluate_succ (keeps : setting.Keeps table) (tree : Expr)
    (stands : Stands setting table scoping place.owner tree.receivers journal)
    (addressed : tree.Addressed table scoping) :
    Runs setting table (Course.evaluate setting (fuel + 1) place tree) journal
      fun heap value => value.Known heap := by
  cases tree with
  | literal value =>
    exact .observe stands.sound trivial fun sound => .pure sound (Value.known_ofLiteral value _)
  | grouping inner =>
    exact .observe stands.sound trivial fun sound =>
      within.evaluate inner (stands.noted sound) addressed
  | unary op line operand =>
    refine .observe stands.sound trivial fun sound => ?_
    apply (within.evaluate operand (stands.noted sound) addressed).bind
    intro value after later _
    exact .orFault later.sound _ fun _ result => UnaryOp.known_of_apply result
  | binary op line left right =>
    refine .observe stands.sound trivial fun sound => ?_
    have stands := stands.noted sound
    apply (within.evaluate left (stands.part (List.subset_append_left ..)) addressed.1).bind
    intro first after later _
    apply (within.evaluate right
      ((stands.after later).part (List.subset_append_right ..)) addressed.2).bind
    intro second last later _
    exact .orFault later.sound _ fun _ result => BinaryOp.known_of_apply result
  | logical op line left right =>
    refine .observe stands.sound trivial fun sound => ?_
    have stands := stands.noted sound
    apply (within.evaluate left (stands.part (List.subset_append_left ..)) addressed.1).bind
    intro first after later known
    split
    · exact .pure later.sound known
    · exact within.evaluate right ((stands.after later).part (List.subset_append_right ..)) addressed.2
  | read id name =>
    exact .observe stands.sound trivial fun sound => .readName sound id name
  | assign id name value =>
    refine .observe stands.sound trivial fun sound => ?_
    apply (within.evaluate value (stands.noted sound) addressed.1).bind
    intro result after later known
    exact .assign later.sound addressed.2.1 known id
  | call callee line arguments => exact within.evaluate_call callee line arguments stands addressed
  | get object name => exact within.evaluate_get object name stands addressed
  | set object name value => exact within.evaluate_set object name value stands addressed
  | this id line =>
    exact .observe stands.sound (stands.this_right keeps addressed) fun sound =>
      .readName sound id ⟨"this", line⟩
  | super id line method =>
    exact .observe stands.sound (stands.super_right keeps addressed) fun sound =>
      .view (.readSuper keeps (stands.noted sound) addressed)

theorem evaluateAll_succ (trees : List Expr)
    (stands : Stands setting table scoping place.owner (Expr.allReceivers trees) journal)
    (addressed : Expr.AllAddressed table scoping trees) :
    Runs setting table (Course.evaluateAll setting (fuel + 1) place trees) journal
      fun heap values => ∀ value ∈ values, value.Known heap := by
  refine .observe stands.sound trivial fun sound => ?_
  have stands := stands.noted sound
  cases trees with
  | nil => exact .pure sound nofun
  | cons first rest =>
    apply (within.evaluate first (stands.part (List.subset_append_left ..)) addressed.1).bind
    intro value after later known
    apply (within.evaluateAll rest
      ((stands.after later).part (List.subset_append_right ..)) addressed.2).bind
    intro values last later' known'
    refine .pure later'.sound ?_
    intro held member
    rcases List.mem_cons.mp member with rfl | member
    · exact known.later later'.later
    · exact known' held member

/-- A class runs its initializer, if it has one, as code of the class from which that comes. -/
theorem call_class (ref : ClassRef) (arguments : List Value) (sound : Sound setting table journal)
    (known : ref.index < journal.machine.heap.classes.size)
    (given : ∀ value ∈ arguments, value.Known journal.machine.heap) :
    Runs setting table (Course.call setting (fuel + 1) place (.ofClass ref) arguments) journal
      fun heap value => value.Known heap := by
  apply Runs.observe sound
  · exact trivial
  intro sound
  apply (Runs.newInstance sound known).bind
  intro created after entered isA
  refine .view ?_
  have looked : Runs setting table (lift (Eval.inspect (·.method? ref initializerName))) after
      fun _ found => found = after.machine.heap.method? ref initializerName :=
    .inspect entered.sound rfl
  have inside := Nat.lt_of_lt_of_le known entered.later.classes
  apply looked.bind
  rintro _ middle later rfl
  have closed := entered.sound.closed
  rcases Heap.lookup_cases closed.ranked inside initializerName with
    ⟨holder, method, found, held, finds⟩ | ⟨missing, _⟩
  · rw [found, held]
    have inside := closed.known_of_inherits finds.inherits inside
    apply (Runs.bindMethod later.sound (isA.later later.later).known method).bind
    intro bound last ready bound'
    have grown := later.later.trans ready.later
    have own := finds.held
    rw [← grown.classAt inside] at own
    have placed := ready.sound.method (Nat.lt_of_lt_of_le inside grown.classes) own (.refl _) bound'
      ((isA.later grown).up (finds.inherits.later grown))
    have given' (value : Value) (member : value ∈ arguments) :=
      (given value member).later (entered.later.trans grown)
    have invoked : Runs setting table (Course.invoke setting fuel ⟨place.calls, some holder⟩ bound
        arguments) last fun heap value => value.Known heap :=
      within.invoke arguments ready.sound placed given'
    apply invoked.discard.bind
    intro _ final ended _
    exact .pure ended.sound ((isA.later grown).later ended.later).known
  · rw [missing]
    exact .pure later.sound (isA.later later.later).known

theorem call_succ (callee : Callable) (arguments : List Value)
    (sound : Sound setting table journal)
    (known : (Value.callable callee).Known journal.machine.heap)
    (given : ∀ value ∈ arguments, value.Known journal.machine.heap) :
    Runs setting table (Course.call setting (fuel + 1) place callee arguments) journal
      fun heap value => value.Known heap := by
  cases callee with
  | clock =>
    have noted : Runs setting table (observe place (.call .clock arguments)
        (lift (Eval.readClock setting))) journal fun heap value => value.Known heap :=
      .observe sound trivial fun sound => .readClock sound
    exact noted
  | ofFunction ref =>
    apply Runs.observe sound
    · exact trivial
    intro sound
    refine .view ?_
    have placed := sound.functions ref known
    have looked : Runs setting table (lift (Eval.inspect (·.closureAt ref)))
        (journal.note (.call (.ofFunction ref) arguments) .started place)
        fun _ closure => closure = journal.machine.heap.closureAt ref := .inspect sound rfl
    apply looked.bind
    rintro _ after later rfl
    exact within.invoke arguments later.sound (placed.later later.points later.later)
      fun value member => (given value member).later later.later
  | ofClass ref => exact within.call_class ref arguments sound known given

/-- Arguments are bound in a scope of their own, in which the body belongs where its routine does. -/
theorem invoke_succ {closure : Closure} (arguments : List Value)
    (sound : Sound setting table journal)
    (placed : Placed setting table journal.points journal.machine.heap closure place.owner)
    (given : ∀ value ∈ arguments, value.Known journal.machine.heap) :
    Runs setting table (Course.invoke setting (fuel + 1) place closure arguments) journal
      fun heap value => value.Known heap := by
  apply Runs.observe sound
  · exact trivial
  intro sound
  obtain ⟨scoping, nested, addressed, belongs⟩ := placed
  obtain ⟨⟨name, parameters, body⟩, outer, isInitializer⟩ := closure
  obtain ⟨_, plain, body_addressed⟩ := addressed
  let entries := (parameters.map (·.text)).zip arguments
  have entry {wanted : String} {value : Value}
      (found : (Bindings.ofList entries).find? wanted = some value) :
      wanted ∈ parameters.map (·.text) ∧ value ∈ arguments := by
    rw [Bindings.find?_ofList_last] at found
    exact List.of_mem_zip (List.mem_reverse.mp (Bindings.mem_of_findEntry found))
  have entered : Runs setting table (lift (Eval.activation
      ⟨⟨name, parameters, body⟩, outer, isInitializer⟩ arguments))
      (journal.note (.invoke ⟨⟨name, parameters, body⟩, outer, isInitializer⟩ arguments) .started
        place) _ :=
    .newScope sound (fun _ value found => given value (entry found).2) outer
  apply entered.bind
  rintro scope after later ⟨link, bound, _⟩
  have free : after.machine.heap.scopes.valueIn? scope "this" = none := by
    rw [bound]
    cases found : (Bindings.ofList entries).find? "this" with
    | none => rfl
    | some value =>
      obtain ⟨parameter, member, same⟩ := List.mem_map.mp (entry found).1
      exact absurd same (plain parameter member).ne_this
  have stands : Stands setting table (Scoping.frame (parameters.map (·.text)) :: scoping) place.owner
      (Stmt.allReceivers body) { after with machine.scope := scope } := by
    refine ⟨later.sound.move rfl, (nested.later later.later).enter plain link free, ?_⟩
    exact belongs.later (List.Subset.trans (List.subset_cons_self ..) later.points) later.later
  apply (Runs.within scope (within.executeAll body stands body_addressed)).bind
  intro flow last ended known
  have held : Runs setting table (lift (Eval.callResult
      ⟨⟨name, parameters, body⟩, outer, isInitializer⟩ flow)) last
      fun heap value => value.Known heap := by
    cases isInitializer with
    | true =>
      refine .inspected (.making_pure ended.sound ?_)
      cases found : last.machine.heap.scopes.valueIn? outer "this" with
      | none => exact trivial
      | some value => exact ended.sound.closed.bound found
    | false =>
      cases flow with
      | normal => exact .making_pure ended.sound trivial
      | returned value => exact .making_pure ended.sound known
  exact held

end Evaluate

section Execute

variable {place : Place} {scoping : Scoping} {journal : Journal}

include within

theorem execute_block (body : List Stmt)
    (stands : Stands setting table scoping place.owner (Stmt.block body).receivers journal)
    (addressed : (Stmt.block body).Addressed table scoping) :
    Runs setting table (Course.execute setting (fuel + 1) place (.block body)) journal
      fun heap flow => flow.Known heap := by
  refine .observe stands.sound trivial fun sound => ?_
  have opened : Runs setting table (lift (Eval.currentScope >>= Eval.newScope .empty))
      (journal.note (.execute (.block body)) .started place) _ :=
    .atScope (.newScope sound (fun _ _ found => nomatch (Bindings.find?_empty _).symm.trans found) _)
  apply opened.bind
  rintro scope after later ⟨link, bound, _⟩
  have nested := stands.nested.later later.later
  refine .within scope (within.executeAll body ⟨later.sound.move rfl, ?_, ?_⟩ addressed)
  · exact .inside link ⟨rfl, rfl⟩ (bound "this") nested
  · exact stands.belongs.later (List.Subset.trans (List.subset_cons_self ..) later.points) later.later

theorem execute_while (condition : Expr) (body : Stmt)
    (stands : Stands setting table scoping place.owner (Stmt.while condition body).receivers journal)
    (addressed : (Stmt.while condition body).Addressed table scoping) :
    Runs setting table (Course.execute setting (fuel + 1) place (.while condition body)) journal
      fun heap flow => flow.Known heap := by
  refine .observe stands.sound trivial fun sound => ?_
  have stands := stands.noted sound
  apply (within.evaluate condition (stands.part (List.subset_append_left ..)) addressed.1).bind
  intro value after later _
  have stands := stands.after later
  split
  · apply (within.execute body (stands.part (List.subset_append_right ..)) addressed.2.2).bind
    intro flow last later' known
    cases flow with
    | normal => exact within.execute (.while condition body) (stands.after later') addressed
    | returned value => exact .pure later'.sound known
  · exact .pure later.sound trivial

theorem execute_succ (tree : Stmt)
    (stands : Stands setting table scoping place.owner tree.receivers journal)
    (addressed : tree.Addressed table scoping) :
    Runs setting table (Course.execute setting (fuel + 1) place tree) journal
      fun heap flow => flow.Known heap := by
  cases tree with
  | expression value =>
    refine .observe stands.sound trivial fun sound => ?_
    apply (within.evaluate value (stands.noted sound) addressed).discard.bind
    intro _ after later _
    exact .pure later.sound trivial
  | print value =>
    refine .observe stands.sound trivial fun sound => ?_
    apply (within.evaluate value (stands.noted sound) addressed).bind
    intro value after later _
    have printed : Runs setting table (lift (Eval.inspect (·.display value) >>= Eval.printLine)) after
        fun _ _ => True := .inspected (.printLine later.sound _)
    apply printed.bind
    intro _ last later _
    exact .pure later.sound trivial
  | declareVar name initializer =>
    refine .observe stands.sound trivial fun sound => ?_
    obtain ⟨_, plain, initialized⟩ := addressed
    cases initializer with
    | none =>
      have known : Value.nil.Known journal.machine.heap := trivial
      apply (Runs.define sound plain known).bind
      intro _ last later _
      exact .pure later.sound trivial
    | some initializer =>
      have pending : Stands setting table (scoping.bind name.text false) place.owner
          initializer.receivers _ :=
        { stands.noted sound with nested := stands.nested.bind plain false }
      apply (within.evaluate initializer pending (initialized initializer rfl)).bind
      intro value after later known
      apply (Runs.define later.sound plain known).bind
      intro _ last later _
      exact .pure later.sound trivial
  | block body => exact within.execute_block body stands addressed
  | ifThen condition consequent =>
    refine .observe stands.sound trivial fun sound => ?_
    have stands := stands.noted sound
    apply (within.evaluate condition (stands.part (List.subset_append_left ..)) addressed.1).bind
    intro value after later _
    split
    · exact within.execute consequent
        ((stands.after later).part (List.subset_append_right ..)) addressed.2.2
    · exact .pure later.sound trivial
  | ifElse condition consequent alternative =>
    refine .observe stands.sound trivial fun sound => ?_
    have stands := stands.noted sound
    apply (within.evaluate condition (stands.part (List.subset_append_left ..)) addressed.1).bind
    intro value after later _
    have branches := (stands.after later).part (List.subset_append_right ..)
    split
    · exact within.execute consequent (branches.part (List.subset_append_left ..)) addressed.2.1.2
    · exact within.execute alternative (branches.part (List.subset_append_right ..)) addressed.2.2.2
  | «while» condition body => exact within.execute_while condition body stands addressed
  | declareFunction routine =>
    refine .observe stands.sound trivial fun sound => ?_
    have stands := stands.noted sound
    obtain ⟨_, plain, routine_addressed⟩ := addressed
    apply (Runs.declareFunction sound plain
      ⟨_, stands.nested.bind plain true, routine_addressed, stands.belongs⟩).bind
    intro _ after later _
    exact .pure later.sound trivial
  | «return» line value =>
    refine .observe stands.sound trivial fun sound => ?_
    cases value with
    | none => exact .pure sound trivial
    | some value =>
      apply (within.evaluate value (stands.noted sound) (addressed value rfl)).bind
      intro result after later known
      exact .pure later.sound known
  | declareClass name superclass methods =>
    refine .observe stands.sound trivial fun sound => ?_
    let declaration : Declaration := ⟨name, superclass, methods⟩
    have stands : Stands setting table scoping place.owner [] _ := stands.noted sound
    apply (Runs.declareClass declaration stands addressed List.mem_cons_self rfl rfl rfl).bind
    intro _ after later _
    exact .pure later.sound trivial

theorem executeAll_succ (trees : List Stmt)
    (stands : Stands setting table scoping place.owner (Stmt.allReceivers trees) journal)
    (addressed : Stmt.AllAddressed table scoping trees) :
    Runs setting table (Course.executeAll setting (fuel + 1) place trees) journal
      fun heap flow => flow.Known heap := by
  refine .observe stands.sound trivial fun sound => ?_
  have stands := stands.noted sound
  cases trees with
  | nil => exact .pure sound trivial
  | cons first rest =>
    apply (within.execute first (stands.part (List.subset_append_left ..)) addressed.1).bind
    intro flow after later known
    have stands := (stands.after later).part (List.subset_append_right ..)
    cases flow with
    | normal => exact within.executeAll rest (stands.follow addressed.1) addressed.2
    | returned value => exact .pure later.sound known

end Execute

end Sustains

/-- By induction on the fuel, evaluation sustains sound journals. -/
theorem sustains (keeps : setting.Keeps table) (fuel : Nat) : Sustains setting table fuel := by
  induction fuel with
  | zero => exact .zero setting table
  | succ fuel within =>
    exact {
      evaluate := within.evaluate_succ keeps
      evaluateAll := within.evaluateAll_succ
      call := within.call_succ
      invoke := within.invoke_succ
      execute := within.execute_succ
      executeAll := within.executeAll_succ }

end Lox.Course
