import Lox.Proofs.Scope.Addresses
import Lox.Proofs.Trace.Gains

/-! Assignments overwrite. In a run of an accepted program an assignment finds the name bound where it
writes, except for a local variable that is assigned in its own initializer, and the only names that
a scope gains are those that are declared in it. -/

namespace Lox

namespace Trace

open Eval (halt)

variable {setting : Setting} {known : Known} {fuel : Nat}

/-- The table has the addresses of the known occurrences. -/
def Addresses (setting : Setting) (known : Known) : Prop :=
  ∀ occurrence, known occurrence → ∀ distance,
    setting.distances[occurrence.id]? = some distance → occurrence.Address distance

/-- Code at a position, in a log in which what is declared before it is bound. -/
structure Stands (setting : Setting) (known : Known) (initializing : Option String) (levels : Levels)
    (occurrences : List Occurrence) (log : Log) : Prop where
  sound : Sound setting known log
  populated : log.machine.heap.scopes.Populated initializing levels log.machine.scope
  inside : ∀ occurrence ∈ occurrences, known occurrence

namespace Stands

variable {initializing : Option String} {levels : Levels} {occurrences : List Occurrence} {log : Log}

/-- What has been run before leaves the code where it is. -/
theorem after (stands : Stands setting known initializing levels occurrences log)
    (later : After setting known names log last) :
    Stands setting known initializing levels occurrences last :=
  ⟨later.sound, later.scope ▸ later.stays.populated stands.populated, stands.inside⟩

theorem part (stands : Stands setting known initializing levels occurrences log)
    (subset : own ⊆ occurrences) : Stands setting known initializing levels own log :=
  { stands with inside := fun occurrence member => stands.inside occurrence (subset member) }

/-- After a statement that declares nothing the same names are declared. -/
theorem undeclared (stands : Stands setting known none levels occurrences log)
    (later : After setting known names log last) :
    last.machine.heap.scopes.Populated none (levels.declare []) log.machine.scope := by
  rw [Levels.declare_nil]
  exact later.stays.populated stands.populated

/-- The scope that an assignment writes. -/
theorem binds_of_target {position : Position} {id : NodeId} {name : Name}
    (stands : Stands setting known position.initializing position.levels
      [⟨position, .assign id name⟩] log)
    (addresses : Addresses setting known)
    (ran : Eval.targetScope setting id name log.machine = .ok target machine) :
    (log.machine.heap.scopes.valueIn? target name.text).isSome ∨
      target = log.machine.scope ∧ position.initializing = some name.text := by
  cases entry : setting.distances[id]? with
  | none =>
    rw [Eval.targetScope_global name log.machine entry] at ran
    rcases Eval.orElseFault_cases name.line (.undefinedVariable name.text) _ log.machine with
      ⟨found, nearest, same⟩ | failed
    · cases same.symm.trans ran
      exact .inl (Scopes.isSome_of_nearestWithin? nearest)
    · cases failed.symm.trans ran
  | some distance =>
    have address := addresses _ (stands.inside _ List.mem_cons_self) distance entry
    obtain ⟨found, reached, held⟩ := stands.populated.reaches address
    rw [Eval.targetScope_local name log.machine entry, reached] at ran
    cases ran
    exact held

end Stands

/-- The write of an assignment, after its value. -/
theorem Runs.assign {position : Position} {id : NodeId} {name : Name} {log : Log}
    (stands : Stands setting known position.initializing position.levels
      [⟨position, .assign id name⟩] log)
    (addresses : Addresses setting known) (value : Value) :
    Runs setting known position.initializing.toList (Trace.record (.assign id name) >>= fun _ =>
      lift (Eval.targetScope setting id name >>= fun scope =>
        Eval.defineIn scope name.text value)) log fun _ _ => True := by
  refine record _ stands.sound (fun target machine ran => ?_) fun visits sound => ?_
  · exact (stands.binds_of_target addresses ran).imp_right fun ⟨here, own⟩ =>
      ⟨here, position, stands.inside _ List.mem_cons_self, own⟩
  · rcases Eval.targetScope_cases setting id name log.machine with ⟨target, ran⟩ | ⟨reason, failed⟩
    · have stays := Heap.Stays.define log.machine.heap target name.text value
      refine .lift_ok sound (bind_ok ran) (sound.stands.scopes stays) stays ?_ rfl trivial
      intro other wanted _ bound
      rcases Scopes.isSome_of_define bound with bound | ⟨rfl, rfl⟩
      · exact .inl bound
      · refine (stands.binds_of_target addresses ran).imp_right fun ⟨here, own⟩ => ⟨here, ?_⟩
        exact Option.mem_toList.mpr own
    · exact .lift_error sound (bind_error failed)

/-- Evaluation with some fuel runs where the code stands, and gives existing scopes no other names than
the code declares there. -/
structure Sustains (setting : Setting) (known : Known) (fuel : Nat) : Prop where
  evaluate : ∀ {log} (position : Position) (tree : Expr),
    Stands setting known position.initializing position.levels (tree.occurrences position) log →
    Runs setting known position.initializing.toList (Trace.evaluate setting fuel tree) log
      fun _ _ => True
  evaluateAll : ∀ {log} (position : Position) (trees : List Expr),
    Stands setting known position.initializing position.levels
      ((Expr.allReferences trees).map (⟨position, ·⟩)) log →
    Runs setting known position.initializing.toList (Trace.evaluateAll setting fuel trees) log
      fun _ values => values.length = trees.length
  call : ∀ {log} (callee : Callable) (arguments : List Value), Sound setting known log →
    arguments.length = log.machine.heap.arity callee →
    Runs setting known [] (Trace.call setting fuel callee arguments) log fun _ _ => True
  invoke : ∀ {log} (closure : Closure) (arguments : List Value), Sound setting known log →
    closure.Stands log.machine.heap.scopes known [] → arguments.length = closure.routine.arity →
    Runs setting known [] (Trace.invoke setting fuel closure arguments) log fun _ _ => True
  execute : ∀ {levels log} (tree : Stmt), tree.Regular →
    Stands setting known none levels (tree.occurrences levels) log →
    Runs setting known tree.declares (Trace.execute setting fuel tree) log fun heap flow =>
      flow = .normal → heap.scopes.Populated none (levels.declare tree.declares) log.machine.scope
  executeAll : ∀ {levels log} (trees : List Stmt), Stmt.AllRegular trees →
    Stands setting known none levels (Stmt.allOccurrences levels trees) log →
    Runs setting known (Stmt.allDeclares trees) (Trace.executeAll setting fuel trees) log
      fun _ _ => True

namespace Sustains

theorem zero (setting : Setting) (known : Known) : Sustains setting known 0 where
  evaluate _ _ stands := .halt stands.sound _
  evaluateAll _ _ stands := .halt stands.sound _
  call _ _ sound _ := .halt sound .outOfFuel
  invoke _ _ sound _ _ := .halt sound .outOfFuel
  execute _ _ stands := .halt stands.sound _
  executeAll _ _ stands := .halt stands.sound _

variable (within : Sustains setting known fuel) {log : Log}

include within

section Evaluate

variable (position : Position)

theorem evaluate_call (callee : Expr) (line : Nat) (arguments : List Expr)
    (stands : Stands setting known position.initializing position.levels
      ((Expr.call callee line arguments).occurrences position) log) :
    Runs setting known position.initializing.toList
      (Trace.evaluate setting (fuel + 1) (.call callee line arguments)) log fun _ _ => True := by
  rw [Expr.occurrences, Expr.references, List.map_append] at stands
  apply (within.evaluate position callee (stands.part (List.subset_append_left ..))).bind
  intro value after later _
  cases value with
  | callable function =>
    apply (within.evaluateAll position arguments
      ((stands.part (List.subset_append_right ..)).after later)).bind
    intro values last later' _
    have looked : Runs setting known position.initializing.toList
        (lift (Eval.inspect (·.arity function))) last
        fun heap arity => arity = heap.arity function := .inspect later'.sound rfl
    apply looked.bind
    rintro arity final ended rfl
    split
    · rename_i same
      refine (Runs.deeper line ended.sound ?_).quiet
      exact within.call function values ⟨ended.sound.stands, ended.sound.overwrites⟩ same
    · exact .fault ended.sound _ _
  | _ => exact .fault later.sound _ _

theorem evaluate_succ (addresses : Addresses setting known) (tree : Expr)
    (stands : Stands setting known position.initializing position.levels (tree.occurrences position) log) :
    Runs setting known position.initializing.toList (Trace.evaluate setting (fuel + 1) tree) log
      fun _ _ => True := by
  cases tree with
  | literal value => exact .pure stands.sound trivial
  | grouping inner => exact within.evaluate position inner stands
  | unary op line operand =>
    apply (within.evaluate position operand stands).bind
    intro value after later _
    exact .orFault later.sound _
  | binary op line left right =>
    rw [Expr.occurrences, Expr.references, List.map_append] at stands
    apply (within.evaluate position left (stands.part (List.subset_append_left ..))).bind
    intro first after later _
    apply (within.evaluate position right ((stands.part (List.subset_append_right ..)).after later)).bind
    intro second last later' _
    exact .orFault later'.sound _
  | logical op line left right =>
    rw [Expr.occurrences, Expr.references, List.map_append] at stands
    apply (within.evaluate position left (stands.part (List.subset_append_left ..))).bind
    intro first after later _
    split
    · exact .pure later.sound trivial
    · exact within.evaluate position right ((stands.part (List.subset_append_right ..)).after later)
  | read id name =>
    exact .record _ stands.sound trivial fun _ sound => .readName sound id name
  | assign id name value =>
    rw [Expr.occurrences, Expr.references, List.map_append] at stands
    apply (within.evaluate position value (stands.part (List.subset_append_left ..))).bind
    intro result after later _
    have own := (stands.part (List.subset_append_right ..)).after later
    rw [← bind_assoc]
    exact (Runs.assign own addresses result).bind fun _ _ last _ => .pure last.sound trivial
  | call callee line arguments => exact within.evaluate_call position callee line arguments stands
  | get object name =>
    apply (within.evaluate position object stands).bind
    intro value after later _
    cases value with
    | object receiver => exact .readProperty later.sound receiver name
    | _ => exact .fault later.sound _ _
  | set object name value =>
    rw [Expr.occurrences, Expr.references, List.map_append] at stands
    apply (within.evaluate position object (stands.part (List.subset_append_left ..))).bind
    intro held after later _
    cases held with
    | object receiver =>
      apply (within.evaluate position value ((stands.part (List.subset_append_right ..)).after later)).bind
      intro result last later' _
      exact (Runs.setField later'.sound receiver name.text result).bind fun _ _ final _ =>
        .pure final.sound trivial
    | _ => exact .fault later.sound _ _
  | this id line =>
    exact .record _ stands.sound trivial fun _ sound => .readName sound id ⟨"this", line⟩
  | super id line method =>
    exact .record _ stands.sound trivial fun _ sound => .readSuper sound id line method

theorem evaluateAll_succ (trees : List Expr)
    (stands : Stands setting known position.initializing position.levels
      ((Expr.allReferences trees).map (⟨position, ·⟩)) log) :
    Runs setting known position.initializing.toList (Trace.evaluateAll setting (fuel + 1) trees) log
      fun _ values => values.length = trees.length := by
  cases trees with
  | nil => exact .pure stands.sound rfl
  | cons first rest =>
    rw [Expr.allReferences, List.map_append] at stands
    apply (within.evaluate position first (stands.part (List.subset_append_left ..))).bind
    intro value after later _
    apply (within.evaluateAll position rest ((stands.part (List.subset_append_right ..)).after later)).bind
    intro values last later' same
    exact .pure later'.sound (congrArg (· + 1) same)

end Evaluate

section Calls

theorem call_succ (callee : Callable) (arguments : List Value) (sound : Sound setting known log)
    (fits : arguments.length = log.machine.heap.arity callee) :
    Runs setting known [] (Trace.call setting (fuel + 1) callee arguments) log fun _ _ => True := by
  cases callee with
  | clock => exact Runs.readClock sound
  | ofFunction ref =>
    have looked : Runs setting known [] (lift (Eval.inspect (·.closureAt ref))) log
        fun _ closure => closure = log.machine.heap.closureAt ref := .inspect sound rfl
    apply looked.bind
    rintro _ after later rfl
    exact within.invoke _ arguments later.sound ((sound.stands.functions ref).stays later.stays) fits
  | ofClass ref =>
    apply (Runs.newInstance sound ref).bind
    intro created after entered unchanged
    have looked : Runs setting known [] (lift (Eval.inspect (·.method? ref initializerName))) after
        fun _ found => found = log.machine.heap.method? ref initializerName :=
      .inspect entered.sound (unchanged initializerName)
    apply looked.bind
    rintro _ middle later rfl
    cases found : log.machine.heap.method? ref initializerName with
    | none => exact .pure later.sound trivial
    | some method =>
      have stands := (sound.stands.method? found).stays (entered.stays.trans later.stays)
      apply (Runs.bindMethod later.sound stands created).bind
      rintro closure last bound ⟨stands, routine⟩
      have given : arguments.length = closure.routine.arity := by
        rw [routine, fits, Heap.arity, found]
        rfl
      apply (within.invoke closure arguments bound.sound stands given).discard.bind
      intro _ final ended _
      exact .pure ended.sound trivial

/-- The scope of a call binds all parameters, since there are as many arguments. -/
theorem invoke_succ (closure : Closure) (arguments : List Value) (sound : Sound setting known log)
    (stands : closure.Stands log.machine.heap.scopes known [])
    (fits : arguments.length = closure.routine.arity) :
    Runs setting known [] (Trace.invoke setting (fuel + 1) closure arguments) log fun _ _ => True := by
  obtain ⟨⟨name, parameters, body⟩, outer, initializes⟩ := closure
  obtain ⟨levels, populated, regular, inside⟩ := stands
  have zipped : ((parameters.map (·.text)).zip arguments).map (·.1) = parameters.map (·.text) :=
    List.map_fst_zip (by simpa [Routine.arity] using Nat.le_of_eq fits.symm)
  have entered : Runs setting known []
      (lift (Eval.activation ⟨⟨name, parameters, body⟩, outer, initializes⟩ arguments) >>= fun scope =>
        Trace.within scope (Trace.executeAll setting fuel body)) log fun _ _ => True := by
    refine .enter sound _ _ (Stmt.allDeclares body) fun after inner later link bound => ?_
    refine within.executeAll body regular.2 ⟨later.sound.enter inner, ?_, inside⟩
    refine .inside link (fun name member _ => ?_) (later.stays.populated populated)
    rw [bound]
    exact Bindings.isSome_find?_ofList (zipped.symm ▸ member)
  have whole := entered.bind fun flow after later _ => Runs.record
    (.result ⟨⟨name, parameters, body⟩, outer, initializes⟩) later.sound trivial
    fun _ sound => .callResult sound ⟨⟨name, parameters, body⟩, outer, initializes⟩ flow
  rwa [bind_assoc] at whole

end Calls

section Execute

variable {levels : Levels}

/-- Branches, loop bodies and all statements but declarations declare nothing. -/
theorem branch (tree : Stmt) (regular : tree.Regular) (plain : tree.introduces = none)
    (stands : Stands setting known none levels (tree.occurrences levels) log) :
    Runs setting known [] (Trace.execute setting fuel tree) log fun _ _ => True := by
  have runs := within.execute tree regular stands
  rw [tree.declares_eq regular, plain] at runs
  exact runs.mono (List.Subset.refl _) fun _ _ _ _ => trivial

theorem execute_plain (tree : Stmt) (regular : tree.Regular) (plain : tree.introduces = none)
    (stands : Stands setting known none levels (tree.occurrences levels) log) :
    Runs setting known [] (Trace.execute setting (fuel + 1) tree) log fun _ _ => True := by
  cases tree with
  | expression value =>
    apply (within.evaluate (.settled levels) value stands).discard.bind
    intro _ after later _
    exact .pure later.sound trivial
  | print value =>
    apply (within.evaluate (.settled levels) value stands).bind
    intro held after later _
    apply (Runs.printed later.sound held).bind
    intro _ last later' _
    exact .pure later'.sound trivial
  | block body =>
    refine .enter stands.sound .empty log.machine.scope (Stmt.allDeclares body)
      fun after inner later link bound => ?_
    exact within.executeAll body regular ⟨later.sound.enter inner,
      .inside link (fun _ member => absurd member List.not_mem_nil)
        (later.stays.populated stands.populated), stands.inside⟩
  | ifThen condition consequent =>
    apply (within.evaluate (.settled levels) condition
      (stands.part (List.subset_append_left ..))).bind
    intro value after later _
    split
    · exact within.branch consequent regular.2.1 regular.2.2
        ((stands.part (List.subset_append_right ..)).after later)
    · exact .pure later.sound trivial
  | ifElse condition consequent alternative =>
    apply (within.evaluate (.settled levels) condition
      (stands.part (List.subset_append_left ..))).bind
    intro value after later _
    have stands := (stands.part (List.subset_append_right ..)).after later
    obtain ⟨_, ⟨regular, plain⟩, regular', plain'⟩ := regular
    split
    · exact within.branch consequent regular plain (stands.part (List.subset_append_left ..))
    · have otherwise := stands.part (List.subset_append_right ..)
      rw [consequent.declares_eq regular, plain] at otherwise
      exact within.branch alternative regular' plain' (levels.declare_nil ▸ otherwise)
  | «while» condition body =>
    apply (within.evaluate (.settled levels) condition
      (stands.part (List.subset_append_left ..))).bind
    intro value after later _
    have again := stands.after later
    split
    · apply (within.branch body regular.2.1 regular.2.2
        (again.part (List.subset_append_right ..))).bind
      intro flow last later' _
      cases flow with
      | normal => exact within.branch (.while condition body) regular rfl (again.after later')
      | returned value => exact .pure later'.sound trivial
    · exact .pure later.sound trivial
  | «return» line value =>
    cases value with
    | none => exact .pure stands.sound trivial
    | some value =>
      apply (within.evaluate (.settled levels) value stands).bind
      intro held after later _
      exact .pure later.sound trivial
  | declareVar | declareFunction | declareClass => cases plain

theorem execute_declareVar (name : Name) (initializer : Option Expr)
    (stands : Stands setting known none levels
      (Expr.occurrences? (.inInitializer levels name) initializer) log) :
    Runs setting known [name.text] (Trace.execute setting (fuel + 1) (.declareVar name initializer)) log
      fun heap _ => heap.scopes.Populated none (levels.declare [name.text]) log.machine.scope := by
  cases initializer with
  | none =>
    apply (Runs.define stands.sound stands.populated name.text .nil).bind
    intro _ after later populated
    exact .pure later.sound populated
  | some value =>
    have start : Stands setting known (Position.inInitializer levels name).initializing
        (Position.inInitializer levels name).levels (value.occurrences (.inInitializer levels name)) log :=
      ⟨stands.sound, stands.populated.enterInitializer name, stands.inside⟩
    have evaluated := (within.evaluate _ value start).widen (Position.inInitializer_subset levels name)
    apply evaluated.bind
    intro held after later _
    have stands := stands.after later
    rw [← later.scope]
    apply (Runs.define stands.sound stands.populated name.text held).bind
    intro _ last later' populated
    exact .pure later'.sound populated

omit within in
theorem execute_declareClass (name : Name) (superclass : Option Superclass) (methods : List Routine)
    (regular : Routine.AllRegular methods)
    (stands : Stands setting known none levels
      ((Stmt.declareClass name superclass methods).occurrences levels) log) :
    Runs setting known [name.text]
      (Trace.execute setting (fuel + 1) (.declareClass name superclass methods)) log
      fun heap _ => heap.scopes.Populated none (levels.declare [name.text]) log.machine.scope := by
  cases superclass with
  | none =>
    apply (Runs.declareClass stands.sound stands.populated name regular stands.inside).bind
    intro _ after later populated
    exact .pure later.sound populated
  | some superclass =>
    refine .record _ stands.sound trivial fun visits sound => ?_
    have inside := (stands.part (List.subset_append_right ..)).inside
    apply (Runs.declareSubclass sound stands.populated name superclass regular inside).bind
    intro _ after later populated
    exact .pure later.sound populated

theorem execute_succ (tree : Stmt) (regular : tree.Regular)
    (stands : Stands setting known none levels (tree.occurrences levels) log) :
    Runs setting known tree.declares (Trace.execute setting (fuel + 1) tree) log fun heap flow =>
      flow = .normal →
        heap.scopes.Populated none (levels.declare tree.declares) log.machine.scope := by
  cases introduced : tree.introduces with
  | none =>
    rw [tree.declares_eq regular, introduced]
    exact (within.execute_plain tree regular introduced stands).mono (List.Subset.refl _)
      fun _ _ later _ _ => stands.undeclared later
  | some name =>
    cases tree with
    | declareVar name initializer =>
      exact (within.execute_declareVar name initializer stands).mono (List.Subset.refl _)
        fun _ _ _ populated _ => populated
    | declareFunction routine =>
      apply (Runs.declareFunction stands.sound stands.populated regular.2 stands.inside).bind
      intro _ after later populated
      exact .pure later.sound fun _ => populated
    | declareClass name superclass methods =>
      exact (execute_declareClass name superclass methods regular.2.2 stands).mono
        (List.Subset.refl _) fun _ _ _ populated _ => populated
    | _ => cases introduced

theorem executeAll_succ (trees : List Stmt) (regular : Stmt.AllRegular trees)
    (stands : Stands setting known none levels (Stmt.allOccurrences levels trees) log) :
    Runs setting known (Stmt.allDeclares trees) (Trace.executeAll setting (fuel + 1) trees) log
      fun _ _ => True := by
  cases trees with
  | nil => exact .pure stands.sound trivial
  | cons first rest =>
    have executed := within.execute first regular.1 (stands.part (List.subset_append_left ..))
    apply (executed.widen (List.subset_append_right (Stmt.allDeclares rest) _)).bind
    intro flow after later populated
    cases flow with
    | normal =>
      have stands : Stands setting known none (levels.declare first.declares)
          (Stmt.allOccurrences (levels.declare first.declares) rest) after :=
        ⟨later.sound, later.scope ▸ populated rfl,
          (stands.part (List.subset_append_right ..)).inside⟩
      exact (within.executeAll rest regular.2 stands).widen (List.subset_append_left ..)
    | returned value => exact .pure later.sound trivial

end Execute

end Sustains

theorem sustains (addresses : Addresses setting known) (fuel : Nat) : Sustains setting known fuel := by
  induction fuel with
  | zero => exact .zero setting known
  | succ fuel within =>
    exact {
      evaluate := fun position tree => within.evaluate_succ position addresses tree
      evaluateAll := within.evaluateAll_succ
      call := within.call_succ
      invoke := within.invoke_succ
      execute := within.execute_succ
      executeAll := within.executeAll_succ }

/-- At the top level. -/
theorem Runs.interpret (addresses : Addresses setting known) (fuel : Nat) (body : List Stmt) {log : Log}
    (regular : Stmt.AllRegular body) (scope : log.machine.scope = Heap.globals)
    (sound : Sound setting known log)
    (inside : ∀ occurrence ∈ Stmt.allOccurrences [] body, known occurrence) :
    Runs setting known (Stmt.allDeclares body) (Trace.interpret setting fuel body) log
      fun _ _ => True := by
  induction body generalizing log with
  | nil => exact .pure sound trivial
  | cons first rest ih =>
    have stands : Stands setting known none [] (first.occurrences []) log :=
      ⟨sound, scope ▸ .globals, fun occurrence member =>
        inside occurrence (List.mem_append_left _ member)⟩
    have executed := (sustains addresses fuel).execute first regular.1 stands
    apply (executed.widen (List.subset_append_right (Stmt.allDeclares rest) _)).discard.bind
    intro _ after later _
    have remaining := ih regular.2 (later.scope.trans scope) later.sound fun occurrence member =>
      inside occurrence (List.mem_append_right _ member)
    exact remaining.widen (List.subset_append_left ..)

end Trace

theorem checkSource_addresses (checked : (checkSource source first).outcome = .ok program)
    (clock : Nat → Float) : Trace.Addresses ⟨program.distances, clock⟩
      (· ∈ programOccurrences program.body) := by
  intro occurrence member distance entry
  have entered := Stmt.allEntered .nil program.body (checkSource_ok checked).1.regular
    (checkSource_addressed checked)
  obtain ⟨found, ⟨_, rfl⟩, addresses⟩ := entered occurrence member
  exact (addresses distance).mp entry

/-- In a run of an accepted source every assignment that is performed overwrites a binding of the scope
that it writes, with one exception: in its own initializer a local variable may be assigned before it
is there, which binds it in the present scope. So at the top level only declarations bind names. -/
theorem assignments_overwrite (checked : (checkSource source 0).outcome = .ok program)
    (clock : Nat → Float) (fuel : Nat) (capacity : Option Nat) :
    (∀ visit ∈ Trace.visits ⟨program.distances, clock⟩ fuel capacity program.body,
      visit.Overwrites ⟨program.distances, clock⟩ (· ∈ programOccurrences program.body)) ∧
    (∀ name, (((Eval.interpret ⟨program.distances, clock⟩ fuel program.body).after
        (.start capacity)).heap.scopes.valueIn? Heap.globals name).isSome →
      name = "clock" ∨ name ∈ Stmt.allDeclares program.body) := by
  let start : Trace.Log := ⟨.start capacity, []⟩
  have sound : Trace.Sound ⟨program.distances, clock⟩ (· ∈ programOccurrences program.body) start :=
    ⟨.start, nofun⟩
  have runs := Trace.Runs.interpret (checkSource_addresses checked clock) fuel program.body
    (checkSource_ok checked).1.regular rfl sound fun _ => id
  have ended := runs.ended ((Trace.faithful_interpret _ fuel program.body).erases start)
  refine ⟨ended.sound.overwrites, fun name bound => ?_⟩
  rcases ended.gains Heap.globals name (Nat.zero_lt_one : 0 < Heap.start.scopes.cells.size) bound with
    bound | ⟨_, declared⟩
  · have held : ((Bindings.empty.insert "clock" (Value.callable .clock)).find? name).isSome := bound
    rw [Bindings.find?_insert] at held
    split at held
    · exact .inl ‹_›
    · cases held
  · exact .inr declared

/-- A variable that is assigned again, and an assignment from a routine. -/
private def counted : String := "var n = 0; { var k = 1; fun up() { n = n + k; k = 2; } up(); up(); }"

theorem counted_overwrites : ∃ program, (checkSource counted 0).outcome = .ok program ∧
    ∀ visit ∈ Trace.visits ⟨program.distances, fun _ => 0⟩ 100 none program.body,
      visit.Overwrites ⟨program.distances, fun _ => 0⟩ (· ∈ programOccurrences program.body) := by
  have accepted : (checkSource counted 0).outcome.isOk = true := by decide +kernel
  cases checked : (checkSource counted 0).outcome with
  | error reports =>
    rw [checked] at accepted
    cases accepted
  | ok program => exact ⟨program, rfl, (assignments_overwrite checked (fun _ => 0) 100 none).1⟩

/-- A local variable that is assigned in its own initializer. -/
private def assignedEarly : String := "{ var a = a = 1; print a; }"

/-- Whether an assignment is performed on a scope that does not bind its name. -/
private def introduces (setting : Setting) (visit : Trace.Visit) : Bool :=
  match visit with
  | ⟨.assign id name, machine⟩ =>
    match Eval.targetScope setting id name machine with
    | .ok target _ => (machine.heap.scopes.valueIn? target name.text).isNone
    | .error _ _ => false
  | _ => false

/-- The exception occurs: the assignment binds the variable that is only being declared. -/
theorem assignedEarly_introduces : ∃ program, (checkSource assignedEarly 0).outcome = .ok program ∧
    ∃ id name machine target after,
      ⟨.assign id name, machine⟩ ∈
        Trace.visits ⟨program.distances, fun _ => 0⟩ 20 none program.body ∧
      Eval.targetScope ⟨program.distances, fun _ => 0⟩ id name machine = .ok target after ∧
      machine.heap.scopes.valueIn? target name.text = none ∧
      (run (fun _ => 0) 20 none assignedEarly).output = "1\n".toUTF8 := by
  have performed : (checkSource assignedEarly 0).outcome.toOption.any (fun program =>
      (Trace.visits ⟨program.distances, fun _ => 0⟩ 20 none program.body).any
        (introduces ⟨program.distances, fun _ => 0⟩)) = true := by decide +kernel
  have printed : (run (fun _ => 0) 20 none assignedEarly).output = "1\n".toUTF8 := by decide +kernel
  cases checked : (checkSource assignedEarly 0).outcome with
  | error reports =>
    rw [checked] at performed
    cases performed
  | ok program =>
    rw [checked] at performed
    obtain ⟨visit, member, unbound⟩ := List.any_eq_true.mp performed
    unfold introduces at unbound
    split at unbound
    · rename_i id name machine
      split at unbound
      · rename_i target after ran
        exact ⟨program, rfl, id, name, machine, target, after, member, ran,
          Option.isNone_iff_eq_none.mp unbound, printed⟩
      · cases unbound
    · cases unbound

end Lox
