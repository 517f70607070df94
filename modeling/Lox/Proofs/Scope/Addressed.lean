import Lox.Proofs.Tree.Regular
import Lox.Scope.Resolve

/-! Trees under a table of distances that is right for them: the entry of each name is the number of
scopes between it and the nearest one that declares it, and a name without an entry is declared in
none of them. Only declarations that stand before a name count, and each scope declares a name once. -/

namespace Lox

namespace Bindings

private theorem insertEntry_insertEntry (name : String) (value other : α)
    (entries : List (String × α)) :
    insertEntry name other (insertEntry name value entries) = insertEntry name other entries := by
  induction entries with
  | nil => simp [insertEntry]
  | cons head rest ih =>
    obtain ⟨key, held⟩ := head
    by_cases same : key = name
    · simp [insertEntry, same]
    · simp [insertEntry, same, ih]

/-- Of two bindings of a name in a row the second counts. -/
theorem insert_insert (bindings : Bindings α) (name : String) (value other : α) :
    (bindings.insert name value).insert name other = bindings.insert name other :=
  congrArg Bindings.mk (insertEntry_insertEntry name value other bindings.entries)

end Bindings

/-- What is known of a table of distances: an entry, or that there is none. -/
abbrev Entries := NodeId → Option Nat → Prop

/-- The scopes around a place, the innermost first. -/
abbrev Scoping := List (Bindings Bool)

namespace Scoping

/-- The number of scopes within the nearest one that declares a name. -/
def distance? (scoping : Scoping) (name : String) : Option Nat :=
  scoping.findIdx? (·.contains name)

/-- Whether a name is ready in the nearest scope that declares it. -/
def find? : Scoping → String → Option Bool
  | [], _ => none
  | inner :: outer, name => (inner.find? name).or (find? outer name)

/-- Declares a name in the innermost scope. The names at the top level are in no scope. -/
def bind (name : String) (ready : Bool) : Scoping → Scoping
  | [] => []
  | inner :: outer => inner.insert name ready :: outer

def Fresh (scoping : Scoping) (name : String) : Prop :=
  ∀ inner ∈ scoping.head?, inner.contains name = false

def after (scoping : Scoping) (stmt : Stmt) : Scoping :=
  match stmt.introduces with
  | some name => scoping.bind name.text true
  | none => scoping

def afterAll (scoping : Scoping) : List Stmt → Scoping
  | [] => scoping
  | first :: rest => (scoping.after first).afterAll rest

/-- The scope of names that are all ready. -/
def frame (names : List String) : Bindings Bool :=
  .ofList (names.map (·, true))

@[simp] theorem bind_tail (scoping : Scoping) : (bind name ready scoping).tail = scoping.tail := by
  cases scoping <;> rfl

@[simp] theorem bind_bind (scoping : Scoping) :
    bind name ready (bind name other scoping) = bind name ready scoping := by
  cases scoping with
  | nil => rfl
  | cons inner outer => simp [bind, Bindings.insert_insert]

@[simp] theorem after_tail (scoping : Scoping) (stmt : Stmt) :
    (scoping.after stmt).tail = scoping.tail := by
  unfold after
  split <;> simp

@[simp] theorem afterAll_tail (scoping : Scoping) (body : List Stmt) :
    (scoping.afterAll body).tail = scoping.tail := by
  induction body generalizing scoping with
  | nil => rfl
  | cons first rest ih => simp [afterAll, ih]

theorem after_eq (scoping : Scoping) (plain : Stmt.introduces stmt = none) :
    scoping.after stmt = scoping := by
  simp [after, plain]

@[simp] theorem after_nil (stmt : Stmt) : after [] stmt = [] := by
  unfold after
  split <;> rfl

@[simp] theorem afterAll_nil (body : List Stmt) : afterAll [] body = [] := by
  induction body with
  | nil => rfl
  | cons first rest ih => simp [afterAll, ih]

theorem distance?_cons (inner : Bindings Bool) (outer : Scoping) (name : String) :
    distance? (inner :: outer) name =
      if inner.contains name then some 0 else (outer.distance? name).map (· + 1) := by
  unfold distance?
  rw [List.findIdx?_cons]

theorem distance?_bind (scoping : Scoping) (ready : Bool) (other : wanted ≠ name) :
    distance? (bind name ready scoping) wanted = scoping.distance? wanted := by
  cases scoping with
  | nil => rfl
  | cons inner outer => simp [bind, distance?_cons, Bindings.contains_insert, other]

theorem find?_bind (scoping : Scoping) (ready : Bool) (other : wanted ≠ name) :
    find? (bind name ready scoping) wanted = scoping.find? wanted := by
  cases scoping with
  | nil => rfl
  | cons inner outer => simp [bind, find?, Bindings.find?_insert, other]

end Scoping

mutual

/-- Expressions whose entries are right inside the given scopes. A name that is read is ready, and
the scope of `this` is the one within that of `super`. -/
def Expr.Addressed (table : Entries) (scoping : Scoping) : Expr → Prop
  | .literal _ => True
  | .grouping inner => inner.Addressed table scoping
  | .unary _ _ operand => operand.Addressed table scoping
  | .binary _ _ left right => left.Addressed table scoping ∧ right.Addressed table scoping
  | .logical _ _ left right => left.Addressed table scoping ∧ right.Addressed table scoping
  | .read id name =>
    scoping.find? name.text ≠ some false ∧ table id (scoping.distance? name.text)
  | .assign id name value =>
    value.Addressed table scoping ∧ name.Plain ∧ table id (scoping.distance? name.text)
  | .call callee _ arguments =>
    callee.Addressed table scoping ∧ Expr.AllAddressed table scoping arguments
  | .get object _ => object.Addressed table scoping
  | .set object _ value => object.Addressed table scoping ∧ value.Addressed table scoping
  | .this id _ => ∃ distance, scoping.find? "this" = some true ∧
      scoping.distance? "this" = some distance ∧ table id (some distance)
  | .super id _ _ => ∃ distance, scoping.find? "super" = some true ∧
      scoping.find? "this" = some true ∧ scoping.distance? "super" = some (distance + 1) ∧
      scoping.distance? "this" = some distance ∧ table id (some (distance + 1))

def Expr.AllAddressed (table : Entries) (scoping : Scoping) : List Expr → Prop
  | [] => True
  | first :: rest => first.Addressed table scoping ∧ Expr.AllAddressed table scoping rest

end

def Expr.Addressed? (table : Entries) (scoping : Scoping) (value : Option Expr) : Prop :=
  ∀ expr ∈ value, expr.Addressed table scoping

mutual

def Stmt.Addressed (table : Entries) (scoping : Scoping) : Stmt → Prop
  | .expression value => value.Addressed table scoping
  | .print value => value.Addressed table scoping
  | .declareVar name initializer =>
    scoping.Fresh name.text ∧ name.Plain ∧
      Expr.Addressed? table (scoping.bind name.text false) initializer
  | .block body => Stmt.AllAddressed table (.empty :: scoping) body
  | .ifThen condition consequent =>
    condition.Addressed table scoping ∧ consequent.introduces = none ∧
      consequent.Addressed table scoping
  | .ifElse condition consequent alternative =>
    condition.Addressed table scoping ∧
      (consequent.introduces = none ∧ consequent.Addressed table scoping) ∧
      alternative.introduces = none ∧ alternative.Addressed table scoping
  | .while condition body =>
    condition.Addressed table scoping ∧ body.introduces = none ∧ body.Addressed table scoping
  | .declareFunction routine =>
    scoping.Fresh routine.name.text ∧ routine.name.Plain ∧
      routine.Addressed table (scoping.bind routine.name.text true)
  | .return _ value => Expr.Addressed? table scoping value
  | .declareClass name none methods =>
    scoping.Fresh name.text ∧ name.Plain ∧
      Routine.AllAddressed table (Scoping.frame ["this"] :: scoping.bind name.text true) methods
  | .declareClass name (some superclass) methods =>
    scoping.Fresh name.text ∧ name.Plain ∧
      superclass.toExpr.Addressed table (scoping.bind name.text true) ∧
      superclass.name.text ≠ name.text ∧
      Routine.AllAddressed table
        (Scoping.frame ["this"] :: Scoping.frame ["super"] :: scoping.bind name.text true) methods

def Stmt.AllAddressed (table : Entries) (scoping : Scoping) : List Stmt → Prop
  | [] => True
  | first :: rest =>
    first.Addressed table scoping ∧ Stmt.AllAddressed table (scoping.after first) rest

/-- The parameters and the body of a routine share one scope. -/
def Routine.Addressed (table : Entries) (scoping : Scoping) : Routine → Prop
  | ⟨_, parameters, body⟩ =>
    (parameters.map (·.text)).Nodup ∧ (∀ name ∈ parameters, name.Plain) ∧
      Stmt.AllAddressed table (Scoping.frame (parameters.map (·.text)) :: scoping) body

def Routine.AllAddressed (table : Entries) (scoping : Scoping) : List Routine → Prop
  | [] => True
  | first :: rest =>
    first.Addressed table scoping ∧ Routine.AllAddressed table scoping rest

end

theorem Routine.AllAddressed.of_mem (addressed : Routine.AllAddressed table scoping routines)
    (member : routine ∈ routines) : routine.Addressed table scoping := by
  induction routines with
  | nil => cases member
  | cons first rest ih =>
    rcases List.mem_cons.mp member with rfl | member
    · exact addressed.1
    · exact ih addressed.2 member

/-- A statement that stands somewhere among statements, however deep inside them, with the scopes that
are around it there. -/
inductive Stmt.Located (stmt : Stmt) (there : Scoping) : Scoping → List Stmt → Prop where
  | here : Located stmt there there (stmt :: rest)
  | later (inside : Located stmt there (scoping.after first) rest) :
      Located stmt there scoping (first :: rest)
  | block (inside : Located stmt there (.empty :: scoping) body) :
      Located stmt there scoping (.block body :: rest)
  | ifThen (inside : Located stmt there scoping [consequent]) :
      Located stmt there scoping (.ifThen condition consequent :: rest)
  | consequent (inside : Located stmt there scoping [consequent]) :
      Located stmt there scoping (.ifElse condition consequent alternative :: rest)
  | alternative (inside : Located stmt there scoping [alternative]) :
      Located stmt there scoping (.ifElse condition consequent alternative :: rest)
  | while (inside : Located stmt there scoping [body]) :
      Located stmt there scoping (.while condition body :: rest)
  | function (inside : Located stmt there
        (Scoping.frame (parameters.map (·.text)) :: scoping.bind name.text true) body) :
      Located stmt there scoping (.declareFunction ⟨name, parameters, body⟩ :: rest)
  | method {methods : List Routine} (member : ⟨called, parameters, body⟩ ∈ methods)
      (inside : Located stmt there (Scoping.frame (parameters.map (·.text)) ::
        Scoping.frame ["this"] :: scoping.bind name.text true) body) :
      Located stmt there scoping (.declareClass name none methods :: rest)
  | inheritor {methods : List Routine} (member : ⟨called, parameters, body⟩ ∈ methods)
      (inside : Located stmt there (Scoping.frame (parameters.map (·.text)) ::
        Scoping.frame ["this"] :: Scoping.frame ["super"] :: scoping.bind name.text true) body) :
      Located stmt there scoping (.declareClass name (some superclass) methods :: rest)

/-- What is right for all statements is right for each one inside. -/
theorem Stmt.Located.addressed {stmt : Stmt} (located : stmt.Located there scoping body)
    (addressed : Stmt.AllAddressed table scoping body) : stmt.Addressed table there := by
  induction located with
  | here => exact addressed.1
  | later _ ih => exact ih addressed.2
  | block _ ih => exact ih addressed.1
  | ifThen _ ih => exact ih ⟨addressed.1.2.2, trivial⟩
  | consequent _ ih => exact ih ⟨addressed.1.2.1.2, trivial⟩
  | alternative _ ih => exact ih ⟨addressed.1.2.2.2, trivial⟩
  | «while» _ ih => exact ih ⟨addressed.1.2.2, trivial⟩
  | function _ ih => exact ih addressed.1.2.2.2.2
  | method member _ ih => exact ih (addressed.1.2.2.of_mem member).2.2
  | inheritor member _ ih => exact ih (addressed.1.2.2.2.2.of_mem member).2.2

end Lox
