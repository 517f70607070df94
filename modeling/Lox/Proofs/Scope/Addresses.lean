import Mathlib.Data.List.Forall2
import Lox.Proofs.Program.Accepted
import Lox.Proofs.Scope.Occurrences
import Lox.Proofs.Scope.Walks

/-! The table of distances in terms of the program text. It counts, for each name that occurs, the scopes
within the nearest one that declares the name before it, and it has no other entries. -/

namespace Lox

/-- The scopes of the analysis bind the names that are declared in them. -/
def Levels.Describes (levels : Levels) (scoping : Scoping) : Prop :=
  List.Forall₂ (fun names inner => ∀ name, inner.contains name = true ↔ name ∈ names) levels scoping

namespace Levels.Describes

theorem bind {levels : Levels} (describes : levels.Describes scoping) (name : String) (ready : Bool) :
    (levels.declare [name]).Describes (scoping.bind name ready) := by
  cases describes with
  | nil => exact .nil
  | cons same others =>
    refine .cons (fun wanted => ?_) others
    simp [Bindings.contains_insert, same wanted]

theorem enter {levels : Levels} (describes : levels.Describes scoping) (names : List String) :
    Levels.Describes (names :: levels) (Scoping.frame names :: scoping) :=
  .cons (fun name => by simp [Scoping.contains_frame]) describes

theorem distance? {levels : Levels} (describes : levels.Describes scoping) (name : String)
    (distance : Nat) :
    scoping.distance? name = some distance ↔ levels.Nearest name distance := by
  induction describes generalizing distance with
  | nil => exact iff_of_false nofun (not_nearest_nil name distance)
  | @cons names inner levels scoping same others ih =>
    rw [Scoping.distance?_cons]
    by_cases known : name ∈ names
    · simp [nearest_cons_mem known, (same name).mpr known, eq_comm]
    · have unknown : ¬ inner.contains name = true := mt (same name).mp known
      rw [if_neg unknown, nearest_cons_not_mem known, Option.map_eq_some_iff]
      simp only [ih, and_comm, eq_comm]

end Levels.Describes

theorem Levels.Describes.after {levels : Levels} (describes : levels.Describes scoping)
    (regular : Stmt.Regular stmt) : (levels.declare stmt.declares).Describes (scoping.after stmt) := by
  rw [stmt.declares_eq regular]
  unfold Scoping.after
  cases stmt.introduces with
  | none => simpa using describes
  | some name => exact describes.bind name.text true

/-- The table's entry for an occurrence is its address. -/
def Occurrence.Entered (table : Entries) (occurrence : Occurrence) : Prop :=
  ∃ found, table occurrence.id found ∧
    ∀ distance, found = some distance ↔ occurrence.Address distance

/-- All of the occurrences are entered. -/
abbrev AllEntered (table : Entries) (occurrences : List Occurrence) : Prop :=
  ∀ occurrence ∈ occurrences, occurrence.Entered table

theorem AllEntered.append (entered : AllEntered table occurrences)
    (entered' : AllEntered table others) : AllEntered table (occurrences ++ others) :=
  fun occurrence member => (List.mem_append.mp member).elim (entered occurrence) (entered' occurrence)

section Entered

variable {table : Entries} {scoping : Scoping}

theorem Occurrence.Entered.intro {position : Position} (describes : position.levels.Describes scoping)
    (reference : Reference) (entry : table reference.id (scoping.distance? reference.name)) :
    Occurrence.Entered table ⟨position, reference⟩ :=
  ⟨_, entry, describes.distance? reference.name⟩

mutual

theorem Expr.entered (position : Position) (describes : position.levels.Describes scoping) :
    (value : Expr) → value.Addressed table scoping →
    AllEntered table (value.occurrences position)
  | .literal _, _ => nofun
  | .grouping inner, addressed => inner.entered position describes addressed
  | .unary _ _ operand, addressed => operand.entered position describes addressed
  | .binary _ _ left right, addressed | .logical _ _ left right, addressed => by
    rw [occurrences, references, List.map_append]
    exact (left.entered position describes addressed.1).append
      (right.entered position describes addressed.2)
  | .read id name, addressed =>
    List.forall_mem_singleton.mpr (.intro describes (.read id name) addressed.2)
  | .assign id name value, addressed => by
    rw [occurrences, references, List.map_append]
    exact (value.entered position describes addressed.1).append
      (List.forall_mem_singleton.mpr (.intro describes (.assign id name) addressed.2.2))
  | .call callee _ arguments, addressed => by
    rw [occurrences, references, List.map_append]
    exact (callee.entered position describes addressed.1).append
      (Expr.allEntered position describes arguments addressed.2)
  | .get object _, addressed => object.entered position describes addressed
  | .set object _ value, addressed => by
    rw [occurrences, references, List.map_append]
    exact (object.entered position describes addressed.1).append
      (value.entered position describes addressed.2)
  | .this id _, ⟨_, _, found, entry⟩ =>
    List.forall_mem_singleton.mpr (.intro describes (.this id) (found ▸ entry))
  | .super id _ _, ⟨_, _, _, found, _, entry⟩ =>
    List.forall_mem_singleton.mpr (.intro describes (.super id) (found ▸ entry))

theorem Expr.allEntered (position : Position) (describes : position.levels.Describes scoping) :
    (values : List Expr) → Expr.AllAddressed table scoping values →
    AllEntered table ((Expr.allReferences values).map (⟨position, ·⟩))
  | [], _ => nofun
  | first :: rest, addressed => by
    rw [allReferences, List.map_append]
    exact (first.entered position describes addressed.1).append
      (Expr.allEntered position describes rest addressed.2)

end

theorem Expr.entered? (position : Position) (describes : position.levels.Describes scoping)
    (value : Option Expr) (addressed : Expr.Addressed? table scoping value) :
    AllEntered table (Expr.occurrences? position value) := by
  cases value with
  | none => exact nofun
  | some value => exact value.entered position describes (addressed value rfl)

end Entered

mutual

theorem Stmt.entered {levels : Levels} (describes : levels.Describes scoping) : (stmt : Stmt) →
    stmt.Regular → stmt.Addressed table scoping → AllEntered table (stmt.occurrences levels)
  | .expression value, _, addressed | .print value, _, addressed =>
    value.entered (.settled levels) describes addressed
  | .declareVar name initializer, _, addressed =>
    Expr.entered? (.inInitializer levels name) (describes.bind name.text false) initializer
      addressed.2.2
  | .block body, regular, addressed => Stmt.allEntered (describes.enter []) body regular addressed
  | .ifThen condition consequent, regular, addressed =>
    (condition.entered (.settled levels) describes addressed.1).append
      (consequent.entered describes regular.2.1 addressed.2.2)
  | .ifElse condition consequent alternative, regular, ⟨tested, ⟨plain, chosen⟩, _, otherwise⟩ => by
    have after := describes.after regular.2.1.1
    rw [Scoping.after_eq scoping plain] at after
    exact (condition.entered (.settled levels) describes tested).append
      ((consequent.entered describes regular.2.1.1 chosen).append
        (alternative.entered after regular.2.2.1 otherwise))
  | .while condition body, regular, addressed =>
    (condition.entered (.settled levels) describes addressed.1).append
      (body.entered describes regular.2.1 addressed.2.2)
  | .declareFunction routine, regular, addressed =>
    routine.entered (describes.bind routine.name.text true) regular.2 addressed.2.2
  | .return _ value, _, addressed =>
    Expr.entered? (.settled levels) describes value addressed
  | .declareClass name none methods, regular, addressed =>
    Routine.allEntered ((describes.bind name.text true).enter ["this"]) methods regular.2.2
      addressed.2.2
  | .declareClass name (some superclass) methods, regular, addressed =>
    (superclass.toExpr.entered (.settled (levels.declare [name.text]))
      (describes.bind name.text true) addressed.2.2.1).append
      (Routine.allEntered (((describes.bind name.text true).enter ["super"]).enter ["this"]) methods
        regular.2.2 addressed.2.2.2.2)

theorem Stmt.allEntered {levels : Levels} (describes : levels.Describes scoping) :
    (body : List Stmt) → Stmt.AllRegular body → Stmt.AllAddressed table scoping body →
    AllEntered table (Stmt.allOccurrences levels body)
  | [], _, _ => nofun
  | first :: rest, regular, addressed =>
    (first.entered describes regular.1 addressed.1).append
      (Stmt.allEntered (describes.after regular.1) rest regular.2 addressed.2)

theorem Routine.entered {levels : Levels} (describes : levels.Describes scoping) :
    (routine : Routine) → routine.Regular → routine.Addressed table scoping →
    AllEntered table (routine.occurrences levels)
  | ⟨_, parameters, body⟩, regular, addressed =>
    Stmt.allEntered (describes.enter (parameters.map (·.text))) body regular.2 addressed.2.2

theorem Routine.allEntered {levels : Levels} (describes : levels.Describes scoping) :
    (routines : List Routine) → Routine.AllRegular routines →
    Routine.AllAddressed table scoping routines →
    AllEntered table (Routine.allOccurrences levels routines)
  | [], _, _ => nofun
  | first :: rest, regular, addressed =>
    (first.entered describes regular.1 addressed.1).append
      (Routine.allEntered describes rest regular.2 addressed.2)

end

/-- The table of an accepted source has the lexical address of each name that occurs in it and no other
entries. Each node that occurs has an identifier of its own. -/
theorem distances_lexical (checked : (checkSource source first).outcome = .ok program) :
    ((programOccurrences program.body).map (·.id)).Nodup ∧
    ∀ (id : NodeId) (distance : Nat), program.distances[id]? = some distance ↔
      ∃ occurrence ∈ programOccurrences program.body,
        occurrence.id = id ∧ occurrence.Address distance := by
  obtain ⟨parses, resolved⟩ := checkSource_ok checked
  have ids : (programOccurrences program.body).map (·.id) = Stmt.allIds program.body :=
    Stmt.allOccurrences_id [] program.body
  have entered := Stmt.allEntered .nil program.body parses.regular (checkSource_addressed checked)
  refine ⟨ids ▸ parses.numbered.different, fun id distance => ⟨fun entry => ?_, ?_⟩⟩
  · have own : id ∈ Stmt.allIds program.body := by
      by_contra foreign
      rw [resolve_own resolved foreign] at entry
      cases entry
    rw [← ids] at own
    obtain ⟨occurrence, member, rfl⟩ := List.mem_map.mp own
    obtain ⟨found, ⟨_, rfl⟩, addresses⟩ := entered occurrence member
    exact ⟨occurrence, member, rfl, (addresses distance).mp entry⟩
  · rintro ⟨occurrence, member, rfl, address⟩
    obtain ⟨found, ⟨_, rfl⟩, addresses⟩ := entered occurrence member
    exact (addresses distance).mpr address

private def shadowedLater : String :=
  "{ var a = 1; { fun show() { return a; } a = 2; var a = show(); print a; } }"

/-- A routine that reads a variable of an outer block, which a later variable of the inner block
shadows for what follows. -/
theorem distances_lexical_shadowed : ∃ program,
    (checkSource shadowedLater 0).outcome = .ok program ∧
    ((programOccurrences program.body).map (·.id)).Nodup ∧
    ∀ (id : NodeId) (distance : Nat), program.distances[id]? = some distance ↔
      ∃ occurrence ∈ programOccurrences program.body,
        occurrence.id = id ∧ occurrence.Address distance := by
  have accepted : (checkSource shadowedLater 0).outcome.isOk = true := by decide +kernel
  cases checked : (checkSource shadowedLater 0).outcome with
  | error reports =>
    rw [checked] at accepted
    cases accepted
  | ok program => exact ⟨program, rfl, distances_lexical checked⟩

/-- The scopes between each name there and the variable it refers to. -/
example : (checkSource shadowedLater 0).outcome.toOption.map (fun program =>
      (programOccurrences program.body).map fun occurrence =>
        (occurrence.reference.name, program.distances[occurrence.id]?)) =
    some [("a", some 2), ("a", some 1), ("show", some 0), ("a", some 0)] := by
  decide +kernel

end Lox
