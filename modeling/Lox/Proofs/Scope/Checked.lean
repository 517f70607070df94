import Lox.Proofs.Scope.Addressed
import Lox.Proofs.Tree.Ids

/-! What a walk of the analysis does. It changes the scopes in a way that the tree alone determines
and adds to the table and to the errors what depends on the tree and on the scopes only. If it adds
no error, then whatever table keeps its entries is right for the tree. -/

namespace Lox

/-- What a walk adds to the table and to the errors. -/
structure Notes where
  entries : List (NodeId × Nat)
  errors : List ScopeError

namespace Notes

def noted? : List (NodeId × Nat) → NodeId → Option Nat
  | [], _ => none
  | (key, distance) :: rest, id => (noted? rest id).or (if key = id then some distance else none)

theorem noted?_append (before after : List (NodeId × Nat)) (id : NodeId) :
    noted? (before ++ after) id = (noted? after id).or (noted? before id) := by
  induction before with
  | nil => simp [noted?]
  | cons head rest ih => simp [noted?, ih, Option.or_assoc]

theorem noted?_eq_none {id : NodeId} (absent : ∀ entry ∈ list, entry.1 ≠ id) : noted? list id = none := by
  induction list with
  | nil => rfl
  | cons head rest ih =>
    have here := absent head List.mem_cons_self
    simp [noted?, ih fun entry member => absent entry (List.mem_cons_of_mem _ member), here]

def record (table : Distances) (entries : List (NodeId × Nat)) : Distances :=
  entries.foldl (fun table entry => table.insert entry.1 entry.2) table

theorem getElem?_record (table : Distances) (entries : List (NodeId × Nat)) (id : NodeId) :
    (record table entries)[id]? = (noted? entries id).or table[id]? := by
  induction entries generalizing table with
  | nil => simp [record, noted?]
  | cons head rest ih =>
    have later := ih (table.insert head.1 head.2)
    simp only [record, List.foldl_cons] at later ⊢
    rw [later, Std.TreeMap.getElem?_insert]
    by_cases same : head.1 = id <;> simp [noted?, same]

end Notes

namespace Analysis

def noting (analysis : Analysis) (scopes : Scoping) (notes : Notes) : Analysis where
  scopes := scopes
  distances := Notes.record analysis.distances notes.entries
  errors := analysis.errors ++ notes.errors.toArray

/-- A walk from some scopes to others through a tree with the given identifiers. Without errors it
leaves entries that are right for the tree. -/
def Checks (walk : Analysis → Analysis) (before after : Scoping) (ids : List NodeId)
    (right : Entries → Prop) : Prop :=
  ∃ notes : Notes,
    (∀ analysis, analysis.scopes = before → walk analysis = analysis.noting after notes) ∧
    (∀ entry ∈ notes.entries, entry.1 ∈ ids) ∧
    (notes.errors = [] → ids.Nodup → ∀ table : Entries,
      (∀ id ∈ ids, table id (Notes.noted? notes.entries id)) → right table)

namespace Checks

theorem weaken {right other : Entries → Prop} (checks : Checks walk before after ids right)
    (implies : ∀ table, right table → other table) : Checks walk before after ids other := by
  obtain ⟨notes, runs, inside, sound⟩ := checks
  exact ⟨notes, runs, inside, fun clean different table same =>
    implies _ (sound clean different table same)⟩

theorem congr (checks : Checks walk before after ids right)
    (same : ∀ analysis, analysis.scopes = before → other analysis = walk analysis) :
    Checks other before after ids right := by
  obtain ⟨notes, runs, inside, sound⟩ := checks
  exact ⟨notes, fun analysis start => (same analysis start).trans (runs analysis start), inside,
    sound⟩

theorem adjust {right other : Entries → Prop} {after after' : Scoping}
    (checks : Checks walk before after ids right) (scopes : after = after') (same : ids.Perm ids')
    (implies : ∀ table, right table → other table) : Checks walk before after' ids' other := by
  subst scopes
  obtain ⟨notes, runs, inside, sound⟩ := checks
  refine ⟨notes, runs, fun entry member => same.mem_iff.mp (inside entry member), ?_⟩
  intro clean different table entries
  exact implies table (sound clean (same.nodup_iff.mpr different) table fun id member =>
    entries id (same.mem_iff.mp member))

theorem pass : Checks id before before [] fun _ => True :=
  ⟨⟨[], []⟩, fun analysis same => by simp [noting, Notes.record, ← same], nofun,
    fun _ _ _ _ => trivial⟩

theorem comp {first second : Analysis → Analysis} (one : Checks first before middle left right)
    (other : Checks second middle after rest right') :
    Checks (fun analysis => second (first analysis)) before after (left ++ rest)
      fun table => right table ∧ right' table := by
  obtain ⟨notes, runs, inside, sound⟩ := one
  obtain ⟨notes', runs', inside', sound'⟩ := other
  refine ⟨⟨notes.entries ++ notes'.entries, notes.errors ++ notes'.errors⟩, ?_, ?_, ?_⟩
  · intro analysis same
    change second (first analysis) = _
    rw [runs analysis same, runs' _ rfl]
    simp [noting, Notes.record]
  · intro entry member
    rcases List.mem_append.mp member with member | member
    · exact List.mem_append_left _ (inside entry member)
    · exact List.mem_append_right _ (inside' entry member)
  · intro clean different table same
    obtain ⟨distinct, distinct', apart⟩ := List.nodup_append.mp different
    obtain ⟨clean, clean'⟩ := List.append_eq_nil_iff.mp clean
    refine ⟨sound clean distinct table fun id member => ?_,
      sound' clean' distinct' table fun id member => ?_⟩
    · have none : Notes.noted? notes'.entries id = none :=
        Notes.noted?_eq_none fun entry found here =>
          apart id member entry.1 (inside' entry found) here.symm
      have known := same id (List.mem_append_left _ member)
      rwa [Notes.noted?_append, none, Option.none_or] at known
    · have none : Notes.noted? notes.entries id = none :=
        Notes.noted?_eq_none fun entry found here =>
          apart entry.1 (inside entry found) id member here
      have known := same id (List.mem_append_right _ member)
      rwa [Notes.noted?_append, none, Option.or_none] at known

/-- After an error nothing has to be right. -/
theorem report (fault : ScopeFault) (name : Name) :
    Checks (·.report fault name) before before ids right := by
  refine ⟨⟨[], [⟨fault, name⟩]⟩, fun analysis same => ?_, nofun, nofun⟩
  simp [Analysis.report, noting, Notes.record, same]

theorem recordDistance (id : NodeId) (name : String) :
    Checks (·.recordDistance id name) before before [id]
      fun table => table id (before.distance? name) := by
  cases found : before.distance? name with
  | some distance =>
    refine ⟨⟨[(id, distance)], []⟩, fun analysis same => ?_, by simp, fun _ _ table same => ?_⟩
    · unfold Scoping.distance? at found
      simp [Analysis.recordDistance, same, found, noting, Notes.record]
    · simpa [Notes.noted?] using same id
  | none =>
    refine ⟨⟨[], []⟩, fun analysis same => ?_, nofun, fun _ _ table same => ?_⟩
    · subst same
      unfold Scoping.distance? at found
      simp [Analysis.recordDistance, found, noting, Notes.record]
    · simpa [Notes.noted?] using same id

theorem openScope : Checks Analysis.openScope before (.empty :: before) [] fun _ => True :=
  ⟨⟨[], []⟩, fun analysis same => by simp [Analysis.openScope, noting, Notes.record, same], nofun,
    fun _ _ _ _ => trivial⟩

theorem closeScope : Checks Analysis.closeScope before before.tail [] fun _ => True :=
  ⟨⟨[], []⟩, fun analysis same => by simp [Analysis.closeScope, noting, Notes.record, same], nofun,
    fun _ _ _ _ => trivial⟩

theorem bind (name : String) (ready : Bool) :
    Checks (·.bind name ready) before (before.bind name ready) [] fun _ => True := by
  refine ⟨⟨[], []⟩, fun analysis same => ?_, nofun, fun _ _ _ _ => trivial⟩
  obtain ⟨scopes, distances, errors⟩ := analysis
  cases same
  cases scopes <;> simp [Analysis.bind, noting, Notes.record, Scoping.bind]

end Checks

end Analysis

end Lox
