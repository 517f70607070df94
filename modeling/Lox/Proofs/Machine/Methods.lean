import Lox.Machine.Evaluate
import Lox.Proofs.Tables

/-! The methods of classes. A class has the last of its own methods of a name, and otherwise the one
that the nearest class above it has. -/

namespace Lox

/-- The own method of a class under a name is the last one that its declaration gives that name. -/
theorem Eval.find?_methodTable (scope : ScopeRef) (methods : List Routine) (name : String) :
    (Eval.methodTable scope methods).find? name =
      (methods.reverse.find? (·.name.text = name)).map fun method =>
        ⟨method, scope, method.name.text = initializerName⟩ := by
  unfold Eval.methodTable
  rw [Bindings.find?_ofList_last, ← List.map_reverse]
  induction methods.reverse with
  | nil => rfl
  | cons method rest ih =>
    by_cases same : method.name.text = name <;> simp [Bindings.findEntry?, same, ih]

theorem Eval.mem_of_find?_methodTable {scope : ScopeRef} {methods : List Routine} {name : String}
    {found : Closure} (known : (Eval.methodTable scope methods).find? name = some found) :
    found.routine ∈ methods ∧ found.scope = scope := by
  rw [Eval.find?_methodTable, Option.map_eq_some_iff] at known
  obtain ⟨method, last, rfl⟩ := known
  exact ⟨List.mem_reverse.mp (List.mem_of_find?_eq_some last), rfl⟩

end Lox
