import Lox.Machine.Evaluate

/-! Where names are looked for. An entry in the table leads to one scope, and without an entry a name
is looked for among the globals. -/

namespace Lox.Eval

variable {setting : Setting} {id : NodeId} (name : Name) (machine : Machine)

theorem readName_local (entry : setting.distances[id]? = some distance) :
    readName setting id name machine =
      orElseFault name.line (.undefinedVariable name.text)
        (machine.heap.scopes.lookupAt? machine.scope distance name.text) machine := by
  simp only [readName, entry]
  rfl

theorem readName_global (entry : setting.distances[id]? = none) :
    readName setting id name machine =
      orElseFault name.line (.undefinedVariable name.text)
        (machine.heap.scopes.lookup? Heap.globals name.text) machine := by
  simp only [readName, entry]
  rfl

theorem targetScope_local (entry : setting.distances[id]? = some distance) :
    targetScope setting id name machine =
      orElseFault name.line (.undefinedVariable name.text)
        (machine.heap.scopes.ancestor? machine.scope distance) machine := by
  simp only [targetScope, entry]
  rfl

theorem targetScope_global (entry : setting.distances[id]? = none) :
    targetScope setting id name machine =
      orElseFault name.line (.undefinedVariable name.text)
        (machine.heap.scopes.nearest? Heap.globals name.text) machine := by
  simp only [targetScope, entry]
  rfl

theorem orElseFault_cases (line : Nat) (reason : RuntimeFault) (found : Option α)
    (machine : Machine) :
    (∃ value, found = some value ∧ orElseFault line reason found machine = .ok value machine) ∨
      orElseFault line reason found machine = .error (.fault ⟨reason, line⟩) machine := by
  cases found with
  | some value => exact .inl ⟨value, rfl, rfl⟩
  | none => exact .inr rfl

theorem targetScope_cases (setting : Setting) (id : NodeId) (name : Name) (machine : Machine) :
    (∃ scope, targetScope setting id name machine = .ok scope machine) ∨
      ∃ reason, targetScope setting id name machine = .error reason machine := by
  have faulty (found : Option ScopeRef)
      (same : targetScope setting id name machine =
        orElseFault name.line (.undefinedVariable name.text) found machine) :
      (∃ scope, targetScope setting id name machine = .ok scope machine) ∨
        ∃ reason, targetScope setting id name machine = .error reason machine := by
    rw [same]
    rcases orElseFault_cases name.line (.undefinedVariable name.text) found machine with
      ⟨scope, _, ran⟩ | failed
    · exact .inl ⟨scope, ran⟩
    · exact .inr ⟨_, failed⟩
  cases entry : setting.distances[id]? with
  | some distance => exact faulty _ (targetScope_local name machine entry)
  | none => exact faulty _ (targetScope_global name machine entry)

theorem readName_ends (setting : Setting) (id : NodeId) (name : Name) (machine : Machine) :
    (∃ value, readName setting id name machine = .ok value machine) ∨
      ∃ reason, readName setting id name machine = .error reason machine := by
  have read : ∃ found, readName setting id name machine =
      orElseFault name.line (.undefinedVariable name.text) found machine := ⟨_, rfl⟩
  obtain ⟨found, read⟩ := read
  rcases orElseFault_cases name.line (.undefinedVariable name.text) found machine with
    ⟨value, _, ran⟩ | failed
  · exact .inl ⟨value, read.trans ran⟩
  · exact .inr ⟨_, read.trans failed⟩

end Lox.Eval
