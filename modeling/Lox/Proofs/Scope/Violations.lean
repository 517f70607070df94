import Lox.Proofs.Scope.Addressed
import Lox.Proofs.Scope.Sites

/-! The analysis finds exactly the breaches of the rules. Its scopes are always as the context of the
place says where it is, so it reports what the rule of the place says. -/

namespace Lox

/-- Scopes of which the innermost one declares the given names, and all are ready but the one that is
being initialized. -/
inductive Declared : Option (List String) → Option String → Scoping → Prop where
  | global : Declared none none []
  | inner (known : ∀ name, innermost.contains name = true ↔ name ∈ names)
      (pending : ∀ name, innermost.find? name = some false ↔ initializing = some name) :
      Declared (some names) initializing (innermost :: outer)

namespace Declared

variable {scope : Option (List String)}

/-- A name is declared and ready at once. -/
theorem ready (declared : Declared scope none scoping) (name : String) :
    Declared (scope.map ([name] ++ ·)) none (scoping.bind name true) := by
  cases declared with
  | global => exact .global
  | inner known pending =>
    refine .inner (fun other => ?_) fun other => ?_
    · simp [Bindings.contains_insert, known]
    · rw [Bindings.find?_insert]
      split <;> simp [pending]

/-- A name is declared and not ready yet. -/
theorem begin (declared : Declared scope none scoping) (name : String) :
    Declared (scope.map ([name] ++ ·)) (scope.map fun _ => name) (scoping.bind name false) := by
  cases declared with
  | global => exact .global
  | inner known pending =>
    refine .inner (fun other => ?_) fun other => ?_
    · simp [Bindings.contains_insert, known]
    · rw [Bindings.find?_insert]
      split
      · rename_i same
        simp [same]
      · rename_i different
        simp [pending, Ne.symm different]

/-- A name that is declared already becomes ready. -/
theorem finish (name : String)
    (declared : Declared (scope.map ([name] ++ ·)) (scope.map fun _ => name) scoping) :
    Declared (scope.map ([name] ++ ·)) none (scoping.bind name true) := by
  cases scope with
  | none =>
    cases declared
    exact .global
  | some names =>
    cases declared with
    | inner known pending =>
      refine .inner (fun other => ?_) fun other => ?_
      · simp [Bindings.contains_insert, known]
      · rw [Bindings.find?_insert]
        split
        · simp
        · rename_i different
          simp [pending, Ne.symm different]

end Declared

def Context.Describes (context : Context) (scoping : Scoping) : Prop :=
  Declared context.scope context.initializing scoping

namespace Analysis

/-- A walk from one context to another that reports what is wrong at some sites. It changes the
innermost scope only. -/
def Finds (walk : Analysis → Analysis) (before after : Context) (sites : List Site) : Prop :=
  ∀ analysis, before.Describes analysis.scopes →
    after.Describes (walk analysis).scopes ∧ (walk analysis).scopes.tail = analysis.scopes.tail ∧
    (walk analysis).errors.toList = analysis.errors.toList ++ sites.filterMap Site.error?

namespace Finds

variable {walk walk' : Analysis → Analysis} {before middle after context : Context}
  {sites sites' : List Site}

theorem pass : Finds id context context [] :=
  fun _ describes => ⟨describes, rfl, by simp⟩

theorem comp (first : Finds walk before middle sites) (second : Finds walk' middle after sites') :
    Finds (fun analysis => walk' (walk analysis)) before after (sites ++ sites') := by
  intro analysis describes
  obtain ⟨here, outer, errors⟩ := first analysis describes
  obtain ⟨there, outer', errors'⟩ := second (walk analysis) here
  exact ⟨there, outer'.trans outer, by simp [errors', errors]⟩

theorem adjust (finds : Finds walk before after sites) (same : after = after')
    (others : sites = sites') : Finds walk before after' sites' :=
  same ▸ others ▸ finds

theorem congr (finds : Finds walk before after sites)
    (same : ∀ analysis, before.Describes analysis.scopes → walk' analysis = walk analysis) :
    Finds walk' before after sites :=
  fun analysis describes => same analysis describes ▸ finds analysis describes

theorem silent (scopes : ∀ analysis, (walk analysis).scopes = analysis.scopes)
    (errors : ∀ analysis, (walk analysis).errors = analysis.errors) : Finds walk context context [] :=
  fun analysis describes => ⟨scopes analysis ▸ describes, by rw [scopes], by simp [errors]⟩

theorem recordDistance (id : NodeId) (name : String) :
    Finds (·.recordDistance id name) context context [] := by
  apply silent <;>
    · intro analysis
      unfold Analysis.recordDistance
      split <;> rfl

/-- A report at a site that breaks a rule. -/
theorem report {site : Site} (fault : ScopeFault) (broken : site.fault? = some fault) :
    Finds (·.report fault site.mention.token) context context [site] :=
  fun analysis describes => ⟨describes, rfl, by simp [Analysis.report, Site.error?, broken]⟩

/-- No report at a site that breaks none. -/
theorem clear {site : Site} (clear : site.fault? = none) : Finds id context context [site] :=
  fun analysis describes => ⟨describes, rfl, by simp [Site.error?, clear]⟩

/-- A walk inside a scope of its own. -/
theorem inside {around : Surroundings} (finds : Finds walk (.inside around) after sites) :
    Finds (fun analysis => (walk analysis.openScope).closeScope) context context sites := by
  intro analysis describes
  have opened : (Context.inside around).Describes analysis.openScope.scopes :=
    .inner (by simp [Bindings.contains]) (by simp [Context.inside])
  obtain ⟨-, outer, errors⟩ := finds analysis.openScope opened
  have closed : (walk analysis.openScope).closeScope.scopes = analysis.scopes := outer
  exact ⟨closed ▸ describes, by rw [closed], errors⟩

end Finds

section Names

variable {context : Context} (idle : context.initializing = none)

theorem bind_scopes (analysis : Analysis) (name : String) (ready : Bool) :
    (analysis.bind name ready).scopes = Scoping.bind name ready analysis.scopes ∧
      (analysis.bind name ready).errors = analysis.errors := by
  obtain ⟨scopes, distances, errors⟩ := analysis
  cases scopes <;> exact ⟨rfl, rfl⟩

include idle

theorem ready_finds (name : String) :
    Finds (·.bind name true) context (context.declare [name]) [] := by
  intro analysis describes
  obtain ⟨scopes, errors⟩ := bind_scopes analysis name true
  unfold Context.Describes at describes ⊢
  rw [idle] at describes
  rw [scopes, errors]
  exact ⟨by simpa [Context.declare, idle] using describes.ready name, by simp, by simp⟩

omit idle in
/-- A walk inside a scope of its own that begins with a name. -/
theorem Finds.below (around : Surroundings) {walk : Analysis → Analysis} {name : String}
    (finds : Finds walk ((Context.inside around).declare [name]) after sites) :
    Finds (fun analysis => (walk (analysis.openScope.bind name true)).closeScope) context context
      sites := by
  have named : Finds (·.bind name true) (.inside around) _ _ := ready_finds rfl name
  exact .inside (named.comp finds)

theorem define_finds (name : Name) :
    Finds (·.define name) (context.inInitializer name) (context.declare [name.text]) [] := by
  intro analysis describes
  obtain ⟨scopes, errors⟩ := bind_scopes analysis name.text true
  unfold Context.Describes at describes ⊢
  unfold define
  rw [scopes, errors]
  exact ⟨by simpa [Context.declare, idle] using describes.finish name.text, by simp, by simp⟩

theorem declare_finds (name : Name) :
    Finds (·.declare name) context (context.inInitializer name) [⟨context, .declaration name⟩] := by
  intro analysis describes
  obtain ⟨scope, initializing, around⟩ := context
  obtain ⟨scopes, distances, errors⟩ := analysis
  obtain rfl : initializing = none := idle
  have declared : Declared scope none scopes := describes
  have begun := declared.begin name.text
  cases declared with
  | global => exact ⟨begun, rfl, by simp [declare, Analysis.bind, Site.error?, Site.fault?]⟩
  | @inner names _ innermost _ known =>
    by_cases member : name.text ∈ names
    · have here : innermost.contains name.text = true := (known name.text).mpr member
      simp only [declare, here, if_true]
      refine ⟨begun, rfl, ?_⟩
      simp [Analysis.report, Analysis.bind, Site.error?, Site.fault?, member, Mention.token]
    · have absent : ¬ innermost.contains name.text = true := mt (known name.text).mp member
      simp only [declare, if_neg absent]
      exact ⟨begun, rfl, by simp [Analysis.bind, Site.error?, Site.fault?, member]⟩

theorem name_finds (name : Name) :
    Finds (fun analysis => (analysis.declare name).define name) context (context.declare [name.text])
      [⟨context, .declaration name⟩] :=
  (declare_finds idle name).comp (define_finds idle name)

theorem parameters_finds (names : List Name) :
    Finds (parameters names) context (context.declare (names.map (·.text)).reverse)
      (context.parameterSites names) := by
  induction names generalizing context with
  | nil => exact Finds.pass.adjust (by simp) rfl
  | cons name rest ih =>
    exact ((name_finds idle name).comp (ih idle)).adjust (by simp) rfl

end Names

section Expressions

variable {context : Context}

theorem isPending_iff {analysis : Analysis} (describes : context.Describes analysis.scopes) (name : String) :
    analysis.isPending name = true ↔ context.initializing = some name := by
  obtain ⟨scope, initializing, around⟩ := context
  obtain ⟨scopes, distances, errors⟩ := analysis
  have declared : Declared scope initializing scopes := describes
  cases declared with
  | global => simp [isPending]
  | inner _ pending => simp [isPending, pending]

theorem read_finds (around : Surroundings) (id : NodeId) (name : Name) :
    Finds (expr around (.read id name)) context context (context.sites [.read name]) := by
  by_cases own : context.initializing = some name.text
  · have broken : Site.fault? ⟨context, .read name⟩ = some .readInOwnInitializer := if_pos own
    refine ((Finds.report _ broken).comp (.recordDistance id name.text)).congr fun analysis describes => ?_
    simp [expr, (isPending_iff describes name.text).mpr own, Mention.token]
  · have fine : Site.fault? ⟨context, .read name⟩ = none := if_neg own
    refine ((Finds.clear fine).comp (.recordDistance id name.text)).congr fun analysis describes => ?_
    simp [expr, mt (isPending_iff describes name.text).mp own]

theorem this_finds (id : NodeId) (line : Nat) :
    Finds (expr context.around (.this id line)) context context (context.sites [.this line]) := by
  cases owner : context.around.owner with
  | none =>
    have broken : Site.fault? ⟨context, .this line⟩ = some .thisOutsideClass := if_pos owner
    refine (Finds.report _ broken).congr fun analysis _ => ?_
    simp [expr, owner, Mention.token]
  | base | derived =>
    have fine : Site.fault? ⟨context, .this line⟩ = none := by simp [Site.fault?, owner]
    refine ((Finds.clear fine).comp (.recordDistance id "this")).congr fun analysis _ => ?_
    simp [expr, owner]

theorem super_finds (id : NodeId) (line : Nat) (method : Name) :
    Finds (expr context.around (.super id line method)) context context (context.sites [.super line]) := by
  cases owner : context.around.owner with
  | none =>
    have broken : Site.fault? ⟨context, .super line⟩ = some .superOutsideClass := by
      simp [Site.fault?, owner]
    refine (Finds.report _ broken).congr fun analysis _ => ?_
    simp [expr, owner, Mention.token]
  | base =>
    have broken : Site.fault? ⟨context, .super line⟩ = some .superWithoutSuperclass := by
      simp [Site.fault?, owner]
    refine (Finds.report _ broken).congr fun analysis _ => ?_
    simp [expr, owner, Mention.token]
  | derived =>
    have fine : Site.fault? ⟨context, .super line⟩ = none := by simp [Site.fault?, owner]
    refine ((Finds.clear fine).comp (.recordDistance id "super")).congr fun analysis _ => ?_
    simp [expr, owner]

/-- What is found by two walks in the same context. -/
theorem Finds.append {walk walk' : Analysis → Analysis} {mentions mentions' : List Mention}
    (first : Finds walk context context (context.sites mentions))
    (second : Finds walk' context context (context.sites mentions')) :
    Finds (fun analysis => walk' (walk analysis)) context context (context.sites (mentions ++ mentions')) :=
  (first.comp second).adjust rfl List.map_append.symm

mutual

theorem expr_finds : (tree : Expr) →
    Finds (expr context.around tree) context context (context.sites tree.mentions)
  | .literal _ => .pass
  | .grouping inner => expr_finds inner
  | .unary _ _ operand => expr_finds operand
  | .binary _ _ left right => (expr_finds left).append (expr_finds right)
  | .logical _ _ left right => (expr_finds left).append (expr_finds right)
  | .read id name => read_finds _ id name
  | .assign id name value =>
    ((expr_finds value).comp (.recordDistance id name.text)).adjust rfl (List.append_nil _)
  | .call callee _ arguments => (expr_finds callee).append (exprs_finds arguments)
  | .get object _ => expr_finds object
  | .set object _ value => (expr_finds value).append (expr_finds object)
  | .this id line => this_finds id line
  | .super id line method => super_finds id line method

theorem exprs_finds : (trees : List Expr) →
    Finds (exprs context.around trees) context context (context.sites (Expr.allMentions trees))
  | [] => .pass
  | first :: rest => (expr_finds first).append (exprs_finds rest)

end

theorem expr?_finds (value : Option Expr) :
    Finds (expr? context.around value) context context (context.sites (Expr.mentions? value)) := by
  cases value with
  | none => exact .pass
  | some value => exact expr_finds value

theorem returnRules_finds (line : Nat) (value : Option Expr) :
    Finds (returnRules context.around line value) context context
      [⟨context, .return line value.isSome⟩] := by
  cases routine : context.around.routine with
  | none =>
    have broken : Site.fault? ⟨context, .return line value.isSome⟩ = some .returnAtTopLevel := by
      simp [Site.fault?, routine]
    refine (Finds.report _ broken).congr fun analysis _ => ?_
    simp [returnRules, routine, Mention.token]
  | initializer =>
    cases value with
    | none =>
      have fine : Site.fault? ⟨context, .return line false⟩ = none := by simp [Site.fault?, routine]
      refine (Finds.clear fine).congr fun analysis _ => ?_
      simp [returnRules, routine]
    | some value =>
      have broken : Site.fault? ⟨context, .return line true⟩ = some .valueFromInitializer := by
        simp [Site.fault?, routine]
      refine (Finds.report _ broken).congr fun analysis _ => ?_
      simp [returnRules, routine, Mention.token]
  | function | method =>
    have fine : Site.fault? ⟨context, .return line value.isSome⟩ = none := by
      simp [Site.fault?, routine]
    refine (Finds.clear fine).congr fun analysis _ => ?_
    simp [returnRules, routine]

/-- The name of a superclass is checked before it is read. -/
theorem superclass_finds (heir : Name) (superclass : Superclass) :
    Finds (fun analysis => expr context.around superclass.toExpr
        (if superclass.name.text = heir.text then analysis.report .selfInheritance superclass.name
        else analysis)) context context (context.sites (superclass.mentions heir)) := by
  have read : Finds (expr context.around superclass.toExpr) context context
      (context.sites [.read superclass.name]) := read_finds _ _ _
  by_cases same : superclass.name.text = heir.text
  · have broken : Site.fault? ⟨context, .inheritance heir superclass.name⟩ = some .selfInheritance :=
      if_pos same
    refine ((Finds.report _ broken).comp read).congr fun analysis _ => ?_
    simp [same, Mention.token]
  · have fine : Site.fault? ⟨context, .inheritance heir superclass.name⟩ = none := if_neg same
    refine ((Finds.clear fine).comp read).congr fun analysis _ => ?_
    simp [same]

end Expressions

mutual

theorem stmt_finds (context : Context) (idle : context.initializing = none) : (tree : Stmt) →
    Finds (stmt context.around tree) context (context.declare tree.declares) (tree.sites context)
  | .expression value | .print value => (expr_finds value).adjust (by simp [Stmt.declares]) rfl
  | .declareVar name initializer =>
    ((declare_finds idle name).comp (expr?_finds initializer)).comp (define_finds idle name)
      |>.adjust rfl (List.append_nil _)
  | .block body =>
    (Finds.inside (stmts_finds (.inside context.around) rfl body)).adjust (by simp [Stmt.declares]) rfl
  | .ifThen condition consequent => (expr_finds condition).comp (stmt_finds context idle consequent)
  | .ifElse condition consequent alternative =>
    ((expr_finds condition).comp (stmt_finds context idle consequent)).comp
      (stmt_finds (context.declare consequent.declares) idle alternative)
      |>.adjust (by simp [Stmt.declares]) rfl
  | .while condition body => (expr_finds condition).comp (stmt_finds context idle body)
  | .declareFunction decl =>
    (name_finds idle decl.name).comp (routine_finds { context.around with routine := .function } _ decl)
  | .return line value =>
    ((returnRules_finds line value).comp (expr?_finds value)).adjust (by simp [Stmt.declares]) rfl
  | .declareClass name none methods =>
    (name_finds idle name).comp (.below context.around (routines_finds { context.around with owner := .base }
      ((Context.inside context.around).declare ["this"]) methods))
  | .declareClass name (some superclass) methods =>
    ((name_finds idle name).comp (superclass_finds name superclass)).comp
      (.below context.around (.below context.around
        (routines_finds { context.around with owner := .derived }
          ((Context.inside context.around).declare ["this"]) methods)))

theorem stmts_finds (context : Context) (idle : context.initializing = none) : (trees : List Stmt) →
    Finds (stmts context.around trees) context (context.declare (Stmt.allDeclares trees))
      (Stmt.allSites context trees)
  | [] => Finds.pass.adjust context.declare_nil.symm rfl
  | first :: rest =>
    ((stmt_finds context idle first).comp (stmts_finds (context.declare first.declares) idle rest)).adjust
      (by simp [Stmt.allDeclares]) rfl

theorem routine_finds (around : Surroundings) (context : Context) : (tree : Routine) →
    Finds (routine around tree) context context (tree.sites around)
  | ⟨_, names, body⟩ => by
    have named : Finds (parameters names) (.inside around) _ _ := parameters_finds rfl names
    exact .inside (named.comp
      (stmts_finds ((Context.inside around).declare (names.map (·.text)).reverse) rfl body))

theorem routines_finds (around : Surroundings) (context : Context) : (trees : List Routine) →
    Finds (routines around trees) context context (Routine.allSites around trees)
  | [] => .pass
  | method :: rest =>
    (routine_finds { around with routine := methodKind method.name } context method).comp
      (routines_finds around context rest)

end

end Analysis

theorem Site.error?_eq_some_iff {site : Site} {error : ScopeError} :
    site.error? = some error ↔ site.Breaks error.fault ∧ error.name = site.mention.token := by
  obtain ⟨fault, name⟩ := error
  rw [← fault?_eq_some_iff, error?, Option.map_eq_some_iff]
  constructor
  · rintro ⟨_, found, ⟨⟩⟩
    exact ⟨found, rfl⟩
  · rintro ⟨found, rfl⟩
    exact ⟨fault, found, rfl⟩

theorem Site.error?_eq_none_iff {site : Site} :
    site.error? = none ↔ ∀ fault, ¬ site.Breaks fault := by
  simp [error?, ← fault?_eq_some_iff, Option.eq_none_iff_forall_ne_some]

/-- The outcome of the analysis, judging by the sites. -/
theorem resolve_eq (body : List Stmt) : ∃ distances, resolve body =
    if (programSites body).filterMap Site.error? = [] then .ok distances
    else .error ((programSites body).filterMap Site.error?) := by
  obtain ⟨-, -, found⟩ := Analysis.stmts_finds .topLevel rfl body .start .global
  have errors : (Analysis.stmts .topLevel body .start).errors.toList =
      (programSites body).filterMap Site.error? := found
  refine ⟨(Analysis.stmts .topLevel body .start).distances, ?_⟩
  rw [← errors]
  simp [resolve]

/-- A program is rejected exactly for what breaks the rules of scopes in it: one error for each site that
breaks one, at the name or keyword there, in the order of the sites. -/
theorem resolve_violations (body : List Stmt) :
    ((∃ distances, resolve body = .ok distances) ↔
      ∀ site ∈ programSites body, ∀ fault, ¬ site.Breaks fault) ∧
    (∀ errors, resolve body = .error errors ↔
      errors ≠ [] ∧ errors = (programSites body).filterMap Site.error?) ∧
    ∀ (site : Site) (error : ScopeError), site.error? = some error ↔
      site.Breaks error.fault ∧ error.name = site.mention.token := by
  have unbroken : (programSites body).filterMap Site.error? = [] ↔
      ∀ site ∈ programSites body, ∀ fault, ¬ site.Breaks fault := by
    simp only [List.filterMap_eq_nil_iff, Site.error?_eq_none_iff]
  obtain ⟨distances, resolved⟩ := resolve_eq body
  rw [← unbroken, resolved]
  refine ⟨?_, fun errors => ?_, fun _ _ => Site.error?_eq_some_iff⟩
  · split
    · rename_i clean
      exact ⟨fun _ => clean, fun _ => ⟨distances, rfl⟩⟩
    · rename_i broken
      exact ⟨nofun, fun clean => absurd clean broken⟩
  · split
    · rename_i clean
      exact ⟨nofun, fun ⟨nonempty, same⟩ => absurd (same.trans clean) nonempty⟩
    · rename_i broken
      rw [Except.error.injEq]
      exact ⟨fun same => ⟨same ▸ broken, same.symm⟩, fun same => same.2.symm⟩

/-- A variable that is read in its own initializer, and then declared again. -/
example : (programSites [.block [.declareVar ⟨"a", 1⟩ (some (.read 0 ⟨"a", 1⟩)),
      .declareVar ⟨"a", 2⟩ none]]).filterMap Site.error? =
    [⟨.readInOwnInitializer, ⟨"a", 1⟩⟩, ⟨.alreadyDeclared, ⟨"a", 2⟩⟩] := by
  decide

end Lox
