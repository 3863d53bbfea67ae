import Bundler.Script.Occurrence

/-!
# Scopes

The names of a script, looked up. A scope knows the names that are bound in it, wherever in
it that is; a name that is used means what the innermost scope around binds by it. So uses
wait until their scope ends. A name may be bound twice in a scope only by declarations
that go together.

* `Analysis.step`: what an occurrence does;
* `Analysis.ofOccurrences`: the names of a script, and the rules about names that it breaks.
-/

namespace Bundler.Script

/-- A name that is bound in a scope. -/
structure Binding where
  /-- The name, where it is declared first. -/
  id : Ident
  /-- By what it is bound. -/
  kinds : List BindingKind
  /-- Whether it is the name of a variable that belongs to a scope further out, and is here
      only since it is declared here. -/
  passing : Bool
  deriving DecidableEq, Repr

/-- A name that is used. -/
structure Use where
  /-- The name. -/
  id : Ident
  /-- How it is used. -/
  role : Role
  deriving DecidableEq, Repr

/-- A scope that has not ended. -/
structure Scope where
  /-- What the scope is. -/
  kind : ScopeKind
  /-- The names bound in it so far. -/
  bindings : List Binding
  /-- The names used in it that are not looked up yet, the last one first. -/
  waiting : List Use
  deriving Repr

namespace ScopeKind

/-- Whether variables declared in a scope, or in blocks of it, belong to it. -/
def holdsVariables : ScopeKind → Bool
  | .top _ | .function | .staticBlock => true
  | .block | .ownName => false

/-- Whether functions may share a name in a scope: their declarations are like those of
    variables there. -/
def sharesFunctions : ScopeKind → Bool
  | .top .script | .function | .staticBlock => true
  | .top .module | .block | .ownName => false

end ScopeKind

namespace BindingKind

/-- Whether a name of a block, or of a class, is what an old declaration binds. -/
def isBlockScoped : BindingKind → Bool
  | .lexical | .classDef => true
  | _ => false

/-- Whether a name that is bound in a scope already may not be bound again: `conflicts scope
    new old`. -/
def conflicts (scope : ScopeKind) : (new old : BindingKind) → Bool
  | .imported, old => old == .imported
  | .var, old => old.isBlockScoped || old == .caught false
  | .lexical, old => old != .imported
  | .classDef, old => old != .imported
  | .function plain alone, old =>
    if alone then false
    else if scope.sharesFunctions then old.isBlockScoped
    else
      match old with
      | .function oldPlain _ => scope == .top .module || !(plain && oldPlain)
      | _ => true
  | .param only, _ => only
  | .caught _, _ => true
  | .ownName, _ => false

end BindingKind

namespace Scope

/-- What a scope binds by a name. -/
def find? (scope : Scope) (name : String) : Option Binding :=
  scope.bindings.find? fun binding => binding.id.name == name

/-- A scope with a binding, which takes the place of another one of the name. -/
def put (scope : Scope) (binding : Binding) : Scope :=
  { scope with
    bindings := (scope.bindings.filter fun other => other.id.name != binding.id.name) ++ [binding] }

/-- What a use means in a scope itself: the declaration of its name. -/
def meaning? (scope : Scope) (use : Use) : Option Ident :=
  match scope.find? use.id.name with
  | some binding => if binding.passing then none else some binding.id
  | none => none

end Scope

/-- How far the names of a script are looked up. -/
structure Analysis where
  /-- The scopes that have not ended, the innermost one first. -/
  scopes : List Scope
  /-- The names bound at the top, the last one first. -/
  top : List Ident
  /-- The names that are looked up, each with the declaration that it means, the last one
      first. -/
  found : List (Use × Option Ident)
  /-- The broken rules, the last one first. -/
  issues : List Issue

namespace Analysis

/-- The analysis before the first occurrence. -/
def start : Analysis :=
  { scopes := [], top := [], found := [], issues := [] }

/-- Looks up the uses that wait in the innermost scope. Those that mean nothing there wait
    in the scope around. -/
def lookUp (analysis : Analysis) : Analysis :=
  match analysis.scopes with
  | [] => analysis
  | scope :: outer =>
    let here := scope.waiting.filter fun use => (scope.meaning? use).isSome
    let further := scope.waiting.filter fun use => (scope.meaning? use).isNone
    let found := here.map fun use => (use, scope.meaning? use)
    let scope := { scope with waiting := [] }
    match outer with
    | [] =>
      { analysis with
        scopes := [scope]
        found := further.map (fun use => (use, none)) ++ found ++ analysis.found }
    | around :: others =>
      { analysis with
        scopes := scope :: { around with waiting := further ++ around.waiting } :: others
        found := found ++ analysis.found }

/-- Ends the innermost scope. -/
def leave (analysis : Analysis) : Analysis :=
  let analysis := analysis.lookUp
  { analysis with scopes := analysis.scopes.drop 1 }

/-- The rules about a name that is bound again. -/
def complain (scope : ScopeKind) (kind : BindingKind) : Option Binding → List Issue
  | none => []
  | some old =>
    if old.kinds.any (kind.conflicts scope) then
      [⟨old.id.span.start, "A name declared twice"⟩]
    else []

/-- The binding of a name: the old one, if there is one, with one more kind. -/
def merge (id : Ident) (kind : BindingKind) : Option Binding → Binding
  | none => { id, kinds := [kind], passing := false }
  | some old => { old with kinds := kind :: old.kinds }

/-- The names bound at the top, with one that is bound in a scope. -/
def noteTop (analysis : Analysis) (scope : Scope) (id : Ident) : List Ident :=
  match scope.kind with
  | .top _ => if analysis.top.contains id then analysis.top else id :: analysis.top
  | _ => analysis.top

/-- Binds a name in the innermost scope. -/
def bindHere (analysis : Analysis) (id : Ident) (kind : BindingKind) : Analysis :=
  match analysis.scopes with
  | [] => analysis
  | scope :: outer =>
    let old := scope.find? id.name
    let binding := merge id kind old
    { analysis with
      scopes := scope.put binding :: outer
      top := analysis.noteTop scope binding.id
      issues := complain scope.kind kind old ++ analysis.issues }

/-- Binds a variable. It belongs to the function around, and its name may not be in the way
    of one of the blocks between. An error that is bound by that name becomes the variable
    itself. -/
def bindVar (analysis : Analysis) (id : Ident) : Analysis :=
  let between := analysis.scopes.takeWhile fun scope => !scope.kind.holdsVariables
  match analysis.scopes.dropWhile fun scope => !scope.kind.holdsVariables with
  | [] => analysis
  | home :: outer =>
    let old := (between ++ [home]).findSome? fun scope => scope.find? id.name
    let binding := { merge id .var old with passing := false }
    { analysis with
      scopes :=
        between.map (fun scope => scope.put { binding with passing := true }) ++
          home.put binding :: outer
      top := analysis.noteTop home binding.id
      issues := complain home.kind .var old ++ analysis.issues }

/-- Keeps a use until its scope ends. -/
def use (analysis : Analysis) (use : Use) : Analysis :=
  match analysis.scopes with
  | [] => analysis
  | scope :: outer =>
    { analysis with scopes := { scope with waiting := use :: scope.waiting } :: outer }

/-- What an occurrence does. -/
def step (analysis : Analysis) : Occurrence → Analysis
  | .enter kind =>
    { analysis with scopes := { kind, bindings := [], waiting := [] } :: analysis.scopes }
  | .leave => analysis.leave
  | .settle => analysis.lookUp
  | .bind id .var => analysis.bindVar id
  | .bind id kind => analysis.bindHere id kind
  | .use id role => analysis.use ⟨id, role⟩
  | .unsupported _ _ => analysis
  | .broken issue => { analysis with issues := issue :: analysis.issues }

/-- The first declaration of a name that is bound at the top. -/
def declarationOf (analysis : Analysis) (id : Ident) : Ident :=
  (analysis.top.reverse.find? fun declared => declared.name == id.name).getD id

/-- The declaration that the use of a name at a place means. -/
def meaningOf (analysis : Analysis) (id : Ident) : Option Ident :=
  analysis.found.findSome? fun (use, meaning) => if use.id = id then meaning else none

/-- The rules about exports of names that nothing binds. -/
def exportIssues (analysis : Analysis) : List Issue :=
  analysis.found.reverse.filterMap fun (use, meaning) =>
    if use.role == .exported && meaning.isNone then
      some ⟨use.id.span.start, "An export of what is not declared"⟩
    else none

/-- The first broken rule. -/
def issue? (analysis : Analysis) : Option Issue :=
  (analysis.issues.reverse ++ analysis.exportIssues).head?

end Analysis

/-- The names of a script, looked up. -/
def Analysis.ofOccurrences (occurrences : List Occurrence) : Analysis :=
  occurrences.foldl Analysis.step .start

end Bundler.Script
