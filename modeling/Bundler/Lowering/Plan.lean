import Bundler.Lowering.Statement
import Bundler.Script.Scope
import Bundler.Text.Basic
import Bundler.Text.Edit

/-!
# How a module is lowered

A module becomes the body of a function by edits to its text, each of which takes the place
of an import, of an export, or of a use of an imported name; all else stays as it is
written. An imported name becomes a property of the module that is asked for, so a change
of its value is seen. Exports of the module's own names are set up before its first
statement, so that modules which import each other see them in time.

* `Change`: what takes the place of a part of a module;
* `Plan.make`: the changes to a module, with the modules that it asks for.
-/

namespace Bundler.Lowering

open Script

/-- What takes the place of a part of a module. -/
inductive Change where
  /-- Nothing. -/
  | erased
  /-- Statements. -/
  | statements (written : List Statement)
  /-- The statements that come before the module's own. -/
  | prologue (exports : List (String × String))
  /-- The value of an imported name. -/
  | member (value : String)
  /-- The value of an imported name that is called. Between parentheses it is no method. -/
  | called (value : String)
  /-- The value of an imported name that is also the name of the property. -/
  | property (name value : String)
  /-- The name of a function that has none, after a blank if one is needed. -/
  | functionName (blank : Bool) (name : String)
  /-- The start of an assignment to the default export. -/
  | assignDefault
  /-- The end of that assignment. -/
  | endDefault
  deriving DecidableEq, Repr

namespace Change

/-- How a change is written. -/
def text : Change → String
  | .erased => ""
  | .statements written => Statement.lines written
  | .prologue exports =>
    "\n" ++ "".intercalate
      ((.mark :: exports.map fun (name, value) => Statement.getter name value).map fun statement =>
        statement.text ++ "\n")
  | .member value => value
  | .called value => "(0, " ++ value ++ ")"
  | .property name value => name ++ ": " ++ value
  | .functionName blank name => if blank then " " ++ name else name
  | .assignDefault => "exports.default = "
  | .endDefault => ";"

end Change

/-- A module that is going to be lowered: its text, its statements and its names. -/
structure Subject where
  /-- The text. -/
  source : List Char
  /-- The tree of the text. -/
  program : Program
  /-- What occurs in it. -/
  occurrences : List Occurrence
  /-- Its names, looked up. -/
  analysis : Analysis

/-- How far the changes to a module are known. -/
structure Plan where
  /-- The names that are taken. -/
  taken : List String
  /-- The specifiers of the modules that are asked for, each once. -/
  specifiers : List String
  /-- The names that are imported, with the values that they stand for. -/
  values : List (Ident × String)
  /-- The names under which the module exports its own names, with their values. -/
  exports : List (String × String)
  /-- The changes. -/
  changes : List (Span × Change)

namespace Plan

/-- Changes one more stretch. -/
def change (plan : Plan) (span : Span) (change : Change) : Plan :=
  { plan with changes := plan.changes ++ [(span, change)] }

/-- Adds to what is before a place. -/
def add (plan : Plan) (offset : Nat) (change : Change) : Plan :=
  plan.change ⟨offset, offset⟩ change

/-- Exports one more name. -/
def exportAs (plan : Plan) (name value : String) : Plan :=
  { plan with exports := plan.exports ++ [(name, value)] }

/-- Asks for one more module. -/
def require (plan : Plan) (specifier : String) : Plan :=
  if plan.specifiers.contains specifier then plan
  else { plan with specifiers := plan.specifiers ++ [specifier] }

/-- A name of a base that is not taken, which now it is. -/
def fresh (plan : Plan) (base : String) : String × Plan :=
  let name := FreshName.choose plan.taken base
  (name, { plan with taken := name :: plan.taken })

/-- The value that a use stands for, if it means an imported name. -/
def value? (plan : Plan) (meaning : Option Ident) : Option String :=
  meaning.bind fun id => plan.values.lookup id

/-! ### Imports -/

/-- The name that an import binds to the whole module, if there is one. -/
def wholeName? (specifiers : List ImportSpecifier) : Option String :=
  specifiers.findSome? fun specifier =>
    match specifier with
    | .wholeModule id => some id.name
    | _ => none

/-- The names that an import binds to single exports, with the exports. -/
def importedNames (specifiers : List ImportSpecifier) : List (Ident × String) :=
  specifiers.filterMap fun specifier =>
    match specifier with
    | .defaultExport id => some (id, TopLevel.defaultName)
    | .named imported id => some (id, imported.name)
    | .wholeModule _ => none

/-- Lowers an import. -/
def importFrom (analysis : Analysis) (plan : Plan) (span : Span)
    (specifiers : List ImportSpecifier) (specifier : String) : Plan :=
  let plan := plan.require specifier
  if specifiers.isEmpty then plan.change span (.statements [.require specifier])
  else
    let (holder, plan) := match wholeName? specifiers with
      | some name => (name, plan)
      | none => plan.fresh (FreshName.base specifier)
    let values := (importedNames specifiers).map fun (id, name) =>
      (analysis.declarationOf id, holder ++ memberOf name)
    { plan with values := plan.values ++ values }.change span
      (.statements [.bindRequire holder specifier])

/-- Lowers the imports among statements. -/
def importsOf (analysis : Analysis) (plan : Plan) : List TopLevel → Plan
  | [] => plan
  | .importFrom span specifiers source :: more =>
    importsOf analysis
      (importFrom analysis plan span (specifiers.getD []) source.value.toText) more
  | _ :: more => importsOf analysis plan more

/-! ### Exports -/

/-- The names bound at the top whose first declaration stands in a stretch, in the order in
    which they are written. -/
def declaredIn (analysis : Analysis) (span : Span) : List String :=
  let inside := analysis.top.reverse.filter fun id =>
    span.start ≤ id.span.start && id.span.stop ≤ span.stop
  (inside.mergeSort fun one other => one.span.start ≤ other.span.start).map (·.name)

/-- The names under which a statement exports, other than all that a module has. -/
def explicitNames (analysis : Analysis) : TopLevel → List String
  | .exportDeclaration _ declaration => declaredIn analysis declaration.span
  | .exportNames _ specifiers _ => specifiers.map (·.exported.name)
  | .exportAll _ exported _ => exported.toList.map (·.name)
  | _ => []

/-- The names that an export of all that another module has leaves out, in order: those
    which the module exports otherwise, the default export and the mark. -/
def leftOut (analysis : Analysis) (body : List TopLevel) : List String :=
  let names := TopLevel.defaultName :: "__esModule" :: body.flatMap (explicitNames analysis)
  (names.mergeSort fun one other => one ≤ other).eraseReps

/-- Lowers an export of names of another module. -/
def reExport (plan : Plan) (span : Span) (specifiers : List ExportSpecifier)
    (specifier : String) : Plan :=
  let (holder, plan) := (plan.require specifier).fresh (FreshName.base specifier)
  let getters := specifiers.map fun one =>
    Statement.getter one.exported.name (holder ++ memberOf one.source.name)
  plan.change span (.statements (.bindRequire holder specifier :: getters))

/-- Lowers an export of all that another module has, or of one object that has it. -/
def reExportAll (plan : Plan) (span : Span) (exported : Option ModuleName)
    (but : List String) (specifier : String) : Plan :=
  let (holder, plan) := (plan.require specifier).fresh (FreshName.base specifier)
  let statement := match exported with
    | some name => Statement.getter name.name holder
    | none => Statement.all holder but
  plan.change span (.statements [.bindRequire holder specifier, statement])

/-- Lowers an export of names of the module itself. -/
def exportNames (analysis : Analysis) (plan : Plan) (span : Span)
    (specifiers : List ExportSpecifier) : Plan :=
  let plan := specifiers.foldl (fun plan specifier =>
    let source : Ident := ⟨specifier.source.name, specifier.source.span⟩
    plan.exportAs specifier.exported.name
      ((plan.value? (analysis.meaningOf source)).getD source.name)) plan
  plan.change span .erased

/-- Lowers an export of a declaration: it stays as a declaration. -/
def exportDeclaration (analysis : Analysis) (plan : Plan) (span : Span) (declaration : Node) :
    Plan :=
  let plan := plan.change ⟨span.start, declaration.start⟩ .erased
  (declaredIn analysis declaration.span).foldl (fun plan name => plan.exportAs name name) plan

/-- Lowers a default export of a function or class that has a name: it stays as a
    declaration. -/
def exportNamed (plan : Plan) (span : Span) (declaration : Node) (name : String) : Plan :=
  (plan.change ⟨span.start, declaration.start⟩ .erased).exportAs TopLevel.defaultName name

/-- The base for the name of a default export. -/
def defaultBase : String := "_default"

/-- Lowers a default export of a function without a name: it gets one, so that it stays a
    declaration, which is there before the first statement runs. -/
def exportFunction (source : List Char) (plan : Plan) (span : Span) (declaration : Node)
    (paramsSpan : Span) : Plan :=
  let (name, plan) := plan.fresh defaultBase
  let before := (Text.splitBytes paramsSpan.start source).1
  let blank := !(before.getLast?.any Text.isBlank)
  exportNamed (plan.add paramsSpan.start (.functionName blank name)) span declaration name

/-- Lowers a default export of a value: it is assigned where the export stands. -/
def exportValue (source : List Char) (plan : Plan) (span : Span) (value : Node) : Plan :=
  let plan := plan.change ⟨span.start, value.start⟩ .assignDefault
  if (Text.trimEnd (Text.slice source span)).getLast? == some ';' then plan
  else plan.add span.stop .endDefault

/-- Lowers a default export. -/
def exportDefault (source : List Char) (plan : Plan) (span : Span) (value : Node) : Plan :=
  match value with
  | .func _ ⟨_, _, false⟩ (some id) _ _ _ => exportNamed plan span value id.name
  | .func _ ⟨_, _, false⟩ none paramsSpan _ _ => exportFunction source plan span value paramsSpan
  | .classDef _ _ (some id) _ _ _ => exportNamed plan span value id.name
  | _ => exportValue source plan span value

/-- Lowers the exports among statements. -/
def exportsOf (subject : Subject) (but : List String) (plan : Plan) : List TopLevel → Plan
  | [] => plan
  | statement :: more =>
    let plan := match statement with
      | .exportNames span specifiers (some source) =>
        reExport plan span specifiers source.value.toText
      | .exportNames span specifiers none => exportNames subject.analysis plan span specifiers
      | .exportDeclaration span declaration =>
        exportDeclaration subject.analysis plan span declaration
      | .exportDefault span value => exportDefault subject.source plan span value
      | .exportAll span exported source =>
        reExportAll plan span exported but source.value.toText
      | .statement _ | .importFrom .. => plan
    exportsOf subject but plan more

/-! ### Uses -/

/-- The change to a use of an imported name. -/
def useChange (source : List Char) (use : Use) (value : String) : Change :=
  match use.role with
  | .shorthand => .property (String.ofList (Text.slice source use.id.span)) value
  | .callee => .called value
  | .plain | .exported => .member value

/-- The changes to uses of imported names. -/
def usesOf (source : List Char) (plan : Plan) (found : List (Use × Option Ident)) :
    List (Span × Change) :=
  found.filterMap fun (use, meaning) =>
    (plan.value? meaning).map fun value => (use.id.span, useChange source use value)

/-! ### The whole -/

/-- The names in a module. -/
def namesIn (occurrences : List Occurrence) : List String :=
  occurrences.filterMap fun occurrence =>
    match occurrence with
    | .bind id _ => some id.name
    | .use id _ => some id.name
    | _ => none

/-- The plan before anything is changed. -/
def start (names : List String) : Plan :=
  { taken := names, specifiers := [], values := [], exports := [], changes := [] }

/-- Adds what comes before the module's own statements: after its directives, if it has
    exports. -/
def addPrologue (program : Program) (plan : Plan) : Plan :=
  if plan.exports.isEmpty then plan
  else
    plan.add ((program.directives.getLast?.map (·.span.stop)).getD 0) (.prologue plan.exports)

/-- The changes to a module. -/
def make (subject : Subject) : Plan :=
  let program := subject.program
  let plan := start (namesIn subject.occurrences)
  let plan := match program.hashbang with
    | some span => plan.change span .erased
    | none => plan
  let plan := importsOf subject.analysis plan program.body
  let plan := exportsOf subject (leftOut subject.analysis program.body) plan program.body
  let uses := usesOf subject.source plan subject.analysis.found.reverse
  addPrologue program { plan with changes := plan.changes ++ uses }

/-- The changes as edits. -/
def edits (plan : Plan) : List Edit :=
  plan.changes.map fun (span, change) => { span, text := change.text }

end Plan

end Bundler.Lowering
