import Bundler.Script.Names
import Bundler.Script.Parser.Statement

/-!
# Imports and exports

The readers of the statements by which modules import and export, which stand at the top
of a module only.
-/

namespace Bundler.Script.Parser

/-- Reads a name by which a module imports or exports. -/
def moduleName : ParserM ModuleName := do
  let token ← token
  match token.kind with
  | .string value =>
    if !value.isText then note token.span.start "A name with half of a surrogate pair"
    advance
    return ⟨value.toText, token.span, true⟩
  | _ =>
    let id ← anyName
    return ⟨id.name, id.span, false⟩

/-- Reads elements with commas between them up to a closing brace, which is taken. -/
def braced {α : Type} (element : ParserM α) : ParserM (List α) := do
  expect .braceOpen
  repeated (fun ((read, comma) : List α × Bool) => do
    if ← eat? .braceClose then return .inr read.reverse
    else
      if !read.isEmpty && !comma then unexpected
      let next ← element
      return .inl (next :: read, ← eat? .comma)) ([], false)

/-- Reads an attribute of an import, and gives its name. -/
def importAttribute : ParserM (String × Nat) := do
  let start ← here
  let name ← do
    match (← token).kind with
    | .string value =>
      advance
      pure value.toText
    | _ =>
      let id ← anyName
      pure id.name
  expect .colon
  let _ ← text
  return (name, start)

/-- Reads the attributes of an import, if it has some. -/
def importAttributes : ParserM Unit := do
  let hasAttributes ← do
    if ← eatWord? "with" then pure true
    else if ← newline? then pure false
    else eatWord? "assert"
  if hasAttributes then
    for (_, offset) in repeatedNames (← braced importAttribute) do
      note offset "An attribute given twice"

/-- Reads the text that names another module, and the end of the statement. -/
def source : ParserM Source := do
  let (span, value, _) ← text
  importAttributes
  semicolon
  return ⟨value, span⟩

/-- Whether a token writes a name that something may be called. -/
def isBindable (name : ModuleName) : Bool :=
  !name.quoted && !isReserved name.name

/-- Reads a binding that is imported by name. -/
def importSpecifier : ParserM ImportSpecifier := do
  let imported ← moduleName
  if ← eatWord? "as" then return .named imported (← ident)
  else if isBindable imported then return .named imported ⟨imported.name, imported.span⟩
  else failAt imported.span.start "A name that needs another one"

/-- Reads the object of all exports. -/
def wholeModule : ParserM ImportSpecifier := do
  expect .star
  expectWord "as"
  return .wholeModule (← ident)

/-- Reads the bindings of an import but a default one. -/
def importedBindings : ParserM (List ImportSpecifier) := do
  if ← at? .star then return [← wholeModule]
  else braced importSpecifier

/-- Goes past the phase of an import: `defer` before all exports, or `source` before a
    default one. -/
def importPhase : ParserM Unit := do
  let next ← second
  if ← atWord? "defer" then
    if next.kind == .punct .star then advance
  else if ← atWord? "source" then
    if next.name?.isSome then
      -- The name `from` may be the default binding of its own.
      let isPhase ← ahead (do
        advance
        advance
        expectWord "from")
      if isPhase.isSome then advance

/-- Reads an import. -/
def importDeclaration : ParserM TopLevel := do
  let start ← here
  if (← read).goal = .script then note start "An import in a script"
  expectWord "import"
  match (← token).kind with
  | .string _ =>
    let source ← source
    return .importFrom (← spanFrom start) none source
  | _ =>
    importPhase
    let byDefault ← do
      if (← token).name?.isSome then pure [ImportSpecifier.defaultExport (← ident)] else pure []
    let others ← do
      if byDefault.isEmpty then importedBindings
      else if ← eat? .comma then importedBindings
      else pure []
    expectWord "from"
    let source ← source
    return .importFrom (← spanFrom start) (some (byDefault ++ others)) source

/-- Reads a name that is exported, and the name for others. -/
def exportSpecifier : ParserM ExportSpecifier := do
  let source ← moduleName
  if ← eatWord? "as" then return ⟨source, ← moduleName⟩
  else return ⟨source, source⟩

/-- Reads an export of bindings, of this module or of another one. -/
def exportList (start : Nat) : ParserM TopLevel := do
  let specifiers ← braced exportSpecifier
  if ← eatWord? "from" then
    let source ← source
    return .exportNames (← spanFrom start) specifiers (some source)
  else
    for specifier in specifiers do
      if !isBindable specifier.source then
        note specifier.source.span.start "An export of what is no binding"
    semicolon
    return .exportNames (← spanFrom start) specifiers none

/-- Reads an export of all that another module exports. -/
def exportAll (start : Nat) : ParserM TopLevel := do
  expect .star
  let exported ← do
    if ← eatWord? "as" then pure (some (← moduleName)) else pure none
  expectWord "from"
  let source ← source
  return .exportAll (← spanFrom start) exported source

/-- Reads the decorators of what is exported. They may stand before the word `export` or after
    it, but not on both sides. -/
def exportDecorators (reader : Reader) (given : List Node) : ParserM (List Node) := do
  let start ← here
  let decorators ← decorators reader
  if !given.isEmpty && !decorators.isEmpty then note start "Decorators before and after an export"
  return given ++ decorators

/-- Checks that nothing but a class has decorators. -/
def undecorated (decorators : List Node) : ParserM Unit := do
  if !decorators.isEmpty then unexpected

/-- Reads what is exported by default. -/
def exportDefault (reader : Reader) (start : Nat) (given : List Node) : ParserM TopLevel := do
  expectWord "default"
  let decorators ← exportDecorators reader given
  let valueStart ← here
  if ← atWord? "class" then
    let value ← classRest reader valueStart decorators false
    return .exportDefault (← spanFrom start) value
  undecorated decorators
  if ← atWord? "function" then
    let value ← function reader valueStart false true false
    return .exportDefault (← spanFrom start) value
  else if ← atAsyncFunction? then
    advance
    let value ← function reader valueStart true true false
    return .exportDefault (← spanFrom start) value
  else
    let value ← reader .assignment
    semicolon
    return .exportDefault (← spanFrom start) value

/-- Reads a declaration that is exported. -/
def exportedDeclaration (reader : Reader) (given : List Node) : ParserM Node := do
  let decorators ← exportDecorators reader given
  let start ← here
  if ← atWord? "class" then return ← classRest reader start decorators true
  undecorated decorators
  if ← atWord? "function" then functionDeclaration reader false
  else if ← atAsyncFunction? then functionDeclaration reader false
  else
    match ← varKind? false false with
    | some kind => varDeclaration reader start kind false
    | none => unexpected

/-- Reads an export, after its decorators if it has some. -/
def exportDeclaration (reader : Reader) (given : List Node) : ParserM TopLevel := do
  let start ← here
  if (← read).goal = .script then note start "An export in a script"
  expectWord "export"
  match (← token).kind with
  | .punct .braceOpen =>
    undecorated given
    exportList start
  | .punct .star =>
    undecorated given
    exportAll start
  | .name "default" false => exportDefault reader start given
  | _ =>
    let declaration ← exportedDeclaration reader given
    return .exportDeclaration (← spanFrom start) declaration

/-- Reads a statement at the top. -/
def topLevel (reader : Reader) : ParserM TopLevel := do
  let token ← token
  if token.isWord "export" then exportDeclaration reader []
  else if token.isWord "import" && !(← atImportExpression?) then importDeclaration
  else if token.kind == .punct .atSign then
    let decorators ← decorators reader
    if ← atWord? "export" then exportDeclaration reader decorators
    else return .statement (← classRest reader (← here) decorators true)
  else return .statement (← reader (.statement false))

/-- Reads statements at the top up to the end. -/
def topLevels (reader : Reader) : ParserM (List TopLevel) :=
  repeated (fun read => do
    if (← kind) == .eof then return .inr read.reverse
    else return .inl ((← topLevel reader) :: read)) []

end Bundler.Script.Parser
