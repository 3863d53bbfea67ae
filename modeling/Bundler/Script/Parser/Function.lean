import Bundler.Script.Parser.Pattern

/-!
# Functions and classes

The readers of functions, of their bodies with the directives at the start, of methods,
and of classes.
-/

namespace Bundler.Script.Parser

/-! ### Bodies -/

/-- Reads statements up to a closing brace, which is taken. -/
def statementsToBrace (reader : Reader) : ParserM (List Node) :=
  repeated (fun read => do
    if ← eat? .braceClose then return .inr read.reverse
    else return .inl ((← reader (.statement false)) :: read)) []

/-- The directive that a statement is: a string alone, without parentheses. -/
def directive? : Node → Option Directive
  | .expression span (.literal literal (.string _ written)) =>
    some { span, literal, inside := (written.drop 1).dropLast }
  | _ => none

/-- The directives at the start of statements, and the other statements. -/
def splitDirectives : List Node → List Directive × List Node
  | [] => ([], [])
  | node :: more =>
    match directive? node with
    | some directive =>
      let (directives, statements) := splitDirectives more
      (directive :: directives, statements)
    | none => ([], node :: more)

/-- Reads the body of a function. -/
def functionBody (reader : Reader) : ParserM Node := do
  let start ← here
  expect .braceOpen
  let (directives, statements) := splitDirectives (← statementsToBrace reader)
  return .body (← spanFrom start) directives statements

/-! ### Functions -/

/-- The context in a function. -/
def inFunction (shape : FunctionShape) (context : Context) : Context :=
  { context with
    allowIn := true
    yields := shape.isGenerator
    awaits := shape.isAsync
    returns := true }

/-- Reads a function from its parameters on. -/
def functionRest (reader : Reader) (start : Nat) (shape : FunctionShape) (id : Option Ident) :
    ParserM Node :=
  within (inFunction shape) do
    let (paramsSpan, params) ← params reader
    let body ← functionBody reader
    return .func (← spanFrom start) shape id paramsSpan params body

/-- Reads a function from the word `function` on. What a declaration is called is a name of
    the context around it, what an expression is called is a name of its own. -/
def function (reader : Reader) (start : Nat) (isAsync declares nameNeeded : Bool) :
    ParserM Node := do
  expectWord "function"
  let shape : FunctionShape := ⟨isAsync, ← eat? .star, false⟩
  let id ←
    if (← token).name?.isSome then
      let name ← within (fun context => if declares then context else inFunction shape context) ident
      pure (some name)
    else if nameNeeded then unexpected
    else pure none
  functionRest reader start shape id

/-- Whether a function that may wait starts at the token. -/
def atAsyncFunction? : ParserM Bool := do
  if ← atWord? "async" then
    let next ← second
    return next.isWord "function" && !next.newline
  else return false

/-! ### Methods -/

/-- Whether a key may start with a token. -/
def startsKey : TokenKind → Bool
  | .name .. | .privateName _ | .number | .bigint | .string _ | .punct .bracketOpen => true
  | _ => false

/-- What stands before the key of a method. -/
structure MethodMarks where
  /-- Whether the method may wait. -/
  isAsync : Bool
  /-- Whether the method hands out values. -/
  isGenerator : Bool
  /-- What the method is. -/
  kind : MethodKind

/-- Whether nothing stands before the key, which then may be a field's. -/
def MethodMarks.isBare (marks : MethodMarks) : Bool :=
  !marks.isAsync && !marks.isGenerator && marks.kind == .method

/-- Whether the token is a word that marks the member whose key follows. -/
def atMark? (word : String) (follows : Token → Bool) : ParserM Bool := do
  if ← atWord? word then return follows (← second) else return false

/-- Reads what stands before the key of a method. -/
def methodMarks : ParserM MethodMarks := do
  if ← atMark? "async" (fun next =>
      !next.newline && (startsKey next.kind || next.kind == .punct .star)) then
    advance
    return ⟨true, ← eat? .star, .method⟩
  else if ← atMark? "get" (fun next => startsKey next.kind) then
    advance
    return ⟨false, false, .getter⟩
  else if ← atMark? "set" (fun next => startsKey next.kind) then
    advance
    return ⟨false, false, .setter⟩
  else return ⟨false, ← eat? .star, .method⟩

/-- Checks how many parameters an accessor has: none where it gives a value, one where it
    takes one. -/
def checkAccessor (kind : MethodKind) (value : Node) : ParserM Unit := do
  match kind, value with
  | .getter, .func _ _ _ span (_ :: _) _ => note span.start "A getter with parameters"
  | .setter, .func _ _ _ span params _ =>
    match params with
    | [.rest span _] => note span.start "A setter that takes all values left"
    | [_] => return
    | _ => note span.start "A setter without a single parameter"
  | _, _ => return

/-- Reads a method from its parameters on. -/
def methodValue (reader : Reader) (marks : MethodMarks) : ParserM Node := do
  let value ← functionRest reader (← here) ⟨marks.isAsync, marks.isGenerator, false⟩ none
  checkAccessor marks.kind value
  return value

/-! ### Classes -/

/-- Reads the decorators before a class or an element of it. -/
def decorators (reader : Reader) : ParserM (List Node) :=
  repeated (fun read => do
    if ← eat? .atSign then return .inl ((← reader (.operand false)) :: read)
    else return .inr read.reverse) []

/-- Reads the key of an element of a class. -/
def elementKey (reader : Reader) : ParserM Node := do
  let token ← token
  match token.kind with
  | .privateName name =>
    if name == "constructor" then note token.span.start "A private name that is not allowed"
    advance
    return .privateName ⟨name, token.span⟩
  | _ => key reader

/-- The name that a key writes out. -/
def keyText? : Node → Option String
  | .keyName id => some id.name
  | .literal _ (.string value _) => some (StringValue.toText value)
  | _ => none

/-- What a method of a class is: one named `constructor` makes the objects. -/
def elementKind (isStatic : Bool) (marks : MethodMarks) (key : Node) : ParserM MethodKind := do
  let name := keyText? key
  if isStatic then
    if name == some "prototype" then note key.start "A static method named prototype"
    return marks.kind
  else if name == some "constructor" then
    if !marks.isBare then note key.start "A constructor of another kind"
    return .maker
  else return marks.kind

/-- Checks the name of a field. -/
def checkField (isStatic : Bool) (key : Node) : ParserM Unit := do
  let name := keyText? key
  if name == some "constructor" || (isStatic && name == some "prototype") then
    note key.start "A field with a name that is not allowed"

/-- The context in the value of a field. -/
def inField (context : Context) : Context :=
  { context with allowIn := true, yields := false, awaits := false, returns := false }

/-- Reads an element of a class. -/
def classElement (reader : Reader) : ParserM Node := do
  let decoratorsStart ← here
  let decorators ← decorators reader
  let start ← here
  let isStatic ← atMark? "static" fun next =>
    startsKey next.kind || next.kind == .punct .star || next.kind == .punct .braceOpen
  if isStatic then advance
  let isBlock ← if isStatic then eat? .braceOpen else pure false
  if isBlock then
    if !decorators.isEmpty then note decoratorsStart "Decorators of statements"
    let statements ← within (fun context => { inField context with awaits := true })
      (statementsToBrace reader)
    return .staticBlock (← spanFrom start) statements
  let isAccessor ← atMark? "accessor" fun next => startsKey next.kind && !next.newline
  if isAccessor then advance
  let marks ← if isAccessor then pure ⟨false, false, .method⟩ else methodMarks
  let key ← elementKey reader
  if !isAccessor && (← at? .parenOpen) then
    let kind ← elementKind isStatic marks key
    let value ← methodValue reader marks
    return .method (← spanFrom start) decorators isStatic kind key value
  else if marks.isBare then
    checkField isStatic key
    let value ←
      if ← eat? .assign then
        let value ← within inField (reader .assignment)
        pure (some value)
      else pure none
    semicolon
    return .field (← spanFrom start) decorators isStatic isAccessor key value
  else unexpected

/-- Reads a class from the word `class` on. -/
def classRest (reader : Reader) (start : Nat) (decorators : List Node) (nameNeeded : Bool) :
    ParserM Node := do
  expectWord "class"
  let id ←
    if (← token).name?.isSome && !(← atWord? "implements") then
      let name ← ident
      pure (some name)
    else if nameNeeded then unexpected
    else pure none
  let parent ←
    if ← eatWord? "extends" then
      let parent ← reader (.operand true)
      pure (some parent)
    else pure none
  let bodyStart ← here
  expect .braceOpen
  let elements ← repeated (fun read => do
    if ← eat? .braceClose then return .inr read.reverse
    else if ← eat? .semicolon then return .inl read
    else return .inl ((← classElement reader) :: read)) []
  return .classDef (← spanFrom start) decorators id parent (← spanFrom bodyStart) elements

end Bundler.Script.Parser
