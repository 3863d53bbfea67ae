import Bundler.Script.Parser.Expression

/-!
# Statements

The readers of statements and declarations. What only strict code forbids, and what
depends on the statements around, is left to the rules about a whole script.
-/

namespace Bundler.Script.Parser

/-- Reads an expression between parentheses. -/
def condition (reader : Reader) : ParserM Node := do
  expect .parenOpen
  let value ← withIn (expression reader)
  expect .parenClose
  return value

/-- Reads a block. -/
def block (reader : Reader) : ParserM Node := do
  let start ← here
  expect .braceOpen
  let statements ← statementsToBrace reader
  return .block (← spanFrom start) statements

/-- Whether a statement ends at the token. -/
def atEnd? : ParserM Bool := return (← at? .semicolon) || (← mayEnd?)

/-! ### Declarations of variables -/

/-- Checks that a variable that needs a first value has one. -/
def checkValue (kind : VarKind) : Node → ParserM Unit
  | .declarator _ target none =>
    match kind, target with
    | .constant, .name id | .resource, .name id | .awaitedResource, .name id =>
      note id.span.stop "A missing value"
    | _, .name _ => return
    | _, _ => note target.start "A missing value"
  | _ => return

/-- Reads variables from the first name on. In the head of a loop the statement goes on, and
    a first value may be missing. -/
def varDeclaration (reader : Reader) (start : Nat) (kind : VarKind) (inHead : Bool) :
    ParserM Node := do
  let declarators ← repeated (fun read => do
    let start ← here
    let target ← reader .binding
    let value ← do
      if ← eat? .assign then pure (some (← reader .assignment)) else pure none
    let declarator := Node.declarator (← spanFrom start) target value
    if !inHead then checkValue kind declarator
    if ← eat? .comma then return .inl (declarator :: read)
    else return .inr (declarator :: read).reverse) []
  if !inHead then semicolon
  return .varDeclaration (← spanFrom start) kind declarators

/-- Whether the word `let` at the token starts a declaration: a name or a pattern follows. -/
def atLet? (alone : Bool) : ParserM Bool := do
  if !(← atWord? "let") then return false
  let next ← second
  match next.kind with
  | .punct .bracketOpen => return true
  | .punct .braceOpen => return !(alone && next.newline)
  | .name word _ => return word != "in" && word != "instanceof" && !(alone && next.newline)
  | _ => return false

/-- Whether a declaration of a resource starts at the token: on its line a name follows, in
    the head of a loop another one than `of`. -/
def atUsing? (inHead : Bool) : ParserM Bool := do
  if !(← atWord? "using") then return false
  let next ← second
  return !next.newline && next.name?.isSome && !(inHead && next.isWord "of")

/-- Whether a declaration of a resource that is waited for starts at the token. -/
def atAwaitUsing? (inHead : Bool) : ParserM Bool := do
  if !(← atWord? "await") || !(← read).awaits then return false
  let next ← second
  if next.newline || !next.isWord "using" then return false
  let found ← ahead (do
    advance
    if !(← atUsing? inHead) then unexpected)
  return found.isSome

/-- The kind of the declaration of variables that starts at the token, whose words are
    taken. -/
def varKind? (alone inHead : Bool) : ParserM (Option VarKind) := do
  if ← eatWord? "var" then return some .var
  else if ← eatWord? "const" then return some .constant
  else if ← atLet? alone then
    advance
    return some .lexical
  else if ← atUsing? inHead then
    advance
    return some .resource
  else if ← atAwaitUsing? inHead then
    advance
    advance
    return some .awaitedResource
  else return none

/-! ### Loops -/

/-- Reads the head of a loop up to what tells what kind of loop it is. -/
def forHead (reader : Reader) : ParserM (Option Node) := do
  if (← at? .semicolon) || (← at? .parenClose) then return none
  let start ← here
  within (fun context => { context with allowIn := false }) do
    match ← varKind? false true with
    | some kind => return some (← varDeclaration reader start kind true)
    | none => return some (← expression reader)

/-- Checks variables in the head of a loop over an object: there is one, and it has no first
    value. A single name declared with `var` may have one in a loop over names. -/
def checkLoopVariables (start : Nat) (isOf : Bool) (kind : VarKind) (declarators : List Node) :
    ParserM Unit := do
  match declarators with
  | [.declarator _ _ none] =>
    if !isOf && (kind == .resource || kind == .awaitedResource) then
      note start "A resource in a loop over names"
  | [.declarator _ (.name _) (some _)] =>
    if isOf || kind != .var then note start "A first value in a loop over an object"
  | [_] => note start "A first value in a loop over an object"
  | _ => note start "Several variables in a loop over an object"

/-- Takes the head of a loop for what gets each element. -/
def loopTarget (isOf isAwait : Bool) (first : Token) (head : Node) : ParserM Node := do
  match head with
  | .varDeclaration span kind declarators =>
    checkLoopVariables span.start isOf kind declarators
    return head
  | _ =>
    if isOf && first.isWord "let" then note first.span.start "The word let before of"
    if let .name id := head then
      if isOf && !isAwait && first.isWord "async" then note id.span.start "The word async before of"
    reinterpret false head

/-- Reads a loop that starts with the word `for`. -/
def forStatement (reader : Reader) : ParserM Node := do
  let start ← here
  expectWord "for"
  let awaitToken ← token
  let isAwait ← eatWord? "await"
  if isAwait && !(← read).awaits then note awaitToken.span.start "A value waited for"
  expect .parenOpen
  let first ← token
  let head ← forHead reader
  match head with
  | some target =>
    if ← eatWord? "of" then
      let target ← loopTarget true isAwait first target
      let value ← reader .assignment
      expect .parenClose
      let body ← reader (.statement true)
      return .forOf (← spanFrom start) isAwait target value body
    let overNames ← if isAwait then pure false else eatWord? "in"
    if overNames then
      let target ← loopTarget false isAwait first target
      let value ← expression reader
      expect .parenClose
      let body ← reader (.statement true)
      return .forIn (← spanFrom start) target value body
  | none => pure ()
  if isAwait then note start "A loop that waits, but not over values"
  expect .semicolon
  if let some (.varDeclaration _ kind declarators) := head then
    for declarator in declarators do checkValue kind declarator
  let test ← do
    if ← at? .semicolon then pure none else pure (some (← expression reader))
  expect .semicolon
  let update ← do
    if ← at? .parenClose then pure none else pure (some (← expression reader))
  expect .parenClose
  let body ← reader (.statement true)
  return .forLoop (← spanFrom start) head test update body

/-! ### Statements by their first word -/

/-- Reads a choice. -/
def ifStatement (reader : Reader) : ParserM Node := do
  let start ← here
  expectWord "if"
  let test ← condition reader
  let yes ← reader (.statement true)
  let no ← do
    if ← eatWord? "else" then pure (some (← reader (.statement true))) else pure none
  return .ifElse (← spanFrom start) test yes no

/-- Reads a loop with its test after its body. No semicolon is needed after it. -/
def doStatement (reader : Reader) : ParserM Node := do
  let start ← here
  expectWord "do"
  let body ← reader (.statement true)
  expectWord "while"
  let test ← condition reader
  let _ ← eat? .semicolon
  return .doWhile (← spanFrom start) body test

/-- Reads a loop with its test before its body. -/
def whileStatement (reader : Reader) : ParserM Node := do
  let start ← here
  expectWord "while"
  let test ← condition reader
  let body ← reader (.statement true)
  return .whileLoop (← spanFrom start) test body

/-- Reads the label after the word `break` or `continue`, if there is one. -/
def labelReference (word : String) : ParserM (Option Ident) := do
  expectWord word
  let label ← do
    if ← atEnd? then pure none else pure (some (← ident))
  semicolon
  return label

/-- Reads the end of a function. -/
def returnStatement (reader : Reader) : ParserM Node := do
  let start ← here
  if !(← read).returns then note start "A return outside of a function"
  expectWord "return"
  let value ← do
    if ← atEnd? then pure none else pure (some (← expression reader))
  semicolon
  return .returnValue (← spanFrom start) value

/-- Reads an error that is raised. -/
def throwStatement (reader : Reader) : ParserM Node := do
  let start ← here
  expectWord "throw"
  if ← newline? then failAt start "A line end after throw"
  let value ← expression reader
  semicolon
  return .throwValue (← spanFrom start) value

/-- Reads a case of a choice. -/
def switchCase (reader : Reader) : ParserM Node := do
  let start ← here
  let test ← do
    if ← eatWord? "default" then pure none
    else
      expectWord "case"
      pure (some (← expression reader))
  expect .colon
  let statements ← repeated (fun read => do
    if (← at? .braceClose) || (← atWord? "case") || (← atWord? "default") then
      return .inr read.reverse
    else return .inl ((← reader (.statement false)) :: read)) []
  return .case (← spanFrom start) test statements

/-- Reads a choice among cases. -/
def switchStatement (reader : Reader) : ParserM Node := do
  let start ← here
  expectWord "switch"
  let value ← condition reader
  expect .braceOpen
  let cases ← repeated (fun read => do
    if ← eat? .braceClose then return .inr read.reverse
    else return .inl ((← switchCase reader) :: read)) []
  return .switchOn (← spanFrom start) value cases

/-- Reads what is done about an error. -/
def catchClause (reader : Reader) : ParserM Node := do
  let start ← here
  expectWord "catch"
  let param ← do
    if ← eat? .parenOpen then
      let param ← reader .binding
      expect .parenClose
      pure (some param)
    else pure none
  let block ← block reader
  return .handler (← spanFrom start) param block

/-- Reads statements with what is done about an error, or in any case. -/
def tryStatement (reader : Reader) : ParserM Node := do
  let start ← here
  expectWord "try"
  let body ← block reader
  let handler ← do
    if ← atWord? "catch" then pure (some (← catchClause reader)) else pure none
  let finalizer ← do
    if ← eatWord? "finally" then pure (some (← block reader)) else pure none
  if handler.isNone && finalizer.isNone then note (← stopped) "A try without catch and finally"
  return .tryCatch (← spanFrom start) body handler finalizer

/-- Reads a statement with an object's properties in scope. -/
def withStatement (reader : Reader) : ParserM Node := do
  let start ← here
  expectWord "with"
  let object ← condition reader
  let body ← reader (.statement true)
  return .withObject (← spanFrom start) object body

/-- Reads a statement that is an expression, or that has a label. -/
def expressionStatement (reader : Reader) : ParserM Node := do
  let start ← here
  let value ← expression reader
  match value with
  | .name id =>
    if ← eat? .colon then
      let body ← reader (.statement true)
      return .labeled (← spanFrom start) id body
    else
      semicolon
      return .expression (← spanFrom start) value
  | _ =>
    semicolon
    return .expression (← spanFrom start) value

/-- Reads a declaration of a function. Where no declaration may stand, a plain function may
    be one, if the code is not strict. -/
def functionDeclaration (reader : Reader) (alone : Bool) : ParserM Node := do
  let start ← here
  let isAsync ← eatWord? "async"
  let declared ← function reader start isAsync true true
  if let .func _ shape _ _ _ _ := declared then
    if alone && (shape.isAsync || shape.isGenerator) then
      note start "A declaration in place of a statement"
  return declared

/-- Whether the word `import` at the token starts an expression. -/
def atImportExpression? : ParserM Bool := do
  let next ← second
  return next.kind == .punct .parenOpen || next.kind == .punct .dot

/-- Reads a statement that starts with a word. -/
def wordStatement (reader : Reader) (alone : Bool) (start : Nat) (word : String) :
    ParserM Node := do
  match word with
  | "if" => ifStatement reader
  | "for" => forStatement reader
  | "while" => whileStatement reader
  | "do" => doStatement reader
  | "continue" =>
    let label ← labelReference word
    return .continueTo (← spanFrom start) label
  | "break" =>
    let label ← labelReference word
    return .breakOut (← spanFrom start) label
  | "return" => returnStatement reader
  | "throw" => throwStatement reader
  | "switch" => switchStatement reader
  | "try" => tryStatement reader
  | "with" => withStatement reader
  | "debugger" =>
    advance
    semicolon
    return .debugger (← spanFrom start)
  | "function" => functionDeclaration reader alone
  | "class" =>
    if alone then note start "A declaration in place of a statement"
    classRest reader start [] true
  | "export" => failAt start "An export that is not at the top"
  | "import" =>
    if ← atImportExpression? then expressionStatement reader
    else failAt start "An import that is not at the top"
  | _ =>
    if ← atAsyncFunction? then functionDeclaration reader alone
    else
      match ← varKind? alone false with
      | some kind =>
        if alone && kind != .var then note start "A declaration in place of a statement"
        varDeclaration reader start kind false
      | none => expressionStatement reader

/-- Reads a statement; where it stands alone, it may be no declaration. -/
def statement (reader : Reader) (alone : Bool) : ParserM Node := do
  let token ← token
  let start := token.span.start
  match token.kind with
  | .punct .braceOpen => block reader
  | .punct .semicolon =>
    advance
    return .empty token.span
  | .punct .atSign =>
    let decorators ← decorators reader
    if alone then note start "A declaration in place of a statement"
    classRest reader (← here) decorators true
  | .name word false => wordStatement reader alone start word
  | _ => expressionStatement reader

end Bundler.Script.Parser
