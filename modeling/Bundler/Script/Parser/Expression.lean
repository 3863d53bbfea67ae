import Bundler.Script.Operator
import Bundler.Script.Parser.Function

/-!
# Expressions

The readers of expressions, from literals to assignments. What stands between
parentheses may turn out to be the parameters of an arrow function, and what stands left
of an assignment may turn out to be a pattern: both are read as expressions first.
-/

namespace Bundler.Script.Parser

/-- Reads an expression, commas included. -/
def expression (reader : Reader) : ParserM Node := do
  let start ← here
  let first ← reader .assignment
  if !(← at? .comma) then return first
  let items ← repeated (fun items => do
    if ← eat? .comma then return .inl ((← reader .assignment) :: items)
    else return .inr items.reverse) [first]
  return .sequence (← spanFrom start) items

/-- Reads an element of an array or an argument: a value, or all elements of one. -/
def element (reader : Reader) : ParserM Node := do
  let start ← here
  if ← eat? .ellipsis then
    let value ← reader .assignment
    return .spread (← spanFrom start) value
  else reader .assignment

/-- Notes that a comma stands after the last of some elements. -/
def noteComma (start : Nat) (comma : Bool) : ParserM Unit := do
  if comma then modify fun state => { state with commas := start :: state.commas }

/-! ### Literals -/

/-- Reads a slash again, as the start of a regular expression. -/
def regex : ParserM Node := do
  modify fun state =>
    let (token, lexer) := state.lexer.asRegex state.token
    { state with token, lexer }
  let token ← token
  match token.kind with
  | .regex flags =>
    advance
    let written := token.written
    let body := (written.drop 1).take (written.length - flags - 2)
    return .literal token.span (.regex body (written.drop (written.length - flags)))
  | _ => unexpected

/-- Reads the closing brace again, as the start of the next part of a template. -/
def templateAgain : ParserM Unit := do
  if !(← at? .braceClose) then unexpected
  modify fun state =>
    let (token, lexer) := state.lexer.asTemplate state.token
    { state with token, lexer }

/-- Reads a template: the texts as they are written, and the expressions between them. Where
    a function makes a value of it, its escapes may be malformed. -/
def template (reader : Reader) (isTagged : Bool) : ParserM (List (List Char) × List Node) :=
  repeated (fun (parts, values) => do
    let token ← token
    match token.kind with
    | .template _ isLast valid =>
      if !valid && !isTagged then note token.span.start "A malformed escape in a template"
      advance
      let written := token.written.drop 1
      if isLast then return .inr ((written.dropLast :: parts).reverse, values.reverse)
      else
        let value ← withIn (expression reader)
        templateAgain
        return .inl (written.dropLast.dropLast :: parts, value :: values)
    | _ => unexpected) ([], [])

/-- Reads an array. -/
def arrayLiteral (reader : Reader) : ParserM Node := do
  let start ← here
  expect .bracketOpen
  let (items, comma) ← withIn (commaList .bracketClose (do
    if ← at? .comma then return .hole (← here) else element reader))
  noteComma start comma
  return .array (← spanFrom start) items

/-- Reads a member of an object. -/
def objectMember (reader : Reader) : ParserM Node := do
  let start ← here
  if ← at? .ellipsis then return ← element reader
  let marks ← methodMarks
  let named ← token
  let key ← key reader
  if ← at? .parenOpen then
    let value ← methodValue reader marks
    return .method (← spanFrom start) [] false marks.kind key value
  else if !marks.isBare then unexpected
  else if ← eat? .colon then
    let value ← reader .assignment
    return .property (← spanFrom start) key value false
  else
    match key, named.name? with
    | .keyName id, some name =>
      if !(← mayName? name) then note start "A reserved word as a name"
      if ← eat? .assign then
        let value ← reader .assignment
        modify fun state => { state with covers := start :: state.covers }
        return .withDefault (← spanFrom start) (.name id) value
      else return .property id.span key (.name id) true
    | _, _ => unexpected

/-- Reads an object. -/
def objectLiteral (reader : Reader) : ParserM Node := do
  let start ← here
  expect .braceOpen
  let (members, comma) ← withIn (commaList .braceClose (objectMember reader))
  noteComma start comma
  return .object (← spanFrom start) members

/-! ### Primary expressions -/

/-- Whether a node stands for all elements of a value. -/
def isSpread : Node → Bool
  | .spread .. => true
  | _ => false

/-- Reads what stands between parentheses. No expression at all, a comma after the last one,
    and all elements of a value may stand there only before an arrow. -/
def parenthesized (reader : Reader) : ParserM Node := do
  let start ← here
  expect .parenOpen
  let innerStart ← here
  let (items, comma) ← withIn (commaList .parenClose (element reader))
  let span ← spanFrom start
  noteComma start comma
  if items.isEmpty || comma || items.any isSpread then
    if !(← at? .arrow) then
      if comma then failAt (span.stop - 1) "A comma before a closing parenthesis" else unexpected
    else return .paren span (.sequence span items)
  else
    match items with
    | [item] => return .paren span item
    | _ => return .paren span (.sequence ⟨innerStart, (items.getLast?.map (·.span.stop)).getD 0⟩ items)

/-- Reads a name as a reference. -/
def reference : ParserM Node := return .name (← ident)

/-- Reads arguments between parentheses. -/
def arguments (reader : Reader) : ParserM (List Node × Bool) := do
  expect .parenOpen
  withIn (commaList .parenClose (element reader))

/-- Checks the arguments by which a module is asked for: one or two, none of them with all
    elements of a value. -/
def checkImportArguments (start : Nat) (arguments : List Node) : ParserM Unit := do
  if arguments.isEmpty || 2 < arguments.length || arguments.any isSpread then
    note start "Arguments of an import"

/-- Reads what starts with the word `import`. -/
def importExpression (reader : Reader) : ParserM Node := do
  let start ← here
  expectWord "import"
  if ← eat? .dot then
    if ← eatWord? "meta" then
      if (← read).goal = .script then note start "A module's own data in a script"
      return .metaProperty (← spanFrom start) "import" "meta"
    for phase in ["source", "defer"] do
      if ← eatWord? phase then
        let (arguments, _) ← arguments reader
        checkImportArguments start arguments
        return .importCall (← spanFrom start) (some phase) arguments
    failAt start "An unknown property of import"
  else
    let (arguments, _) ← arguments reader
    checkImportArguments start arguments
    return .importCall (← spanFrom start) none arguments

/-- Reads what starts with the word `new`. -/
def making (reader : Reader) : ParserM Node := do
  let start ← here
  expectWord "new"
  if ← eat? .dot then
    if ← eatWord? "target" then return .metaProperty (← spanFrom start) "new" "target"
    else failAt start "An unknown property of new"
  else
    let callee ← reader .made
    if let .importCall span _ _ := callee then note span.start "An import that is made"
    let arguments ← do
      if ← at? .parenOpen then pure (← arguments reader).1 else pure []
    return .make (← spanFrom start) callee arguments false

/-- Reads the word `super`, after which a property or arguments stand. -/
def superReference : ParserM Node := do
  let token ← token
  expectWord "super"
  if !(← at? .dot) && !(← at? .bracketOpen) && !(← at? .parenOpen) then
    note token.span.start "The word super alone"
  return .superRef token.span

/-- Reads a literal that is the token. -/
def literalToken (value : Literal) : ParserM Node := do
  let span := (← token).span
  advance
  return .literal span value

/-- Reads an expression that starts with a word. -/
def wordExpression (reader : Reader) (word : String) : ParserM Node := do
  let start ← here
  match word with
  | "this" =>
    let span := (← token).span
    advance
    return .self span
  | "null" => literalToken .nothing
  | "true" => literalToken (.bool true)
  | "false" => literalToken (.bool false)
  | "super" => superReference
  | "new" => making reader
  | "import" => importExpression reader
  | "function" => function reader start false false false
  | "class" => classRest reader start [] false
  | "async" =>
    if ← atAsyncFunction? then
      advance
      function reader start true false false
    else reference
  | _ => reference

/-- Reads an expression without operators, properties and calls. -/
def primary (reader : Reader) : ParserM Node := do
  let token ← token
  match token.kind with
  | .number => literalToken (.number token.written)
  | .bigint => literalToken (.bigint token.written)
  | .string value => literalToken (.string value token.written)
  | .template true _ _ =>
    let (parts, values) ← template reader false
    return .template (← spanFrom token.span.start) parts values
  | .punct .parenOpen => parenthesized reader
  | .punct .bracketOpen => arrayLiteral reader
  | .punct .braceOpen => objectLiteral reader
  | .punct .slash | .punct .slashAssign => regex
  | .punct .atSign => do
    let decorators ← decorators reader
    classRest reader token.span.start decorators false
  | .name word false => wordExpression reader word
  | .name _ true => reference
  | _ => unexpected

/-! ### Properties and calls -/

/-- Reads the name of a property after a dot. -/
def propertyName : ParserM Node := do
  let token ← token
  match token.kind with
  | .privateName name =>
    advance
    return .privateName ⟨name, token.span⟩
  | _ => return .keyName (← anyName)

/-- Checks who has a property: a private one belongs to an object of a class itself. -/
def checkPrivate (owner property : Node) : ParserM Unit :=
  match owner, property with
  | .superRef _, .privateName id => note id.span.start "A private name after the word super"
  | _, _ => return

/-- Reads the value of an expression in brackets. -/
def bracketed (reader : Reader) : ParserM Node := do
  expect .bracketOpen
  let value ← withIn (expression reader)
  expect .bracketClose
  return value

/-- Reads what follows the mark of an optional chain. -/
def optionalSuffix (reader : Reader) (start : Nat) (value : Node) : ParserM Node := do
  let token ← token
  match token.kind with
  | .punct .parenOpen =>
    let (arguments, _) ← arguments reader
    return .call (← spanFrom start) value arguments true false
  | .punct .bracketOpen =>
    let property ← bracketed reader
    return .index (← spanFrom start) value property true
  | .template .. => failAt token.span.start "A template in an optional chain"
  | _ =>
    let property ← propertyName
    return .member (← spanFrom start) value property true

/-- Reads the properties, calls and templates after a value. Calls, and optional
    chains, may be left to what follows, and so may brackets. -/
def suffixes (reader : Reader) (calls brackets : Bool) (start : Nat) (value : Node) :
    ParserM Node :=
  repeated (fun ((value, inChain) : Node × Bool) => do
    let token ← token
    let done : ParserM ((Node × Bool) ⊕ Node) := do
      if inChain then return .inr (.chain (← spanFrom start) value) else return .inr value
    match token.kind with
    | .punct .dot =>
      advance
      let property ← propertyName
      checkPrivate value property
      return .inl (.member (← spanFrom start) value property false, inChain)
    | .punct .bracketOpen =>
      if !brackets then done
      else
        let property ← bracketed reader
        return .inl (.index (← spanFrom start) value property false, inChain)
    | .punct .parenOpen =>
      if !calls then done
      else
        let (arguments, comma) ← arguments reader
        if let .name _ := value then noteComma start comma
        return .inl (.call (← spanFrom start) value arguments false false, inChain)
    | .punct .questionDot =>
      if !calls then note start "An optional chain that is made"
      advance
      let value ← optionalSuffix reader start value
      return .inl (value, true)
    | .template true _ _ =>
      if inChain then note token.span.start "A template in an optional chain"
      let (parts, values) ← template reader true
      return .inl (.tagged (← spanFrom start) value parts values, inChain)
    | _ => done) (value, false)

/-- Reads a value with the properties and calls after it. -/
def operand (reader : Reader) (brackets : Bool) : ParserM Node := do
  let start ← here
  let value ← primary reader
  suffixes reader true brackets start value

/-- Reads what follows the word `new`: a value with properties, whose first arguments belong
    to that word. -/
def made (reader : Reader) : ParserM Node := do
  let start ← here
  let value ← primary reader
  suffixes reader false true start value

/-! ### Operators -/

/-- Takes an expression for the target of an update or of an assignment with an operator. -/
def simpleTarget (node : Node) : ParserM Node := do
  if Pattern.isSimple node.bare then return node.bare
  else failAt node.start "No target of an assignment"

/-- Reads an expression that may have an operator after it. -/
def postfixed (reader : Reader) : ParserM Node := do
  let start ← here
  let value ← operand reader true
  let token ← token
  let increment := token.kind == .punct .increment
  if (increment || token.kind == .punct .decrement) && !token.newline then
    let target ← simpleTarget value
    advance
    return .update (← spanFrom start) increment false target
  else return value

/-- Reads an expression that may have operators before it. -/
def unary (reader : Reader) : ParserM Node := do
  let token ← token
  let start := token.span.start
  match UnaryOp.ofToken? token.kind with
  | some op =>
    advance
    let operand ← reader .unary
    return .unary (← spanFrom start) op operand
  | none =>
    let increment := token.kind == .punct .increment
    if increment || token.kind == .punct .decrement then
      advance
      let target ← simpleTarget (← reader .unary)
      return .update (← spanFrom start) increment true target
    else if token.isWord "await" && (← read).awaits then
      advance
      let value ← reader .unary
      return .awaitValue (← spanFrom start) value
    else postfixed reader

/-- The operator between operands that the token is. -/
def operator? : ParserM (Option BinaryOp) := do
  match (← token).kind with
  | .punct p => return BinaryOp.ofPunct? p
  | .name "instanceof" false => return some .instanceOf
  | .name "in" false => return if (← read).allowIn then some .isIn else none
  | _ => return none

/-- Checks that operators are not mixed that must not be without parentheses: `??` with `||`
    or `&&`, and an operator before an operand with `**`. -/
def checkMixture (op : BinaryOp) (left right : Node) : ParserM Unit := do
  match op with
  | .nullish =>
    if left.isAndOr || right.isAndOr then note left.start "Operators mixed without parentheses"
  | .power =>
    match left with
    | .unary span _ _ | .awaitValue span _ =>
      note span.start "Operators mixed without parentheses"
    | _ => return
  | _ => return

/-- Marks a call, or the making of an object, as one without effects; of other expressions
    the part that is evaluated first. -/
def markPure : Node → Node
  | .call s callee arguments optional _ => .call s callee arguments optional true
  | .make s callee arguments _ => .make s callee arguments true
  | .chain s (.call s' callee arguments optional _) =>
    .chain s (.call s' callee arguments optional true)
  | .paren s value => .paren s (markPure value)
  | node => node

/-- Whether a comment before the token marks what follows as without effects. -/
def atPureMark? : ParserM Bool := do
  let state ← get
  let before := state.lexer.attached.takeWhile fun (offset, _) => offset == state.token.span.start
  return before.any fun (_, comment) => comment.isPureMark

/-- Reads a private name that is asked for in an object. -/
def privateIn (reader : Reader) (level : Level) (id : Ident) : ParserM Node := do
  if Level.compare ≤ level then unexpected
  advance
  if !(← read).allowIn then unexpected
  expectWord "in"
  let value ← reader (.binary Level.compare)
  return .binary (← spanFrom id.span.start) .isIn (.privateName id) value

/-- Reads operands with operators between them that bind tighter than a level. -/
def binary (reader : Reader) (level : Level) : ParserM Node := do
  let start ← here
  let isPure ← atPureMark?
  let first ←
    match (← token).kind with
    | .privateName name => privateIn reader level ⟨name, (← token).span⟩
    | _ => unary reader
  let first := if isPure then markPure first else first
  repeated (fun left => do
    match ← operator? with
    | none => return .inr left
    | some op =>
      if op.level ≤ level then return .inr left
      else
        advance
        let right ← reader (.binary (if op.isRightFirst then op.level - 1 else op.level))
        checkMixture op left right
        return .inl (.binary (← spanFrom start) op left right)) first

/-! ### Assignments -/

/-- Reads an arrow function from the arrow on. -/
def arrowRest (reader : Reader) (start : Nat) (isAsync : Bool) (paramsSpan : Span)
    (params : List Node) : ParserM Node := do
  expect .arrow
  let shape : FunctionShape := ⟨isAsync, false, true⟩
  let body ←
    if ← at? .braceOpen then within (inFunction shape) (functionBody reader)
    else
      within (fun context => { context with yields := false, awaits := isAsync })
        (reader .assignment)
  return .func (← spanFrom start) shape none paramsSpan params body

/-- The expressions that stand between parentheses. -/
def listed : Node → List Node
  | .sequence _ items => items
  | node => [node]

/-- Reads an arrow function whose parameters have been read as an expression, if they can be
    that. After `async` they look like a call. -/
def arrowAfter? (reader : Reader) (start : Nat) (mayWait : Bool) (value : Node) :
    ParserM (Option Node) := do
  let token ← token
  if token.kind != .punct .arrow || token.newline then return none
  match value with
  | .name id => return some (← arrowRest reader start false id.span [.name id])
  | .paren span inner =>
    match ← reinterpretParams? span.start (listed inner) with
    | some params => return some (← arrowRest reader start false span params)
    | none => return none
  | .call span (.name id) arguments false _ =>
    if !mayWait then return none
    match ← reinterpretParams? start arguments with
    | some params =>
      return some (← arrowRest reader start true ⟨id.span.stop, span.stop⟩ params)
    | none => return none
  | _ => return none

/-- Reads what is handed out by a generator. -/
def yielded (reader : Reader) : ParserM Node := do
  let start ← here
  expectWord "yield"
  let delegate ← do
    if ← newline? then pure false else eat? .star
  let token ← token
  let ends : Bool := match token.kind with
    | .eof => true
    | .punct p =>
      [.semicolon, .braceClose, .bracketClose, .parenClose, .colon, .comma].contains p
    | .name "in" false => true
    | _ => token.newline
  if ends && !delegate then return .yieldValue (← spanFrom start) false none
  else
    let value ← reader .assignment
    return .yieldValue (← spanFrom start) delegate (some value)

/-- Reads the rest of an expression without commas, after operands with operators between
    them. -/
def assignmentRest (reader : Reader) (start : Nat) (value : Node) : ParserM Node := do
  match (← token).kind with
  | .punct .question =>
    advance
    let yes ← withIn (reader .assignment)
    expect .colon
    let no ← reader .assignment
    return .conditional (← spanFrom start) value yes no
  | .punct p =>
    match BinaryOp.ofAssignment? p with
    | none => return value
    | some op =>
      let target ← if op.isNone then reinterpret false value else simpleTarget value
      advance
      let right ← reader .assignment
      return .assign (← spanFrom start) op target right
  | _ => return value

/-- Reads an arrow function that may wait and whose only parameter stands without
    parentheses. -/
def asyncArrow? (reader : Reader) : ParserM (Option Node) := do
  let start ← here
  let next ← second
  if next.newline || next.name?.isNone then return none
  let isArrow ← ahead (do
    advance
    advance
    let token ← token
    if token.kind != .punct .arrow || token.newline then unexpected)
  if isArrow.isNone then return none
  advance
  let id ← within (fun context => { context with awaits := true }) ident
  return some (← arrowRest reader start true id.span [.name id])

/-- Reads an expression without commas. -/
def assignment (reader : Reader) : ParserM Node := do
  let first ← token
  let start := first.span.start
  if first.isWord "yield" && (← read).yields then yielded reader
  else
    let isAsync := first.isWord "async"
    let mayWait ←
      if isAsync then
        let next ← second
        pure (next.kind == .punct .parenOpen && !next.newline)
      else pure false
    let simple ← if isAsync then asyncArrow? reader else pure none
    match simple with
    | some arrow => return arrow
    | none =>
      let value ← binary reader Level.comma
      match ← arrowAfter? reader start mayWait value with
      | some arrow => return arrow
      | none => assignmentRest reader start value

end Bundler.Script.Parser
