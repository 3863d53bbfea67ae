import Bundler.Script.Parser.Basic

/-!
# Patterns

What names are bound to, and what is assigned to. A pattern that binds names is read as
one. A pattern that is assigned to, or that turns out to be the parameters of an arrow
function, is read as an expression first and reinterpreted.

* `Pattern.ofNode`: the pattern that an expression turns out to be;
* `binding`: reads a pattern that binds names.
-/

namespace Bundler.Script.Parser

namespace Pattern

/-- Whether a pattern is a single target. -/
def isSimple : Node → Bool
  | .name _ | .member .. | .index .. => true
  | _ => false

/-- What an element among others may be turned into: the last one only may stand for
    all that is left, and without a comma after it. -/
def restIsLast (comma : Bool) : List Node → Bool
  | [] => true
  | [.spread ..] => !comma
  | .spread .. :: _ => false
  | _ :: more => restIsLast comma more

mutual

/-- The pattern that an expression turns out to be, or the offset of what is none. In a
    pattern that binds, targets are names and stand without parentheses. As an element
    (`element`) a pattern may have a default. `commas` are the offsets of arrays and
    objects with a comma after their last element. -/
def ofNode (commas : List Nat) (binds : Bool) (element : Bool) : Node → Except Nat Node
  | .name id => .ok (.name id)
  | .member s object property optional =>
    if binds then .error s.start else .ok (.member s object property optional)
  | .index s object property optional =>
    if binds then .error s.start else .ok (.index s object property optional)
  | .paren s value =>
    if binds || !isSimple value.bare then .error s.start else .ok value.bare
  | .array s items =>
    if restIsLast (commas.contains s.start) items then
      (ofNodes commas binds false items).map (.arrayPattern s)
    else .error s.start
  | .object s members =>
    if restIsLast (commas.contains s.start) members then
      (ofNodes commas binds true members).map (.objectPattern s)
    else .error s.start
  | .assign s op target value =>
    if element && op.isNone then
      (ofNode commas binds false target).map fun target => .withDefault s target value
    else .error s.start
  | .objectPattern s properties => (ofNodes commas binds true properties).map (.objectPattern s)
  | .arrayPattern s items => (ofNodes commas binds false items).map (.arrayPattern s)
  | .withDefault s target value =>
    (ofNode commas binds false target).map fun target => .withDefault s target value
  | .rest s target => (ofNode commas binds false target).map (.rest s)
  | node => .error node.start

/-- The patterns that the elements of an array, or the members of an object
    (`inObject`), turn out to be. -/
def ofNodes (commas : List Nat) (binds inObject : Bool) : List Node → Except Nat (List Node)
  | [] => .ok []
  | .hole offset :: more => (ofNodes commas binds inObject more).map (.hole offset :: ·)
  | .spread s value :: more => do
    let target ← ofNode commas binds false value
    if inObject && !isSimple target then .error s.start
    else (ofNodes commas binds inObject more).map (.rest s target :: ·)
  | .property s key value shorthand :: more => do
    let target ← ofNode commas binds true value
    (ofNodes commas binds inObject more).map (.property s key target shorthand :: ·)
  | .withDefault s (.name id) value :: more =>
    -- In an object, a shorthand with a default; in an array, a pattern already.
    let read := if inObject then Node.property s (.keyName id) (.withDefault s (.name id) value) true
      else .withDefault s (.name id) value
    (ofNodes commas binds inObject more).map (read :: ·)
  | node :: more => do
    let target ← ofNode commas binds true node
    (ofNodes commas binds inObject more).map (target :: ·)

end

end Pattern

/-- Takes an expression for a pattern; `binds` where it binds names. -/
def reinterpret (binds : Bool) (node : Node) : ParserM Node := do
  match Pattern.ofNode (← get).commas binds false node with
  | .ok pattern =>
    uncover node.span
    return pattern
  | .error offset => failAt offset "No target of an assignment"

/-- Takes the expressions between the parentheses at an offset for the parameters of an
    arrow function, if they are such. -/
def reinterpretParams? (start : Nat) (nodes : List Node) : ParserM (Option (List Node)) := do
  let commas := (← get).commas
  if !Pattern.restIsLast (commas.contains start) nodes then return none
  match Pattern.ofNodes commas true false nodes with
  | .ok patterns =>
    for node in nodes do uncover node.span
    return some patterns
  | .error _ => return none

/-! ### Keys -/

/-- Reads the key of a property or method. -/
def key (reader : Reader) : ParserM Node := do
  let token ← token
  match token.kind with
  | .string value =>
    advance
    return .literal token.span (.string value token.written)
  | .number =>
    advance
    return .literal token.span (.number token.written)
  | .bigint =>
    advance
    return .literal token.span (.bigint token.written)
  | .punct .bracketOpen =>
    advance
    let value ← withIn (reader .assignment)
    expect .bracketClose
    return .computed value
  | _ => return .keyName (← anyName)

/-! ### Patterns that bind -/

/-- Reads the default of a pattern, if it has one. -/
def withDefault (reader : Reader) (start : Nat) (target : Node) : ParserM Node := do
  if ← eat? .assign then
    let value ← withIn (reader .assignment)
    return .withDefault (← spanFrom start) target value
  else return target

/-- Reads a pattern that binds names, with a default if it has one. -/
def bindingElement (reader : Reader) : ParserM Node := do
  let start ← here
  withDefault reader start (← reader .binding)

/-- Reads what stands for all that is left. -/
def bindingRest (reader : Reader) : ParserM Node := do
  let start ← here
  expect .ellipsis
  let target ← reader .binding
  return .rest (← spanFrom start) target

/-- Checks that nothing follows what stands for all that is left. -/
def checkRestIsLast (nodes : List Node) (comma : Bool) : ParserM Unit := do
  match nodes.reverse with
  | [] => return
  | last :: others =>
    if comma then
      if let .rest span _ := last then note span.start "A comma after the rest"
    for node in others do
      if let .rest span _ := node then note span.start "The rest is not last"

/-- Reads a property of a pattern that binds names. -/
def bindingProperty (reader : Reader) : ParserM Node := do
  let start ← here
  if ← at? .ellipsis then
    let rest ← bindingRest reader
    if let .rest _ (.name _) := rest then pure () else note start "A pattern as the rest"
    return rest
  let named ← token
  let key ← key reader
  if ← eat? .colon then
    let value ← bindingElement reader
    return .property (← spanFrom start) key value false
  else
    match key, named.name? with
    | .keyName id, some name =>
      if !(← mayName? name) then note start "A reserved word as a name"
      let value ← withDefault reader start (.name id)
      return .property (← spanFrom start) key value true
    | _, _ => unexpected

/-- Reads an element of an array's pattern that binds names. -/
def bindingItem (reader : Reader) : ParserM Node := do
  if ← at? .comma then return .hole (← here)
  else if ← at? .ellipsis then bindingRest reader
  else bindingElement reader

/-- Reads a pattern that binds names. -/
def binding (reader : Reader) : ParserM Node := do
  let start ← here
  if ← eat? .braceOpen then
    let (properties, comma) ← commaList .braceClose (bindingProperty reader)
    checkRestIsLast properties comma
    return .objectPattern (← spanFrom start) properties
  else if ← eat? .bracketOpen then
    let (items, comma) ← commaList .bracketClose (bindingItem reader)
    checkRestIsLast items comma
    return .arrayPattern (← spanFrom start) items
  else return .name (← ident)

/-- Reads the parameters of a function between parentheses. -/
def params (reader : Reader) : ParserM (Span × List Node) := do
  let start ← here
  expect .parenOpen
  let (items, comma) ← withIn (commaList .parenClose (do
    if ← at? .ellipsis then bindingRest reader else bindingElement reader))
  checkRestIsLast items comma
  return (← spanFrom start, items)

end Bundler.Script.Parser
