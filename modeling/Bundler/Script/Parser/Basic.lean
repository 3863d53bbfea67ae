import Bundler.Script.Ast
import Bundler.Script.Lexer
import Bundler.Script.Token

/-!
# Reading a script

What all readers of the grammar share: the token at which a reader stands, the
context that the grammar's parameters make, and the issues found so far. A reader
either gives a part of the script or stops at a token that does not fit; an issue that
does not stop it is noted.

Readers that need each other are not defined in terms of each other: they are given a
`Reader` that answers a `Part` of the grammar (see `Bundler.Script.Parser`).
-/

namespace Bundler.Script.Parser

/-- The parameters of the grammar. -/
structure Context where
  /-- What the text is read as. -/
  goal : Goal
  /-- Whether the operator `in` may stand at the top of an expression. -/
  allowIn : Bool
  /-- Whether the word `yield` hands out a value. -/
  yields : Bool
  /-- Whether the word `await` waits for a value. -/
  awaits : Bool
  /-- Whether a function may end here. -/
  returns : Bool

/-- How far a script has been read. -/
structure State where
  /-- What is left of the script after the token. -/
  lexer : Lexer
  /-- The token at which the reader stands. -/
  token : Token
  /-- The offset at which the token before ends. -/
  stop : Nat
  /-- The issues found by the grammar, the last one first. -/
  issues : List Issue
  /-- The offsets of shorthands with a default in objects that have not turned out to be
      patterns. -/
  covers : List Nat
  /-- The offsets of arrays and objects whose last element has a comma after it. -/
  commas : List Nat

/-- A reader of a part of a script. -/
abbrev ParserM := ReaderT Context (EStateM Unit State)

/-- The parts of the grammar that contain themselves. -/
inductive Part where
  /-- An expression without commas. -/
  | assignment
  /-- An expression with an operator before it, or none. -/
  | unary
  /-- Operands with operators between them that bind at least as tight as a level. -/
  | binary (level : Nat)
  /-- What follows the word `new`. -/
  | made
  /-- A value with the properties and calls after it; where brackets may not stand, they
      belong to what follows. -/
  | operand (brackets : Bool)
  /-- A statement; alone where a declaration may not stand. -/
  | statement (alone : Bool)
  /-- A pattern that binds names. -/
  | binding

/-- A reader for every part of the grammar that contains itself. -/
abbrev Reader := Part → ParserM Node

/-! ### Tokens -/

/-- The token at which the reader stands. -/
def token : ParserM Token := return (← get).token

/-- The kind of the token at which the reader stands. -/
def kind : ParserM TokenKind := return (← get).token.kind

/-- The offset at which the token starts. -/
def here : ParserM Nat := return (← get).token.span.start

/-- The offset at which the token before ends. -/
def stopped : ParserM Nat := return (← get).stop

/-- The stretch from an offset to the end of the token before. -/
def spanFrom (start : Nat) : ParserM Span := return ⟨start, (← get).stop⟩

/-- Goes on to the next token. -/
def advance : ParserM Unit := modify fun state =>
  let (token, lexer) := state.lexer.next
  { state with token, lexer, stop := state.token.span.stop }

/-- Notes an issue. -/
def note (offset : Nat) (text : String) : ParserM Unit := modify fun state =>
  { state with issues := ⟨offset, text⟩ :: state.issues }

/-- Stops at an offset. -/
def failAt {α : Type} (offset : Nat) (text : String) : ParserM α := do
  note offset text
  throw ()

/-- Stops at the token. -/
def unexpected {α : Type} : ParserM α := do
  failAt (← here) "Unexpected token"

/-- What a reader finds, with the reader back where it stood. -/
def ahead {α : Type} (look : ParserM α) : ParserM (Option α) := fun context state =>
  match look context state with
  | .ok found _ => .ok (some found) state
  | .error _ _ => .ok none state

/-- Whether the token is a punctuator. -/
def at? (p : Punct) : ParserM Bool := return (← kind) == .punct p

/-- Goes past a punctuator, if the token is it. -/
def eat? (p : Punct) : ParserM Bool := do
  if ← at? p then
    advance
    return true
  else return false

/-- Goes past a punctuator. -/
def expect (p : Punct) : ParserM Unit := do
  if !(← eat? p) then unexpected

/-- Whether the token is a word. -/
def atWord? (word : String) : ParserM Bool := return (← token).isWord word

/-- Goes past a word, if the token is it. -/
def eatWord? (word : String) : ParserM Bool := do
  if ← atWord? word then
    advance
    return true
  else return false

/-- Goes past a word. -/
def expectWord (word : String) : ParserM Unit := do
  if !(← eatWord? word) then unexpected

/-- The next token but one. -/
def second : ParserM Token := do
  let state ← get
  return state.lexer.next.1

/-- Whether a line ends before the token. -/
def newline? : ParserM Bool := return (← token).newline

/-- Whether a statement may end before the token without a semicolon. -/
def mayEnd? : ParserM Bool := do
  let token ← token
  return token.newline || token.kind == .punct .braceClose || token.kind == .eof

/-- Goes past the end of a statement: a semicolon, or a place where none is needed. -/
def semicolon : ParserM Unit := do
  if !(← eat? .semicolon) && !(← mayEnd?) then
    failAt (← stopped) "Expected a semicolon"

/-- Reads in another context. -/
def within {α : Type} (change : Context → Context) (read : ParserM α) : ParserM α :=
  fun context => read (change context)

/-- Reads where the operator `in` may stand at the top of an expression. -/
def withIn {α : Type} (read : ParserM α) : ParserM α :=
  within (fun context => { context with allowIn := true }) read

/-! ### Loops -/

/-- Repeats a step until it gives a result, a number of times at most. -/
def iterate {σ α : Type} (step : σ → ParserM (σ ⊕ α)) : Nat → σ → ParserM α
  | 0, _ => unexpected
  | fuel + 1, state => do
    match ← step state with
    | .inl state => iterate step fuel state
    | .inr result => return result

/-- Repeats a step until it gives a result. Every step but the last one takes a token at least, so
    there are no more steps than characters left. -/
def repeated {σ α : Type} (step : σ → ParserM (σ ⊕ α)) (start : σ) : ParserM α := do
  iterate step ((← token).source.length + 2) start

/-- Reads elements with commas between them up to a closing punctuator, which is taken,
    and tells whether a comma stands after the last one. -/
def commaList (close : Punct) (element : ParserM Node) : ParserM (List Node × Bool) :=
  repeated (fun (read, comma) => do
    if ← eat? close then return .inr (read.reverse, comma)
    else
      if !read.isEmpty && !comma then unexpected
      let next ← element
      return .inl (next :: read, ← eat? .comma)) (([] : List Node), false)

/-! ### Names -/

/-- Whether a word may be a name in the context: `yield` and `await` may not where they
    have a meaning of their own. -/
def mayName? (word : String) : ParserM Bool := do
  let context ← read
  return !(word == "yield" && context.yields) && !(word == "await" && context.awaits)

/-- Reads a name that something is called. -/
def ident : ParserM Ident := do
  let token ← token
  match token.name? with
  | none => unexpected
  | some name =>
    if !(← mayName? name) then note token.span.start "A reserved word as a name"
    advance
    return ⟨name, token.span⟩

/-- Reads a name of a property, which may be any word. -/
def anyName : ParserM Ident := do
  let token ← token
  match token.kind with
  | .name text _ =>
    advance
    return ⟨text, token.span⟩
  | _ => unexpected

/-- Reads a string. -/
def text : ParserM (Span × StringValue × List Char) := do
  let token ← token
  match token.kind with
  | .string value =>
    advance
    return (token.span, value, token.written)
  | _ => unexpected

/-! ### Issues that depend on what follows -/

/-- Takes back the objections to shorthands with a default in what is a pattern. -/
def uncover (span : Span) : ParserM Unit := modify fun state =>
  { state with covers := state.covers.filter fun offset => !span.holds offset }

end Bundler.Script.Parser
