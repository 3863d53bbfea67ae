import Bundler.Script.Basic
import Bundler.Script.Lexeme

/-!
# The lexer

Takes a script apart into tokens, one at a time. A slash is read as a division and a
closing brace as a brace; the grammar, which knows better, asks for a second reading
with `Lexer.asRegex` and `Lexer.asTemplate`. Comments are kept with the token before
which they stand.

* `Lexer.next`: the next token;
* `Lexer.comments`: the comments read so far.
-/

namespace Bundler.Script

/-- How far a script has been taken apart. -/
structure Lexer where
  /-- What the script is read as. -/
  goal : Goal
  /-- What is left of it. -/
  rest : List Char
  /-- The offset of what is left. -/
  offset : Nat
  /-- Whether a line ended since the last token. -/
  newline : Bool
  /-- Whether a line ended since the last token or comment that ends a line. -/
  fresh : Bool
  /-- Whether the last token is one after which a comment belongs to what follows. -/
  opening : Bool
  /-- The first comment. -/
  first : Option Comment
  /-- Comments since the last token that belong to the next one. -/
  pending : List Comment
  /-- Comments with the offsets of the tokens that they belong to, the last one first. -/
  attached : List (Nat × Comment)
  /-- Malformed tokens, the last one first. -/
  issues : List Issue

namespace Lexer

/-- The lexer at the start of a script. -/
def start (goal : Goal) (source : List Char) : Lexer :=
  { goal, rest := source, offset := 0, newline := true, fresh := true, opening := false,
    first := none, pending := [], attached := [], issues := [] }

/-- The lexer after some of what is left. -/
def skip (lexer : Lexer) (read rest : List Char) : Lexer :=
  { lexer with rest, offset := lexer.offset + Text.byteLength read }

/-- Notes that a line ended. A comment that stands after a token on its line, and before
    a line end, belongs to no later token. -/
def lineEnded (lexer : Lexer) : Lexer :=
  let pending := match lexer.pending.reverse with
    | last :: others => (({ last with newlineAfter := true } : Comment) :: others).reverse
    | [] => []
  { lexer with
    newline := true
    fresh := true
    pending := if lexer.fresh then pending else [] }

/-- Keeps a comment for the next token. A line comment after a token on its line belongs
    to that token instead, and so do the comments before it, unless the token opens
    something that follows. -/
def keep (lexer : Lexer) (text : List Char) (isLine : Bool) : Lexer :=
  let comment : Comment :=
    { span := ⟨lexer.offset, lexer.offset + Text.byteLength text⟩
      isLine
      text
      newlineBefore := lexer.fresh
      newlineAfter := isLine }
  let lexer := { lexer with first := lexer.first.or (some comment) }
  if isLine then
    { lexer with
      newline := true
      fresh := true
      pending := if lexer.fresh || lexer.opening then lexer.pending ++ [comment] else [] }
  else
    { lexer with
      newline := lexer.newline || text.any isLineEnd
      pending := lexer.pending ++ [comment] }

/-- Reads a comment that ends with its line, up to and with the line end. -/
def lineComment (lexer : Lexer) : Lexer :=
  let text := lexer.rest.takeWhile fun c => !isLineEnd c
  let rest := lexer.rest.dropWhile fun c => !isLineEnd c
  let kept := (lexer.keep text true).skip text rest
  match rest with
  | '\r' :: '\n' :: after => kept.skip ['\r', '\n'] after
  | c :: after => kept.skip [c] after
  | [] => kept

/-- Reads what stands between tokens. -/
def skipGaps : Nat → Lexer → Lexer
  | 0, lexer => lexer
  | fuel + 1, lexer =>
    match lexer.rest with
    | '/' :: '/' :: _ => skipGaps fuel lexer.lineComment
    | '/' :: '*' :: rest =>
      match Lexeme.blockComment? rest with
      | some (text, after) =>
        let text := '/' :: '*' :: text
        skipGaps fuel ((lexer.keep text false).skip text after)
      | none => lexer
    | '<' :: '!' :: '-' :: '-' :: _ =>
      if lexer.goal = .script then skipGaps fuel lexer.lineComment else lexer
    | '-' :: '-' :: '>' :: _ =>
      if lexer.goal = .script && lexer.newline then skipGaps fuel lexer.lineComment else lexer
    | c :: rest =>
      if isLineEnd c then skipGaps fuel (lexer.lineEnded.skip [c] rest)
      else if isGap c then skipGaps fuel (lexer.skip [c] rest)
      else lexer
    | [] => lexer

/-- Notes that a token is malformed. -/
def complain (lexer : Lexer) (offset : Nat) (text : String) : Lexer :=
  { lexer with issues := ⟨offset, text⟩ :: lexer.issues }

/-- The offset at which a text starts that is the end of what is left. -/
def offsetOf (lexer : Lexer) (rest : List Char) : Nat :=
  lexer.offset + Text.byteLength (lexer.rest.take (lexer.rest.length - rest.length))

/-- The token of a kind that ends where `rest` starts, and the lexer after it. -/
def emit (lexer : Lexer) (kind : TokenKind) (rest : List Char) : Token × Lexer :=
  let stop := lexer.offsetOf rest
  let token : Token :=
    { kind, span := ⟨lexer.offset, stop⟩, source := lexer.rest, newline := lexer.newline }
  (token,
    { lexer with
      rest
      offset := stop
      newline := false
      fresh := false
      opening := kind = .punct .assign ∨ kind = .punct .parenOpen
      attached := (lexer.pending.map fun comment => (lexer.offset, comment)).reverse ++ lexer.attached
      pending := [] })

/-- The token that a reading gives, or a malformed one. -/
def settle {α : Type} (lexer : Lexer) (kind : α → TokenKind) :
    Lexeme.Reading α → Token × Lexer
  | .done value rest => lexer.emit (kind value) rest
  | .bad rest => (lexer.complain (lexer.offsetOf rest) "Malformed token").emit .bad []
  | .endless => (lexer.complain lexer.offset "Token without an end").emit .bad []

/-- The punctuator that a text starts with, and the text after it. -/
def punct? (text : List Char) : Option (Punct × List Char) :=
  match text with
  | [] => none
  | c :: _ =>
    match (Punct.startingWith c).find? fun spelling => spelling.1.isPrefixOf text with
    | none => none
    | some (spelling, p) =>
      let rest := text.drop spelling.length
      -- A question mark before a decimal fraction is no optional chain.
      if p = .questionDot ∧ rest.head?.any isDecimal then some (.question, text.drop 1)
      else some (p, rest)

/-- Reads the token that what is left starts with. -/
def readToken (lexer : Lexer) : Token × Lexer :=
  let fuel := lexer.rest.length + 1
  match lexer.rest with
  | [] => lexer.emit .eof []
  | '"' :: rest => lexer.settle .string (Lexeme.string '"' fuel rest [])
  | '\'' :: rest => lexer.settle .string (Lexeme.string '\'' fuel rest [])
  | '\x60' :: rest =>
    lexer.settle (fun part => .template true part.1 part.2) (Lexeme.template rest true)
  | '#' :: rest =>
    lexer.settle (fun read => .privateName read.1) (match Lexeme.name fuel true rest [] false with
      | .done ("", _) rest => .bad rest
      | reading => reading)
  | '.' :: d :: _ =>
    if isDecimal d then lexer.settle id (Lexeme.number lexer.rest)
    else
      match punct? lexer.rest with
      | some (p, rest) => lexer.emit (.punct p) rest
      | none => lexer.emit .bad []
  | '<' :: '!' :: '-' :: '-' :: _ =>
    (lexer.complain lexer.offset "A comment in the form of markup in a module").emit .bad []
  | '/' :: '*' :: _ => (lexer.complain lexer.offset "Comment without an end").emit .bad []
  | c :: _ =>
    if isDecimal c then lexer.settle id (Lexeme.number lexer.rest)
    else if isNameStart c || c == '\\' then
      lexer.settle (fun read => .name read.1 read.2) (Lexeme.name fuel true lexer.rest [] false)
    else
      match punct? lexer.rest with
      | some (p, rest) => lexer.emit (.punct p) rest
      | none => (lexer.complain lexer.offset "Unexpected character").emit .bad []

/-- Reads the next token. -/
def next (lexer : Lexer) : Token × Lexer :=
  (skipGaps (lexer.rest.length + 1) lexer).readToken

/-- The lexer at a token that was read, as if it had not been. -/
def back (lexer : Lexer) (token : Token) : Lexer :=
  { lexer with
    rest := token.source
    offset := token.span.start
    newline := token.newline }

/-- Reads a token that starts with a slash again, as a regular expression. -/
def asRegex (lexer : Lexer) (token : Token) : Token × Lexer :=
  let lexer := lexer.back token
  match Lexeme.regexBody false (token.source.drop 1) with
  | .endless => (lexer.complain lexer.offset "Regular expression without an end").emit .bad []
  | .bad rest => lexer.emit .bad rest
  | .done () rest =>
    let flags := rest.takeWhile Lexeme.isFlagPart
    let lexer := if Lexeme.areFlags flags then lexer
      else lexer.complain (lexer.offsetOf rest) "Unknown or repeated flag"
    lexer.emit (.regex flags.length) (rest.dropWhile Lexeme.isFlagPart)

/-- Reads a closing brace again, as the start of the next part of a template. -/
def asTemplate (lexer : Lexer) (token : Token) : Token × Lexer :=
  (lexer.back token).settle (fun part => .template false part.1 part.2)
    (Lexeme.template (token.source.drop 1) true)

/-- The comments read so far, with the offsets of the tokens that they belong to, in
    order. -/
def comments (lexer : Lexer) : List (Nat × Comment) :=
  lexer.attached.reverse

end Lexer

end Bundler.Script
