import Bundler.Script.Names
import Bundler.Script.Parser.Module
import Bundler.Text.Basic

/-!
# Reading a whole script

The readers of the parts of the grammar, tied together, and the reading of a script from
its first character to its last one.

* `Program.read`: the tree of a script or module, or the first issue.
-/

namespace Bundler.Script

namespace Parser

/-- Reads a part of the grammar that contains itself, nested a number of times at most. -/
def run : Nat → Reader
  | 0, _ => unexpected
  | depth + 1, part =>
    match part with
    | .assignment => assignment (run depth)
    | .unary => unary (run depth)
    | .binary level => binary (run depth) level
    | .made => made (run depth)
    | .operand brackets => operand (run depth) brackets
    | .statement alone => statement (run depth) alone
    | .binding => binding (run depth)

/-- The context at the top of a script. -/
def topContext (goal : Goal) : Context :=
  { goal, allowIn := true, yields := false, awaits := goal = .module, returns := false }

/-- How far a script has been read before its first token is taken. -/
def startState (lexer : Lexer) : State :=
  let (token, lexer) := lexer.next
  { lexer, token, stop := 0, issues := [], covers := [], commas := [] }

/-- The line at the start of a text that says what runs it, without its end, and the rest of
    the text. -/
def runnerLine (text : List Char) : Option (List Char) × List Char :=
  match text with
  | '#' :: '!' :: _ =>
    (some (text.takeWhile fun c => !isLineEnd c), text.dropWhile fun c => !isLineEnd c)
  | _ => (none, text)

/-- A mark at the start of a script that says it is written in another language. -/
def foreignMark : List Char := "@flow".toList

/-- The issues of a script, in the order in which they are told: those of its tokens, those
    of its grammar, and those that only its end has shown. -/
def State.allIssues (state : State) (program : List TopLevel) : List Issue :=
  let covers := state.covers.reverse.map fun offset => ⟨offset, "A default outside of a pattern"⟩
  let exports := (repeatedNames (program.flatMap TopLevel.exportedNames)).map fun (_, offset) =>
    ⟨offset, "A name exported twice"⟩
  let issues := state.lexer.issues.reverse ++ state.issues.reverse ++ covers ++ exports
  match state.lexer.first with
  | some comment =>
    if !issues.isEmpty && Text.occursIn foreignMark comment.text then
      ⟨comment.span.start, "Another language"⟩ :: issues
    else issues
  | none => issues

/-- The statements at the top without the directives before them. -/
def splitTop : List TopLevel → List Directive × List TopLevel
  | [] => ([], [])
  | statement :: more =>
    match statement with
    | .statement node =>
      match directive? node with
      | some directive =>
        let (directives, statements) := splitTop more
        (directive :: directives, statements)
      | none => ([], statement :: more)
    | _ => ([], statement :: more)

end Parser

open Bundler.Script.Parser in
/-- Reads a script or a module. -/
def Program.read (goal : Goal) (text : String) : Except Issue Program :=
  let (line, rest) := runnerLine text.toList
  let lexer := (Lexer.start goal rest).skip (line.getD []) rest
  let depth := 8 * rest.length + 64
  match topLevels (run depth) (topContext goal) (startState lexer) with
  | .ok statements state =>
    match state.allIssues statements with
    | issue :: _ => .error issue
    | [] =>
      let (directives, body) := splitTop statements
      .ok {
        hashbang := line.map fun line => ⟨0, Text.byteLength line⟩
        directives
        body
        comments := state.lexer.comments
        stop := state.token.span.start }
  | .error () state =>
    match state.allIssues [] with
    | issue :: _ => .error issue
    | [] => .error ⟨state.token.span.start, "Unexpected token"⟩

end Bundler.Script
