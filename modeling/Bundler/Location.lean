import Bundler.Text.Position

/-!
# Locations

Where in a file something is wrong, and how the place is shown: the file, the line
and the column, and the lines around it with an arrow at the one that is meant.

* `Location.at?`: the location of a byte offset;
* `Location.describe`: the lines that show a location.
-/

namespace Bundler

/-- A place in a file, as far as it is known. -/
structure Location where
  /-- The file. -/
  file : Option String
  /-- The line and the column. -/
  position : Option Position
  /-- The lines around the place, each with its number and a colon before it. -/
  excerpt : Option String
  deriving DecidableEq, Repr

namespace Location

/-- A line of a source with its number and a colon before it. -/
def row (numbered : Nat × List Char) : List Char :=
  (Nat.repr numbered.1).toList ++ ':' :: numbered.2

/-- Rows, one a line. -/
def rows (numbered : List (Nat × List Char)) : List Char :=
  ['\n'].intercalate (numbered.map row)

/-- The location of a byte offset in a source; none where the offset is a place
    inside a character. An offset past the end stands for the end. -/
def at? (file : String) (source : List Char) (offset : Nat) : Option Location :=
  (Text.before? source offset).map fun before =>
    let position := Position.after before
    { file := some file
      position := some position
      excerpt := some (String.ofList (rows (Text.excerpt source position.line))) }

/-- The greatest line number that a row can show. -/
def maxLine : Nat := Nat.pow 2 64 - 1

/-- The number that a row starts with: decimal digits, maybe after a plus sign. -/
def lineNumber? (text : List Char) : Option Nat :=
  let digits := match text with
    | '+' :: rest => rest
    | _ => text
  if digits.isEmpty || !digits.all Char.isDigit then none
  else
    let value := digits.foldl (fun n c => 10 * n + (c.toNat - 48)) 0
    if value ≤ maxLine then some value else none

/-- The line number and the text of a row. A row without a number has number 0 and
    is text as a whole. -/
def readRow (text : List Char) : Nat × List Char :=
  match text.dropWhile (· != ':') with
  | ':' :: rest =>
    match lineNumber? (text.takeWhile (· != ':')) with
    | some n => (n, rest)
    | none => (0, text)
  | _ => (0, text)

/-- A number, with blanks before it up to a width of three. -/
def padded (n : Nat) : List Char :=
  let digits := (Nat.repr n).toList
  List.replicate (3 - digits.length) ' ' ++ digits

/-- A row as it is shown: an arrow stands before the marked line. -/
def showRow (marked : Option Nat) (numbered : Nat × List Char) : List Char :=
  (if some numbered.1 = marked then "→ ".toList else "  ".toList) ++ padded numbered.1 ++
    " │ ".toList ++ numbered.2 ++ ['\n']

/-- The rows of an excerpt as they are shown. -/
def showRows (excerpt : List Char) (marked : Option Nat) : List Char :=
  (Text.lines excerpt).flatMap fun text => showRow marked (readRow text)

/-- The lines that show a location, each after a line feed. -/
def describe (location : Location) : String :=
  (match location.file with
    | some file => "\n📁 File: " ++ file
    | none => "") ++
  (match location.position with
    | some position =>
      "\n📍 Location: line " ++ Nat.repr position.line ++ ", column " ++ Nat.repr position.column
    | none => "") ++
  (match location.excerpt with
    | some excerpt =>
      "\n📝 Code:\n" ++
        String.ofList (showRows excerpt.toList (location.position.map Position.line))
    | none => "")

end Location

end Bundler
