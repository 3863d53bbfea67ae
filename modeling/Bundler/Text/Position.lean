import Bundler.Text.Basic

/-!
# Positions

Offsets into a text count UTF-8 bytes, positions count lines and characters, both
from one. A position is read off the text before an offset.

* `Text.before?`: the text before an offset, where the offset is no place inside a
  character;
* `Position.after`: the position that a text ends at;
* `Text.excerpt`: the numbered lines around a line.
-/

namespace Bundler

/-- A stretch of a text, from one byte offset up to another. -/
structure Span where
  /-- The offset of the first byte. -/
  start : Nat
  /-- The offset after the last byte. -/
  stop : Nat
  deriving DecidableEq, Repr, Inhabited

namespace Span

/-- Whether the byte at an offset belongs to a stretch. -/
def holds (span : Span) (offset : Nat) : Bool :=
  span.start ≤ offset && offset < span.stop

end Span

/-- A place in a text, as people count: lines and characters from one. -/
structure Position where
  /-- The line, the first being 1. -/
  line : Nat
  /-- The character in the line, the first being 1. -/
  column : Nat
  deriving DecidableEq, Repr, Inhabited

namespace Position

/-- The position of the first character of a text. -/
def start : Position := ⟨1, 1⟩

/-- The position that follows a character at `p`. -/
def next (p : Position) (c : Char) : Position :=
  if c = '\n' then ⟨p.line + 1, 1⟩ else ⟨p.line, p.column + 1⟩

/-- The position at which a text ends. -/
def after (text : List Char) : Position :=
  text.foldl next start

end Position

namespace Text

/-- The number of bytes that a text takes in UTF-8. -/
def byteLength (text : List Char) : Nat :=
  text.foldr (fun c size => c.utf8Size + size) 0

/-- The text before a byte offset; none where the offset falls inside a character.
    An offset past the end stands for the end. -/
def before? : List Char → Nat → Option (List Char)
  | _, 0 => some []
  | [], _ + 1 => some []
  | c :: rest, n + 1 =>
    if c.utf8Size ≤ n + 1 then (before? rest (n + 1 - c.utf8Size)).map (c :: ·) else none

/-- The lines of a text, each with its number from one. -/
def numbered (text : List Char) : List (Nat × List Char) :=
  (lines text).mapIdx fun i line => (i + 1, line)

/-- The lines from two before line `n` to two after it, with their numbers. -/
def excerpt (text : List Char) (n : Nat) : List (Nat × List Char) :=
  (numbered text).filter fun row => n ≤ row.1 + 2 ∧ row.1 ≤ n + 2

end Text

end Bundler
