import Bundler.Text.Position

/-!
# Edits

A text changed in several places at once. An edit replaces a stretch of the text as it was,
so its place does not depend on the other edits.

* `Text.slice`: a stretch of a text;
* `Edit.apply`: a text after edits.
-/

namespace Bundler

namespace Text

/-- The characters that fit into a number of bytes, and those after them. -/
def splitBytes : Nat → List Char → List Char × List Char
  | _, [] => ([], [])
  | n, c :: rest =>
    if c.utf8Size ≤ n then
      let (taken, left) := splitBytes (n - c.utf8Size) rest
      (c :: taken, left)
    else ([], c :: rest)

/-- A stretch of a text. -/
def slice (text : List Char) (span : Span) : List Char :=
  (splitBytes (span.stop - span.start) (splitBytes span.start text).2).1

end Text

/-- A stretch of a text with the text that takes its place. -/
structure Edit where
  /-- The stretch. -/
  span : Span
  /-- What takes its place. -/
  text : String
  deriving DecidableEq, Repr

namespace Edit

/-- Whether an edit comes no later than another one: the one that starts first does, and of
    two that start at one place the one that ends first. -/
def comesFirst (one other : Edit) : Bool :=
  one.span.start < other.span.start ||
    (one.span.start == other.span.start && one.span.stop ≤ other.span.stop)

/-- What is left of a text from an offset on, after edits in order. An edit that starts in
    what another one has replaced has nothing to change. -/
def applyFrom (offset : Nat) (text : List Char) : List Edit → List Char
  | [] => text
  | edit :: more =>
    if edit.span.start < offset then applyFrom offset text more
    else
      let (kept, rest) := Text.splitBytes (edit.span.start - offset) text
      let (_, rest) := Text.splitBytes (edit.span.stop - edit.span.start) rest
      kept ++ edit.text.toList ++ applyFrom edit.span.stop rest more

/-- A text after edits. Of edits at one place the one that is named first comes first. -/
def apply (text : List Char) (edits : List Edit) : List Char :=
  applyFrom 0 text (edits.mergeSort comesFirst)

end Edit

end Bundler
