import Bundler.Script.Layout.Doc
import Bundler.Script.Layout.Quote
import Bundler.Text.Basic

/-!
# Comments that are laid out

The comments before a statement, an element of a class, a case or an argument are kept, and so
are those at the end of a function and of a script. The lines of a comment get the indentation
of what it stands before.

* `before`: comments before a line;
* `ownLines`: comments on lines of their own.
-/

namespace Bundler.Script.Layout

/-- The lines of a text, without what ends them. -/
def commentLines : List Char → List (List Char)
  | [] => [[]]
  | '\r' :: '\n' :: rest => [] :: commentLines rest
  | c :: rest =>
    if isLineEnd c then [] :: commentLines rest
    else
      match commentLines rest with
      | line :: more => (c :: line) :: more
      | [] => [[c]]

/-- A line of a comment over several lines: behind the indentation, and with a line end if the
    comment goes on. -/
def commentLine (depth : Nat) (line : List Char) : Doc :=
  Doc.onlyIf (!"/*".toList.isPrefixOf line) (.indent depth) ++
    String.ofList (withoutClosingTag (Text.trimStart line)) ++
    Doc.onlyIf (!"*/".toList.isSuffixOf line) "\n"

/-- A comment, in lines that are so many tabs deep. -/
def commentText (depth : Nat) (comment : Comment) : Doc :=
  if comment.isLine then String.ofList (withoutClosingTag comment.text)
  else Doc.concat ((commentLines comment.text).map (commentLine depth))

/-- Whether a line ends after a comment. -/
def endsLine (comment : Comment) : Bool :=
  comment.isLine || comment.newlineAfter

/-- What stands before the first comment: the indentation, of a line of its own if the comment
    stands on one. -/
def beforeFirst (depth : Nat) (comment : Comment) : Doc :=
  if comment.newlineBefore then .freshLine depth else .indent depth

/-- What stands before a comment after another one. -/
def beforeNext (depth : Nat) (comment : Comment) : Doc :=
  if comment.newlineBefore then "\n" ++ Doc.indent depth
  else Doc.onlyIf comment.isLegal "\n"

/-- Comments before a line, which is so many tabs deep. After a last one that does not end its
    line, a blank stands in place of the line's indentation. -/
def before (depth : Nat) : List Comment → Doc
  | [] => .empty
  | first :: more =>
    beforeFirst depth first ++ commentText depth first ++
      Doc.concat (more.map fun comment => beforeNext depth comment ++ commentText depth comment) ++
      (if endsLine ((more.getLast?).getD first) then Doc.text "\n" else .join)

/-- Comments on lines of their own, each with a line end before it. -/
def ownLines (depth : Nat) (comments : List Comment) : Doc :=
  Doc.concat (comments.map fun comment => Doc.ownLine depth (commentText depth comment))

end Bundler.Script.Layout
