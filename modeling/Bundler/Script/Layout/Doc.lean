/-!
# Texts laid out in lines

A text that is laid out consists of pieces. What the indentation of a line comes to depends on
what stands before it: after a comment that goes on in its line a blank stands in its place. So
the pieces are put on a sheet one after the other.

* `Doc`: a text laid out in lines;
* `Doc.render`: the text itself.
-/

namespace Bundler.Script.Layout

/-- A text laid out in lines. -/
inductive Doc where
  /-- A text as it is. -/
  | text (s : String)
  /-- The indentation of a line, so many tabs deep. -/
  | indent (depth : Nat)
  /-- An indentation on a line of its own: a line ends before it, unless one has just begun. -/
  | freshLine (depth : Nat)
  /-- A blank in place of the next indentation. -/
  | join
  /-- Two texts after each other. -/
  | append (first second : Doc)
  deriving Inhabited

/-- How far a text is laid out. -/
structure Sheet where
  /-- The characters, the last one first. -/
  chars : List Char
  /-- Whether a blank stands in place of the next indentation. -/
  joined : Bool

namespace Sheet

/-- The sheet before the first piece. -/
def empty : Sheet :=
  { chars := [], joined := false }

/-- A sheet with more characters. -/
def write (sheet : Sheet) (text : List Char) : Sheet :=
  { sheet with chars := text.reverse ++ sheet.chars }

/-- A sheet with an indentation. -/
def indent (sheet : Sheet) (depth : Nat) : Sheet :=
  if sheet.joined then { chars := ' ' :: sheet.chars, joined := false }
  else sheet.write (List.replicate depth '\t')

/-- A sheet with an indentation on a line of its own. -/
def freshLine (sheet : Sheet) (depth : Nat) : Sheet :=
  match sheet.chars with
  | [] | '\t' :: _ => sheet
  | '\n' :: _ => sheet.indent depth
  | _ => (sheet.write ['\n']).indent depth

end Sheet

namespace Doc

/-- No text. -/
def empty : Doc := .text ""

instance : Append Doc := ⟨.append⟩

instance : Coe String Doc := ⟨.text⟩

/-- A sheet with a text after what is on it. -/
def put : Doc → Sheet → Sheet
  | .text s, sheet => sheet.write s.toList
  | .indent depth, sheet => sheet.indent depth
  | .freshLine depth, sheet => sheet.freshLine depth
  | .join, sheet => { sheet with joined := true }
  | .append first second, sheet => second.put (first.put sheet)

/-- A text with its lines. -/
def render (doc : Doc) : String :=
  String.ofList (doc.put .empty).chars.reverse

/-- A text, if there is need of it. -/
def onlyIf (needed : Bool) (doc : Doc) : Doc :=
  if needed then doc else empty

/-- A text between parentheses, if it needs them. -/
def wrapIf (needed : Bool) (doc : Doc) : Doc :=
  if needed then "(" ++ doc ++ ")" else doc

/-- Texts after each other. -/
def concat : List Doc → Doc
  | [] => empty
  | [doc] => doc
  | doc :: more => doc ++ concat more

/-- Texts with a separator between them. -/
def separated (separator : String) : List Doc → Doc
  | [] => empty
  | [doc] => doc
  | doc :: more => doc ++ separator ++ separated separator more

/-- Texts with commas between them. -/
def commas (docs : List Doc) : Doc :=
  separated ", " docs

/-- A text on a line of its own, with a line end before it. -/
def ownLine (depth : Nat) (doc : Doc) : Doc :=
  "\n" ++ Doc.indent depth ++ doc

/-- Texts on lines of their own, with commas between them. -/
def commaLines (depth : Nat) (docs : List Doc) : Doc :=
  separated "," (docs.map (ownLine depth))

end Doc

end Bundler.Script.Layout
