import Bundler.Script.Layout.Comment
import Bundler.Script.Operator

/-!
# Where a part of a script is laid out

How a part of a script is written depends on what it is a part of: an expression may need
parentheses, a pattern that binds names is not written like one that is assigned to, and a
statement stands on a line of its own or behind the head that it belongs to.

* `Slot`: as what a part is laid out;
* `Setting`: the comments of a script, and how deep its lines are.
-/

namespace Bundler.Script.Layout

/-- What an expression stands at the start of. There a function, a class or an object would
    be taken for something else. -/
inductive Lead where
  /-- Nothing of the kind. -/
  | inside
  /-- A statement. -/
  | statement
  /-- The body of an arrow function. -/
  | arrow
  deriving DecidableEq, Repr

/-- What stands around an expression. -/
structure Surround where
  /-- How tight the construct around binds: an expression that binds no tighter needs
      parentheses. -/
  level : Level
  /-- What the expression stands at the start of. -/
  lead : Lead
  /-- Whether the operator `in` needs parentheses, as in the head of a loop. -/
  noIn : Bool
  /-- Whether a call needs parentheses, as after the word `new`. -/
  noCall : Bool
  deriving DecidableEq, Repr

namespace Surround

/-- What stands around an expression in a construct that binds as tight as a level. -/
def tight (level : Level) : Surround :=
  { level, lead := .inside, noIn := false, noCall := false }

/-- What stands around the parts of an expression that is or is not between parentheses. -/
def through (around : Surround) (wrapped : Bool) : Surround :=
  if wrapped then { around with lead := .inside, noIn := false } else around

end Surround

/-- As what a part of a script is laid out. -/
inductive Slot where
  /-- As an expression. -/
  | value (around : Surround)
  /-- As a pattern that binds names. -/
  | binding
  /-- As what is assigned to. -/
  | target
  /-- As a statement on a line of its own. -/
  | statement
  /-- As the statement that a head is for. -/
  | body
  /-- As a block or a choice without what stands around it, or as the variables in the head of
      a loop. -/
  | bare
  /-- As the parameters and the body of a method. -/
  | method
  /-- As an element of a class, or a case. -/
  | element
  deriving DecidableEq, Repr

namespace Slot

/-- As an expression that stands alone. -/
def whole : Slot := .value (.tight Level.lowest)

/-- As an expression among others with commas between them. -/
def item : Slot := .value (.tight Level.comma)

/-- As an expression in a construct that binds as tight as a level. -/
def operand (level : Level) : Slot := .value (.tight level)

/-- As the head of a loop that is an expression. -/
def loopHead : Slot := .value { Surround.tight Level.lowest with noIn := true }

/-- What stands around a part that is laid out as an expression. -/
def around : Slot → Surround
  | .value around => around
  | _ => .tight Level.lowest

end Slot

/-- What the layout of a part of a script depends on. -/
structure Setting where
  /-- The comments, with the offsets of the tokens that they belong to. -/
  comments : List (Nat × Comment)
  /-- How many tabs deep the lines are. -/
  depth : Nat

namespace Setting

/-- The setting one level deeper. -/
def deeper (setting : Setting) : Setting :=
  { setting with depth := setting.depth + 1 }

/-- The comments before a token. -/
def commentsAt (setting : Setting) (offset : Nat) : List Comment :=
  (setting.comments.filter fun known => known.1 == offset).map (·.2)

/-- The comments before a token that are kept: marks are a part of what they mark. -/
def keptAt (setting : Setting) (offset : Nat) : List Comment :=
  (setting.commentsAt offset).filter fun comment => !comment.isPureMark && !comment.isQuietMark

/-- The comments before a line, and its indentation. -/
def lineAt (setting : Setting) (offset : Nat) : Doc :=
  before setting.depth (setting.keptAt offset) ++ Doc.indent setting.depth

/-- What stands before a statement or an element that starts at an offset. Elsewhere nothing
    does. -/
def framed (setting : Setting) (slot : Slot) (start : Nat) (doc : Doc) : Doc :=
  match slot with
  | .statement | .element => setting.lineAt start ++ doc
  | .body => Doc.join ++ setting.lineAt start ++ doc
  | _ => doc

/-- What stands around a function or a class that is declared: it is a statement. Elsewhere it is
    an expression. -/
def declared (setting : Setting) (slot : Slot) (start : Nat) (doc : Doc) : Doc :=
  match slot with
  | .statement | .body => setting.framed slot start (doc ++ "\n")
  | _ => doc

end Setting

end Bundler.Script.Layout
