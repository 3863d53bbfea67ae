import Bundler.Json
import Bundler.Path
import Bundler.Text.Quoted

/-!
# What is written into a module

The statements by which a module asks for other modules and gives its exports to the
loader. The loader hands `require` and `exports` to each module. What is added is bound to names that
the module does not use. Such a name is made from a base; where that is taken, a number is put behind
it.

* `Statement.text`: how a statement is written;
* `memberOf`: how a property is written;
* `FreshName.choose`: the first name of a base that is not taken;
* `FreshName.base`: the base for the module that a specifier names.
-/

namespace Bundler

namespace Lowering

/-- The names that the loader hands to a module. -/
def loaderNames : List String := ["require", "exports"]

/-- Whether a name can start with a character, in plain letters. -/
def startsName (c : Char) : Bool :=
  c.isAlpha || c == '_' || c == '$'

/-- Whether a text is a name in plain letters. -/
def isPlainName (name : String) : Bool :=
  match name.toList with
  | [] => false
  | c :: rest => startsName c && rest.all fun c => startsName c || c.isDigit

/-- How a property is written after an object. -/
def memberOf (name : String) : String :=
  if isPlainName name then "." ++ name else "[" ++ Text.quote name ++ "]"

/-- A statement that is written into a module. -/
inductive Statement where
  /-- Another module is asked for, for its effects alone. -/
  | require (specifier : String)
  /-- Another module is asked for and bound to a variable. -/
  | bindRequire (holder : String) (specifier : String)
  /-- The mark of a module that has exports. -/
  | mark
  /-- An export whose value is looked up each time it is asked for. -/
  | getter (name value : String)
  /-- All exports of a module that is bound to a variable, but for some names. -/
  | all (holder : String) (but : List String)
  deriving DecidableEq, Repr

namespace Statement

/-- The call that asks for a module. -/
def requireText (specifier : String) : String :=
  "require(" ++ Text.quote specifier ++ ")"

/-- A list of names as an array. -/
def arrayText (names : List String) : String :=
  "[" ++ ",".intercalate (names.map Text.quote) ++ "]"

/-- How a statement is written. -/
def text : Statement → String
  | .require specifier => requireText specifier ++ ";"
  | .bindRequire name specifier => "var " ++ name ++ " = " ++ requireText specifier ++ ";"
  | .mark => "Object.defineProperty(exports, \"__esModule\", \x7b value: true \x7d);"
  | .getter name value =>
    "Object.defineProperty(exports, " ++ Text.quote name ++
      ", \x7b enumerable: true, get: function () \x7b return " ++ value ++ "; \x7d \x7d);"
  | .all name but =>
    "Object.keys(" ++ name ++ ").forEach(function (key) \x7b\n" ++
    "if (" ++ arrayText but ++
      ".indexOf(key) !== -1 || Object.prototype.hasOwnProperty.call(exports, key)) return;\n" ++
    "Object.defineProperty(exports, key, \x7b enumerable: true, get: function () \x7b return " ++
      name ++ "[key]; \x7d \x7d);\n" ++
    "\x7d);"

/-- Statements, one a line. -/
def lines (statements : List Statement) : String :=
  "\n".intercalate (statements.map text)

end Statement

end Lowering

namespace FreshName

/-- The names of a base: the base itself, then the base with the numbers from one. -/
def candidate (base : String) : Nat → String
  | 0 => base
  | n + 1 => base ++ "_" ++ Nat.repr (n + 1)

/-- The first name of a base that is not taken. Of one name more than are taken, one is
    free. -/
def choose (taken : List String) (base : String) : String :=
  ((List.range (taken.length + 1)).findSome? fun n =>
    if taken.contains (candidate base n) then none else some (candidate base n)).getD base

/-- The characters that a name may have for sure. -/
def isPlain (c : Char) : Bool :=
  c.isAlphanum || c == '_' || c == '$'

/-- The base for a module whose specifier gives no name. -/
def defaultStem : String := "module"

/-- The file name in a specifier, without its extension. -/
def stem (specifier : String) : String :=
  match Path.stem? specifier with
  | some stem => if stem == "" || stem == "." || stem == ".." then defaultStem else stem
  | none => defaultStem

/-- The base for the module that a specifier names. -/
def base (specifier : String) : String :=
  String.ofList ('_' :: (stem specifier).toList.map fun c => if isPlain c then c else '_')

end FreshName

end Bundler
