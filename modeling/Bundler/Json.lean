import Bundler.Text.Quoted

/-!
# JSON values

The values of the data format in which configurations and dependency tables are
written. Strings and numbers are kept as they are written: a string's text is
taken with `Text.unescape` where it is asked for, and nobody asks for a number's.

* `Json.string`: the value of a text;
* `Json.compact`, `Json.pretty`: the two ways of writing a value.
-/

namespace Bundler

/-- A JSON value. -/
inductive Json where
  /-- The value `null`. -/
  | null
  /-- A truth value. -/
  | bool (value : Bool)
  /-- A number, as it is written. -/
  | number (written : List Char)
  /-- A string, as it is written between its quotes. -/
  | written (inside : List Char)
  /-- The elements of an array. -/
  | array (elements : List Json)
  /-- The members of an object, the names as they are written between their quotes. -/
  | object (members : List (List Char × Json))
  deriving Inhabited

namespace Json

/-- The value of a text. -/
def string (text : String) : Json :=
  .written (Text.escapeAll text.toList)

/-- A member of an object. -/
def member (name : String) (value : Json) : List Char × Json :=
  (Text.escapeAll name.toList, value)

/-- The text of a string value, if the value is a string and stands for a text. -/
def text? : Json → Option String
  | .written inside => (Text.unescape inside).map String.ofList
  | _ => none

/-- A string between its quotes. -/
def quoted (inside : List Char) : List Char :=
  '"' :: inside ++ ['"']

mutual

/-- A value written without any space. -/
def compact : Json → List Char
  | .null => "null".toList
  | .bool true => "true".toList
  | .bool false => "false".toList
  | .number digits => digits
  | .written inside => quoted inside
  | .array elements => '[' :: compactElements elements ++ [']']
  | .object members => '\x7b' :: compactMembers members ++ ['\x7d']

/-- Elements written one after another, with commas between them. -/
def compactElements : List Json → List Char
  | [] => []
  | [element] => compact element
  | element :: more => compact element ++ ',' :: compactElements more

/-- Members written one after another, with commas between them. -/
def compactMembers : List (List Char × Json) → List Char
  | [] => []
  | [(name, value)] => quoted name ++ ':' :: compact value
  | (name, value) :: more => quoted name ++ ':' :: (compact value ++ ',' :: compactMembers more)

end

/-- The start of a line at a depth of nesting: two blanks a level. -/
def newline (depth : Nat) : List Char :=
  '\n' :: List.replicate (2 * depth) ' '

mutual

/-- A value with every element and member on a line of its own, indented by its
    depth; an empty array or object stays on one line. -/
def pretty (depth : Nat) : Json → List Char
  | .null => "null".toList
  | .bool true => "true".toList
  | .bool false => "false".toList
  | .number digits => digits
  | .written inside => quoted inside
  | .array elements =>
    if elements.isEmpty then ['[', ']']
    else '[' :: prettyElements (depth + 1) elements ++ newline depth ++ [']']
  | .object members =>
    if members.isEmpty then ['\x7b', '\x7d']
    else '\x7b' :: prettyMembers (depth + 1) members ++ newline depth ++ ['\x7d']

/-- Elements, each on a line of its own, with commas between them. -/
def prettyElements (depth : Nat) : List Json → List Char
  | [] => []
  | [element] => newline depth ++ pretty depth element
  | element :: more => newline depth ++ pretty depth element ++ ',' :: prettyElements depth more

/-- Members, each on a line of its own, with commas between them. -/
def prettyMembers (depth : Nat) : List (List Char × Json) → List Char
  | [] => []
  | [(name, value)] => newline depth ++ quoted name ++ ':' :: ' ' :: pretty depth value
  | (name, value) :: more =>
    newline depth ++ quoted name ++ ':' :: ' ' ::
      (pretty depth value ++ ',' :: prettyMembers depth more)

end

end Json

end Bundler
