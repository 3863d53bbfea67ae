import Bundler.Json

/-!
# Reading JSON

A reader for the grammar of JSON, exactly: no comments, no trailing commas, no
leading zeros, nothing after the value but blanks. Values nest at most
`Json.maxDepth` levels deep.

Each reader takes a text and gives a value with the text after it, or nothing.
`Json.parse?` reads a whole text.
-/

namespace Bundler.Json

/-- The greatest depth to which arrays and objects may nest. -/
def maxDepth : Nat := 127

/-- The blanks that may stand between the parts of a value. -/
def isSpace (c : Char) : Bool :=
  c == ' ' || c == '\n' || c == '\t' || c == '\r'

/-- The text from its first character that is no blank. -/
def skipSpace (text : List Char) : List Char :=
  text.dropWhile isSpace

/-- Takes a fixed word off a text. -/
def take? : List Char → List Char → Option (List Char)
  | [], text => some text
  | c :: word, d :: text => if c = d then take? word text else none
  | _ :: _, [] => none

/-- Whether a character is a decimal digit. -/
def isDigit (c : Char) : Bool :=
  '0' ≤ c && c ≤ '9'

/-- Takes at least one digit off a text. -/
def takeDigits? (text : List Char) : Option (List Char × List Char) :=
  let digits := text.takeWhile isDigit
  if digits.isEmpty then none else some (digits, text.dropWhile isDigit)

/-- Takes the whole part of a number off a text: `0`, or digits that start with
    another one. -/
def takeWhole? (text : List Char) : Option (List Char × List Char) :=
  match text with
  | '0' :: rest => if rest.head?.any isDigit then none else some (['0'], rest)
  | _ => takeDigits? text

/-- Takes a fraction off a text, if a point opens one. -/
def takeFraction? (text : List Char) : Option (List Char × List Char) :=
  match text with
  | '.' :: rest => (takeDigits? rest).map fun (digits, rest) => ('.' :: digits, rest)
  | _ => some ([], text)

/-- Takes a sign off a text, if one stands there. -/
def takeSign (text : List Char) : List Char × List Char :=
  match text with
  | '+' :: rest => (['+'], rest)
  | '-' :: rest => (['-'], rest)
  | _ => ([], text)

/-- Takes an exponent off a text, if the letter E opens one. -/
def takeExponent? (text : List Char) : Option (List Char × List Char) :=
  match text with
  | c :: rest =>
    if c = 'e' ∨ c = 'E' then
      let (sign, rest) := takeSign rest
      (takeDigits? rest).map fun (digits, rest) => (c :: sign ++ digits, rest)
    else some ([], text)
  | [] => some ([], [])

/-- Takes a number off a text. -/
def takeNumber? (text : List Char) : Option (List Char × List Char) := do
  let (minus, text) := match text with
    | '-' :: rest => (['-'], rest)
    | _ => ([], text)
  let (whole, text) ← takeWhole? text
  let (fraction, text) ← takeFraction? text
  let (exponent, text) ← takeExponent? text
  return (minus ++ whole ++ fraction ++ exponent, text)

/-- Takes the inside of a string off a text that follows an opening quote, and the
    closing quote with it. Control characters and malformed escapes are refused. -/
def takeInside? : List Char → Option (List Char × List Char)
  | [] => none
  | '"' :: rest => some ([], rest)
  | '\\' :: 'u' :: a :: b :: c :: d :: rest =>
    if (Text.hexFour? a b c d).isSome then
      (takeInside? rest).map fun (inside, rest) =>
        ('\\' :: 'u' :: a :: b :: c :: d :: inside, rest)
    else none
  | '\\' :: c :: rest =>
    if (Text.simpleEscape? c).isSome then
      (takeInside? rest).map fun (inside, rest) => ('\\' :: c :: inside, rest)
    else none
  | c :: rest =>
    if c.toNat < 32 ∨ c = '\\' then none
    else (takeInside? rest).map fun (inside, rest) => (c :: inside, rest)

mutual

/-- Takes a value off a text. The first number bounds the work, the second the depth
    to which the value may nest. -/
def takeValue? : Nat → Nat → List Char → Option (Json × List Char)
  | 0, _, _ => none
  | work + 1, depth, text =>
    match skipSpace text with
    | 'n' :: rest => (take? "ull".toList rest).map fun rest => (.null, rest)
    | 't' :: rest => (take? "rue".toList rest).map fun rest => (.bool true, rest)
    | 'f' :: rest => (take? "alse".toList rest).map fun rest => (.bool false, rest)
    | '"' :: rest => (takeInside? rest).map fun (inside, rest) => (.written inside, rest)
    | '[' :: rest =>
      match depth with
      | 0 => none
      | depth + 1 =>
        match skipSpace rest with
        | ']' :: rest => some (.array [], rest)
        | rest => (takeElements? work depth rest).map fun (elements, rest) => (.array elements, rest)
    | '\x7b' :: rest =>
      match depth with
      | 0 => none
      | depth + 1 =>
        match skipSpace rest with
        | '\x7d' :: rest => some (.object [], rest)
        | rest => (takeMembers? work depth rest).map fun (members, rest) => (.object members, rest)
    | text => (takeNumber? text).map fun (digits, rest) => (.number digits, rest)

/-- Takes at least one element off a text, and the bracket that closes the array. -/
def takeElements? : Nat → Nat → List Char → Option (List Json × List Char)
  | 0, _, _ => none
  | work + 1, depth, text => do
    let (element, rest) ← takeValue? work depth text
    match skipSpace rest with
    | ']' :: rest => return ([element], rest)
    | ',' :: rest =>
      let (more, rest) ← takeElements? work depth rest
      return (element :: more, rest)
    | _ => none

/-- Takes at least one member off a text, and the brace that closes the object. -/
def takeMembers? : Nat → Nat → List Char → Option (List (List Char × Json) × List Char)
  | 0, _, _ => none
  | work + 1, depth, text =>
    match skipSpace text with
    | '"' :: rest => do
      let (name, rest) ← takeInside? rest
      match skipSpace rest with
      | ':' :: rest =>
        let (value, rest) ← takeValue? work depth rest
        match skipSpace rest with
        | '\x7d' :: rest => return ([(name, value)], rest)
        | ',' :: rest =>
          let (more, rest) ← takeMembers? work depth rest
          return ((name, value) :: more, rest)
        | _ => none
      | _ => none
    | _ => none

end

/-- The value that a text writes, if it writes one. Every call of the readers but the
    first takes something off the text or is followed by one that does, so two units
    of work a character are enough. -/
def parse? (text : List Char) : Option Json := do
  let (value, rest) ← takeValue? (2 * text.length + 2) maxDepth text
  if (skipSpace rest).isEmpty then some value else none

end Bundler.Json
