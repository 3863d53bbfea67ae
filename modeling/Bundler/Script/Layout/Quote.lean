import Bundler.Script.Token

/-!
# Texts in scripts

How the value of a string and a directive are written. The end of a script element stands in
no string, so that the script can be put into a page.
-/

namespace Bundler.Script.Layout

/-- The mark that ends a script element, without its first character. -/
def closingTag : List Char := "/script".toList

/-- Whether a text starts with another one, in letters of either case. -/
def startsWithLetters (lower text : List Char) : Bool :=
  lower.isPrefixOf ((text.take lower.length).map Char.toLower)

/-- A text in which no script element ends. -/
def withoutClosingTag : List Char → List Char
  | [] => []
  | '<' :: rest =>
    if startsWithLetters closingTag rest then '<' :: '\\' :: withoutClosingTag rest
    else '<' :: withoutClosingTag rest
  | c :: rest => c :: withoutClosingTag rest

/-- How a character is written in a string, where it does not stand for itself. -/
def stringEscape? (c : Char) : Option String :=
  match c with
  | '\x07' => some "\\x07"
  | '\x08' => some "\\b"
  | '\n' => some "\\n"
  | '\x0b' => some "\\v"
  | '\x0c' => some "\\f"
  | '\r' => some "\\r"
  | '\x1b' => some "\\x1B"
  | '\\' => some "\\\\"
  | '"' => some "\\\""
  | '\xa0' => some "\\xA0"
  | '\u2028' => some "\\u2028"
  | '\u2029' => some "\\u2029"
  | _ => none

/-- Whether the value that is left starts with a digit. -/
def startsWithDigit : StringValue → Bool
  | .char c :: _ => '0' ≤ c && c ≤ '9'
  | _ => false

/-- Whether the value that is left starts with what ends a script element. -/
def startsWithClosingTag (value : StringValue) : Bool :=
  startsWithLetters closingTag ((value.take closingTag.length).filterMap fun unit =>
    match unit with
    | .char c => some c
    | .lone _ => none)

/-- A value as it is written between double quotes. -/
def stringInside : StringValue → List Char
  | [] => []
  | .lone code :: rest => '\\' :: 'u' :: StringValue.fourDigits code ++ stringInside rest
  | .char c :: rest =>
    let written : List Char :=
      if c == '\x00' then (if startsWithDigit rest then "\\x00" else "\\0").toList
      else if c == '<' && startsWithClosingTag rest then ['<', '\\']
      else
        match stringEscape? c with
        | some text => text.toList
        | none => [c]
    written ++ stringInside rest

/-- A string between double quotes. -/
def stringText (value : StringValue) : String :=
  String.ofList ('"' :: stringInside value ++ ['"'])

/-- The first quote in a text that no backslash stands before. -/
def firstQuote? : List Char → Option Char
  | [] => none
  | '\\' :: _ :: rest => firstQuote? rest
  | c :: rest => if c == '"' || c == '\'' then some c else firstQuote? rest

/-- A directive as it is written, between quotes that it does not have itself. -/
def directiveText (inside : List Char) : String :=
  let quote := if firstQuote? inside == some '"' then '\'' else '"'
  String.ofList (quote :: inside ++ [quote])

end Bundler.Script.Layout
