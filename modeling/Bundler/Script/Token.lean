import Bundler.Script.Basic
import Bundler.Text.Position

/-!
# Tokens

The smallest parts of a script: punctuators, names, private names, numbers, strings,
parts of templates and regular expressions. A name is any identifier or keyword; the
grammar tells them apart.
-/

namespace Bundler.Script

/-- The punctuators. -/
inductive Punct where
  /-- An opening brace. -/
  | braceOpen
  /-- A closing brace. -/
  | braceClose
  /-- An opening parenthesis. -/
  | parenOpen
  /-- A closing parenthesis. -/
  | parenClose
  /-- An opening bracket. -/
  | bracketOpen
  /-- A closing bracket. -/
  | bracketClose
  /-- A dot. -/
  | dot
  /-- Three dots. -/
  | ellipsis
  /-- A semicolon. -/
  | semicolon
  /-- A comma. -/
  | comma
  /-- The operator `<`. -/
  | less
  /-- The operator `>`. -/
  | greater
  /-- The operator `<=`. -/
  | lessEqual
  /-- The operator `>=`. -/
  | greaterEqual
  /-- The operator `==`. -/
  | equal
  /-- The operator `!=`. -/
  | notEqual
  /-- The operator `===`. -/
  | same
  /-- The operator `!==`. -/
  | notSame
  /-- The operator `+`. -/
  | plus
  /-- The operator `-`. -/
  | minus
  /-- The operator `*`. -/
  | star
  /-- The operator `/`. -/
  | slash
  /-- The operator `%`. -/
  | percent
  /-- The operator `**`. -/
  | power
  /-- The operator `++`. -/
  | increment
  /-- The operator `--`. -/
  | decrement
  /-- The operator `<<`. -/
  | shiftLeft
  /-- The operator `>>`. -/
  | shiftRight
  /-- The operator `>>>`. -/
  | shiftRightZero
  /-- The operator `&`. -/
  | ampersand
  /-- The operator `|`. -/
  | bar
  /-- The operator `^`. -/
  | caret
  /-- The operator `!`. -/
  | bang
  /-- The operator `~`. -/
  | tilde
  /-- The operator `&&`. -/
  | andAnd
  /-- The operator `||`. -/
  | orOr
  /-- The operator `??`. -/
  | nullish
  /-- A question mark. -/
  | question
  /-- The mark of an optional chain. -/
  | questionDot
  /-- A colon. -/
  | colon
  /-- The operator `=`. -/
  | assign
  /-- The operator `+=`. -/
  | plusAssign
  /-- The operator `-=`. -/
  | minusAssign
  /-- The operator `*=`. -/
  | starAssign
  /-- The operator `/=`. -/
  | slashAssign
  /-- The operator `%=`. -/
  | percentAssign
  /-- The operator `**=`. -/
  | powerAssign
  /-- The operator `<<=`. -/
  | shiftLeftAssign
  /-- The operator `>>=`. -/
  | shiftRightAssign
  /-- The operator `>>>=`. -/
  | shiftRightZeroAssign
  /-- The operator `&=`. -/
  | ampersandAssign
  /-- The operator `|=`. -/
  | barAssign
  /-- The operator `^=`. -/
  | caretAssign
  /-- The operator `&&=`. -/
  | andAndAssign
  /-- The operator `||=`. -/
  | orOrAssign
  /-- The operator `??=`. -/
  | nullishAssign
  /-- The mark of an arrow function. -/
  | arrow
  /-- The mark of a decorator. -/
  | atSign
  deriving DecidableEq, Repr, Inhabited

namespace Punct

/-- The punctuators with the texts that write them, a longer text before those that it
    starts with. -/
def spellings : List (List Char × Punct) :=
  [(">>>=", shiftRightZeroAssign), ("...", ellipsis), ("<<=", shiftLeftAssign),
    (">>=", shiftRightAssign), (">>>", shiftRightZero), ("===", same), ("!==", notSame),
    ("**=", powerAssign), ("&&=", andAndAssign), ("||=", orOrAssign), ("??=", nullishAssign),
    ("=>", arrow), ("<=", lessEqual), (">=", greaterEqual), ("==", equal), ("!=", notEqual),
    ("++", increment), ("--", decrement), ("<<", shiftLeft), (">>", shiftRight), ("**", power),
    ("&&", andAnd), ("||", orOr), ("??", nullish), ("?.", questionDot), ("+=", plusAssign),
    ("-=", minusAssign), ("*=", starAssign), ("/=", slashAssign), ("%=", percentAssign),
    ("&=", ampersandAssign), ("|=", barAssign), ("^=", caretAssign), ("\x7b", braceOpen),
    ("\x7d", braceClose), ("(", parenOpen), (")", parenClose), ("[", bracketOpen),
    ("]", bracketClose), (".", dot), (";", semicolon), (",", comma), ("<", less),
    (">", greater), ("+", plus), ("-", minus), ("*", star), ("/", slash), ("%", percent),
    ("&", ampersand), ("|", bar), ("^", caret), ("!", bang), ("~", tilde), ("?", question),
    (":", colon), ("=", assign), ("@", atSign)].map fun spelling => (spelling.1.toList, spelling.2)

/-- The punctuators that start with a character. -/
def startingWith (c : Char) : List (List Char × Punct) :=
  spellings.filter fun spelling => spelling.1.head? == some c

end Punct

/-- A unit of a string's value: a character, or half of a surrogate pair that stands
    without the other half. -/
inductive StringUnit where
  /-- A character. -/
  | char (c : Char)
  /-- Half of a surrogate pair. -/
  | lone (code : Nat)
  deriving DecidableEq, Repr, Inhabited

/-- The value of a string. -/
abbrev StringValue := List StringUnit

namespace StringValue

/-- Whether every unit of a value is a character. -/
def isText (value : StringValue) : Bool :=
  value.all fun unit =>
    match unit with
    | .char _ => true
    | .lone _ => false

/-- The last four hexadecimal digits of a number. -/
def fourDigits (n : Nat) : List Char :=
  [n / 4096 % 16, n / 256 % 16, n / 16 % 16, n % 16].map fun digit =>
    if digit < 10 then Char.ofNat (48 + digit) else Char.ofNat (87 + digit)

/-- A value as a text. Where it has halves of surrogate pairs, each of them, and each
    replacement character, is a replacement character with four hexadecimal digits. -/
def toText (value : StringValue) : String :=
  if isText value then
    String.ofList (value.filterMap fun unit =>
      match unit with
      | .char c => some c
      | .lone _ => none)
  else
    String.ofList (value.flatMap fun unit =>
      match unit with
      | .char c => if c == '\ufffd' then c :: fourDigits 0xFFFD else [c]
      | .lone code => '\ufffd' :: fourDigits code)

end StringValue

/-- What a token is. -/
inductive TokenKind where
  /-- A punctuator. -/
  | punct (p : Punct)
  /-- An identifier or keyword, and whether an escape writes a part of it. -/
  | name (text : String) (escaped : Bool)
  /-- A name after a number sign. -/
  | privateName (text : String)
  /-- A number. -/
  | number
  /-- A number with the suffix of big integers. -/
  | bigint
  /-- A string. -/
  | string (value : StringValue)
  /-- A part of a template: whether it is the first one, whether it is the last one, and
      whether its escapes are well formed. -/
  | template (first last valid : Bool)
  /-- A regular expression, with the number of bytes of its flags. -/
  | regex (flags : Nat)
  /-- The end of the script. -/
  | eof
  /-- A text that is no token. -/
  | bad
  deriving DecidableEq, Repr, Inhabited

/-- A token of a script. -/
structure Token where
  /-- What the token is. -/
  kind : TokenKind
  /-- Where it stands. -/
  span : Span
  /-- The script from the token on. -/
  source : List Char
  /-- Whether a line ends between the token before and this one. -/
  newline : Bool
  deriving Repr, Inhabited

namespace Token

/-- The characters that a token is written with. -/
def written (token : Token) : List Char :=
  (Text.before? token.source (token.span.stop - token.span.start)).getD []

/-- Whether a token is a word without escapes. -/
def isWord (token : Token) (word : String) : Bool :=
  token.kind == .name word false

/-- The name that a token writes, if it is one that something may be called. -/
def name? (token : Token) : Option String :=
  match token.kind with
  | .name text _ => if isReserved text then none else some text
  | _ => none

end Token

/-- A comment of a script. -/
structure Comment where
  /-- Where it stands, with its marks. -/
  span : Span
  /-- Whether it ends with its line. -/
  isLine : Bool
  /-- The comment, with its marks. -/
  text : List Char
  /-- Whether a line ends between the token before and the comment. -/
  newlineBefore : Bool
  /-- Whether a line ends right after the comment. -/
  newlineAfter : Bool
  deriving Repr, Inhabited

namespace Comment

/-- What a comment says, without its marks. -/
def inside (comment : Comment) : List Char :=
  if comment.isLine then comment.text.drop 2
  else ((comment.text.drop 2).dropLast).dropLast

/-- Whether a comment is a mark: a word between underscores behind a sign. -/
def isMark (comment : Comment) (word : String) : Bool :=
  match comment.inside.dropWhile fun c => c == ' ' || c == '\t' || isLineEnd c with
  | '@' :: said | '#' :: said => ("__" ++ word ++ "__").toList.isPrefixOf said
  | _ => false

/-- Whether a comment marks the call that follows as one without effects. -/
def isPureMark (comment : Comment) : Bool :=
  comment.isMark "PURE"

/-- Whether a comment marks the calls of the function that follows as ones without effects. -/
def isQuietMark (comment : Comment) : Bool :=
  comment.isMark "NO_SIDE_EFFECTS"

/-- Whether a comment is about who may use a script: it starts with an exclamation mark, or
    says so. -/
def isLegal (comment : Comment) : Bool :=
  match comment.inside with
  | '!' :: _ => true
  | said => Text.occursIn "@license".toList said || Text.occursIn "@preserve".toList said

end Comment

end Bundler.Script
