import Bundler.Script.Token

/-!
# Lexemes

The readers of single tokens. Each takes the text that a token starts with and gives
what the token is, with the text after it, or says that the token is malformed. Loops
are bounded by the length of the text, of which each step takes something.
-/

namespace Bundler.Script.Lexeme

/-! ### Escapes -/

/-- The number that hexadecimal digits write. -/
def hexNumber (digits : List Char) : Nat :=
  digits.foldl (fun n c => n * 16 + digitValue c) 0

/-- Reads what follows a backslash and the letter `u`: four hexadecimal digits, or some
    between braces, up to the greatest code point. -/
def unicodeEscape? : List Char → Option (Nat × List Char)
  | '\x7b' :: rest =>
    let digits := rest.takeWhile (isDigitOf 16)
    match rest.dropWhile (isDigitOf 16) with
    | '\x7d' :: rest =>
      if digits.isEmpty || 0x10FFFF < hexNumber digits then none else some (hexNumber digits, rest)
    | _ => none
  | a :: b :: c :: d :: rest =>
    if [a, b, c, d].all (isDigitOf 16) then some (hexNumber [a, b, c, d], rest) else none
  | _ => none

/-- Whether a code point is half of a surrogate pair. -/
def isSurrogate (code : Nat) : Bool :=
  0xD800 ≤ code && code < 0xE000

/-- The unit of a code point. -/
def unitOf (code : Nat) : StringUnit :=
  if isSurrogate code then .lone code else .char (Char.ofNat code)

/-- Reads what follows a backslash and the letter `u` in a string: two escapes that are
    the halves of a surrogate pair write one character. -/
def unicodeUnit? (text : List Char) : Option (StringUnit × List Char) := do
  let (code, rest) ← unicodeEscape? text
  if 0xD800 ≤ code ∧ code < 0xDC00 ∧ text.head? ≠ some '\x7b' then
    match rest with
    | '\\' :: 'u' :: more =>
      match unicodeEscape? more with
      | some (low, after) =>
        if 0xDC00 ≤ low ∧ low < 0xE000 ∧ more.head? ≠ some '\x7b' then
          return (.char (Char.ofNat (0x10000 + (code - 0xD800) * 0x400 + (low - 0xDC00))), after)
        else return (.lone code, rest)
      | none => return (.lone code, rest)
    | _ => return (.lone code, rest)
  else return (unitOf code, rest)

/-- The digits of an octal escape: up to three, as long as they write a byte. -/
def octalDigits (text : List Char) : List Char :=
  match text with
  | a :: b :: c :: _ =>
    if isDigitOf 8 b then
      if isDigitOf 8 c && a.toNat < 52 then [a, b, c] else [a, b]
    else [a]
  | [a, b] => if isDigitOf 8 b then [a, b] else [a]
  | text => text.take 1

/-- Reads what follows a backslash in a string: nothing for a line end, else a unit. -/
def stringEscape? (text : List Char) : Option (Option StringUnit × List Char) :=
  match text with
  | [] => none
  | 'n' :: rest => some (some (.char '\n'), rest)
  | 't' :: rest => some (some (.char '\t'), rest)
  | 'r' :: rest => some (some (.char '\r'), rest)
  | 'b' :: rest => some (some (.char '\x08'), rest)
  | 'f' :: rest => some (some (.char '\x0c'), rest)
  | 'v' :: rest => some (some (.char '\x0b'), rest)
  | '\r' :: '\n' :: rest => some (none, rest)
  | 'x' :: a :: b :: rest =>
    if isDigitOf 16 a && isDigitOf 16 b then some (some (unitOf (hexNumber [a, b])), rest) else none
  | 'x' :: _ => none
  | 'u' :: rest => (unicodeUnit? rest).map fun (unit, rest) => (some unit, rest)
  | c :: rest =>
    if isLineEnd c then some (none, rest)
    else if isDigitOf 8 c then
      let digits := octalDigits text
      let code := digits.foldl (fun n d => n * 8 + digitValue d) 0
      some (some (.char (Char.ofNat code)), text.drop digits.length)
    else some (some (.char c), rest)

/-! ### Strings -/

/-- What came of reading a token: what was read and the text after it, or the text at
    which the token is malformed. -/
inductive Reading (α : Type) where
  /-- The token is well formed. -/
  | done (value : α) (rest : List Char)
  /-- The token is malformed where `rest` starts. -/
  | bad (rest : List Char)
  /-- The token does not end. -/
  | endless

/-- Reads a string after its opening quote. -/
def string (mark : Char) : Nat → List Char → List StringUnit → Reading StringValue
  | 0, _, _ => .endless
  | _ + 1, [], _ => .endless
  | fuel + 1, c :: rest, units =>
    if c = mark then .done units.reverse rest
    else if c = '\n' ∨ c = '\r' then .endless
    else if c = '\\' then
      match stringEscape? rest with
      | none => if rest.isEmpty then .endless else .bad (c :: rest)
      | some (none, rest) => string mark fuel rest units
      | some (some unit, rest) => string mark fuel rest (unit :: units)
    else string mark fuel rest (.char c :: units)

/-- Whether a string, as it is written, has an octal escape other than `\0`, or an
    escape of the digits eight and nine. -/
def hasLegacyEscape : List Char → Bool
  | '\\' :: '0' :: d :: rest => isDecimal d || hasLegacyEscape (d :: rest)
  | '\\' :: c :: rest => (isDecimal c && c != '0') || hasLegacyEscape rest
  | _ :: rest => hasLegacyEscape rest
  | [] => false

/-! ### Names -/

/-- Reads a name, or the rest of one after its first character. The text is malformed
    at an escape that writes no character of a name. -/
def name : Nat → (first : Bool) → List Char → List Char → Bool → Reading (String × Bool)
  | 0, _, _, _, _ => .endless
  | fuel + 1, first, text, read, escaped =>
    let fits (c : Char) : Bool := if first then isNameStart c else isNamePart c
    match text with
    | '\\' :: 'u' :: rest =>
      match unicodeEscape? rest with
      | some (code, rest) =>
        if !isSurrogate code && fits (Char.ofNat code) then
          name fuel false rest (Char.ofNat code :: read) true
        else .bad text
      | none => .bad text
    | '\\' :: _ => .bad text
    | c :: rest =>
      if fits c then name fuel false rest (c :: read) escaped
      else .done (String.ofList read.reverse, escaped) text
    | [] => .done (String.ofList read.reverse, escaped) []

/-! ### Numbers -/

/-- Reads digits of a base with underscores between them; none where an underscore does
    not stand between two digits. -/
def digits? (base : Nat) : List Char → Option (List Char)
  | '_' :: d :: rest => if isDigitOf base d then digits? base rest else none
  | '_' :: [] => none
  | d :: rest => if isDigitOf base d then digits? base rest else some (d :: rest)
  | [] => some []

/-- Reads at least one digit of a base. -/
def someDigits? (base : Nat) (text : List Char) : Option (List Char) :=
  match text with
  | d :: rest => if isDigitOf base d then digits? base rest else none
  | [] => none

/-- Reads digits of a base, if the text starts with one. -/
def anyDigits? (base : Nat) (text : List Char) : Option (List Char) :=
  match text with
  | d :: rest => if isDigitOf base d then digits? base rest else if d = '_' then none else some text
  | [] => some []

/-- Reads an exponent, if the text starts with one. -/
def exponent? (text : List Char) : Option (List Char) :=
  match text with
  | e :: rest =>
    if e = 'e' ∨ e = 'E' then
      match rest with
      | '+' :: rest => someDigits? 10 rest
      | '-' :: rest => someDigits? 10 rest
      | rest => someDigits? 10 rest
    else some text
  | [] => some []

/-- Reads a fraction and an exponent after a decimal point. -/
def afterPoint? (text : List Char) : Option (List Char) :=
  anyDigits? 10 text >>= exponent?

/-- Checks that neither a digit nor a name follows a number. -/
def numberEnd (kind : TokenKind) (text : List Char) : Reading TokenKind :=
  match text with
  | c :: _ => if isDecimal c || isNameStart c || c == '\\' then .bad text else .done kind text
  | [] => .done kind []

/-- Ends a number that may be a big integer. -/
def integerEnd (text : List Char) : Reading TokenKind :=
  match text with
  | 'n' :: rest => numberEnd .bigint rest
  | _ => numberEnd .number text

/-- What a reader of a part found, put to the end of a number. -/
def finishNumber (text : List Char) (part : Option (List Char)) : Reading TokenKind :=
  match part with
  | some rest => numberEnd .number rest
  | none => .bad text

/-- Reads a number. -/
def number (text : List Char) : Reading TokenKind :=
  match text with
  | '.' :: rest => finishNumber text (someDigits? 10 rest >>= exponent?)
  | '0' :: c :: rest =>
    let based (base : Nat) : Reading TokenKind :=
      match someDigits? base rest with
      | some rest => integerEnd rest
      | none => .bad text
    if c = 'x' ∨ c = 'X' then based 16
    else if c = 'o' ∨ c = 'O' then based 8
    else if c = 'b' ∨ c = 'B' then based 2
    else if isDecimal c then
      let digits := (c :: rest).takeWhile isDecimal
      let rest := (c :: rest).dropWhile isDecimal
      if digits.all (isDigitOf 8) then numberEnd .number rest
      else
        match rest with
        | '.' :: rest => finishNumber text (afterPoint? rest)
        | rest => finishNumber text (exponent? rest)
    else
      match c :: rest with
      | '_' :: _ => .bad text
      | 'n' :: rest => numberEnd .bigint rest
      | '.' :: rest => finishNumber text (afterPoint? rest)
      | rest => finishNumber text (exponent? rest)
  | _ =>
    match someDigits? 10 text with
    | none => .bad text
    | some rest =>
      match rest with
      | 'n' :: rest => numberEnd .bigint rest
      | '.' :: rest => finishNumber text (afterPoint? rest)
      | rest => finishNumber text (exponent? rest)

/-- Whether a number, as it is written, has the octal form of old or a needless zero
    before its digits. -/
def isLegacyNumber : List Char → Bool
  | '0' :: d :: _ => isDecimal d
  | _ => false

/-! ### Regular expressions and templates -/

/-- Reads the body of a regular expression after its opening slash; inside brackets a
    slash does not end it. -/
def regexBody : (inClass : Bool) → List Char → Reading Unit
  | _, [] => .endless
  | inClass, '\\' :: c :: rest => if isLineEnd c then .endless else regexBody inClass rest
  | inClass, c :: rest =>
    if isLineEnd c then .endless
    else if inClass then regexBody (c != ']') rest
    else if c = '[' then regexBody true rest
    else if c = '/' then .done () rest
    else regexBody false rest

/-- The flags of regular expressions. -/
def regexFlags : List Char := "dgimsuvy".toList

/-- The characters that are read as flags. -/
def isFlagPart (c : Char) : Bool :=
  c.isAlphanum || c == '$' || c == '_'

/-- Whether flags are known, each stands once, and they go together: there is one way at most
    to read the characters of a pattern. -/
def areFlags (flags : List Char) : Bool :=
  flags.all (regexFlags.contains ·) && flags.Nodup && !(flags.contains 'u' && flags.contains 'v')

/-- Whether what follows a backslash in a template is a well-formed escape. -/
def isTemplateEscape (text : List Char) : Bool :=
  match text with
  | '0' :: d :: _ => !isDecimal d
  | '0' :: [] => true
  | 'x' :: a :: b :: _ => isDigitOf 16 a && isDigitOf 16 b
  | 'x' :: _ => false
  | 'u' :: rest => (unicodeEscape? rest).isSome
  | c :: _ => !isDecimal c
  | [] => true

/-- Reads a part of a template: whether it is the last one, and whether its escapes are
    well formed. -/
def template : List Char → (valid : Bool) → Reading (Bool × Bool)
  | [], _ => .endless
  | '\x60' :: rest, valid => .done (true, valid) rest
  | '$' :: '\x7b' :: rest, valid => .done (false, valid) rest
  | '\\' :: c :: rest, valid => template rest (valid && isTemplateEscape (c :: rest))
  | _ :: rest, valid => template rest valid

/-! ### Comments -/

/-- The text up to the mark that ends a block comment and the text after it. -/
def blockComment? : List Char → Option (List Char × List Char)
  | '*' :: '/' :: rest => some (['*', '/'], rest)
  | c :: rest => (blockComment? rest).map fun (comment, rest) => (c :: comment, rest)
  | [] => none

end Bundler.Script.Lexeme
