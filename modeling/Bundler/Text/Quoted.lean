/-!
# Quoted text

A text between double quotes, with a backslash before what may not stand there as
it is: the quote, the backslash and the control characters. Everything else stands
for itself, so the written form holds no line end.

* `quote`: the written form of a text;
* `unescape`: the text that the inside of a written form stands for, if it stands
  for one.
-/

namespace Bundler.Text

/-- The hexadecimal digit of a number below sixteen, in lower case. -/
def hexDigit (n : Nat) : Char :=
  if n < 10 then Char.ofNat (48 + n) else Char.ofNat (87 + n)

/-- The value of a hexadecimal digit of either case. -/
def hexValue? (c : Char) : Option Nat :=
  let n := c.toNat
  if 48 ≤ n ∧ n ≤ 57 then some (n - 48)
  else if 97 ≤ n ∧ n ≤ 102 then some (n - 87)
  else if 65 ≤ n ∧ n ≤ 70 then some (n - 55)
  else none

/-- How one character is written inside quotes. -/
def escape (c : Char) : List Char :=
  if c = '"' then ['\\', '"']
  else if c = '\\' then ['\\', '\\']
  else if c = '\n' then ['\\', 'n']
  else if c = '\r' then ['\\', 'r']
  else if c = '\t' then ['\\', 't']
  else if c = '\x08' then ['\\', 'b']
  else if c = '\x0c' then ['\\', 'f']
  else if c.toNat < 32 then ['\\', 'u', '0', '0', hexDigit (c.toNat / 16), hexDigit (c.toNat % 16)]
  else [c]

/-- A text as it is written inside quotes. -/
def escapeAll (text : List Char) : List Char :=
  text.flatMap escape

/-- A text between double quotes. -/
def quote (text : String) : String :=
  String.ofList ('"' :: escapeAll text.toList ++ ['"'])

/-- The number that four hexadecimal digits write. -/
def hexFour? (a b c d : Char) : Option Nat := do
  let a ← hexValue? a
  let b ← hexValue? b
  let c ← hexValue? c
  let d ← hexValue? d
  return ((a * 16 + b) * 16 + c) * 16 + d

/-- The character of one letter after a backslash. -/
def simpleEscape? : Char → Option Char
  | '"' => some '"'
  | '\\' => some '\\'
  | '/' => some '/'
  | 'b' => some '\x08'
  | 'f' => some '\x0c'
  | 'n' => some '\n'
  | 'r' => some '\r'
  | 't' => some '\t'
  | _ => none

/-- The text that the inside of a quoted text stands for. None where an escape is
    malformed or names half of a surrogate pair without the other half. -/
def unescape : List Char → Option (List Char)
  | [] => some []
  | '\\' :: 'u' :: a :: b :: c :: d :: rest => do
    let code ← hexFour? a b c d
    if 0xD800 ≤ code ∧ code < 0xDC00 then
      match rest with
      | '\\' :: 'u' :: e :: f :: g :: h :: rest =>
        let low ← hexFour? e f g h
        if 0xDC00 ≤ low ∧ low < 0xE000 then
          let tail ← unescape rest
          return Char.ofNat (0x10000 + (code - 0xD800) * 0x400 + (low - 0xDC00)) :: tail
        else none
      | _ => none
    else if 0xDC00 ≤ code ∧ code < 0xE000 then none
    else
      let tail ← unescape rest
      return Char.ofNat code :: tail
  | '\\' :: c :: rest => do
    let c ← simpleEscape? c
    let tail ← unescape rest
    return c :: tail
  | '\\' :: [] => none
  | c :: rest => (unescape rest).map (c :: ·)
termination_by structural text => text

end Bundler.Text
