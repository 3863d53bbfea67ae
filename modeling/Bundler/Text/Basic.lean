/-!
# Texts

What can be said of any text: which blanks are at its ends, what stands in it, and where its lines
end. A line feed ends a line, and a carriage return that stands just before it belongs to the line
end; a final line feed opens no further line.

The size of a file is told as people read it: bytes below a kilobyte, else kilobytes of 1024 bytes
with two places.

* `isBlank`, `trimStart`, `trimEnd`: blanks;
* `occursIn`: parts of a text;
* `lines`: the lines of a text;
* `roundHalfEven`: a quotient rounded to the nearest number, a half to the even one;
* `sizeText`: the text of a size.
-/

namespace Bundler.Text

/-! ### Blanks, parts and lines -/

/-- The characters with the Unicode property `White_Space`. -/
def isBlank (c : Char) : Bool :=
  let n := c.toNat
  (9 ≤ n && n ≤ 13) || n == 0x20 || n == 0x85 || n == 0xA0 || n == 0x1680 ||
    (0x2000 ≤ n && n ≤ 0x200A) || n == 0x2028 || n == 0x2029 || n == 0x202F ||
    n == 0x205F || n == 0x3000

/-- The text without the blanks at its end. -/
def trimEnd (text : List Char) : List Char :=
  (text.reverse.dropWhile isBlank).reverse

/-- The text without the blanks at its start. -/
def trimStart (text : List Char) : List Char :=
  text.dropWhile isBlank

/-- Whether a part stands in a text. -/
def occursIn (part : List Char) : List Char → Bool
  | [] => part.isEmpty
  | c :: rest => part.isPrefixOf (c :: rest) || occursIn part rest

/-- The lines of a text, without their ends. A carriage return is part of a line
    end only before a line feed, so an unfinished last line keeps its own. -/
def lines : List Char → List (List Char)
  | [] => []
  | '\n' :: rest => [] :: lines rest
  | '\r' :: '\n' :: rest => [] :: lines rest
  | c :: rest =>
    match lines rest with
    | [] => [[c]]
    | line :: more => (c :: line) :: more

/-! ### Sizes -/

/-- The whole number nearest to `num / den`; of two the even one. -/
def roundHalfEven (num den : Nat) : Nat :=
  let quotient := num / den
  let twice := 2 * (num % den)
  if twice < den then quotient
  else if den < twice then quotient + 1
  else quotient + quotient % 2

/-- The number with at most 53 significant binary digits that is nearest to `n`, of
    two the one whose last digit is even: what is left of a size above `2 ^ 53` once
    it is held as a double-precision number. -/
def binary53 (n : Nat) : Nat :=
  if n < Nat.pow 2 53 then n
  else
    let unit := Nat.pow 2 (Nat.log2 n - 52)
    roundHalfEven n unit * unit

/-- A number with two decimal digits at least. -/
def twoDigits (n : Nat) : String :=
  if n < 10 then "0" ++ Nat.repr n else Nat.repr n

/-- The text of a size in bytes. -/
def sizeText (bytes : Nat) : String :=
  if bytes < 1024 then Nat.repr bytes ++ " B"
  else
    let hundredths := roundHalfEven (binary53 bytes * 100) 1024
    Nat.repr (hundredths / 100) ++ "." ++ twoDigits (hundredths % 100) ++ " kB"

end Bundler.Text
