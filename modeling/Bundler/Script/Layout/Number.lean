import Bundler.Number.Double
import Bundler.Script.Basic

/-!
# Numbers in scripts

What a number in a script stands for, and the shortest way to write it.

* `NumberText.read`: the number that a literal writes;
* `NumberText.shortest`: a number as it is written with the fewest characters.
-/

namespace Bundler.Script.NumberText

/-! ### Reading -/

/-- The number that digits of a base write. -/
def digitsValue (base : Nat) (digits : List Char) : Nat :=
  digits.foldl (fun n c => n * base + digitValue c) 0

/-- The number `digits * 10 ^ exponent`. One that is far too big or too small is not worked
    out. -/
def ofDecimal (digits : List Char) (exponent : Int) : Double :=
  let digits := digits.dropWhile (· == '0')
  let top := (digits.length : Int) + exponent
  if digits.isEmpty || top < -400 then .finite 0 Double.minExponent
  else if 400 < top then .infinite
  else
    let n := digitsValue 10 digits
    Double.nearest (n * Nat.pow 10 exponent.toNat) (Nat.pow 10 (-exponent).toNat)

/-- The exponent that is written after the letter `e`. -/
def exponentOf (text : List Char) : Int :=
  match text with
  | '-' :: digits => -(digitsValue 10 digits : Int)
  | '+' :: digits => digitsValue 10 digits
  | digits => digitsValue 10 digits

/-- Whether a character is the letter before an exponent. -/
def isExponentMark (c : Char) : Bool :=
  c == 'e' || c == 'E'

/-- The number that a decimal literal writes. -/
def readDecimal (text : List Char) : Double :=
  let before := text.takeWhile fun c => !isExponentMark c
  let exponent := exponentOf ((text.dropWhile fun c => !isExponentMark c).drop 1)
  let whole := before.takeWhile (· != '.')
  let fraction := (before.dropWhile (· != '.')).drop 1
  ofDecimal (whole ++ fraction) (exponent - fraction.length)

/-- The number that digits of a base write, in double precision. -/
def readBase (base : Nat) (digits : List Char) : Double :=
  Double.nearest (digitsValue base digits) 1

/-- The number that a literal writes. A zero before other digits is a mark of base eight where
    all digits are digits of that base. -/
def read (written : List Char) : Double :=
  match written.filter (· != '_') with
  | '0' :: 'x' :: digits | '0' :: 'X' :: digits => readBase 16 digits
  | '0' :: 'o' :: digits | '0' :: 'O' :: digits => readBase 8 digits
  | '0' :: 'b' :: digits | '0' :: 'B' :: digits => readBase 2 digits
  | '0' :: d :: digits =>
    if (d :: digits).all (isDigitOf 8) then readBase 8 (d :: digits)
    else readDecimal ('0' :: d :: digits)
  | text => readDecimal text

/-- The number that a literal of a big integer writes. -/
def readBig (written : List Char) : Nat :=
  match (written.filter (· != '_')).filter (· != 'n') with
  | '0' :: 'x' :: digits | '0' :: 'X' :: digits => digitsValue 16 digits
  | '0' :: 'o' :: digits | '0' :: 'O' :: digits => digitsValue 8 digits
  | '0' :: 'b' :: digits | '0' :: 'B' :: digits => digitsValue 2 digits
  | digits => digitsValue 10 digits

/-! ### Writing -/

/-- The digits of a number without the zeros at its end, and how many those are. -/
def stripZeros (digits : List Char) : List Char × Nat :=
  let zeros := (digits.reverse.takeWhile (· == '0')).length
  (digits.take (digits.length - zeros), zeros)

/-- A whole number in plain digits. -/
def plain (n : Int) : List Char :=
  if n < 0 then '-' :: (Nat.repr n.natAbs).toList else (Nat.repr n.toNat).toList

/-- A number written in full up to twenty-one digits, and to six zeros after the point, and
    with an exponent otherwise: digits, and where the point stands among them. -/
def standard (digits : List Char) (point : Int) : List Char :=
  let count : Int := digits.length
  if count ≤ point ∧ point ≤ 21 then digits ++ List.replicate (point - count).toNat '0'
  else if 0 < point ∧ point ≤ 21 then digits.take point.toNat ++ '.' :: digits.drop point.toNat
  else if -6 < point ∧ point ≤ 0 then
    '0' :: '.' :: List.replicate (-point).toNat '0' ++ digits
  else
    let fraction := digits.drop 1
    digits.take 1 ++ (if fraction.isEmpty then [] else '.' :: fraction) ++ 'e' :: plain (point - 1)

/-- The hexadecimal digits of a number, with their mark. -/
def hexadecimal (n : Nat) : List Char :=
  '0' :: 'x' :: Nat.toDigits 16 n

/-- The shorter one of two texts, the first one where they are equally long. -/
def shorter (text other : List Char) : List Char :=
  if other.length < text.length then other else text

/-- A fraction with zeros after its point, or the same with an exponent. -/
def shortenFraction (text : List Char) : List Char :=
  match text with
  | '.' :: '0' :: rest =>
    let digits := rest.dropWhile (· == '0')
    shorter text (digits ++ 'e' :: '-' :: plain ((text.length - 1 : Nat) : Int))
  | _ => text

/-- A number with zeros at its end, or the same with an exponent. -/
def shortenZeros (text : List Char) : List Char :=
  let (digits, zeros) := stripZeros text
  if zeros = 0 then text else shorter text (digits ++ 'e' :: plain zeros)

/-- A number with a point and an exponent, or the same without a point. -/
def shortenPoint (text : List Char) : List Char :=
  let whole := text.takeWhile (· != '.')
  let rest := (text.dropWhile (· != '.')).drop 1
  let fraction := rest.takeWhile (· != 'e')
  match rest.dropWhile (· != 'e') with
  | 'e' :: exponent =>
    shorter text (whole ++ fraction ++ 'e' :: plain (exponentOf exponent - fraction.length))
  | _ => text

/-- The text of a finite number without a zero before its point. -/
def standardText (m : Nat) (q : Int) : List Char :=
  let (n, e) := Double.shortest m q
  let (digits, zeros) := stripZeros (Nat.repr n).toList
  match standard digits (digits.length + zeros + e) with
  | '0' :: '.' :: rest => '.' :: rest
  | text => text

/-- A finite number as it is written with the fewest characters. -/
def shortestFinite (m : Nat) (q : Int) : List Char :=
  match Double.whole? m q with
  | some n =>
    if n < 1000 then (Nat.repr n).toList
    else
      let decimal := standardText m q
      if (hexadecimal n).length < decimal.length then hexadecimal n
      else shortenPoint (shortenZeros decimal)
  | none => shortenPoint (shortenZeros (shortenFraction (standardText m q)))

/-- A number as it is written with the fewest characters. -/
def shortest : Double → List Char
  | .infinite => "Infinity".toList
  | .finite m q => shortestFinite m q

/-- Whether a dot after a number would be its point: it is a whole number in plain digits. -/
def needsBlankBeforeDot (text : List Char) : Bool :=
  text.all isDecimal

end Bundler.Script.NumberText
