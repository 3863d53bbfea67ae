import Bundler.Text.Basic

/-!
# Numbers in double precision

A number that is not negative, as it is held with 53 binary digits: the one nearest to a
quotient, and the fewest decimal digits that give it back.

* `Double.nearest`: the number nearest to a quotient;
* `Double.shortest`: the fewest decimal digits of a number.
-/

namespace Bundler

/-- A number in double precision that is not negative. -/
inductive Double where
  /-- The number `mantissa * 2 ^ exponent`. -/
  | finite (mantissa : Nat) (exponent : Int)
  /-- A number too big to be held. -/
  | infinite
  deriving DecidableEq, Repr

namespace Double

/-- The exponent of the smallest numbers. -/
def minExponent : Int := -1074

/-- The exponent of the greatest numbers. -/
def maxExponent : Int := 971

/-- The quotient `num / den` in units of `2 ^ exponent`, rounded to the nearest number, a half
    to the even one. -/
def inUnits (num den : Nat) (exponent : Int) : Nat :=
  Text.roundHalfEven (num * Nat.pow 2 (-exponent).toNat) (den * Nat.pow 2 exponent.toNat)

/-- A number with 53 binary digits at most, and one more where rounding has added it. -/
def ofMantissa (mantissa : Nat) (exponent : Int) : Double :=
  let (mantissa, exponent) :=
    if mantissa = Nat.pow 2 53 then (Nat.pow 2 52, exponent + 1) else (mantissa, exponent)
  if maxExponent < exponent then .infinite else .finite mantissa exponent

/-- The number nearest to the quotient `num / den`. -/
def nearest (num den : Nat) : Double :=
  if num = 0 then .finite 0 minExponent
  else
    let exponent := max ((Nat.log2 num : Int) - Nat.log2 den - 53) minExponent
    let mantissa := inUnits num den exponent
    if mantissa < Nat.pow 2 53 then ofMantissa mantissa exponent
    else ofMantissa (inUnits num den (exponent + 1)) (exponent + 1)

/-- The number `m * 2 ^ q` as a quotient. -/
def quotient (m : Nat) (q : Int) : Nat × Nat :=
  (m * Nat.pow 2 q.toNat, Nat.pow 2 (-q).toNat)

/-- The whole number that `m * 2 ^ q` is, if it is one. -/
def whole? (m : Nat) (q : Int) : Option Nat :=
  let (num, den) := quotient m q
  if num % den = 0 then some (num / den) else none

/-- How many zeros stand after the decimal point of a quotient below one. -/
def leadingZeros (num den : Nat) : Nat → Nat
  | 0 => 0
  | fuel + 1 => if den ≤ num * 10 then 0 else leadingZeros (num * 10) den fuel + 1

/-- The exponent of the first power of ten above a quotient. -/
def decimalExponent (num den : Nat) : Int :=
  if den ≤ num then (Nat.repr (num / den)).length
  else -(leadingZeros num den 400 : Int)

/-- Whether `a * 10 ^ e` is at most `b * 2 ^ u`, or less where `strict`. -/
def decimalAtMost (strict : Bool) (a : Nat) (e : Int) (b : Nat) (u : Int) : Bool :=
  let left := a * Nat.pow 10 e.toNat * Nat.pow 2 (-u).toNat
  let right := b * Nat.pow 2 u.toNat * Nat.pow 10 (-e).toNat
  if strict then left < right else left ≤ right

/-- Whether `b * 2 ^ u` is at most `a * 10 ^ e`, or less where `strict`. -/
def binaryAtMost (strict : Bool) (b : Nat) (u : Int) (a : Nat) (e : Int) : Bool :=
  let left := b * Nat.pow 2 u.toNat * Nat.pow 10 (-e).toNat
  let right := a * Nat.pow 10 e.toNat * Nat.pow 2 (-u).toNat
  if strict then left < right else left ≤ right

/-- Whether the number nearest to `a * 10 ^ e` is `m * 2 ^ q`: it lies between the middles to
    the numbers around, the middles included where the mantissa is even. -/
def readsBack (m : Nat) (q : Int) (a : Nat) (e : Int) : Bool :=
  let low := if m = Nat.pow 2 52 ∧ q ≠ minExponent then 4 * m - 1 else 4 * m - 2
  let strict := m % 2 = 1
  binaryAtMost strict low (q - 2) a e && decimalAtMost strict a e (4 * m + 2) (q - 2)

/-- The number of `k` decimal digits, as a whole number and an exponent of ten, that is
    nearest to `m * 2 ^ q` among those that read back as it. -/
def withDigits? (m : Nat) (q : Int) (top : Int) (k : Nat) : Option (Nat × Int) :=
  let e := top - k
  let (num, den) := quotient m q
  let scaledNum := num * Nat.pow 10 (-e).toNat
  let scaledDen := den * Nat.pow 10 e.toNat
  let below := scaledNum / scaledDen
  let near := Text.roundHalfEven scaledNum scaledDen
  let far := if near = below then below + 1 else below
  if readsBack m q near e then some (near, e)
  else if readsBack m q far e then some (far, e)
  else none

/-- The fewest decimal digits that give `m * 2 ^ q` back, as a whole number and an exponent
    of ten. Seventeen are enough. -/
def shortest (m : Nat) (q : Int) : Nat × Int :=
  let (num, den) := quotient m q
  let top := decimalExponent num den
  ((List.range 17).findSome? fun i => withDigits? m q top (i + 1)).getD (0, 0)

end Double

end Bundler
