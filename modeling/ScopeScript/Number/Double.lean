/-!
# Doubles

A **double** is a number of the binary interchange format with 64 bits: a sign,
an exponent and 52 bits of fraction, or one of the two infinities, or the one
*not a number*. The type has exactly one element for each of them, so that two
doubles are the same element exactly if they are the same datum, while
`Double.same` is the comparison of numbers, for which zero has no sign and *not
a number* equals nothing.

No rounding is left to hardware: `Double.ofRatio` is the double nearest to a
fraction, computed in natural numbers, with ties going to the even neighbour.
-/

namespace ScopeScript.Number

/-- A double. -/
inductive Double where
  /-- Not a number. -/
  | nan
  /-- An infinity. -/
  | infinity (negative : Bool)
  /-- A finite number. The exponent is biased; zero marks the subnormal range. -/
  | finite (negative : Bool) (exponent : Fin 2047) (fraction : Fin (1 <<< 52))
deriving DecidableEq, Repr

namespace Double

/-- Zero, with a sign. -/
def zero (negative : Bool) : Double := finite negative 0 ⟨0, by decide⟩

/-- The integral significand of a finite double. -/
def significand (exponent : Fin 2047) (fraction : Fin (1 <<< 52)) : Nat :=
  if exponent.val = 0 then fraction.val else 1 <<< 52 + fraction.val

/-- The power of two that goes with the significand, plus 1074, so that it is
never negative. -/
def scale (exponent : Fin 2047) : Nat :=
  exponent.val - 1

/-- The absolute value of a finite double is this numerator over `2 ^ 1074`. -/
def numerator (exponent : Fin 2047) (fraction : Fin (1 <<< 52)) : Nat :=
  significand exponent fraction <<< scale exponent

/-- The denominator common to all finite doubles. -/
def denominator : Nat := 1 <<< 1074

/-- A quotient rounded to the nearest natural number, a tie to the even one. -/
def roundQuotient (num den : Nat) : Nat :=
  let q := num / den
  let r := num % den
  if 2 * r < den then q
  else if den < 2 * r then q + 1
  else if q % 2 = 0 then q else q + 1

/-- The finite double with a significand at a given scale, or infinity if it is
out of range. The significand may have one bit more than fits. -/
def pack (negative : Bool) (significand scale : Nat) : Double :=
  if h : significand < 1 <<< 52 then finite negative 0 ⟨significand, h⟩
  else
    let (m, s) :=
      if significand < 1 <<< 53 then (significand, scale) else (significand / 2, scale + 1)
    if hs : s + 1 < 2047 then
      if hm : m - 1 <<< 52 < 1 <<< 52 then finite negative ⟨s + 1, hs⟩ ⟨m - 1 <<< 52, hm⟩
      else infinity negative
    else infinity negative

/-- The double nearest to `num / den`, with a tie going to the even neighbour. -/
def ofRatio (negative : Bool) (num den : Nat) : Double :=
  if num = 0 || den = 0 then zero negative
  else
    -- The value counted in units of the least positive double is `top / den`.
    let top := num * denominator
    let bits := (top / den).log2
    -- Drop as many bits as leaves a significand of 53.
    let drop := bits - 52
    pack negative (roundQuotient top (den <<< drop)) drop

/-- The double nearest to the decimal `digits * 10 ^ exponent`. Exponents far out
of range are cut short: beyond them every value is infinite, or zero. -/
def ofDecimal (negative : Bool) (digits : Nat) (exponent : Int) : Double :=
  if digits = 0 then zero negative
  else
    let places : Int := (Nat.toDigits 10 digits).length + exponent
    if 400 < places then infinity negative
    else if places < -400 then zero negative
    else if 0 ≤ exponent then ofRatio negative (digits * Nat.pow 10 exponent.toNat) 1
    else ofRatio negative digits (Nat.pow 10 (-exponent).toNat)

/-- Whether the sign bit is set. -/
def isNegative : Double → Bool
  | nan => false
  | infinity negative => negative
  | finite negative _ _ => negative

/-- The double with the other sign. -/
def negate : Double → Double
  | nan => nan
  | infinity negative => infinity (!negative)
  | finite negative e f => finite (!negative) e f

/-- Equality of numbers: zero has no sign, and not a number equals nothing. -/
def same : Double → Double → Bool
  | nan, _ => false
  | _, nan => false
  | finite n e f, finite n' e' f' =>
    (n == n' && e == e' && f == f') || (e.val == 0 && f.val == 0 && e'.val == 0 && f'.val == 0)
  | a, b => a == b

/-- The integer that a double equals, if any. -/
def toInt? : Double → Option Int
  | finite negative e f =>
    let n := numerator e f
    if n % denominator = 0 then
      let k : Int := (n / denominator : Nat)
      some (if negative then -k else k)
    else none
  | _ => none

/-- The signed numerator of a finite double over the common denominator. -/
def signedNumerator? : Double → Option Int
  | finite negative e f =>
    let n : Int := (numerator e f : Nat)
    some (if negative then -n else n)
  | _ => none

/-- The sum of two finite doubles, rounded to nearest; anything else is not
needed here and counts as not a number. -/
def add (a b : Double) : Double :=
  match a.signedNumerator?, b.signedNumerator? with
  | some x, some y =>
    let z := x + y
    if z = 0 then zero (a.isNegative && b.isNegative) else ofRatio (z < 0) z.natAbs denominator
  | _, _ => nan

/-- The product of a finite double and a natural number that is itself a double,
rounded to nearest. -/
def scaleBy (a : Double) (k : Nat) : Double :=
  match a with
  | finite negative e f => ofRatio negative (numerator e f * k) denominator
  | other => other

end Double

end ScopeScript.Number
