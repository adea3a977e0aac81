import ScopeScript.Number.Double

/-!
# The shortest decimal that reads back

A double is written with as few digits as still determine it. For one digit, two
digits and so on, the candidates are the two neighbours of the value on the grid
of decimals with that many digits; the first grid on which a neighbour **reads
back** as the same double wins. If both neighbours do, the nearer is taken, and
of two equally near ones that with the even last digit. Seventeen digits are
always enough.
-/

namespace ScopeScript.Number

/-- A positive decimal number `digits * 10 ^ exponent`. -/
structure Decimal where
  /-- All digits, read as one number. -/
  digits : Nat
  /-- The power of ten of the last digit. -/
  exponent : Int
deriving DecidableEq, Repr

/-- How many decimal digits a natural number has; zero has one. -/
def digitCount (n : Nat) : Nat := (Nat.toDigits 10 n).length

/-- The greatest `k` with `10 ^ k ≤ num / den`, for a positive fraction. -/
def decimalLog (num den : Nat) : Int :=
  if den ≤ num then (digitCount (num / den) : Int) - 1
  else
    -- Below one: the reciprocal has `l` digits, so the value is near `10 ^ (-l)`.
    let l := digitCount (den / num)
    if num * Nat.pow 10 (l - 1) < den then -(l : Int) else -(l : Int) + 1

/-- The fraction `num / den` divided by `10 ^ k`, as a fraction. -/
def shiftDecimal (num den : Nat) (k : Int) : Nat × Nat :=
  if 0 ≤ k then (num, den * Nat.pow 10 k.toNat) else (num * Nat.pow 10 (-k).toNat, den)

/-- The neighbours of `num / den` on the grid of multiples of `10 ^ k`, nearer
one first. -/
def gridNeighbours (num den : Nat) (k : Int) : List Decimal :=
  let (n, d) := shiftDecimal num den k
  let low := n / d
  let rest := n % d
  let below : Decimal := ⟨low, k⟩
  let above : Decimal := ⟨low + 1, k⟩
  if rest = 0 then [below]
  else if 2 * rest < d || (2 * rest = d && low % 2 = 0) then [below, above]
  else [above, below]

/-- The decimal chosen for `num / den` among those of at most `count` digits more
than `used`, where `reads` tells which ones read back. -/
def shortestFrom (num den : Nat) (reads : Decimal → Bool) (top : Int) :
    (count used : Nat) → Option Decimal
  | 0, _ => none
  | count + 1, used =>
    match (gridNeighbours num den (top - used)).find? reads with
    | some d => some d
    | none => shortestFrom num den reads top count (used + 1)

/-- The shortest decimal that reads back as a positive finite double. -/
def shortest (exponent : Fin 2047) (fraction : Fin (1 <<< 52)) : Decimal :=
  let num := Double.numerator exponent fraction
  let den := Double.denominator
  let reads (d : Decimal) : Bool :=
    Double.ofDecimal false d.digits d.exponent == .finite false exponent fraction
  (shortestFrom num den reads (decimalLog num den) 17 0).getD ⟨0, 0⟩

end ScopeScript.Number
