import ScopeScript.Number.Shortest

/-!
# How doubles are written and read

A double is written with its shortest digits, **positionally** if the decimal
exponent is at least -4 and below 16, and with an exponent of at least two
digits otherwise; an integral value keeps one zero after the point. The three
doubles that are no numbers are written as words. `readDecimal` reads the
grammar common to all formats: a sign, digits with at most one point, and an
optional exponent.
-/

namespace ScopeScript.Number

/-- The decimal digits of a number. -/
def digitChars (n : Nat) : List Char := Nat.toDigits 10 n

/-- Drops trailing zeros from a decimal, keeping its value. `fuel` bounds how
many. -/
def Decimal.trim : (fuel : Nat) → Decimal → Decimal
  | 0, d => d
  | fuel + 1, d =>
    if d.digits % 10 = 0 && d.digits ≠ 0 then Decimal.trim fuel ⟨d.digits / 10, d.exponent + 1⟩
    else d

/-- The text of an exponent: a sign and at least two digits. -/
def exponentChars (e : Int) : List Char :=
  let ds := digitChars e.natAbs
  (if e < 0 then '-' else '+') :: (if ds.length < 2 then '0' :: ds else ds)

/-- The digits `ds`, of which the first has the weight `10 ^ top`, written
positionally or with an exponent. -/
def placeDigits (ds : List Char) (top : Int) : List Char :=
  if -4 ≤ top && top < 16 then
    if top < 0 then
      "0.".toList ++ List.replicate ((-top).toNat - 1) '0' ++ ds
    else
      let whole := top.toNat + 1
      let padded := ds ++ List.replicate (whole - ds.length) '0'
      let frac := padded.drop whole
      padded.take whole ++ '.' :: (if frac.isEmpty then ['0'] else frac)
  else
    match ds with
    | [] => []
    | d :: [] => d :: 'e' :: exponentChars top
    | d :: rest => d :: '.' :: rest ++ 'e' :: exponentChars top

/-- The text of a finite double without its sign. -/
def magnitudeChars (exponent : Fin 2047) (fraction : Fin (1 <<< 52)) : List Char :=
  if exponent.val = 0 && fraction.val = 0 then ['0', '.', '0']
  else
    let d := (shortest exponent fraction).trim 20
    let ds := digitChars d.digits
    placeDigits ds (d.exponent + (ds.length : Int) - 1)

/-- The text of a double. -/
def Double.text : Double → String
  | .nan => "nan"
  | .infinity negative => if negative then "-inf" else "inf"
  | .finite negative e f =>
    let cs := magnitudeChars e f
    String.ofList (if negative then '-' :: cs else cs)

/-! ### Reading -/

/-- The value of a run of decimal digits. -/
def digitsValue (ds : List Char) : Nat :=
  ds.foldl (fun n d => n * 10 + (d.toNat - 48)) 0

/-- The longest run of decimal digits that a text starts with, and the rest. -/
def takeDigits (cs : List Char) : List Char × List Char :=
  (cs.takeWhile Char.isDigit, cs.dropWhile Char.isDigit)

/-- The value of an optional exponent, which must be all that is left. -/
def readExponent : List Char → Option Int
  | [] => some 0
  | e :: rest =>
    if e == 'e' || e == 'E' then
      let (negative, rest) :=
        match rest with
        | '-' :: r => (true, r)
        | '+' :: r => (false, r)
        | r => (false, r)
      let (ds, rest) := takeDigits rest
      if ds.isEmpty || !rest.isEmpty then none
      else
        let n : Int := (digitsValue ds : Nat)
        some (if negative then -n else n)
    else none

/-- Reads an unsigned decimal: digits, an optional point among or around them,
and an optional exponent. There must be at least one digit before the exponent. -/
def readUnsigned (negative : Bool) (cs : List Char) : Option Double :=
  let (whole, rest) := takeDigits cs
  let (frac, rest) :=
    match rest with
    | '.' :: r => takeDigits r
    | r => ([], r)
  if whole.isEmpty && frac.isEmpty then none
  else
    (readExponent rest).map fun e =>
      Double.ofDecimal negative (digitsValue (whole ++ frac)) (e - (frac.length : Int))

/-- Reads a decimal with an optional sign. -/
def readDecimal : List Char → Option Double
  | '-' :: cs => readUnsigned true cs
  | '+' :: cs => readUnsigned false cs
  | cs => readUnsigned false cs

/-- Reads a double: a decimal, or one of the words for infinity and not a number
in any case, with an optional sign. -/
def readDouble (s : String) : Option Double :=
  let (negative, cs) :=
    match s.toList with
    | '-' :: cs => (true, cs)
    | '+' :: cs => (false, cs)
    | cs => (false, cs)
  let word := String.ofList (cs.map Char.toLower)
  if word == "inf" || word == "infinity" then some (.infinity negative)
  else if word == "nan" then some .nan
  else readUnsigned negative cs

end ScopeScript.Number
