/-!
# Octets as text

Octets are written in base 64: three of them make four characters, each of which
stands for six bits, and equals signs fill up the last four. `base64Lines` breaks
the text after every 57 octets, which make lines of 76 characters.
-/

namespace ScopeScript.Text

/-- The character that stands for six bits. -/
def base64Char (n : Nat) : Char :=
  if n < 26 then Char.ofNat (0x41 + n)
  else if n < 52 then Char.ofNat (0x61 + (n - 26))
  else if n < 62 then Char.ofNat (0x30 + (n - 52))
  else if n = 62 then '+'
  else '/'

/-- The character for the six bits of a number from the place `2 ^ shift` on. -/
def base64Digit (n shift : Nat) : Char := base64Char ((n >>> shift) % 64)

/-- Octets in base 64. -/
def base64 : List UInt8 → List Char
  | a :: b :: c :: rest =>
    let n := (a.toNat * 256 + b.toNat) * 256 + c.toNat
    base64Digit n 18 :: base64Digit n 12 :: base64Digit n 6 :: base64Digit n 0 :: base64 rest
  | [a, b] =>
    let n := (a.toNat * 256 + b.toNat) * 256
    [base64Digit n 18, base64Digit n 12, base64Digit n 6, '=']
  | [a] =>
    let n := a.toNat * 65536
    [base64Digit n 18, base64Digit n 12, '=', '=']
  | [] => []

/-- How many octets there are to a line. -/
def base64LineOctets : Nat := 57

/-- Octets in base 64, in lines. -/
def base64Lines (bs : List UInt8) : List String :=
  match bs with
  | [] => []
  | b :: rest =>
    String.ofList (base64 ((b :: rest).take base64LineOctets)) ::
      base64Lines ((b :: rest).drop base64LineOctets)
termination_by bs.length
decreasing_by
  simp only [List.length_drop, List.length_cons, base64LineOctets]
  omega

end ScopeScript.Text
