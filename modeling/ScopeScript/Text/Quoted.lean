import ScopeScript.Text.Printable

/-!
# Quoted text

Messages show a text between quotes so that its ends and its invisible
characters can be seen. The quote is `'`, unless the text contains `'` and no
`"`. A backslash, the quote itself and every character that is not printable
are written as escapes, the latter by code point in hexadecimal.
-/

namespace ScopeScript.Text

/-- The lower-case hexadecimal digit of a number below sixteen. -/
def hexDigit (n : Nat) : Char :=
  if n < 10 then Char.ofNat (n + 48) else Char.ofNat (n + 87)

/-- The last `width` hexadecimal digits of a number, in lower case. -/
def hexDigits : (width : Nat) → Nat → List Char
  | 0, _ => []
  | width + 1, n => hexDigits width (n / 16) ++ [hexDigit (n % 16)]

/-- The escape of a code point: two, four or eight digits, whichever is enough. -/
def escapeCode (n : Nat) : List Char :=
  if n ≤ 0xFF then '\\' :: 'x' :: hexDigits 2 n
  else if n ≤ 0xFFFF then '\\' :: 'u' :: hexDigits 4 n
  else '\\' :: 'U' :: hexDigits 8 n

/-- The quote to be put around a text: `"` only if that saves escapes. -/
def quoteFor (s : List Char) : Char :=
  if s.contains '\'' && !s.contains '"' then '"' else '\''

/-- What stands for a character between the quotes `q`. -/
def quotedChar (q c : Char) : List Char :=
  if c == q || c == '\\' then ['\\', c]
  else if c == '\n' then ['\\', 'n']
  else if c == '\r' then ['\\', 'r']
  else if c == '\t' then ['\\', 't']
  else if isPrintable c then [c]
  else escapeCode c.toNat

/-- A text between quotes. -/
def quoted (s : String) : String :=
  let cs := s.toList
  let q := quoteFor cs
  String.ofList (q :: cs.flatMap (quotedChar q) ++ [q])

/-- What stands for an octet between the quotes `q`: only ASCII characters show
as themselves. -/
def quotedOctet (q : Char) (b : UInt8) : List Char :=
  if b < 0x7F then quotedChar q (Char.ofNat b.toNat) else escapeCode b.toNat

/-- Octets between quotes, marked by a leading `b`. -/
def quotedOctets (bs : List UInt8) : String :=
  let q := quoteFor (bs.map fun b => Char.ofNat b.toNat)
  String.ofList ('b' :: q :: bs.flatMap (quotedOctet q) ++ [q])

end ScopeScript.Text
