/-!
# Hexadecimal digits

Several formats give characters by code point in hexadecimal. Both cases of the
letters are read.
-/

namespace ScopeScript.Text

/-- The value of a hexadecimal digit. -/
def hexValue? (c : Char) : Option Nat :=
  if c.isDigit then some (c.toNat - 48)
  else if 'a' ≤ c && c ≤ 'f' then some (c.toNat - 87)
  else if 'A' ≤ c && c ≤ 'F' then some (c.toNat - 55)
  else none

/-- The value of hexadecimal digits. -/
def hexNumber? (digits : List Char) : Option Nat :=
  digits.foldlM (fun n d => (hexValue? d).map fun k => n * 16 + k) 0

/-- The value of the first `length` characters of a text, all of which have to be
hexadecimal digits. -/
def takeHex? (length : Nat) (cs : List Char) : Option Nat :=
  if cs.length < length then none else hexNumber? (cs.take length)

end ScopeScript.Text
