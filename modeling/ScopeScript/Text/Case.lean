import ScopeScript.Text.Blank

/-!
# Case-insensitive words

Answers, format names and file suffixes are compared with fixed ASCII words
after lower-casing. Outside ASCII exactly one character has a single ASCII
letter as its lower case, the Kelvin sign U+212A; every other character stays
outside ASCII and can match no such word. So it is enough to lower-case these.
-/

namespace ScopeScript.Text

/-- The lower case of a character, as far as it is an ASCII letter. -/
def lowerChar (c : Char) : Char :=
  if c.toNat == 0x212A then 'k' else c.toLower

/-- A text in lower case, for comparison with ASCII words. -/
def lower (s : String) : String :=
  String.ofList (s.toList.map lowerChar)

end ScopeScript.Text
