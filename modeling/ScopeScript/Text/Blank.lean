/-!
# Blank characters and what is left without them

Scripts may be indented and separated by any Unicode white space. This file
holds the class of **blank** characters and the two operations built on it:
cutting blanks off both ends of a text, and asking whether anything is left.

The class is that of the Unicode property `White_Space` together with the four
information separators U+001C to U+001F. The zero-width space U+200B, the byte
order mark U+FEFF and the Mongolian vowel separator U+180E are **not** blank.
-/

namespace ScopeScript.Text

/-- The blank characters, by code point. -/
def isBlank (c : Char) : Bool :=
  let n := c.toNat
  (0x09 ≤ n && n ≤ 0x0D) || (0x1C ≤ n && n ≤ 0x20) || n == 0x85 || n == 0xA0 || n == 0x1680 ||
    (0x2000 ≤ n && n ≤ 0x200A) || n == 0x2028 || n == 0x2029 || n == 0x202F || n == 0x205F ||
    n == 0x3000

/-- A list without the leading elements that satisfy `p`, and without the
trailing ones. -/
def trimBoth {α : Type} (p : α → Bool) (xs : List α) : List α :=
  ((xs.dropWhile p).reverse.dropWhile p).reverse

/-- The text without the blanks at its two ends. -/
def strip (s : String) : String :=
  String.ofList (trimBoth isBlank s.toList)

/-- Whether a text holds nothing but blanks. -/
def isAllBlank (s : String) : Bool :=
  s.toList.all isBlank

end ScopeScript.Text
