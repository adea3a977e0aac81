/-!
# Beginnings of texts

Small tests on how a text begins, stated on its characters.
-/

namespace ScopeScript.Text

/-- Whether a text begins with another. -/
def startsWith (s start : String) : Bool := start.toList.isPrefixOf s.toList

/-- A text without its first characters. -/
def dropChars (n : Nat) (s : String) : String := String.ofList (s.toList.drop n)

end ScopeScript.Text
