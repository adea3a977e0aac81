import ScopeScript.Text.Blank

/-!
# Keywords

The ten reserved words. A run of bare text is a keyword if it is one of them
apart from blanks around it.
-/

namespace ScopeScript

/-- A reserved word. -/
inductive Keyword where
  | function
  | «class»
  | enum
  | «return»
  | «public»
  | «private»
  | «protected»
  | throw
  | «let»
  | const
deriving DecidableEq, Repr

namespace Keyword

/-- All keywords. -/
def all : List Keyword :=
  [function, «class», enum, «return», «public», «private», «protected», throw, «let», const]

/-- How a keyword is spelled. -/
def text : Keyword → String
  | function => "function"
  | «class» => "class"
  | enum => "enum"
  | «return» => "return"
  | «public» => "public"
  | «private» => "private"
  | «protected» => "protected"
  | throw => "throw"
  | «let» => "let"
  | const => "const"

/-- The keyword that a text spells, apart from blanks around it. -/
def ofText? (s : String) : Option Keyword :=
  let word := Text.strip s
  all.find? fun k => k.text == word

end Keyword

end ScopeScript
