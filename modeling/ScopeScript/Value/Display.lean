import ScopeScript.Text.Quoted
import ScopeScript.Number.Written
import ScopeScript.Value.Basic

/-!
# How values are shown

There are three ways to write a value.

* `Value.literal` is unambiguous inside arrays: texts stand between double
  quotes, with backslash, quote and newline escaped.
* `Value.display` is what printing writes: a text bare, anything else as its
  literal.
* `Value.constructor` spells out how the value was made, for the trace.

They go through a value however deep it is: the limit of the host on the depth of
recursion is left out.
-/

namespace ScopeScript

/-- A text between braces. -/
def braced (s : String) : String := "\x7b" ++ s ++ "\x7d"

namespace Value

/-- What stands for a character inside a literal text. -/
def escapeChar (c : Char) : List Char :=
  if c == '\\' then ['\\', '\\']
  else if c == '"' then ['\\', '"']
  else if c == '\n' then ['\\', 'n']
  else [c]

/-- A text between double quotes. -/
def quoteText (s : String) : String :=
  String.ofList ('"' :: s.toList.flatMap escapeChar ++ ['"'])

mutual

/-- The literal form of a value. -/
def literal : Value → String
  | string s => quoteText s
  | object entries => braced (", ".intercalate (literalEntries entries))
  | array items => "[" ++ ", ".intercalate (literalItems items) ++ "]"
  | integer n => toString n.toInt
  | double x => x.text
  | boolean b => if b then "true" else "false"
  | function => "<function>"
  | none => "none"

/-- The literal forms of the items of an array. -/
def literalItems : List Value → List String
  | [] => []
  | v :: rest => literal v :: literalItems rest

/-- The entries of an object, keys written bare. -/
def literalEntries : List (String × Value) → List String
  | [] => []
  | (k, v) :: rest => (k ++ ": " ++ literal v) :: literalEntries rest

end

/-- What printing writes for a value. -/
def display : Value → String
  | string s => s
  | v => literal v

mutual

/-- The construction of a value, spelled out. -/
def constructor : Value → String
  | string s => "Value.string(" ++ Text.quoted s ++ ")"
  | object entries =>
    "Value.object(" ++ braced (", ".intercalate (constructorEntries entries)) ++ ")"
  | array items => "Value.array([" ++ ", ".intercalate (constructorItems items) ++ "])"
  | integer n => "Value.integer(" ++ toString n.toInt ++ ")"
  | double x => "Value.double(" ++ x.text ++ ")"
  | boolean b => "Value.boolean(" ++ (if b then "True" else "False") ++ ")"
  | function => "Value.function()"
  | none => "Value.none()"

/-- The constructions of the items of an array. -/
def constructorItems : List Value → List String
  | [] => []
  | v :: rest => constructor v :: constructorItems rest

/-- The constructions of the entries of an object. -/
def constructorEntries : List (String × Value) → List String
  | [] => []
  | (k, v) :: rest => (Text.quoted k ++ ": " ++ constructor v) :: constructorEntries rest

end

end Value

end ScopeScript
