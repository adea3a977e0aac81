import ScopeScript.Value.Display
import ScopeScript.Datum.Basic

/-!
# How host data are shown

Messages show a datum as a host programmer would type it: texts quoted, lists
between brackets, mappings between braces, the three constants capitalised. A
script value among them is shown by its construction. As the key of an object a
datum is written the same way, except that a text stands for itself.

The host refuses to write out an integer with more than `Datum.digitLimit` digits,
as that takes long. What is shown here is what would be written without this limit;
`Datum.isWritable` says where it is kept.
-/

namespace ScopeScript

namespace Datum

/-- Items between parentheses; a single one is followed by a comma. -/
def parenthesised : List String → String
  | [s] => "(" ++ s ++ ",)"
  | ss => "(" ++ ", ".intercalate ss ++ ")"

mutual

/-- The text that shows a datum. -/
def shown : Datum → String
  | null => "None"
  | bool b => if b then "True" else "False"
  | int n => toString n
  | float x => x.text
  | text s => Text.quoted s
  | bytes bs => Text.quotedOctets bs
  | list xs => "[" ++ ", ".intercalate (shownItems xs) ++ "]"
  | tuple xs => parenthesised (shownItems xs)
  | set xs => if xs.isEmpty then "set()" else braced (", ".intercalate (shownItems xs))
  | map es => braced (", ".intercalate (shownEntries es))
  | foreign o => o.shown
  | value v => v.constructor

/-- The texts that show the items of a list. -/
def shownItems : List Datum → List String
  | [] => []
  | x :: xs => shown x :: shownItems xs

/-- The texts that show the entries of a mapping. -/
def shownEntries : List (Datum × Datum) → List String
  | [] => []
  | (k, v) :: es => (shown k ++ ": " ++ shown v) :: shownEntries es

end

/-- The text of a datum by itself: a text is its own, a script value is
displayed, an object of the host has one, anything else is shown. -/
def plain : Datum → String
  | text s => s
  | value v => v.display
  | foreign o => o.text
  | d => d.shown

/-- The text for printing a datum: a script value in literal form, anything else
as it is shown. -/
def literal : Datum → String
  | value v => v.literal
  | d => d.shown

/-! ### The size of what is written -/

/-- The most digits of an integer that can be written out. -/
def digitLimit : Nat := 4300

/-- The least number with more digits. It is not worth computing in a proof. -/
@[irreducible] def digitBound : Nat := Nat.pow 10 digitLimit

/-- Whether an integer can be written out. The sign does not count. -/
def canWrite (n : Int) : Bool := n.natAbs < digitBound

/-- What the host says of an integer that it does not write out. -/
def limitMessage : String :=
  "Exceeds the limit (" ++ toString digitLimit ++ " digits) for integer string conversion; " ++
    "use sys.set_int_max_str_digits() to increase the limit"

mutual

/-- Whether a datum can be written out, and so all integers in it. -/
def isWritable : Datum → Bool
  | int n => canWrite n
  | list xs => areWritable xs
  | tuple xs => areWritable xs
  | set xs => areWritable xs
  | map es => areWritableEntries es
  | _ => true

/-- Whether the items of a list can be written out. -/
def areWritable : List Datum → Bool
  | [] => true
  | x :: xs => isWritable x && areWritable xs

/-- Whether the entries of a mapping can be written out. -/
def areWritableEntries : List (Datum × Datum) → Bool
  | [] => true
  | (k, v) :: es => isWritable k && isWritable v && areWritableEntries es

end

end Datum

end ScopeScript
