import ScopeScript.Text.Blank
import ScopeScript.Value.Basic

/-!
# Host data

Native functions, option files and the serialisation formats exchange **plain
data** with the machine: nothing, truth values, integers of any size, doubles,
texts, octets, and containers of these. A datum may also be a script value, or
some other object of the host, a function for example, of which not more is known
than its texts and whether it can be called.

Mappings are kept as lists of entries in the order of first entry. Their keys
are compared by `Datum.sameKey`, for which numbers count by value: the integer
one, the double one and the truth value *true* are the same key.
-/

namespace ScopeScript

/-- An object of the host that is no other sort of datum, as far as it can be seen. -/
structure Foreign where
  /-- The name of its type. -/
  typeName : String
  /-- The text that it has by itself. -/
  text : String
  /-- The text that shows it. -/
  shown : String
  /-- Whether it can be called. -/
  callable : Bool
deriving DecidableEq, Repr

/-- A piece of host data. -/
inductive Datum where
  /-- Nothing. -/
  | null
  /-- A truth value. -/
  | bool (flag : Bool)
  /-- An integer of any size. -/
  | int (number : Int)
  /-- A double. -/
  | float (number : Number.Double)
  /-- A text. -/
  | text (content : String)
  /-- Octets. -/
  | bytes (content : List UInt8)
  /-- A list that can be changed. -/
  | list (items : List Datum)
  /-- A list that cannot be changed. -/
  | tuple (items : List Datum)
  /-- A collection without order. -/
  | set (items : List Datum)
  /-- A mapping, in the order of first entry. -/
  | map (entries : List (Datum × Datum))
  /-- Some other object. It can be a key, has no items and counts as true. -/
  | foreign (object : Foreign)
  /-- A script value. -/
  | value (content : Value)
deriving Repr, Inhabited

namespace Datum

/-- The name of the type of a datum, as messages give it. -/
def typeName : Datum → String
  | null => "NoneType"
  | bool _ => "bool"
  | int _ => "int"
  | float _ => "float"
  | text _ => "str"
  | bytes _ => "bytes"
  | list _ => "list"
  | tuple _ => "tuple"
  | set _ => "set"
  | map _ => "dict"
  | foreign o => o.typeName
  | value _ => "Value"

/-- The integer that a number equals, if any; truth values count as zero and
one. -/
def toInt? : Datum → Option Int
  | bool b => some (if b then 1 else 0)
  | int n => some n
  | float x => x.toInt?
  | _ => none

/-- Whether a datum counts as true where a truth value is asked for: zero,
nothing and everything empty do not. -/
def isTruthy : Datum → Bool
  | null => false
  | bool b => b
  | int n => n != 0
  | float x => x.toInt? != some 0
  | text s => !s.isEmpty
  | bytes bs => !bs.isEmpty
  | list xs => !xs.isEmpty
  | tuple xs => !xs.isEmpty
  | set xs => !xs.isEmpty
  | map es => !es.isEmpty
  | foreign _ => true
  | value _ => true

mutual

/-- Whether two data are the same key. -/
def sameKey : Datum → Datum → Bool
  | text s, text t => s == t
  | null, null => true
  | bytes a, bytes b => a == b
  | tuple xs, tuple ys => sameKeys xs ys
  | value v, value w => v.same w
  | foreign o, foreign p => o == p
  | bool a, b => some (if a then 1 else 0) == b.toInt?
  | int n, b => some n == b.toInt?
  | float x, float y => x.same y
  | float x, b => x.toInt?.isSome && x.toInt? == b.toInt?
  | _, _ => false

/-- Whether two lists agree as keys, item by item. -/
def sameKeys : List Datum → List Datum → Bool
  | [], [] => true
  | x :: xs, y :: ys => sameKey x y && sameKeys xs ys
  | _, _ => false

end

instance : BEq Datum := ⟨sameKey⟩

/-- The mapping that results from entering all pairs, first to last. -/
def ofEntries (entries : List (Datum × Datum)) : Datum := map (enterAll entries)

/-- The collection of the given items, without repetition. -/
def ofItems (items : List Datum) : Datum :=
  set ((enterAll (items.map fun x => (x, ()))).map Prod.fst)

/-- The mapping with the given texts as keys, which are distinct. -/
def ofFields (fields : List (String × Datum)) : Datum :=
  map (fields.map fun (k, v) => (text k, v))

/-- The entry of a mapping under a text. -/
def field? (key : String) : List (Datum × Datum) → Option Datum
  | [] => none
  | (k, v) :: rest => if k == text key then some v else field? key rest

/-- What going through a datum item by item yields, if that is possible:
mappings yield their keys, texts their characters and octets their numbers. -/
def items? : Datum → Option (List Datum)
  | list xs => some xs
  | tuple xs => some xs
  | set xs => some xs
  | map es => some (es.map Prod.fst)
  | text s => some (s.toList.map fun c => text (String.singleton c))
  | bytes bs => some (bs.map fun b => int b.toNat)
  | _ => none

end Datum

end ScopeScript
