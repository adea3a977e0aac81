import ScopeScript.Number.Double

/-!
# Script values

A **value** is what a script hands to a native function and gets back from it.
Its kind is fixed when it is made, and nothing is ever converted from one kind
to another. Objects keep the order in which their keys were first entered; two
objects are equal if they agree as mappings, whatever that order.

Values are compared by what they hold, however deep. Two things of the host are left
out: its limit on the depth of recursion, and the identity of what is compared. By the
latter the host takes a list or a mapping for equal to another one with the very same
not-a-number in it, and `Value.same` does not.
-/

namespace ScopeScript

/-- The kinds of value. -/
inductive ValueKind where
  | string
  | object
  | array
  | integer
  | double
  | boolean
  | function
  | none
deriving DecidableEq, Repr

namespace ValueKind

/-- All kinds. -/
def all : List ValueKind := [string, object, array, integer, double, boolean, function, none]

/-- The word for a kind. -/
def text : ValueKind → String
  | string => "string"
  | object => "object"
  | array => "array"
  | integer => "integer"
  | double => "double"
  | boolean => "boolean"
  | function => "function"
  | none => "none"

end ValueKind

/-- A script value. -/
inductive Value where
  /-- A text. -/
  | string (text : String)
  /-- A mapping from distinct texts to values, in the order of first entry. -/
  | object (entries : List (String × Value))
  /-- A list of values. -/
  | array (items : List Value)
  /-- A signed integer of 64 bits. -/
  | integer (number : Int64)
  /-- A double. -/
  | double (number : Number.Double)
  /-- A truth value. -/
  | boolean (flag : Bool)
  /-- Some function of the host, of which nothing more is known. -/
  | function
  /-- No value. -/
  | none
deriving Repr, Inhabited

/-- Enters a value under a key: a new key goes to the end, a known one keeps its
place and takes the new value. -/
def enter {κ α : Type} [BEq κ] (key : κ) (value : α) : List (κ × α) → List (κ × α)
  | [] => [(key, value)]
  | (k, v) :: rest => if k == key then (k, value) :: rest else (k, v) :: enter key value rest

/-- The mapping that results from entering all pairs, first to last. -/
def enterAll {κ α : Type} [BEq κ] (entries : List (κ × α)) : List (κ × α) :=
  entries.foldl (fun done (k, v) => enter k v done) []

namespace Value

/-- The kind of a value. -/
def kind : Value → ValueKind
  | string _ => .string
  | object _ => .object
  | array _ => .array
  | integer _ => .integer
  | double _ => .double
  | boolean _ => .boolean
  | function => .function
  | none => .none

/-- Whether this is the absence of a value. -/
def isNone : Value → Bool
  | none => true
  | _ => false

/-- The least integer that a value can hold. -/
def minInteger : Int := -0x8000000000000000

/-- The greatest integer that a value can hold. -/
def maxInteger : Int := 0x7fffffffffffffff

/-- Whether an integer fits in 64 bits. -/
def fits (n : Int) : Bool := minInteger ≤ n && n ≤ maxInteger

/-- The object that results from entering all pairs, first to last. -/
def ofEntries (entries : List (String × Value)) : Value :=
  object (enterAll entries)

/-- Whether a value can serve as a key: containers cannot. -/
def isScalar : Value → Bool
  | object _ | array _ => false
  | _ => true

mutual

/-- Equality of values: same kind and same content. The content of an object is
compared as a mapping, and that of a double as a number. -/
def same : Value → Value → Bool
  | string s, string t => s == t
  | object es, object fs => es.length == fs.length && sameEntries es fs
  | array xs, array ys => sameItems xs ys
  | integer m, integer n => m == n
  | double a, double b => a.same b
  | boolean a, boolean b => a == b
  | function, function => true
  | none, none => true
  | _, _ => false

/-- Whether two lists are equal item by item. -/
def sameItems : List Value → List Value → Bool
  | [], [] => true
  | x :: xs, y :: ys => same x y && sameItems xs ys
  | _, _ => false

/-- Whether every entry has an equal one under the same key in `fs`. -/
def sameEntries : List (String × Value) → List (String × Value) → Bool
  | [], _ => true
  | (k, v) :: es, fs =>
    (match fs.lookup k with
      | some w => same v w
      | Option.none => false) && sameEntries es fs

end

end Value

end ScopeScript
