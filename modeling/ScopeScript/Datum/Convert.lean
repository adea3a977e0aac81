import ScopeScript.Datum.Display

/-!
# Between values and host data

A value becomes plain data by `Value.toDatum`, where a function becomes a text
that says so. Data become a value by `Value.ofDatum`, unless there is an integer
too wide for 64 bits among them, or octets, a collection without order, or an
object that cannot be called. The error is that of the **first** such datum from
left to right, inner ones before what follows them. An error about an integer
names it, and keys are written out before their values are converted; where an
integer is too long to be written, that is the error (`ConversionError.unwritable`).

`Value.make` makes a value of a given kind from a datum of the kind's own type
and refuses any other, with nothing converted. However deep data are nested, they
are gone through: the limit of the host on the depth of recursion is left out.
-/

namespace ScopeScript

/-- Why a datum does not make a value. -/
inductive ConversionError where
  /-- A datum of another type than the kind of value holds. -/
  | wrongPayload (kind : ValueKind) (found : String)
  /-- An integer outside 64 bits. -/
  | tooWide (number : Int)
  /-- An integer that would have to be written out and has too many digits. -/
  | unwritable
  /-- A key of an object that is no text. -/
  | keyNotText (found : String)
  /-- An entry of an object that is no value. -/
  | entryNotValue (key : String)
  /-- An item of an array that is no value. -/
  | itemNotValue
  /-- A datum that no value stands for. -/
  | inconvertible (found : String)
  /-- A datum that has no items to go through. -/
  | notIterable (found : String)
  /-- An item that is no pair of key and value, since it has no items. -/
  | notSequence (position : Nat)
  /-- An item that is no pair of key and value, since its length is wrong. -/
  | notPair (position length : Nat)
  /-- A datum that cannot be a key. -/
  | unhashable (found : String)
  /-- A value that cannot be a key. -/
  | unhashableKind (kind : ValueKind)
deriving DecidableEq, Repr

namespace ConversionError

/-- The type of datum that a kind of value is made from. -/
def payloadName : ValueKind → String
  | .string => "str"
  | .integer => "int"
  | .double => "float"
  | .boolean => "bool"
  | k => k.text

/-- The wording of an error. -/
def message : ConversionError → String
  | wrongPayload kind found =>
    kind.text ++ " value expects " ++ payloadName kind ++ ", not " ++ found
  | tooWide n => "integer " ++ toString n ++ " does not fit in 64 bits"
  | unwritable => Datum.limitMessage
  | keyNotText found => "object keys must be str, not " ++ found
  | entryNotValue key => "object entry " ++ Text.quoted key ++ " is not a Value"
  | itemNotValue => "array items must be Values"
  | inconvertible found => "cannot convert " ++ found ++ " to a script value"
  | notIterable found => "'" ++ found ++ "' object is not iterable"
  | notSequence i =>
    "cannot convert dictionary update sequence element #" ++ toString i ++ " to a sequence"
  | notPair i n =>
    "dictionary update sequence element #" ++ toString i ++ " has length " ++ toString n ++
      "; 2 is required"
  | unhashable found => "unhashable type: '" ++ found ++ "'"
  | unhashableKind kind => "unhashable value kind: " ++ kind.text

end ConversionError

namespace Value

mutual

/-- The plain data that a value stands for. -/
def toDatum : Value → Datum
  | string s => .text s
  | object entries => .map (toDatumEntries entries)
  | array items => .list (toDatumItems items)
  | integer n => .int n.toInt
  | double x => .float x
  | boolean b => .bool b
  | function => .text "<function>"
  | none => .null

/-- The plain data that the items of an array stand for. -/
def toDatumItems : List Value → List Datum
  | [] => []
  | v :: rest => toDatum v :: toDatumItems rest

/-- The plain data that the entries of an object stand for. -/
def toDatumEntries : List (String × Value) → List (Datum × Datum)
  | [] => []
  | (k, v) :: rest => (.text k, toDatum v) :: toDatumEntries rest

end

/-- Why an integer does not make a value. The error names it, if it can be written out. -/
def widthError (n : Int) : ConversionError :=
  if Datum.canWrite n then .tooWide n else .unwritable

/-- The integer value of a number that fits in 64 bits. -/
def ofInt (n : Int) : Except ConversionError Value :=
  if fits n then .ok (integer (Int64.ofInt n)) else .error (widthError n)

/-- The key that a datum is written as. -/
def keyOf (key : Datum) : Except ConversionError String :=
  if key.isWritable then .ok key.plain else .error .unwritable

mutual

/-- The value that plain data stand for. -/
def ofDatum : Datum → Except ConversionError Value
  | .null => .ok none
  | .bool b => .ok (boolean b)
  | .int n => ofInt n
  | .float x => .ok (double x)
  | .text s => .ok (string s)
  | .list xs => (ofDatumItems xs).map array
  | .tuple xs => (ofDatumItems xs).map array
  | .map es => (ofDatumEntries es).map ofEntries
  | .foreign o => if o.callable then .ok function else .error (.inconvertible o.typeName)
  | .value v => .ok v
  | .bytes bs => .error (.inconvertible (Datum.bytes bs).typeName)
  | .set xs => .error (.inconvertible (Datum.set xs).typeName)

/-- The values that the items of a list stand for. -/
def ofDatumItems : List Datum → Except ConversionError (List Value)
  | [] => .ok []
  | x :: xs => do
    let v ← ofDatum x
    let vs ← ofDatumItems xs
    return v :: vs

/-- The values that the entries of a mapping stand for. Each key is written out
before its value is converted. -/
def ofDatumEntries : List (Datum × Datum) → Except ConversionError (List (String × Value))
  | [] => .ok []
  | (k, x) :: es => do
    let key ← keyOf k
    let v ← ofDatum x
    let vs ← ofDatumEntries es
    return (key, v) :: vs

end

/-! ### Making a value of a given kind -/

/-- The script value that a datum is, if it is one. -/
def asValue? : Datum → Option Value
  | .value v => some v
  | _ => Option.none

/-- Whether a datum can be a key, or what stands against it. -/
def keyFault? : Datum → Option ConversionError
  | .list xs => some (.unhashable (Datum.list xs).typeName)
  | .set xs => some (.unhashable (Datum.set xs).typeName)
  | .map es => some (.unhashable (Datum.map es).typeName)
  | .value v => if v.isScalar then Option.none else some (.unhashableKind v.kind)
  | _ => Option.none

/-- The pairs of key and value that items stand for, the first of which is at
the given position. -/
def pairsOf (position : Nat) : List Datum → Except ConversionError (List (Datum × Datum))
  | [] => .ok []
  | x :: rest =>
    match x.items? with
    | Option.none => .error (.notSequence position)
    | some [k, v] =>
      match keyFault? k with
      | some e => .error e
      | Option.none => do
        let pairs ← pairsOf (position + 1) rest
        return (k, v) :: pairs
    | some parts => .error (.notPair position parts.length)

/-- The entries of the mapping that a datum is, or is a list of pairs for. -/
def entriesOf : Datum → Except ConversionError (List (Datum × Datum))
  | .map es => .ok es
  | d =>
    match d.items? with
    | Option.none => .error (.notIterable d.typeName)
    | some xs => (pairsOf 0 xs).map enterAll

/-- An object entry made from a datum for its key and one for its value. -/
def entryOf : Datum × Datum → Except ConversionError (String × Value)
  | (.text k, .value v) => .ok (k, v)
  | (.text k, _) => .error (.entryNotValue k)
  | (k, _) => .error (.keyNotText k.typeName)

/-- An array item made from a datum. -/
def itemOf : Datum → Except ConversionError Value
  | .value v => .ok v
  | _ => .error .itemNotValue

/-- Makes a value of a kind from a datum of the kind's own type. Anything that
does not count as true makes an empty object or array. -/
def make : ValueKind → Datum → Except ConversionError Value
  | .string, .text s => .ok (string s)
  | .integer, .int n => ofInt n
  | .double, .float x => .ok (double x)
  | .boolean, .bool b => .ok (boolean b)
  | .function, _ => .ok function
  | .none, _ => .ok none
  | .object, d => do
    if !d.isTruthy then return object []
    let entries ← (← entriesOf d).mapM entryOf
    return ofEntries entries
  | .array, d => do
    if !d.isTruthy then return array []
    match d.items? with
    | Option.none => .error (.notIterable d.typeName)
    | some xs => (xs.mapM itemOf).map array
  | kind, d => .error (.wrongPayload kind d.typeName)

end Value

end ScopeScript
