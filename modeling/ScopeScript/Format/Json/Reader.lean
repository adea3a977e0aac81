import ScopeScript.Datum.Basic
import ScopeScript.Number.Written
import ScopeScript.Text.Hex

/-!
# Reading JSON

A strict reader, with two liberties: the names of the doubles that are no
numbers are understood, and of entries with the same key the last counts. A
number with a point or an exponent is a double, any other an integer of any
size.

Each reading function takes the characters that are left and returns what it
read with those after it. Where containers nest, `fuel` bounds the depth; the
length of the document is always enough.
-/

namespace ScopeScript.Json

/-- Skips white space, which has four characters in JSON. -/
def skipSpace (cs : List Char) : List Char :=
  cs.dropWhile fun c => c == ' ' || c == '\t' || c == '\n' || c == '\r'

/-- Four hexadecimal digits. -/
def hex4 (cs : List Char) : Option (Nat × List Char) :=
  (Text.takeHex? 4 cs).map fun n => (n, cs.drop 4)

/-- The character for a code unit. Half of a pair that stands alone is replaced. -/
def unitChar (n : Nat) : Char :=
  if 0xD800 ≤ n && n < 0xE000 then Char.ofNat 0xFFFD else Char.ofNat n

/-- A character after the escape for code units; two units may make up one. -/
def unicodeEscape (cs : List Char) : Option (Char × List Char) := do
  let (high, rest) ← hex4 cs
  if 0xD800 ≤ high && high < 0xDC00 then
    match rest with
    | '\\' :: 'u' :: rest' =>
      match hex4 rest' with
      | some (low, rest'') =>
        if 0xDC00 ≤ low && low < 0xE000 then
          return (Char.ofNat (0x10000 + (high - 0xD800) * 1024 + (low - 0xDC00)), rest'')
        else return (unitChar high, rest)
      | none => return (unitChar high, rest)
    | _ => return (unitChar high, rest)
  else return (unitChar high, rest)

/-- A character after a backslash. -/
def escape : List Char → Option (Char × List Char)
  | '"' :: rest => some ('"', rest)
  | '\\' :: rest => some ('\\', rest)
  | '/' :: rest => some ('/', rest)
  | 'b' :: rest => some ('\x08', rest)
  | 'f' :: rest => some ('\x0c', rest)
  | 'n' :: rest => some ('\n', rest)
  | 'r' :: rest => some ('\r', rest)
  | 't' :: rest => some ('\t', rest)
  | 'u' :: rest => unicodeEscape rest
  | _ => none

/-- The rest of a text after its opening quote. `done` holds, in reverse, what
came before, and `fuel` is at least the number of characters left. -/
def textFrom (done : List Char) : (fuel : Nat) → List Char → Option (String × List Char)
  | 0, _ => none
  | _, [] => none
  | fuel + 1, c :: rest =>
    if c == '"' then some (String.ofList done.reverse, rest)
    else if c == '\\' then do
      let (d, rest') ← escape rest
      textFrom (d :: done) fuel rest'
    else if c.toNat < 0x20 then none
    else textFrom (c :: done) fuel rest

/-- The digits of the whole part of a number: a zero stands alone. -/
def wholePart : List Char → Option (List Char × List Char)
  | '0' :: rest => some (['0'], rest)
  | cs =>
    let (ds, rest) := Number.takeDigits cs
    if ds.isEmpty then none else some (ds, rest)

/-- An optional fraction: a point and at least one digit. -/
def fractionPart (cs : List Char) : List Char × List Char :=
  match cs with
  | '.' :: rest =>
    let (ds, rest') := Number.takeDigits rest
    if ds.isEmpty then ([], cs) else ('.' :: ds, rest')
  | _ => ([], cs)

/-- An optional exponent: its letter, a sign if there is one, and at least one
digit. -/
def exponentPart (cs : List Char) : List Char × List Char :=
  match cs with
  | e :: rest =>
    if e == 'e' || e == 'E' then
      let (sign, rest') :=
        match rest with
        | '-' :: r => (['-'], r)
        | '+' :: r => (['+'], r)
        | r => ([], r)
      let (ds, rest'') := Number.takeDigits rest'
      if ds.isEmpty then ([], cs) else (e :: sign ++ ds, rest'')
    else ([], cs)
  | [] => ([], cs)

/-- A number without its sign. -/
def unsigned (negative : Bool) (cs : List Char) : Option (Datum × List Char) := do
  let (whole, rest) ← wholePart cs
  let (frac, rest) := fractionPart rest
  let (exp, rest) := exponentPart rest
  if frac.isEmpty && exp.isEmpty then
    let n : Int := (Number.digitsValue whole : Nat)
    return (.int (if negative then -n else n), rest)
  else
    let x ← Number.readUnsigned negative (whole ++ frac ++ exp)
    return (.float x, rest)

/-- What follows a word that a text begins with. -/
def afterWord? (word : String) (cs : List Char) : Option (List Char) :=
  if word.toList.isPrefixOf cs then some (cs.drop word.length) else none

/-- A datum that contains no other. -/
def scalar (cs : List Char) : Option (Datum × List Char) :=
  match cs with
  | '"' :: rest => (textFrom [] (rest.length + 1) rest).map fun (s, r) => (.text s, r)
  | 'n' :: _ => (afterWord? "null" cs).map fun r => (.null, r)
  | 't' :: _ => (afterWord? "true" cs).map fun r => (.bool true, r)
  | 'f' :: _ => (afterWord? "false" cs).map fun r => (.bool false, r)
  | 'N' :: _ => (afterWord? "NaN" cs).map fun r => (.float .nan, r)
  | 'I' :: _ => (afterWord? "Infinity" cs).map fun r => (.float (.infinity false), r)
  | '-' :: rest =>
    match afterWord? "Infinity" rest with
    | some r => some (.float (.infinity true), r)
    | none => unsigned true rest
  | _ => unsigned false cs

mutual

/-- Any datum. -/
def datum : (fuel : Nat) → List Char → Option (Datum × List Char)
  | 0, _ => none
  | fuel + 1, cs =>
    match cs with
    | '[' :: rest =>
      match skipSpace rest with
      | ']' :: rest' => some (.list [], rest')
      | rest' => items fuel [] rest'
    | '{' :: rest =>
      match skipSpace rest with
      | '}' :: rest' => some (.map [], rest')
      | rest' => entries fuel [] rest'
    | _ => scalar cs

/-- The items of a list from the next one on; `done` holds those before, in
reverse. -/
def items : (fuel : Nat) → (done : List Datum) → List Char → Option (Datum × List Char)
  | 0, _, _ => none
  | fuel + 1, done, cs => do
    let (x, rest) ← datum fuel cs
    match skipSpace rest with
    | ',' :: rest' => items fuel (x :: done) (skipSpace rest')
    | ']' :: rest' => return (.list (x :: done).reverse, rest')
    | _ => none

/-- The entries of a mapping from the next one on; `done` holds those before, in
reverse. -/
def entries : (fuel : Nat) → (done : List (Datum × Datum)) → List Char → Option (Datum × List Char)
  | 0, _, _ => none
  | fuel + 1, done, cs =>
    match cs with
    | '"' :: rest => do
      let (key, rest) ← textFrom [] (rest.length + 1) rest
      match skipSpace rest with
      | ':' :: rest => do
        let (x, rest) ← datum fuel (skipSpace rest)
        match skipSpace rest with
        | ',' :: rest => entries fuel ((.text key, x) :: done) (skipSpace rest)
        | '}' :: rest => return (Datum.ofEntries ((.text key, x) :: done).reverse, rest)
        | _ => none
      | _ => none
    | _ => none

end

/-- The datum that a JSON document holds. -/
def read (s : String) : Option Datum :=
  let cs := skipSpace s.toList
  match datum (2 * cs.length + 1) cs with
  | some (d, rest) => if (skipSpace rest).isEmpty then some d else none
  | none => none

end ScopeScript.Json
