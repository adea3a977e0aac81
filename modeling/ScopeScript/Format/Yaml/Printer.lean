import ScopeScript.Format.Basic
import ScopeScript.Format.Yaml.Style
import ScopeScript.Text.Base64

/-!
# Writing YAML

Data are written in block layout: one entry or item to a line, nested ones
indented by two blanks, except that the items of a list in a mapping stand under
their key. Empty containers are written as `[]` and `{}`. A key that is long,
empty or of several lines is announced by a question mark. A document that is
one plain scalar is followed by a mark for its end.

Collections without order and octets have a **tag** in front of them. The former
are mappings from their members to nothing, the latter a block of lines in base
64.
-/

namespace ScopeScript.Yaml

/-- Where a node stands. -/
inductive Place where
  /-- It is the document. -/
  | root
  /-- It is an item of a list. -/
  | item
  /-- It is a key, which has to fit on one line. -/
  | key
  /-- It is the value of an entry, or a key announced by a question mark. -/
  | entry
deriving DecidableEq, Repr

/-- The text of a scalar that is no text, and the length of its tag. -/
def scalarText : Datum → Option (String × Nat)
  | .null => some ("null", 6)
  | .bool b => some (if b then "true" else "false", 6)
  | .int n => some (toString n, 5)
  | .float .nan => some (".nan", 7)
  | .float (.infinity negative) => some (if negative then "-.inf" else ".inf", 7)
  | .float x =>
    let cs := x.text.toList
    let mantissa := cs.takeWhile (· != 'e')
    let exponent := cs.drop mantissa.length
    let point := !mantissa.contains '.' && !exponent.isEmpty
    some (String.ofList (mantissa ++ (if point then ['.', '0'] else []) ++ exponent), 7)
  | _ => none

/-- Keys of this length, the tag included, do not fit on one line. -/
def keyLimit : Nat := 128

/-- Whether a key fits on one line. -/
def isSimpleKey : Datum → Bool
  | .text s => s.length + 5 < keyLimit && !s.isEmpty && !(Features.of s).multiline
  | .list xs => xs.isEmpty
  | .tuple xs => xs.isEmpty
  | .map es => es.isEmpty
  | d =>
    match scalarText d with
    | some (s, tag) => s.length + tag < keyLimit
    | none => false

/-- The column of nested text: two more than that of what it stands in. -/
def nested (indent : Option Nat) : Nat :=
  match indent with
  | none => 2
  | some n => n + 2

/-- The column of a nested container; at the root it is the first. -/
def containerIndent (indent : Option Nat) (flush : Bool) : Nat :=
  match indent with
  | none => 0
  | some n => if flush then n else n + 2

/-- Writes a scalar that is no text. -/
def putScalar (p : Page) (indent : Option Nat) (place : Place) (s : String) : Page :=
  let p := if place = .root then { p with openEnded := true } else p
  putPlain p (nested indent) (place != .key) s

/-- Writes a text. -/
def putText (p : Page) (indent : Option Nat) (place : Place) (s : String) : Page :=
  let style := Style.forText s (place = .key)
  let p := if style = .plain && place = .root then { p with openEnded := true } else p
  style.put p (nested indent) (place != .key) s

/-- Writes an empty container. -/
def putEmpty (p : Page) (opening closing : String) : Page :=
  (p.indicator opening true true false).indicator closing false false false

/-- Writes a tag. -/
def putTag (p : Page) (tag : String) : Page := p.indicator ("!!" ++ tag) true false false

/-- Writes octets: lines below the current one, or an empty text. -/
def putOctets (p : Page) (indent : Option Nat) (bs : List UInt8) : Page :=
  let p := putTag p "binary"
  if bs.isEmpty then putDouble p (nested indent) false ""
  else
    (Text.base64Lines bs).foldl
      (fun p line => ((p.indentTo (nested indent)).put line).lineBreak)
      (p.indicator "|" true false false).lineBreak

/-- Whether the items of a list stand under the key they belong to. -/
def isFlush (p : Page) (place : Place) : Bool :=
  (place = .entry || place = .key) && !p.indented

/-- Where a key stands. -/
def keyPlace (k : Datum) : Place := if isSimpleKey k then .key else .entry

/-- Goes to the column of a key, and announces it if need be. -/
def beforeKey (p : Page) (column : Nat) (k : Datum) : Page :=
  let p := p.indentTo column
  if isSimpleKey k then p else p.indicator "?" true false true

/-- Writes the colon behind a key, on a line of its own if the key was
announced. -/
def afterKey (p : Page) (column : Nat) (k : Datum) : Page :=
  if isSimpleKey k then p.indicator ":" false false false
  else (p.indentTo column).indicator ":" true false true

mutual

/-- Writes a node below a given column. -/
def putNode (p : Page) (indent : Option Nat) (place : Place) : Datum → Except FormatError Page
  | .text s => .ok (putText p indent place s)
  | .list xs =>
    if xs.isEmpty then .ok (putEmpty p "[" "]")
    else putItems p (containerIndent indent (isFlush p place)) xs
  | .tuple xs =>
    if xs.isEmpty then .ok (putEmpty p "[" "]")
    else putItems p (containerIndent indent (isFlush p place)) xs
  | .map es =>
    if es.isEmpty then .ok (putEmpty p "\x7b" "\x7d")
    else putEntries p (containerIndent indent false) es
  | .set xs =>
    if xs.isEmpty then .ok (putEmpty (putTag p "set") "\x7b" "\x7d")
    else putMembers (putTag p "set") (containerIndent indent false) xs
  | .bytes bs => .ok (putOctets p indent bs)
  | d =>
    match scalarText d with
    | some (s, _) => .ok (putScalar p indent place s)
    | none => .error (.unrepresentable d.shown)

/-- Writes the items of a list at a given column. -/
def putItems (p : Page) (column : Nat) : List Datum → Except FormatError Page
  | [] => .ok p
  | x :: xs => do
    let p ← putNode ((p.indentTo column).indicator "-" true false true) (some column) .item x
    putItems p column xs

/-- Writes the entries of a mapping at a given column. -/
def putEntries (p : Page) (column : Nat) : List (Datum × Datum) → Except FormatError Page
  | [] => .ok p
  | (k, v) :: es => do
    let p ← putNode (beforeKey p column k) (some column) (keyPlace k) k
    let p ← putNode (afterKey p column k) (some column) .entry v
    putEntries p column es

/-- Writes the members of a collection without order as the keys of a mapping. -/
def putMembers (p : Page) (column : Nat) : List Datum → Except FormatError Page
  | [] => .ok p
  | x :: xs => do
    let p ← putNode (beforeKey p column x) (some column) (keyPlace x) x
    putMembers (putScalar (afterKey p column x) (some column) .entry "null") column xs

end

/-- A datum as a YAML document. -/
def write (d : Datum) : Except FormatError String := do
  let p ← putNode {} none .root d
  let p := p.indentTo 0
  let p := if p.openEnded then (p.indicator "..." true false false).indentTo 0 else p
  return p.text

end ScopeScript.Yaml
