import ScopeScript.Format.Basic
import ScopeScript.Text.Lines

/-!
# Writing TOML

A mapping is written as a **table**: first the entries that are no tables, then
the lists of tables, each of whose members has a header of its own between
double brackets, and last the tables below it, level by level. Entries without a
value are left out.
-/

namespace ScopeScript.Toml

/-! ### Texts -/

/-- The parts of a text between the occurrences of a two-digit escape mark. -/
def escapeParts (piece : List Char) : List Char → List (List Char)
  | [] => [piece.reverse]
  | '\\' :: 'x' :: rest => piece.reverse :: escapeParts [] rest
  | c :: rest => escapeParts (c :: piece) rest

/-- A text in which every pair of backslashes is one. -/
def mergeBackslashes : List Char → List Char
  | [] => []
  | '\\' :: '\\' :: rest => '\\' :: mergeBackslashes rest
  | c :: rest => c :: mergeBackslashes rest

/-- Whether the mark behind a text is a letter that stands for itself: that is so
unless the text ends in an even number of backslashes, or in nothing else than
an odd number of them. -/
def isPlainMark (cs : List Char) : Bool :=
  let n := (cs.reverse.takeWhile (· == '\\')).length
  if n == 0 then true
  else if n == cs.length then n % 2 == 0
  else n % 2 == 1

/-- Joins the parts around two-digit escape marks again, with longer marks where
there are backslashes for them. A mark at the very beginning is dropped, and
there has to be another one then. -/
def joinParts (done : List Char) : List (List Char) → Except FormatError (List Char)
  | [] => .ok done
  | part :: rest =>
    if done.isEmpty then
      match rest with
      | [] => .error (.tooShort "list")
      | next :: rest' =>
        let part := mergeBackslashes part
        joinParts (part ++ (if isPlainMark part then ['x'] else ['u', '0', '0']) ++ next) rest'
    else
      let done := mergeBackslashes done
      joinParts (done ++ (if isPlainMark done then ['x'] else ['u', '0', '0']) ++ part) rest

/-- The inside of a quoted text, prepared for double quotes: of the backslashes
in front of single quotes nothing is left, and double quotes get one. -/
def requote : List Char → List Char
  | [] => []
  | '\\' :: '\'' :: rest => '\'' :: requote rest
  | '"' :: rest => '\\' :: '"' :: requote rest
  | c :: rest => c :: requote rest

/-- Puts double quotes around what shows a datum, instead of quotes that are
there. -/
def doubleQuoted (shown : String) : Except FormatError String := do
  let cs := shown.toList
  let inner :=
    match cs with
    | '\'' :: rest => requote rest.dropLast
    | '"' :: rest => rest.dropLast
    | _ => cs
  match escapeParts [] inner with
  | first :: rest => do
    let text ← joinParts first rest
    return String.ofList ('"' :: text ++ ['"'])
  | [] => return "\"\""

/-- The characters of keys that need no quotes. -/
def isKeyChar (c : Char) : Bool := c.isAlphanum || c == '_' || c == '-'

/-- Whether a key needs no quotes. A line feed at its end does not count. -/
def isBareKey (key : String) : Bool :=
  let cs := key.toList
  let cs := if cs.getLast? == some '\n' then cs.dropLast else cs
  !cs.isEmpty && cs.all isKeyChar

/-- A key as it is written. -/
def keyText (key : String) : Except FormatError String :=
  if isBareKey key then .ok key else doubleQuoted (Text.quoted key)

/-! ### Values -/

/-- The text of a double; an exponent is written without its leading zero. -/
def floatText (x : Number.Double) : String :=
  let cs := x.text.toList
  let mantissa := cs.takeWhile (· != 'e')
  match cs.drop mantissa.length with
  | e :: sign :: '0' :: rest => String.ofList (mantissa ++ e :: sign :: rest)
  | _ => x.text

/-- Items between brackets, each followed by a comma. -/
def listText (items : List String) : String :=
  "[" ++ String.join (items.map fun s => " " ++ s ++ ",") ++ "]"

mutual

/-- A value as it is written behind an equals sign. A mapping inside a list is
written as the list of its keys, and anything unknown as the text that shows it. -/
def valueText : Datum → Except FormatError String
  | .text s => doubleQuoted (Text.quoted s)
  | .bool b => .ok (if b then "true" else "false")
  | .int n => .ok (toString n)
  | .float x => .ok (floatText x)
  | .list xs => (itemTexts xs).map listText
  | .tuple xs => (itemTexts xs).map listText
  | .set xs => (itemTexts xs).map listText
  | .map es => (keyTexts es).map listText
  | .bytes bs => .ok (listText (bs.map fun b => toString b.toNat))
  | .null => doubleQuoted Datum.null.shown
  | .foreign o => doubleQuoted o.shown
  | .value v => doubleQuoted v.constructor

/-- The items of a list as they are written. -/
def itemTexts : List Datum → Except FormatError (List String)
  | [] => .ok []
  | x :: xs => do
    let s ← valueText x
    let ss ← itemTexts xs
    return s :: ss

/-- The keys of a mapping, written as values. -/
def keyTexts : List (Datum × Datum) → Except FormatError (List String)
  | [] => .ok []
  | (k, _) :: es => do
    let s ← valueText k
    let ss ← keyTexts es
    return s :: ss

end

/-! ### Tables -/

/-- Whether a datum is a mapping. -/
def isMap : Datum → Bool
  | .map _ => true
  | _ => false

/-- What is written of a table so far. -/
structure TableText where
  /-- Entries that are no tables. -/
  entries : String := ""
  /-- Lists of tables. -/
  rows : String := ""
  /-- The tables below, by the way they are named from here. -/
  tables : List (String × Datum) := []

/-- Why a datum that stands among tables is none, unless it is empty. -/
def tableFault? : Datum → Option FormatError
  | .map _ => none
  | .text s =>
    if s.isEmpty then none else some (.unsuitable "string indices must be integers, not 'str'")
  | .list xs =>
    if xs.isEmpty then none
    else some (.unsuitable "list indices must be integers or slices, not str")
  | .tuple xs =>
    if xs.isEmpty then none
    else some (.unsuitable "tuple indices must be integers or slices, not str")
  | .bytes bs =>
    if bs.isEmpty then none
    else some (.unsuitable "byte indices must be integers or slices, not str")
  | .set xs => if xs.isEmpty then none else some (.unsuitable "'set' object is not subscriptable")
  | d => some (.unsuitable ("'" ++ d.typeName ++ "' object is not iterable"))

/-- The entries of a datum that stands where a table is needed. -/
def entriesOf (d : Datum) : Except FormatError (List (Datum × Datum)) :=
  match d, tableFault? d with
  | _, some e => .error e
  | .map es, none => .ok es
  | _, none => .ok []

/-- A key at the end of a way. -/
def below (path key : String) : String := if path.isEmpty then key else path ++ "." ++ key

/-- A header line between brackets. -/
def header (path : String) : String := "[" ++ path ++ "]\n"

mutual

/-- How deep data are nested. -/
def nesting : Datum → Nat
  | .list xs => nestingItems xs + 1
  | .map es => nestingEntries es + 1
  | _ => 0

/-- How deep the items of a list are nested. -/
def nestingItems : List Datum → Nat
  | [] => 0
  | x :: xs => max (nesting x) (nestingItems xs)

/-- How deep the values of a mapping are nested. -/
def nestingEntries : List (Datum × Datum) → Nat
  | [] => 0
  | (_, x) :: es => max (nesting x) (nestingEntries es)

end

/-- How the table at a given way is written. -/
abbrev TableWriter : Type := String → Datum → Except FormatError TableText

/-- One level of tables below that at a way: the text of those that have entries,
and the tables of the next level. -/
def levelText (write : TableWriter) (path : String) :
    List (String × Datum) → Except FormatError (String × List (String × Datum))
  | [] => .ok ("", [])
  | (key, d) :: rest => do
    let t ← write (below path key) d
    let (text, deeper) ← levelText write path rest
    let own := if t.entries.isEmpty then "" else header (below path key) ++ t.entries
    return (own ++ text, (t.tables.map fun (k, x) => (below key k, x)) ++ deeper)

/-- All tables below that at a way, level by level; `fuel` bounds how many
levels there are. -/
def nestedText (write : TableWriter) (path : String) :
    (fuel : Nat) → List (String × Datum) → Except FormatError String
  | 0, _ => .ok ""
  | fuel + 1, tables =>
    if tables.isEmpty then .ok ""
    else do
      let (text, deeper) ← levelText write path tables
      let rest ← nestedText write path fuel deeper
      return text ++ rest

/-- The members of a list of tables, each with all tables below it. A blank line
follows the entries of a member. -/
def rowTexts (write : TableWriter) (fuel : Nat) (path : String) :
    List Datum → Except FormatError String
  | [] => .ok ""
  | x :: xs => do
    let t ← write path x
    let nested ← nestedText write path fuel t.tables
    let body :=
      if t.entries.toList.head? == some '[' then "\n" ++ t.entries else t.entries ++ "\n"
    let rest ← rowTexts write fuel path xs
    return "[" ++ "[" ++ path ++ "]" ++ "]\n" ++ body ++ nested ++ rest

/-- Adds an entry that is no table. -/
def TableText.addEntry (t : TableText) (key text : String) : TableText :=
  { t with entries := t.entries ++ key ++ " = " ++ text ++ "\n" }

/-- Adds what is written for some of the entries of the table `all`. -/
def entryTexts (rows : String → List Datum → Except FormatError String) (path : String)
    (all : List (Datum × Datum)) (done : TableText) :
    List (Datum × Datum) → Except FormatError TableText
  | [] => .ok done
  | (k, _) :: todo => do
    let name := k.plain
    let key ← keyText name
    let done ←
      match Datum.field? name all with
      | none => .error (.noEntry name)
      | some .null => .ok done
      | some (.map es) => .ok { done with tables := enter key (Datum.map es) done.tables }
      | some (.list xs) =>
        if xs.any isMap then
          (rows (below path key) xs).map fun text => { done with rows := done.rows ++ text }
        else (valueText (.list xs)).map (done.addEntry key)
      | some x => (valueText x).map (done.addEntry key)
    entryTexts rows path all done todo

/-- The table at a way, with the tables below it left to the caller. Lists of
tables come after all other entries. `fuel` bounds the nesting. -/
def tableText : (fuel : Nat) → TableWriter
  | 0 => fun _ _ => .ok {}
  | fuel + 1 => fun path d => do
    let es ← entriesOf d
    let t ← entryTexts (rowTexts (tableText fuel) (fuel + 1)) path es {} es
    return { t with entries := t.entries ++ t.rows, rows := "" }

/-! ### Documents -/

/-- Adds one level of tables to a document, and returns those of the next. A
table has a header if it has entries or if nothing is below it either; a blank
line stands before it. -/
def addLevel (write : TableWriter) (doc : String) :
    List (String × Datum) → Except FormatError (String × List (String × Datum))
  | [] => .ok (doc, [])
  | (key, d) :: rest => do
    let t ← write key d
    let doc :=
      if t.entries.isEmpty && !t.tables.isEmpty then doc
      else
        let gap :=
          if doc.isEmpty || doc.toList.reverse.take 2 == ['\n', '\n'] then "" else "\n"
        doc ++ gap ++ header key ++ t.entries
    let (doc, deeper) ← addLevel write doc rest
    return (doc, (t.tables.map fun (k, x) => (below key k, x)) ++ deeper)

/-- Adds tables level by level; `fuel` bounds how many levels there are. -/
def addLevels (write : TableWriter) (doc : String) :
    (fuel : Nat) → List (String × Datum) → Except FormatError String
  | 0, _ => .ok doc
  | fuel + 1, tables =>
    if tables.isEmpty then .ok doc
    else do
      let (doc, deeper) ← addLevel write doc tables
      addLevels write doc fuel deeper

/-- A mapping as a TOML document. -/
def write (d : Datum) : Except FormatError String := do
  let fuel := nesting d + 1
  let t ← tableText fuel "" d
  addLevels (tableText fuel) t.entries fuel t.tables

end ScopeScript.Toml
