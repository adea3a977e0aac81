import ScopeScript.Format.Toml.Scalar

/-!
# Entries of TOML

A line `key = value` makes an **entry** of a table. A key with points leads
through tables below, which are made on the way; a value may be an array or a
table on one line, the entries of which are lines again. A text of several lines
is left **pending**.

The functions that read values, arrays and entries call each other with smaller
parts of a line, so that its length is always enough `fuel`.
-/

namespace ScopeScript.Toml

/-! ### Cutting a line -/

/-- Pieces put together with a character between them. -/
def joined (sep : Char) (ps : List (List Char)) : List Char := [sep].intercalate ps

/-- A line cut at the `n`-th occurrence of a character, or at the last if there
are fewer. -/
def cutAt (sep : Char) (n : Nat) (cs : List Char) : List Char × List Char :=
  let ps := pieces sep cs
  let k := min n (ps.length - 1)
  (joined sep (ps.take k), joined sep (ps.drop k))

/-- Takes pieces between double quotes as long as a single quote is open, given
the pieces between single quotes in reverse. -/
def closeSingles (singles : List (List Char)) :
    List (List Char) → List (List Char) × List (List Char)
  | [] => (singles, [])
  | next :: rest =>
    match singles with
    | last :: before =>
      if singles.length % 2 == 0 then
        closeSingles ((pieces '\'' (last ++ '"' :: next)).reverse ++ before) rest
      else (singles, next :: rest)
    | [] => (singles, next :: rest)

/-- The pieces of a line between quotes: every second one stands inside a text. -/
def quoteSplits (cs : List Char) : List (List Char) :=
  let doubles := pieces '"' cs
  let (singles, doubles) :=
    match doubles with
    | first :: next :: rest =>
      if first.contains '\'' then closeSingles (pieces '\'' first).reverse (next :: rest)
      else ([], doubles)
    | _ => ([], doubles)
  match doubles with
  | [] => singles.reverse
  | first :: rest => singles.reverse ++ pieces '\'' first ++ rest

/-- How often a text stands in another, without overlaps. `fuel` is at least the
length. -/
def countPart (part : List Char) : (fuel : Nat) → List Char → Nat
  | 0, _ => 0
  | _, [] => 0
  | fuel + 1, c :: cs =>
    if part.isPrefixOf (c :: cs) then countPart part fuel ((c :: cs).drop part.length) + 1
    else countPart part fuel cs

/-- One more than the number of marks inside quotes before the first mark outside
of them. -/
def marksBefore (mark : List Char) (quoted : Bool) (n : Nat) : List (List Char) → Nat
  | [] => n
  | p :: rest =>
    if !quoted && hasPart mark p then n
    else marksBefore mark (!quoted) (n + countPart mark p.length p) rest

/-! ### Values of several parts -/

/-- Whether a part of an array is a whole text, or nothing. -/
def isBounded (cs : List Char) : Bool :=
  match cs with
  | [] => true
  | c :: rest =>
    cs.getLast? == some c &&
      !((rest.reverse.drop 1).takeWhile (· == '\\')).length % 2 == 1

/-- Whether a part of an array begins a text between three quotes and does not
end it. -/
def isHalfTriple (cs : List Char) : Bool :=
  match cs with
  | a :: b :: c :: _ =>
    a == b && b == c &&
      match cs.reverse with
      | _ :: y :: z :: _ => y != a && z != a
      | _ => false
  | _ => false

/-- Whether a part of an array was cut inside a text. -/
def isCut (cs : List Char) : Bool := !isBounded (trimmed cs) || isHalfTriple (trimmed cs)

/-- Puts the parts of an array that were cut inside a text together again, the
first of which is `p`. A last part that has not been put together stands for
itself. -/
def mendParts (mended : Bool) (p : List Char) :
    List (List Char) → Except FormatError (List (List Char))
  | [] => if mended && isCut p then .error (.tooShort "list") else .ok [p]
  | q :: rest =>
    if isCut p then mendParts true (p ++ ',' :: q) rest
    else (mendParts false q rest).map (p :: ·)

/-- The parts of an array of arrays: a comma inside brackets does not count. -/
def arrayParts (depth : Int) (part : List Char) : List Char → List (List Char)
  | [] => [part.reverse]
  | c :: rest =>
    if c == ',' && depth == 0 then part.reverse :: arrayParts 0 [] rest
    else
      arrayParts (if c == '[' then depth + 1 else if c == ']' then depth - 1 else depth)
        (c :: part) rest

/-- The state of looking for the tables in an array. -/
structure TableSearch where
  /-- The tables found, in reverse. -/
  found : List (List Char) := []
  /-- The table being read, in reverse; between tables there is none. -/
  part : Option (List Char)
  /-- How many braces are open. -/
  depth : Nat
  /-- Whether a text is being read. -/
  inText : Bool := false

/-- One more character of an array of tables. -/
def TableSearch.step (s : TableSearch) (c : Char) : TableSearch :=
  match s.part with
  | none => if c == '{' then { s with part := some [c] } else s
  | some part =>
    let escapes := (part.takeWhile (· == '\\')).length
    let inText :=
      if c == '"' || c == '\'' then
        if s.inText then escapes % 2 == 1 else true
      else s.inText
    let depth := if !inText && c == '{' then s.depth + 1 else s.depth
    if inText || c != '}' then { s with part := some (c :: part), depth, inText }
    else if 1 < depth then { s with part := some (c :: part), depth := depth - 1, inText }
    else { s with found := (c :: part).reverse :: s.found, part := none, depth, inText }

/-- The tables in an array, given what stands between its brackets. -/
def tableParts (cs : List Char) : List (List Char) :=
  match cs with
  | [] => []
  | c :: rest =>
    let start : TableSearch := { part := some [c], depth := if c == '{' then 1 else 0 }
    (rest.foldl TableSearch.step start).found.reverse

/-- The parts of an array between its commas. -/
def itemParts (cs : List Char) : Except FormatError (List (List Char)) :=
  let body := inner 1 (trimmed cs)
  if body.contains '[' && (trimmed (body.takeWhile (· != '['))).isEmpty then
    .ok (arrayParts 0 [] body)
  else
    let parts := if (trimmed body).head? == some '{' then tableParts body else pieces ',' body
    match trimmed body, parts with
    | '"' :: _, p :: rest => mendParts false p rest
    | '\'' :: _, p :: rest => mendParts false p rest
    | _, _ => .ok parts

/-! ### Pending texts -/

/-- A text of several lines that has not ended. -/
structure Pending where
  /-- The key of its entry. -/
  key : String
  /-- What has been read of it. -/
  text : List Char
  /-- Whether the line before ends in a backslash, so that the next one is put
  right behind it. -/
  glued : Bool
deriving Repr

/-- Puts parts together from the end until the last begins with a quote. -/
def lastQuoted (last : List Char) : (before : List (List Char)) → Except FormatError (List Char)
  | [] => .ok last
  | p :: before =>
    match last with
    | [] => .error (.tooShort "string")
    | c :: _ => if c == '"' || c == '\'' then .ok last else lastQuoted (p ++ ',' :: last) before

/-- The part of a value that may begin a text of several lines: of an array that
has not ended, its last item. -/
def openPart (cs : List Char) : Except FormatError (List Char) :=
  match cs with
  | '[' :: rest =>
    let first := (trimmed (inner 1 cs)).head?
    if (trimmed cs).getLast? != some ']' && (first == some '"' || first == some '\'') then
      match (pieces ',' (trimmed rest)).reverse with
      | last :: before => lastQuoted last before
      | [] => .ok []
    else .ok cs
  | _ => .ok cs

/-- Whether a value begins a text of several lines and does not end it. -/
def isOpenText (cs : List Char) : Except FormatError Bool :=
  if cs.length < 3 then .ok false
  else do
    match ← openPart cs with
    | [] => .error (.tooShort "string")
    | a :: rest =>
      if a != '"' && a != '\'' then return false
      match rest with
      | b :: c :: _ =>
        if b != a || c != a then return false
        let part := a :: rest
        return !(5 < part.length && part.reverse.take 3 == [a, a, a])
      | [b] => if b != a then return false else .error (.tooShort "string")
      | [] => .error (.tooShort "string")

/-- The pending text that a value begins. -/
def pend (key : String) (glued : Bool) (cs : List Char) : Pending :=
  let glued := if endsEscaped cs then !glued else glued
  { key, text := if glued then cs.dropLast else cs ++ ['\n'], glued }

/-! ### Keys -/

/-- The parts of a key with points. -/
def keyParts (cs : List Char) : List (List Char) :=
  if cs.contains '"' || cs.contains '\'' then alternate false (quoteSplits cs)
  else pieces '.' cs
where
  /-- Cuts every second piece at its points. -/
  alternate (quoted : Bool) : List (List Char) → List (List Char)
    | [] => []
    | p :: rest => (if quoted then [p] else (pieces '.' p).map trimmed) ++ alternate (!quoted) rest

/-- The way that a key leads: the tables to go through, and the name at the end. -/
def keyWay (cs : List Char) : Except FormatError (List String × String) :=
  if cs.contains '.' then
    match (keyParts cs).reverse.dropWhile List.isEmpty with
    | [] => .error (.tooShort "list")
    | name :: before =>
      .ok ((before.reverse.filter fun p => !p.isEmpty).map String.ofList,
        String.ofList (trimmed name))
  else
    match cs with
    | [] => .error (.tooShort "string")
    | c :: _ =>
      if (c == '"' || c == '\'') && cs.getLast? == some c then
        .ok ([], String.ofList (inner 1 cs))
      else .ok ([], String.ofList cs)

/-- Goes through tables below a table, making those that do not exist, and
changes the one that is reached. -/
def descend {α : Type} (change : Datum → Except FormatError (Datum × α)) (level : Datum) :
    List String → Except FormatError (Datum × α)
  | [] => change level
  | name :: rest =>
    match level with
    | .map es => do
      let (next, a) ← descend change ((Datum.field? name es).getD (.map [])) rest
      return (.map (enter (.text name) next es), a)
    | .list _ => .error (.unsuitable "list indices must be integers or slices, not str")
    | .text s =>
      if hasPart name.toList s.toList then
        .error (.unsuitable "string indices must be integers, not 'str'")
      else .error (.unsuitable "'str' object does not support item assignment")
    | d => .error (.unsuitable ("argument of type '" ++ d.typeName ++ "' is not iterable"))

/-- Makes a new entry in a table. -/
def addEntry (name : String) (value : Datum) : Datum → Except FormatError Datum
  | .map es =>
    if (Datum.field? name es).isSome then .error .malformed
    else .ok (.map (enter (.text name) value es))
  | _ => .error .malformed

/-! ### Entries -/

/-- Whether a value right behind the equals sign may be one: anything else leads
on to the next equals sign. -/
def isAcceptable (cs : List Char) : Bool :=
  match cs with
  | [] => true
  | c :: _ =>
    " \t'\"[\x7b".toList.contains c || trimmed cs == "true".toList ||
      trimmed cs == "false".toList || (float? cs).isSome || isDate cs || startsWithTime cs

/-- Removes the underscores of a value that begins with a digit. -/
def withoutUnderscores (cs : List Char) : List Char :=
  match cs with
  | c :: _ => if c.isDigit then cs.filter (· != '_') else cs
  | [] => []

/-- Cuts a line at the first equals sign from the `n`-th on that an acceptable
value follows. `fuel` bounds how many are tried. -/
def cutEntry (line : List Char) : (fuel : Nat) → Nat → Except FormatError (List Char × List Char)
  | 0, _ => .error .malformed
  | fuel + 1, n =>
    let (key, value) := cutAt '=' n line
    if isAcceptable value then .ok (key, value) else cutEntry line fuel (n + 1)

/-- The key and the value of a line, and whether the value may be a number. -/
def splitEntry (line : List Char) : Except FormatError (List Char × List Char × Bool) := do
  let n := marksBefore ['='] false 1 (quoteSplits line)
  let (key, value) := cutAt '=' n line
  let legal := isLegalNumber value
  let plain := withoutUnderscores value
  let (key, value) ←
    if isAcceptable plain then .ok (key, plain) else cutEntry line line.length (n + 1)
  return (trimmed key, trimmed value, legal)

/-- The parts of a table on one line: a comma ends an entry only if its value is
whole. -/
def tableEntries (part : Option (List Char)) :
    List (List Char) → Except FormatError (List (List Char))
  | [] => if part.isSome then .error .malformed else .ok []
  | p :: rest =>
    let whole :=
      match part with
      | some q => q ++ ',' :: p
      | none => p
    if !whole.contains '=' then .error .malformed
    else
      let value := trimmed ((whole.dropWhile (· != '=')).drop 1)
      match value, value.getLast? with
      | c :: _, some d =>
        if (c == d && (c == '"' || c == '\'')) || c == '-' || c.isDigit ||
            value == "true".toList || value == "false".toList || (c == '[' && d == ']') ||
            (c == '{' && d == '}') then
          (tableEntries none rest).map (whole :: ·)
        else tableEntries (some whole) rest
      | _, _ => .error (.tooShort "string")

/-- The parts of a table on one line, between its braces. -/
def inlineParts (cs : List Char) : Except FormatError (List (List Char)) :=
  match pieces ',' (inner 1 cs) with
  | [p] => if (trimmed p).isEmpty then .ok [] else tableEntries none [p]
  | ps => tableEntries none ps

mutual

/-- A value. -/
def value (legal : Bool) : (fuel : Nat) → List Char → Except FormatError (Datum × ValueSort)
  | 0, _ => .error .malformed
  | fuel + 1, cs =>
    match cs with
    | [] => .error .malformed
    | c :: _ =>
      let word := String.ofList cs
      let lower := String.ofList (cs.map Char.toLower)
      if word == "true" then .ok (.bool true, .bool)
      else if word == "false" then .ok (.bool false, .bool)
      else if lower == "true" || lower == "false" then .error .malformed
      else if c == '"' || c == '\'' then (quotedText c cs).map fun d => (d, .text)
      else if c == '[' then do
        let parts ← itemParts cs
        let items ← array fuel none (parts.map trimmed)
        return (.list items, .array)
      else if c == '{' then do
        let parts ← inlineParts cs
        let (table, _) ← entries fuel (.map []) false parts
        return (table, .table)
      else if startsWithTime cs then
        if isTime cs then .ok (.text word, .time) else .error .malformed
      else if isDate cs then .ok (.text word, .date)
      else if !legal then .error .malformed
      else number cs

/-- The items of an array, all of the same sort. Empty parts do not count. -/
def array : (fuel : Nat) → (sort : Option ValueSort) → List (List Char) →
    Except FormatError (List Datum)
  | 0, _, _ => .error .malformed
  | _, _, [] => .ok []
  | fuel + 1, sort, p :: rest =>
    if p.isEmpty then array fuel sort rest
    else do
      let (d, found) ← value true fuel p
      if sort.any (· ≠ found) then .error .malformed
      let ds ← array fuel (some found) rest
      return d :: ds

/-- The entry of a line, put into a table; or the text that it leaves pending. -/
def entry (glued : Bool) : (fuel : Nat) → Datum → List Char →
    Except FormatError (Datum × Option Pending)
  | 0, _, _ => .error .malformed
  | fuel + 1, level, line => do
    let (key, text, legal) ← splitEntry line
    let (way, name) ← keyWay key
    descend (fun table => do
      if ← isOpenText text then
        let _ ← addEntry name .null table
        return (table, some (pend name glued text))
      else
        let (d, _) ← value legal fuel text
        let table ← addEntry name d table
        return (table, none)) level way

/-- The entries of a table on one line, put into a table. -/
def entries : (fuel : Nat) → Datum → (glued : Bool) → List (List Char) →
    Except FormatError (Datum × Option Pending)
  | 0, _, _, _ => .error .malformed
  | _, level, _, [] => .ok (level, none)
  | fuel + 1, level, glued, p :: rest => do
    let (level, pending) ← entry glued fuel level p
    if pending.isSome then return (level, none)
    entries fuel level glued rest

end

end ScopeScript.Toml
