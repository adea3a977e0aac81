import ScopeScript.Format.Toml.Entry
import ScopeScript.Format.Toml.Screen

/-!
# Reading TOML

A document is read line by line. A **header** between brackets says to which
table the entries below it belong; between double brackets it adds a member to a
list of tables. Tables that a header only passes through may get a header of
their own later, once; any other table has only one.
-/

namespace ScopeScript.Toml

/-- A step on the way to the current table. -/
inductive Step where
  /-- To the entry with a name. -/
  | entry (name : String)
  /-- To the last item of a list. -/
  | last
deriving DecidableEq, Repr

/-- What stands at the end of a way. -/
def follow? (d : Datum) : List Step → Option Datum
  | [] => some d
  | .entry name :: rest =>
    match d with
    | .map es => (Datum.field? name es).bind fun x => follow? x rest
    | _ => none
  | .last :: rest =>
    match d with
    | .list xs => xs.getLast?.bind fun x => follow? x rest
    | _ => none

/-- Replaces what stands at the end of a way. -/
def replaceAt (new : Datum) (d : Datum) : List Step → Datum
  | [] => new
  | .entry name :: rest =>
    match d with
    | .map es =>
      match Datum.field? name es with
      | some x => .map (enter (.text name) (replaceAt new x rest) es)
      | none => d
    | _ => d
  | .last :: rest =>
    match d with
    | .list xs =>
      match xs.getLast? with
      | some x => .list (xs.dropLast ++ [replaceAt new x rest])
      | none => d
    | _ => d

/-- What has been read of a document. -/
structure Document where
  /-- The tables. -/
  root : Datum := .map []
  /-- The way to the current table. -/
  way : List Step := []
  /-- The names of tables that headers only passed through. -/
  implicit : List String := []
  /-- The text that has not ended. -/
  pending : Option Pending := none

namespace Document

/-- What stands at the current way. -/
def current (doc : Document) : Datum := (follow? doc.root doc.way).getD (.map [])

/-- Replaces what stands at the current way. -/
def setCurrent (doc : Document) (d : Datum) : Document :=
  { doc with root := replaceAt d doc.root doc.way }

/-! ### Headers -/

/-- Puts the parts of a name between quotes together that were cut at points. -/
def mendName (name : List Char) :
    List (List Char) → Except FormatError (List Char × List (List Char))
  | [] =>
    if isWhole name then .ok (inner 1 name, []) else .error .malformed
  | p :: rest =>
    if isWhole name then .ok (inner 1 name, p :: rest)
    else mendName (trimmed (name ++ '.' :: p)) rest
where
  /-- Whether a name ends with the quote that it begins with. -/
  isWhole (cs : List Char) : Bool := 1 < cs.length && cs.head? == cs.getLast?

/-- The names in a header. `fuel` is at least the number of parts. -/
def headerNames : (fuel : Nat) → List (List Char) → Except FormatError (List String)
  | 0, _ => .ok []
  | _, [] => .ok []
  | fuel + 1, p :: rest => do
    let p := trimmed p
    match p with
    | c :: _ =>
      if c == '"' || c == '\'' then
        let (name, rest) ← mendName p rest
        let names ← headerNames fuel rest
        return String.ofList name :: names
      else if p.all fun c => c.isAlphanum || c == '_' || c == '-' then
        let names ← headerNames fuel rest
        return String.ofList p :: names
      else .error .malformed
    | [] => .error .malformed

/-- A text cut at the `n`-th occurrence of a mark; none if there are fewer. -/
def cutAtMark? (mark : List Char) : (n fuel : Nat) → List Char → Option (List Char × List Char)
  | 0, _, cs => some ([], cs)
  | _, 0, _ => none
  | _, _, [] => none
  | n + 1, fuel + 1, c :: cs =>
    if mark.isPrefixOf (c :: cs) then
      let rest := (c :: cs).drop mark.length
      if n = 0 then some ([], rest)
      else (cutAtMark? mark n fuel rest).map fun (a, b) => (mark ++ a, b)
    else (cutAtMark? mark (n + 1) fuel cs).map fun (a, b) => (c :: a, b)

/-- The names in a header line behind its opening brackets. Nothing may follow
the closing ones. -/
def readHeader (mark line : List Char) : Except FormatError (List String) :=
  let n := marksBefore mark false 1 (quoteSplits line)
  match cutAtMark? mark n (line.length + 1) line with
  | some (names, rest) =>
    if (trimmed rest).isEmpty then
      let parts := pieces '.' names
      headerNames parts.length parts
    else .error .malformed
  | none => .error .malformed

/-- A new table for a header that ends here, a list with it for a member. -/
def fresh (isLast rows : Bool) : Datum := if isLast && rows then .list [.map []] else .map []

/-- Enters a table that exists already under the name at the end of a header. -/
def reenter (doc : Document) (name : String) (rows : Bool) (way : List Step) (found : Datum) :
    Except FormatError Document :=
  if doc.implicit.contains name then
    if rows then .error .malformed else .ok { doc with implicit := doc.implicit.erase name }
  else if rows then
    match found with
    | .list xs => .ok { doc with root := replaceAt (.list (xs ++ [.map []])) doc.root way }
    | d => .error (.notExtensible d.typeName)
  else .error .malformed

/-- The way into what stands under a name: of a list of members, into the last. -/
def stepInto (doc : Document) (rows : Bool) (way : List Step) : Except FormatError Document :=
  if !rows then .ok { doc with way }
  else
    match follow? doc.root way with
    | some (.list xs) =>
      if xs.isEmpty then .error (.tooShort "list") else .ok { doc with way := way ++ [.last] }
    | some (.map _) => .ok { doc with way }
    | some (.text s) => if s.isEmpty then .error (.tooShort "string") else .ok { doc with way }
    | some d => .error (.unsuitable ("'" ++ d.typeName ++ "' object is not subscriptable"))
    | none => .ok { doc with way }

/-- Goes one name further on the way that a header describes. -/
def enterName (doc : Document) (name : String) (isLast rows : Bool) : Except FormatError Document :=
  let target := doc.way ++ [.entry name]
  match doc.current with
  | .map es =>
    match Datum.field? name es with
    | some found => do
      let doc ← if isLast then doc.reenter name rows target found else .ok doc
      doc.stepInto rows target
    | none =>
      let doc := doc.setCurrent (.map (enter (.text name) (fresh isLast rows) es))
      let doc := if isLast then doc else { doc with implicit := doc.implicit ++ [name] }
      doc.stepInto rows target
  | .list xs =>
    match xs.getLast? with
    | none => .error (.tooShort "list")
    | some (.map es) =>
      let inside : Document := { doc with way := doc.way ++ [Step.last] }
      let doc :=
        if (Datum.field? name es).isSome then inside
        else inside.setCurrent (.map (enter (.text name) (fresh isLast rows) es))
      doc.stepInto rows (doc.way ++ [Step.entry name])
    | some (.list _) => .error (.unsuitable "list indices must be integers or slices, not str")
    | some (.text s) =>
      if hasPart name.toList s.toList then
        .error (.unsuitable "string indices must be integers, not 'str'")
      else .error (.unsuitable "'str' object does not support item assignment")
    | some d => .error (.unsuitable ("argument of type '" ++ d.typeName ++ "' is not iterable"))
  | .text s =>
    match s.toList.getLast? with
    | none => .error (.tooShort "string")
    | some c =>
      if hasPart name.toList [c] then
        .error (.unsuitable "string indices must be integers, not 'str'")
      else .error (.unsuitable "'str' object does not support item assignment")
  | d => .error (.unsuitable ("'" ++ d.typeName ++ "' object is not subscriptable"))

/-- Goes the whole way that a header describes. -/
def enterNames (doc : Document) (rows : Bool) : List String → Except FormatError Document
  | [] => .ok doc
  | name :: rest => do
    if name.isEmpty then .error .malformed
    let doc ← doc.enterName name rest.isEmpty rows
    doc.enterNames rows rest

/-- A header line. -/
def header (doc : Document) (line : List Char) : Except FormatError Document := do
  let (rows, names) ←
    match line with
    | '[' :: '[' :: rest => (readHeader [']', ']'] rest).map fun ns => (true, ns)
    | [_] => .error .malformed
    | _ => (readHeader [']'] (line.drop 1)).map fun ns => (false, ns)
  { doc with way := [] }.enterNames rows names

/-! ### Lines -/

/-- Whether a line ends the text that is pending. -/
def endsPending (text line : List Char) : Except FormatError Bool :=
  match text with
  | [] => .error (.tooShort "string")
  | '[' :: _ =>
    match line.getLast? with
    | none => .error (.tooShort "string")
    | some c => .ok (c == ']')
  | q :: _ => .ok (line.reverse.take 3 == [q, q, q])

/-- A line of a text that is pending. -/
def resume (doc : Document) (p : Pending) (line : List Char) : Except FormatError Document := do
  let text := p.text ++ line
  if ← endsPending text line then
    let (d, _) ← value true (2 * text.length + 2) text
    match doc.current with
    | .map es =>
      return { doc.setCurrent (.map (enter (.text p.key) d es)) with pending := none }
    | _ => .error .malformed
  else return { doc with pending := some (pend p.key false text) }

/-- A line by itself. -/
def plainLine (doc : Document) (line : List Char) : Except FormatError Document :=
  match line with
  | [] => .ok doc
  | '[' :: _ => doc.header line
  | '{' :: _ =>
    if line.getLast? != some '}' then .error .malformed
    else do
      let parts ← inlineParts line
      let (d, _) ← entries (2 * line.length + 2) doc.current false parts
      return doc.setCurrent d
  | _ =>
    if line.contains '=' then do
      let (d, pending) ← entry false (2 * line.length + 2) doc.current line
      return { doc.setCurrent d with pending }
    else .ok doc

/-- Any line. Blanks around it count only inside a text of several lines. -/
def line (doc : Document) (cs : List Char) : Except FormatError Document :=
  match doc.pending with
  | none => doc.plainLine (trimmed cs)
  | some p =>
    let cs := if p.glued || !p.text.contains '\n' then trimmed cs else cs
    if cs.isEmpty && p.glued then .ok doc else doc.resume p cs

end Document

/-- The mapping that a TOML document holds. -/
def read (text : String) : Except FormatError Datum := do
  let lines ← screenedLines text
  let doc ← lines.foldlM Document.line {}
  return doc.root

end ScopeScript.Toml
