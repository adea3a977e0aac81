import ScopeScript.Format.Yaml.Cursor
import ScopeScript.Text.Hex

/-!
# Scalars, tags and names in YAML

How the smallest parts of a document are spelled: scalars in their five styles,
tags, names and directives. Each function takes a cursor at the beginning of
the part, and returns what it says with a cursor behind it.

In all but the literal style a line end inside a scalar is **folded**: a single
one stands for a blank, and of several all but the first are kept.

Where a function repeats itself over lines or escapes, `fuel` bounds how often;
the number of characters left is always enough.
-/

namespace ScopeScript.Yaml

/-! ### Folding -/

/-- The text that a folded line end stands for, given what the break itself
stands for and the breaks after it. -/
def folded (lineBreak breaks : List Char) : List Char :=
  if lineBreak != ['\n'] then lineBreak ++ breaks
  else if breaks.isEmpty then [' ']
  else breaks

/-- The further line ends within a quoted scalar, with all blanks around them. A
line that separates documents cannot stand there. -/
def quotedBreaks (done : List Char) : (fuel : Nat) → Cursor → Option (List Char × Cursor)
  | 0, _ => none
  | fuel + 1, c =>
    if c.isSeparator then none
    else
      let c := c.skipWhile fun x => x == ' ' || x == '\t'
      if isBreak c.peek then
        let (b, c) := c.takeBreak
        quotedBreaks (done ++ b) fuel c
      else some (done, c)

/-- Blanks and line ends within a quoted scalar. -/
def quotedGap (c : Cursor) : Option (List Char × Cursor) :=
  let isSpace := fun x => x == ' ' || x == '\t'
  let blanks := c.run isSpace
  let c := c.skipWhile isSpace
  if c.isAtEnd then none
  else if isBreak c.peek then do
    let (b, c) := c.takeBreak
    let (breaks, c) ← quotedBreaks [] (c.rest.length + 1) c
    return (folded b breaks, c)
  else some (blanks, c)

/-! ### Quoted scalars -/

/-- The characters that a single letter after a backslash stands for. -/
def shortEscape? : Char → Option Char
  | '0' => some '\x00'
  | 'a' => some '\x07'
  | 'b' => some '\x08'
  | 't' => some '\t'
  | '\t' => some '\t'
  | 'n' => some '\n'
  | 'v' => some '\x0b'
  | 'f' => some '\x0c'
  | 'r' => some '\r'
  | 'e' => some '\x1b'
  | ' ' => some ' '
  | '"' => some '"'
  | '\\' => some '\\'
  | '/' => some '/'
  | 'N' => some '\x85'
  | '_' => some '\xa0'
  | 'L' => some '\u2028'
  | 'P' => some '\u2029'
  | _ => none

/-- How many hexadecimal digits follow a letter after a backslash. -/
def codeLength? : Char → Option Nat
  | 'x' => some 2
  | 'u' => some 4
  | 'U' => some 8
  | _ => none

/-- The text of an escape, behind its backslash. -/
def escape (c : Cursor) : Option (List Char × Cursor) :=
  let x := c.peek
  if c.isAtEnd then none
  else
    match shortEscape? x with
    | some y => some ([y], c.step)
    | none =>
      match codeLength? x with
      | some n => do
        let c := c.step
        let code ← Text.takeHex? n c.rest
        if 0x10FFFF < code then none else some ([Char.ofNat code], c.skip n)
      | none =>
        if isBreak x then
          let (_, c) := c.takeBreak
          quotedBreaks [] (c.rest.length + 1) c
        else none

/-- The rest of a scalar between single quotes. -/
def singleQuoted (done : List Char) : (fuel : Nat) → Cursor → Option (List Char × Cursor)
  | 0, _ => none
  | fuel + 1, c =>
    let x := c.peek
    if x == '\'' then
      if c.peekAt 1 == '\'' then singleQuoted (done ++ ['\'']) fuel (c.skip 2)
      else some (done, c.step)
    else if isWideGap x then do
      let (gap, c) ← quotedGap c
      singleQuoted (done ++ gap) fuel c
    else singleQuoted (done ++ [x]) fuel c.step

/-- The rest of a scalar between double quotes. -/
def doubleQuoted (done : List Char) : (fuel : Nat) → Cursor → Option (List Char × Cursor)
  | 0, _ => none
  | fuel + 1, c =>
    let x := c.peek
    if x == '"' then some (done, c.step)
    else if x == '\\' then do
      let (text, c) ← escape c.step
      doubleQuoted (done ++ text) fuel c
    else if isWideGap x then do
      let (gap, c) ← quotedGap c
      doubleQuoted (done ++ gap) fuel c
    else doubleQuoted (done ++ [x]) fuel c.step

/-! ### Plain scalars -/

/-- Whether a plain scalar ends here, in a collection between brackets or outside. -/
def endsPlain (inFlow : Bool) (c : Cursor) : Bool :=
  let x := c.peek
  isWideGap x ||
    (x == ':' &&
      (isWideGap (c.peekAt 1) || (inFlow && ",[]\x7b\x7d".toList.contains (c.peekAt 1)))) ||
    (inFlow && ",?[]\x7b\x7d".toList.contains x)

/-- The part of a plain scalar up to the next blank. -/
def plainPart (inFlow : Bool) (done : List Char) : (fuel : Nat) → Cursor → List Char × Cursor
  | 0, c => (done, c)
  | fuel + 1, c =>
    if endsPlain inFlow c then (done, c)
    else plainPart inFlow (done ++ [c.peek]) fuel c.step

/-- Further line ends between the parts of a plain scalar, with all blanks around
them, up to a line that separates documents; whether there is none. -/
def plainBreaks (done : List Char) : (fuel : Nat) → Cursor → Option (List Char) × Cursor
  | 0, c => (some done, c)
  | fuel + 1, c =>
    if c.peek == ' ' then plainBreaks done fuel c.step
    else if isBreak c.peek then
      let (b, c) := c.takeBreak
      if c.isSeparator then (none, c) else plainBreaks (done ++ b) fuel c
    else (some done, c)

/-- Blanks and line ends after a part of a plain scalar: the text that stands for
them if another part follows, whether a line ended, and where they lead. -/
def plainGap (c : Cursor) : List Char × Bool × Cursor :=
  let blanks := c.run (· == ' ')
  let c := c.skipBlanks
  if isBreak c.peek then
    let (b, c) := c.takeBreak
    if c.isSeparator then ([], true, c)
    else
      match plainBreaks [] (c.rest.length + 1) c with
      | (none, c) => ([], true, c)
      | (some breaks, c) => (folded b breaks, true, c)
  else (blanks, false, c)

/-- A plain scalar from its next part on, which may go on over lines that stand
at least in the column `indent`. Returns the text, whether a line ended behind
it, and where it ends. -/
def plain (inFlow : Bool) (indent : Nat) (done gap : List Char) (ended : Bool) :
    (fuel : Nat) → Cursor → List Char × Bool × Cursor
  | 0, c => (done, ended, c)
  | fuel + 1, c =>
    if c.peek == '#' then (done, ended, c)
    else
      let (part, next) := plainPart inFlow [] (c.rest.length + 1) c
      if part.isEmpty then (done, ended, c)
      else
        let done := done ++ gap ++ part
        let (gap, ended, next) := plainGap next
        if gap.isEmpty || next.peek == '#' || (!inFlow && next.column < indent) then
          (done, ended, next)
        else plain inFlow indent done gap ended fuel next

/-! ### Block scalars -/

/-- What happens to the line ends at the end of a block scalar. -/
inductive Chomping where
  /-- All are dropped. -/
  | strip
  /-- One is kept. -/
  | clip
  /-- All are kept. -/
  | keep
deriving DecidableEq, Repr

/-- The sign that says what happens to the last line ends. -/
def chomping? : Char → Option Chomping
  | '+' => some .keep
  | '-' => some .strip
  | _ => none

/-- The digit that says how far a block scalar is indented. -/
def indentHint? (c : Char) : Option Nat := if c.isDigit then some (c.toNat - 48) else none

/-- The head of a block scalar: a sign and a digit in any order, both optional. -/
def blockHead (c : Cursor) : Option (Chomping × Option Nat × Cursor) :=
  let (chomping, hint, c) :=
    match chomping? c.peek with
    | some k =>
      let c := c.step
      match indentHint? c.peek with
      | some n => (k, some n, c.step)
      | none => (k, none, c)
    | none =>
      match indentHint? c.peek with
      | some n =>
        let c := c.step
        match chomping? c.peek with
        | some k => (k, some n, c.step)
        | none => (.clip, some n, c)
      | none => (.clip, none, c)
  if hint == some 0 || !isGap c.peek then none
  else
    let c := c.skipBlanks.skipComment
    if isLineEnd c.peek then some (chomping, hint, c.takeBreak.2) else none

/-- The empty lines at the beginning of a block scalar, and the widest
indentation seen on the way. -/
def leadingBreaks (done : List Char) (widest : Nat) :
    (fuel : Nat) → Cursor → List Char × Nat × Cursor
  | 0, c => (done, widest, c)
  | fuel + 1, c =>
    if c.peek == ' ' then
      let c := c.step
      leadingBreaks done (max widest c.column) fuel c
    else if isBreak c.peek then
      let (b, c) := c.takeBreak
      leadingBreaks (done ++ b) widest fuel c
    else (done, widest, c)

/-- Moves over the indentation of a line of a block scalar. -/
def skipIndent (indent : Nat) (c : Cursor) : Cursor :=
  c.skip (min (c.run (· == ' ')).length (indent - c.column))

/-- Empty lines within a block scalar. -/
def blockBreaks (indent : Nat) (done : List Char) : (fuel : Nat) → Cursor → List Char × Cursor
  | 0, c => (done, c)
  | fuel + 1, c =>
    let c := skipIndent indent c
    if isBreak c.peek then
      let (b, c) := c.takeBreak
      blockBreaks indent (done ++ b) fuel c
    else (done, c)

/-- Whether a line of the block scalar begins here. -/
def isBlockLine (indent : Nat) (c : Cursor) : Bool := c.column == indent && !c.isAtEnd

/-- The lines of a block scalar, at the first of which the cursor stands. Returns
the text, what the last line end stands for, and the empty lines after it. -/
def blockLines (folding : Bool) (indent : Nat) (done breaks : List Char) :
    (fuel : Nat) → Cursor → List Char × List Char × List Char × Cursor
  | 0, c => (done, [], breaks, c)
  | fuel + 1, c =>
    let isSpace := fun x => x == ' ' || x == '\t'
    let flush := !isSpace c.peek
    let text := c.run (fun x => !isBreak x)
    let done := done ++ breaks ++ text
    let (lineBreak, next) := (c.skip text.length).takeBreak
    let (breaks, next) := blockBreaks indent [] (next.rest.length + 1) next
    if isBlockLine indent next then
      let joint :=
        if folding && lineBreak == ['\n'] && flush && !isSpace next.peek then
          if breaks.isEmpty then [' '] else []
        else lineBreak
      blockLines folding indent (done ++ joint) breaks fuel next
    else (done, lineBreak, breaks, next)

/-- A block scalar behind its indicator, within a collection that stands in the
column before `least`. -/
def block (folding : Bool) (least : Nat) (c : Cursor) : Option (List Char × Cursor) := do
  let (chomping, hint, c) ← blockHead c
  let least := max 1 least
  let (breaks, indent, c) :=
    match hint with
    | none =>
      let (breaks, widest, c) := leadingBreaks [] 0 (c.rest.length + 1) c
      (breaks, max least widest, c)
    | some n =>
      let indent := least + n - 1
      let (breaks, c) := blockBreaks indent [] (c.rest.length + 1) c
      (breaks, indent, c)
  let (text, lineBreak, breaks, c) :=
    if isBlockLine indent c then blockLines folding indent [] breaks (c.rest.length + 1) c
    else ([], [], breaks, c)
  let ending :=
    match chomping with
    | .strip => []
    | .clip => lineBreak
    | .keep => lineBreak ++ breaks
  return (text ++ ending, c)

/-! ### Names, tags and directives -/

/-- A name of an anchor, behind its indicator. -/
def anchorName (c : Cursor) : Option (String × Cursor) :=
  let name := c.run isNameChar
  let c := c.skip name.length
  if name.isEmpty then none
  else if isWideGap c.peek || "?:,]\x7d%@`".toList.contains c.peek then
    some (String.ofList name, c)
  else none

/-- The characters of a tag beyond those of names. -/
def isTagChar (c : Char) : Bool := isNameChar c || ";/?:@&=+$,.!~*'()[]".toList.contains c

/-- The text of a tag; octets may be written with a percent sign, and stand for
characters of ASCII. -/
def tagText (done : List Char) : (fuel : Nat) → Cursor → Option (List Char × Cursor)
  | 0, _ => none
  | fuel + 1, c =>
    if c.peek == '%' then do
      let code ← Text.takeHex? 2 (c.rest.drop 1)
      if code < 0x80 then tagText (done ++ [Char.ofNat code]) fuel (c.skip 3) else none
    else if isTagChar c.peek then tagText (done ++ [c.peek]) fuel c.step
    else if done.isEmpty then none
    else some (done, c)

/-- The handle of a tag: `!`, `!!` or a name between exclamation marks. -/
def tagHandle (c : Cursor) : Option (String × Cursor) :=
  if c.peek != '!' then none
  else
    let next := c.step
    if next.peek == ' ' then some ("!", next)
    else
      let name := next.run isNameChar
      let next := next.skip name.length
      if next.peek == '!' then some (String.ofList ('!' :: name ++ ['!']), next.step) else none

/-- A tag: its handle, unless it is spelled out in full, and the text after it. -/
def tag (c : Cursor) : Option ((Option String × String) × Cursor) := do
  let next := c.peekAt 1
  let (found, c) ←
    if next == '<' then do
      let (text, c) ← tagText [] (c.rest.length + 1) (c.skip 2)
      if c.peek == '>' then some ((none, String.ofList text), c.step) else none
    else if isWideGap next then some ((none, "!"), c.step)
    else do
      let word := c.step.run (fun x => !isGap x)
      let (handle, c) ← if word.contains '!' then tagHandle c else some ("!", c.step)
      let (text, c) ← tagText [] (c.rest.length + 1) c
      some ((some handle, String.ofList text), c)
  if isGap c.peek then some (found, c) else none

/-- What a directive says. -/
inductive Directive where
  /-- The version of the language. -/
  | version (major : Nat)
  /-- What a handle stands for in tags. -/
  | handle (name stands : String)
  /-- Anything else, which says nothing. -/
  | other
deriving DecidableEq, Repr

/-- A run of digits. -/
def digits (c : Cursor) : Option (Nat × Cursor) :=
  let ds := c.run Char.isDigit
  if ds.isEmpty then none
  else some (ds.foldl (fun n d => n * 10 + (d.toNat - 48)) 0, c.skip ds.length)

/-- A directive, behind its percent sign, with the rest of its line. -/
def directive (c : Cursor) : Option (Directive × Cursor) := do
  let name := c.run isNameChar
  let c := c.skip name.length
  if name.isEmpty || !isGap c.peek then none
  let (d, c) ←
    match String.ofList name with
    | "YAML" => do
      let (major, c) ← digits c.skipBlanks
      if c.peek != '.' then none
      let (_, c) ← digits c.step
      if isGap c.peek then some (Directive.version major, c) else none
    | "TAG" => do
      let (handle, c) ← tagHandle c.skipBlanks
      if c.peek != ' ' then none
      let c := c.skipBlanks
      let (stands, c) ← tagText [] (c.rest.length + 1) c
      if isGap c.peek then some (Directive.handle handle (String.ofList stands), c) else none
    | _ => some (Directive.other, c.skipWhile fun x => !isBreak x)
  let c := c.skipBlanks.skipComment
  if isLineEnd c.peek then some (d, c.takeBreak.2) else none

end ScopeScript.Yaml
