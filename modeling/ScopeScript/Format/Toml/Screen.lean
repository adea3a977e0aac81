import ScopeScript.Format.Basic
import ScopeScript.Text.Alphanumeric
import ScopeScript.Text.Lines

/-!
# The lines of a TOML document

Before a TOML document is read line by line it is **screened** character by
character. Screening checks that keys are well formed and that quotes are
closed, and puts everything that belongs together on one line:

* comments become blanks;
* line ends inside an array become blanks;
* a line end right behind the quotes that open a text of several lines is taken
  up by moving these quotes.
-/

namespace ScopeScript.Toml

/-- The header that a line begins. -/
inductive Header where
  /-- None. -/
  | none
  /-- The header of a table. -/
  | table
  /-- The header of a member of a list of tables. -/
  | row
deriving DecidableEq, Repr

/-- How far the key of a line has been read. -/
inductive KeyStage where
  /-- No key is being read. -/
  | outside
  /-- A part of the key is being read. -/
  | inside
  /-- A part of the key has ended. -/
  | behind
deriving DecidableEq, Repr

/-- A document that is being screened. -/
structure Screen where
  /-- The document, with what has been changed. -/
  chars : Array Char
  /-- How many arrays are open. -/
  arrays : Int := 0
  /-- The quote of the text being read, if any. -/
  quote : Option Char := .none
  /-- Whether the text being read may have several lines. -/
  multiline : Bool := false
  /-- The header being read. -/
  header : Header := .none
  /-- Whether nothing but blanks has been read of this line. -/
  lineStart : Bool := true
  /-- How far the key has been read. -/
  key : KeyStage := .outside
  /-- Whether the key has several parts. -/
  dotted : Bool := false

namespace Screen

/-- The character at a position; before the beginning there is none. -/
def at? (s : Screen) (i : Int) : Option Char :=
  if i < 0 then none else s.chars[i.toNat]?

/-- Puts a character at a position. -/
def put (s : Screen) (i : Int) (c : Char) : Screen :=
  if i < 0 then s else { s with chars := s.chars.setIfInBounds i.toNat c }

/-- Whether an odd number of backslashes stands right before a position. `fuel`
bounds how many are looked at. -/
def oddBackslashes (s : Screen) : (fuel : Nat) → Int → Bool
  | 0, _ => false
  | fuel + 1, i => if s.at? (i - 1) == some '\\' then !s.oddBackslashes fuel (i - 1) else false

/-- Whether a part of a dotted key goes on at a position. -/
def resumesAt (s : Screen) (i : Int) : Except FormatError Bool :=
  match s.at? i with
  | none => .error (.tooShort "list")
  | some c => .ok (!Text.isBlank c && c != '.')

/-- A character of a key. Returns whether it was used up by that. -/
def stepKey (s : Screen) (i : Int) (c : Char) : Except FormatError (Bool × Screen) :=
  let ends : Except FormatError (Bool × Screen) :=
    if c == '=' then .ok (false, { s with key := .outside, dotted := false }) else .error .malformed
  if c == '\n' then .error .malformed
  else if s.quote.isSome then
    if s.quote == some c && !s.oddBackslashes s.chars.size i then
      .ok (true, { s with key := .behind, quote := none })
    else .ok (true, s)
  else
    match s.key with
    | .inside =>
      if Text.isBlank c then .ok (true, { s with key := .behind })
      else if c == '.' then .ok (true, { s with dotted := true })
      else if Text.isAlphanumeric c || c == '_' || c == '-' then .ok (true, s)
      else if s.dotted && s.at? (i - 1) == some '.' && (c == '"' || c == '\'') then
        .ok (true, { s with quote := some c })
      else ends
    | _ =>
      if Text.isBlank c then
        if s.dotted then do
          let resumes ← s.resumesAt (i + 1)
          return (true, if resumes then { s with key := .inside } else s)
        else .ok (true, s)
      else if c == '.' then do
        let resumes ← s.resumesAt (i + 1)
        return (true, { s with dotted := true, key := if resumes then .inside else s.key })
      else ends

/-- A quote: it opens or closes a text, three in a row one of several lines. A
double quote behind a backslash does neither. -/
def stepQuote (s : Screen) (i : Int) (c : Char) : Screen :=
  let other := if c == '"' then '\'' else '"'
  if s.quote == some other then s
  else
    let second := s.at? (i - 1) == some c
    let third := second && s.at? (i - 2) == some c
    let escaped :=
      c == '"' && ((!second && s.oddBackslashes s.chars.size i) ||
        (third && s.oddBackslashes s.chars.size (i - 2)))
    if escaped then s
    else if third then
      { s with multiline := !s.multiline, quote := if s.multiline then none else some c }
    else { s with quote := if s.quote.isSome then none else some c }

/-- Blanks out everything up to the end of the line. `fuel` bounds how much. -/
def blankOut (s : Screen) : (fuel : Nat) → Int → Screen
  | 0, _ => s
  | fuel + 1, i =>
    match s.at? i with
    | none => s
    | some c => if c == '\n' then s else (s.put i ' ').blankOut fuel (i + 1)

/-- Brackets and comments, which mean nothing inside a text. -/
def stepBracket (s : Screen) (i : Int) (c : Char) : Screen :=
  if s.quote.isSome then s
  else if c == '#' && s.header = .none then s.blankOut s.chars.size i
  else if c == '[' && s.header = .none then
    if s.lineStart then
      { s with header := if s.at? (i + 1) == some '[' then .row else .table }
    else { s with arrays := s.arrays + 1 }
  else if c == ']' then
    match s.header with
    | .table => { s with header := .none }
    | .row => if s.at? (i - 1) == some ']' then { s with header := .none } else s
    | .none => { s with arrays := s.arrays - 1 }
  else s

/-- The end of a line. -/
def stepLine (s : Screen) (i : Int) : Except FormatError Screen :=
  if s.quote.isSome || s.multiline then
    if !s.multiline then .error .malformed
    else
      match s.at? (i - 1) with
      | some q =>
        if (q == '\'' || q == '"') && s.at? (i - 2) == some q then
          let s := s.put i q
          .ok (if s.at? (i - 3) == some q then s.put (i - 3) ' ' else s)
        else .ok s
      | none => .ok s
  else if s.arrays != 0 then .ok (s.put i ' ')
  else .ok { s with lineStart := true }

/-- The first character of a line that is no blank begins a key, unless it begins
a header. -/
def stepStart (s : Screen) (i : Int) : Except FormatError Screen :=
  let c := s.at? i
  if s.lineStart && c != some ' ' && c != some '\t' then
    let s := { s with lineStart := false }
    if s.header ≠ .none then .ok s
    else if c == some '=' then .error .malformed
    else .ok { s with key := .inside }
  else .ok s

/-- The character at a position. -/
def step (s : Screen) (i : Nat) : Except FormatError Screen :=
  match s.chars[i]? with
  | none => .ok s
  | some c =>
    if c == '\r' && i + 1 == s.chars.size then .error (.tooShort "list")
    else if c == '\r' && s.at? (i + 1) == some '\n' then .ok (s.put i ' ')
    else do
      let (used, s) ← if s.key = .outside then .ok (false, s) else s.stepKey i c
      if used then return s
      let s := if c == '"' || c == '\'' then s.stepQuote i c else s
      let s := s.stepBracket i c
      if c == '\n' then s.stepLine i else s.stepStart i

end Screen

/-- The lines of a document after screening. -/
def screenedLines (text : String) : Except FormatError (List (List Char)) := do
  let chars := text.toList.toArray
  let s ← (List.range chars.size).foldlM Screen.step { chars }
  if s.key ≠ .outside || s.quote.isSome then .error .malformed
  return Text.splitWhereFrom (· == '\n') [] s.chars.toList

end ScopeScript.Toml
