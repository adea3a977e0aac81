import ScopeScript.Machine.Run
import ScopeScript.Text.Lines

/-!
# Reports

Running a piece of source by itself gives a **report**: success, or a message
that shows the line of the error between its neighbours with a mark under the
column. Only script errors are reported; any other failure is passed on.
-/

namespace ScopeScript

/-- A text filled up with blanks in front. -/
def padLeft (width : Nat) (s : String) : String :=
  repeatText (width - s.length) " " ++ s

/-- Numbered lines, of which the head is number `first`, with the marked one
pointed out. -/
def contextLines (width : Nat) (marked : Int) (column : Option Int) (first : Int) :
    List String → List String
  | [] => []
  | text :: rest =>
    let here : Bool := first == marked
    let line :=
      (if here then ">" else " ") ++ " " ++ padLeft width (toString first) ++ " | " ++ text
    let caret :=
      match here, column with
      | true, some c =>
        ["  " ++ repeatText width " " ++ " | " ++ repeatText (c - 1).toNat " " ++ "^"]
      | _, _ => []
    line :: caret ++ contextLines width marked column (first + 1) rest

/-- A line of a source between its neighbours, at most `radius` on either side,
with a mark under a column. A line that does not exist gives nothing. -/
def sourceContext (source : String) (line : Int) (column : Option Int) (radius : Int) : String :=
  let lines := Text.splitLines source
  if line < 1 || (lines.length : Int) < line then ""
  else
    let first := max 1 (line - radius)
    let last := min (lines.length : Int) (line + radius)
    let shown := (lines.drop (first - 1).toNat).take (last - first + 1).toNat
    "\n".intercalate (contextLines (toString last).length line column first shown)

/-- How many neighbours are shown on either side. -/
def contextRadius : Int := 2

/-- A script error as it is reported, with the lines around it. -/
def ScriptError.inContext (e : ScriptError) (source : String) : String :=
  match e.location with
  | none => e.format
  | some l =>
    let context := sourceContext source l.line (some l.column) contextRadius
    if context.isEmpty then e.format else e.format ++ "\n" ++ context

/-- The outcome of running a piece of source. -/
structure Report where
  /-- Whether it ended with an error. -/
  failed : Bool := false
  /-- The value, if it did not. -/
  value : Option Value := none
  /-- The message, if it did. -/
  message : Option String := none
  /-- The place of the error, if it has one. -/
  location : Option Location := none
  /-- The error itself. -/
  error : Option ScriptError := none

namespace Report

/-- The report of a source that ran to its end. -/
def success : Report := { value := some .none }

/-- The report of an error. -/
def ofError (e : ScriptError) (source : String) : Report :=
  { failed := true, message := some (e.inContext source), location := e.location, error := some e }

/-- The message with line and column in front, unless it begins with them. -/
def format (r : Report) : String :=
  if !r.failed then ""
  else
    let message :=
      match r.message with
      | some m => if m.isEmpty then "Unknown error" else m
      | none => "Unknown error"
    match r.location with
    | none => message
    | some l =>
      if Text.startsWith message "Error on line " then message
      else "Error on line " ++ toString l.line ++ ", col " ++ toString l.column ++ ": " ++ message

end Report

namespace Machine

/-- Runs a piece of source by itself, on a machine that is reset first. -/
def runSource (m : Machine) (source name : String) : Except HostError Report × Machine :=
  let m := m.reset
  if source.isEmpty then (.ok .success, m)
  else
    match m.addScript (Script.named (Locator.virtualScheme ++ name) name (some source)) with
    | .error (.script e) => (.ok (.ofError e source), m)
    | .error (.host e) => (.error e, m)
    | .ok m =>
      match m.run {} with
      | (.ok (), m) => (.ok .success, m)
      | (.error (.script e), m) => (.ok (.ofError e source), m)
      | (.error (.host e), m) => (.error e, m)

end Machine

end ScopeScript
