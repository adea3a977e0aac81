import ScopeScript.Files.Locator

/-!
# Scripts

A **script** is a named piece of source with a state that only moves forward:
from *initial* over *loaded*, *parsed* and *running* to *finished*. A script
that is made with content starts as loaded; any other has to be read first.
-/

namespace ScopeScript

/-- How far a script has got. -/
inductive ScriptState where
  | initial
  | loaded
  | parsed
  | running
  | finished
deriving DecidableEq, Repr

namespace ScriptState

/-- All states, in order. -/
def all : List ScriptState := [initial, loaded, parsed, running, finished]

/-- The word for a state. -/
def text : ScriptState → String
  | initial => "initial"
  | loaded => "loaded"
  | parsed => "parsed"
  | running => "running"
  | finished => "finished"

/-- The position of a state in the order. -/
def rank : ScriptState → Nat
  | initial => 0
  | loaded => 1
  | parsed => 2
  | running => 3
  | finished => 4

end ScriptState

/-- A named piece of source. -/
structure Script where
  /-- Where it comes from. -/
  path : String
  /-- Its name. -/
  name : String
  /-- Its source, if it is known; never empty. -/
  content : Option String := none
  /-- How far it has got. -/
  state : ScriptState := .initial
deriving DecidableEq, Repr

namespace Script

/-- A script with a name. Empty content is no content. -/
def named (path name : String) (content : Option String) : Script :=
  match content with
  | none => { path, name }
  | some text =>
    if text.isEmpty then { path, name }
    else { path, name, content := some text, state := .loaded }

/-- A script; without a name it is named after its locator. -/
def make (path : String) (name content : Option String) : Except HostError Script :=
  match name with
  | some name => .ok (named path name content)
  | none => (Locator.stem path).map fun name => named path name content

/-- Moves on to a state, unless the script has got there already. -/
def advance (s : Script) (state : ScriptState) : Script :=
  if state.rank ≤ s.state.rank then s else { s with state }

/-- Whether `advance` moves the script. -/
def canAdvance (s : Script) (state : ScriptState) : Bool := s.state.rank < state.rank

/-- Reads the source of a script. A file that cannot be read and an empty one
are faults of the script. -/
def load (fs : FileStore) (base : Option String) (s : Script) : Except Failure Script :=
  match Locator.read fs s.path base with
  | .error (.file cause) => .error (.script { fault := .unreadable s.name s.path cause })
  | .error e => .error (.host e)
  | .ok text =>
    if text.isEmpty then .error (.script { fault := .emptyScript s.name })
    else .ok ({ s with content := some text }.advance .loaded)

/-- Makes a script and reads its source. -/
def importFrom (fs : FileStore) (path : String) (name base : Option String) :
    Except Failure Script :=
  match make path name none with
  | .error e => .error (.host e)
  | .ok s => s.load fs base

/-- Name and state. -/
def text (s : Script) : String := s.name ++ " (" ++ s.state.text ++ ")"

/-- A full description. -/
def summary (s : Script) : String :=
  "<Script name=" ++ Text.quoted s.name ++ " path=" ++ Text.quoted s.path ++
    " state=" ++ s.state.text ++ ">"

end Script

end ScopeScript
