import ScopeScript.Machine.Execute
import ScopeScript.Scanner.Step
import ScopeScript.Script

/-!
# The machine

A **machine** owns scripts, their trees and the registry of native functions. A
run has two phases: first every script that has not been parsed yet is loaded
and parsed, in order; then every tree is executed, in order. It stops at the
first failure, and what was done before stays done: a later run goes on from
there.
-/

namespace ScopeScript

/-- A machine. -/
structure Machine where
  /-- What runs read. -/
  code : Code := {}
  /-- The scripts, in the order of registration. -/
  scripts : List Script := []
  /-- What runs change. -/
  store : Store := {}

namespace Machine

/-- A machine with no scripts. -/
def new (options : Options) : Machine := { code := { options } }

/-- Adds a line to the trace, if one is kept. -/
def note (m : Machine) (line : String) : Machine := { m with store := m.code.note line m.store }

/-! ### Registration -/

/-- Registers a native function under a new name. Nothing else can be
registered. -/
def addNative (m : Machine) (name : String) (native : Option Native) : Except Failure Machine :=
  match native with
  | none => .error (.host (.notCallable name))
  | some native =>
    if (m.code.natives.lookup name).isSome then .error (.script { fault := .nativeExists name })
    else .ok { m with code := { m.code with natives := m.code.natives ++ [(name, native)] } }

/-- The script of a given name. -/
def script? (m : Machine) (name : String) : Option Script :=
  m.scripts.find? fun s => s.name == name

/-- Registers a script under a new name. -/
def addScript (m : Machine) (s : Script) : Except Failure Machine :=
  if (m.script? s.name).isSome then .error (.script { fault := .scriptExists s.name })
  else .ok { m with scripts := m.scripts ++ [s] }

/-- Reads a script and registers it. -/
def load (m : Machine) (fs : FileStore) (path : String) (name base : Option String) :
    Except Failure (Machine × Script) := do
  let s ← Script.importFrom fs path name base
  let m ← m.addScript s
  return (m, s)

/-- Forgets scripts, trees and calls under way. Native functions stay. -/
def reset (m : Machine) : Machine :=
  { m with
    scripts := []
    code := { m.code with program := [] }
    store := { m.store with frames := [] } }

/-- Moves the first script of a given name on to a state. -/
def advanceIn (name : String) (state : ScriptState) : List Script → List Script
  | [] => []
  | s :: rest => if s.name == name then s.advance state :: rest else s :: advanceIn name state rest

/-- Moves the script of a given name on to a state. -/
def advanceScript (m : Machine) (name : String) (state : ScriptState) : Machine :=
  { m with scripts := advanceIn name state m.scripts }

/-! ### Loading and parsing -/

/-- Adds a tree to those that run. -/
def addTree (m : Machine) (t : Tree) : Machine :=
  let (forest, i) := m.code.forest.plant t
  { m with code := { m.code with forest, program := m.code.program ++ [i] } }

/-- Reads a script, unless it is loaded. -/
def loadStep (m : Machine) (fs : FileStore) (s : Script) : Except Failure Script × Machine :=
  if s.state = .initial then
    let m := m.note ("Load Script: " ++ s.name)
    (s.load fs none, m)
  else (.ok s, m)

/-- Scans a script that is loaded and not parsed, and adds its tree. -/
def parseStep (m : Machine) (s : Script) : Except Failure Script × Machine :=
  if s.state = .loaded then
    let m := m.note ("Parse Script: " ++ s.name)
    let scanned :=
      ({ debug := m.code.options.debug, trace := m.store.trace } : Scanner).parse s.name s.content
    let m := { m with store := { m.store with trace := scanned.state.trace } }
    match scanned with
    | .failed _ e => (.error e, m)
    | .ok scanner => (.ok (s.advance .parsed), m.addTree scanner.tree)
  else (.ok s, m)

/-- Loads and parses the scripts in `todo`, which stand behind those in `done`.
Files may come and go meanwhile: the script at position `i` is read from
`files i`. -/
def prepareFrom (m : Machine) (files : Nat → FileStore) (done : List Script) :
    (todo : List Script) → Except Failure Unit × Machine
  | [] => (.ok (), { m with scripts := done })
  | s :: rest =>
    match m.loadStep (files done.length) s with
    | (.error e, m) => (.error e, { m with scripts := done ++ s :: rest })
    | (.ok s, m) =>
      match m.parseStep s with
      | (.error e, m) => (.error e, { m with scripts := done ++ s :: rest })
      | (.ok s, m) => m.prepareFrom files (done ++ [s]) rest

/-- Loads and parses all scripts that need it. -/
def prepare (m : Machine) (files : Nat → FileStore) : Except Failure Unit × Machine :=
  m.prepareFrom files [] m.scripts

/-! ### Execution -/

/-- Executes a tree. The script of the same name is running meanwhile, and is
finished afterwards. -/
def executeTree (m : Machine) (tree : Nat) : Except Failure Unit × Machine :=
  let name := ((m.code.forest.tree? tree).map (·.name)).getD ""
  let m := (m.note ("Execute AST: " ++ name)).advanceScript name .running
  let (result, store) := m.code.executeNode ⟨tree, 0⟩ m.store
  let m := { m with store }
  match result with
  | .error e => (.error e, m)
  | .ok () => (.ok (), m.advanceScript name .finished)

/-- Executes trees one after the other, up to the first failure. -/
def executeTrees (m : Machine) : List Nat → Except Failure Unit × Machine
  | [] => (.ok (), m)
  | t :: rest =>
    match m.executeTree t with
    | (.error e, m) => (.error e, m)
    | (.ok (), m) => m.executeTrees rest

/-- Loads and parses what needs it, and then executes everything. The script at
position `i` is read from `files i`. -/
def runAmid (m : Machine) (files : Nat → FileStore) : Except Failure Unit × Machine :=
  match m.prepare files with
  | (.error e, m) => (.error e, m)
  | (.ok (), m) => m.executeTrees m.code.program

/-- Loads and parses what needs it, and then executes everything, where the files
stay as they are. -/
def run (m : Machine) (fs : FileStore) : Except Failure Unit × Machine := m.runAmid fun _ => fs

end Machine

end ScopeScript
