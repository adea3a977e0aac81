import ScopeScript.Machine.Console
import ScopeScript.Options
import ScopeScript.Tree.Forest

/-!
# Calls

What a run **reads** and what it **changes** are kept apart. `Code` is read
only: the options, the forest with the trees of the scripts, and the native
functions. `Store` changes: the frames with the arguments of the calls under
way, the console, and the trace.

A call is resolved by name, first among the functions it stands in, from the
inside out, then among the functions at the top level of all scripts, and last
among the native functions.
-/

namespace ScopeScript

/-- What a run reads. -/
structure Code where
  /-- The options. -/
  options : Options := {}
  /-- All trees that there are. -/
  forest : Forest := {}
  /-- Positions of the trees of the scripts, in the order in which they run. -/
  program : List Nat := []
  /-- The native functions by name, in the order of registration. -/
  natives : List (String × Native) := [("println", Native.println), ("print", Native.print)]

/-- The arguments of a call under way, by parameter. -/
abbrev Frame : Type := List (Option String × Value)

/-- What a run changes. -/
structure Store where
  /-- The arguments of the calls under way, innermost first. -/
  frames : List Frame := []
  /-- What native functions can touch. -/
  console : Console := {}
  /-- The lines of the trace. -/
  trace : Array String := #[]

namespace Code

/-- Adds a line to the trace, if one is kept. -/
def note (c : Code) (line : String) (s : Store) : Store :=
  if c.options.debug then { s with trace := s.trace.push ("[DBG] " ++ line) } else s

/-- The place where a node begins. -/
def location (c : Code) (r : NodeRef) : Location :=
  ((c.forest.node? r).map (·.location)).getD {}

/-- The name of a node. -/
def name (c : Code) (r : NodeRef) : Option String := (c.forest.node? r).bind (·.name)

/-! ### Resolution -/

/-- The nodes among which a call looks for its function: those above it, and all
at the top level of the scripts. -/
def reachable (c : Code) (call : NodeRef) : List NodeRef :=
  c.forest.ancestors call ++ c.program.flatMap fun t => c.forest.children ⟨t, 0⟩

/-- Whether a node is a function of a given name. -/
def isFunctionNamed (c : Code) (name : String) (r : NodeRef) : Bool :=
  match c.forest.node? r with
  | some n => n.kind = .function && n.name == some name
  | none => false

/-- The function that a call refers to, if a script declares it. -/
def findFunction (c : Code) (call : NodeRef) : Option NodeRef :=
  match c.name call with
  | none => none
  | some name => (c.reachable call).find? (c.isFunctionNamed name)

/-! ### Arguments -/

/-- The value of an argument: a bare word that is a parameter of the innermost
call under way stands for what that parameter was given. -/
def argument (c : Code) (s : Store) (param : NodeRef) : Value :=
  match c.forest.node? param with
  | none => .none
  | some n =>
    match n.value with
    | none => .none
    | some v =>
      match s.frames with
      | [] => v
      | frame :: _ => if n.quoted then v else (frame.lookup n.name).getD v

/-- The arguments of a call. -/
def arguments (c : Code) (s : Store) (call : NodeRef) : List Value :=
  (c.forest.childrenOfKind call .functionParam).map (c.argument s)

/-- The names of the parameters of a function. -/
def parameters (c : Code) (func : NodeRef) : List (Option String) :=
  match c.forest.childOfKind? func .functionParams with
  | none => []
  | some params => (c.forest.childrenOfKind params .functionParam).map c.name

/-- The statements of the body of a function. -/
def body (c : Code) (func : NodeRef) : List NodeRef :=
  match c.forest.childOfKind? func .functionImpl with
  | none => []
  | some impl => c.forest.below impl

/-- Parameters with their arguments; a missing argument is no value, and the
last of several parameters with one name counts. -/
def bind (names : List (Option String)) (args : List Value) : Frame :=
  enterAll (names.zip (args ++ List.replicate (names.length - args.length) .none))

/-- A frame, spelled out for the trace. -/
def frameText (f : Frame) : String :=
  braced (", ".intercalate (f.map fun (k, v) =>
    (k.map Text.quoted).getD "None" ++ ": " ++ v.constructor))

/-- Begins a call: its arguments become the innermost frame. -/
def enter (c : Code) (func call : NodeRef) (s : Store) : Except ScriptError Store :=
  if c.options.maxCallDepth ≤ s.frames.length then
    .error { fault := .tooDeep, location := some (c.location call) }
  else
    let names := c.parameters func
    let args := c.arguments s call
    if names.length < args.length then
      .error
        { fault := .tooManyArguments (c.name func) names.length args.length
          location := some (c.location call) }
    else
      let frame := bind names args
      let s := c.note ("Invoke " ++ (c.name func).getD "None" ++ " with " ++ frameText frame) s
      .ok { s with frames := frame :: s.frames }

/-! ### Native functions -/

/-- Calls the native function that a call names. -/
def callNative (c : Code) (call : NodeRef) (s : Store) : Except Failure Value × Store :=
  match (c.name call).bind (fun name => c.natives.lookup name) with
  | none =>
    (.error (.script
      { fault := .unknownFunction (c.name call), location := some (c.location call) }), s)
  | some native =>
    let (result, console) := native (c.arguments s call) s.console
    let s := { s with console }
    match result with
    | .error e => (.error e, s)
    | .ok d =>
      match Value.ofDatum d with
      | .error e => (.error (.host (.conversion e)), s)
      | .ok v => (.ok v, s)

end Code

end ScopeScript
