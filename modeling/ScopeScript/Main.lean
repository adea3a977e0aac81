import ScopeScript.CommandLine.Session

/-!
# The program

The outermost layer: it looks at the files that the arguments name, at the
environment and at the input, hands them to `CommandLine`, and writes what comes
back. All decisions are made there.
-/

namespace ScopeScript.CommandLine

/-- How the program is called. -/
def usage : String :=
  "usage: " ++ programName ++ " [-h] [--debug] [--invoke] [--config CONFIG] " ++
    "[--dump " ++ "\x7b" ++ ",".intercalate dumpFormats ++ "\x7d" ++ "] [sources ...]"

/-- The number of an error of the system, which may have been negated on the way here. -/
def errorNumber (code : UInt32) : Nat := (min code (0 - code)).toNat

/-- What stands at a path, and why it cannot be read, if so. Links that lead back to themselves
count as one link that does. -/
def lookAt (path : String) : IO (Option FileEntry × Option Refusal) := do
  try
    return (some (.file (← IO.FS.readBinFile path).toList), none)
  catch e =>
    match e with
    | .inappropriateType .. => return (some .directory, none)
    | .permissionDenied _ code reason =>
      return (some (.file []), some { number := errorNumber code, reason })
    | .invalidArgument _ code _ =>
      return (if errorNumber code == 40 then some (.link path) else none, none)
    | _ => return (none, none)

/-- A link that stands for all links in a path, from where the path would lead without them. -/
def linkFor (path full : String) : IO (Option FileEntry) := do
  try
    let real := (← IO.FS.realPath path).toString
    return if real == full then none else some (.link real)
  catch _ => return none

/-- The store with what the system says of a path. -/
def lookInto (fs : FileStore) (path : String) : IO FileStore := do
  let .ok full := fs.absolute path | return fs
  let fs :=
    match ← linkFor path full with
    | some link => { fs with entries := (Path.names full, link) :: fs.entries }
    | none => fs
  let .ok real := fs.absolute path | return fs
  let place := Path.names real
  let (entry, refusal) ← lookAt real
  return { fs with
    entries := (entry.map fun e => (place, e)).toList ++ fs.entries
    refusals := (refusal.map fun r => (place, r)).toList ++ fs.refusals }

/-- The part of the file system that a request needs. -/
def lookAround (r : Request) : IO FileStore := do
  let home := (← IO.getEnv "HOME").getD "/"
  let fs : FileStore ←
    try
      pure { workingDirectory := (← IO.currentDir).toString, home }
    catch _ => pure { lost := true, home }
  (r.config.toList ++ r.sources).foldlM lookInto fs

/-- The environment variables that count. -/
def environment : IO (List (String × String)) := do
  let names := ["VM_PARSER_DEBUG", "VM_INVOKE_FUNCTIONS"]
  let found ← names.mapM fun name => return (← IO.getEnv name).map fun value => (name, value)
  return found.filterMap id

/-- Writes what a session has collected. -/
def present (s : Session) : IO Unit := do
  IO.print s.out
  IO.eprint s.err
  (← IO.getStdout).flush

/-- Reads lines and answers each at once. -/
partial def converse (m : Machine) : IO UInt32 := do
  present (({} : Session).write prompt)
  let line ← (← IO.getStdin).getLine
  if line.isEmpty then
    present (({} : Session).write farewell)
    return 0
  match answer m {} line with
  | .more session m =>
    present session
    converse m
  | .done session =>
    present session
    return 0
  | .crashed e session =>
    present session
    IO.eprintln e.message
    return 1

/-- The wording of a failure that nobody handles. -/
def Crash.message : Crash → String
  | .host e => e.message
  | .settings e => e.message?.getD ""
  | .format e => e.message?.getD ""

/-- Ends the program. -/
def finish : Outcome → IO UInt32
  | .stopped .help => do
    IO.println usage
    return 0
  | .stopped (.refused e) => do
    IO.eprintln usage
    IO.eprintln e.report
    return 2
  | .exited code session => do
    present session
    return UInt32.ofNat code
  | .crashed cause session => do
    present session
    IO.eprintln cause.message
    return 1

end ScopeScript.CommandLine

open ScopeScript ScopeScript.CommandLine in
/-- Runs the program. -/
def main (arguments : List String) : IO UInt32 := do
  match Request.ofArguments arguments with
  | .error stop => finish (.stopped stop)
  | .ok request =>
    let fs ← lookAround request
    let env ← environment
    match request.sources, request.settings fs env with
    | [], .ok settings =>
      present (({} : Session).write greeting)
      converse (Machine.new settings.toOptions)
    | _, _ => finish (run fs env "" arguments)
