import ScopeScript.CommandLine.Arguments
import ScopeScript.Report
import ScopeScript.Settings

/-!
# What the program does

With sources the program runs them, or shows their trees; without any it reads
lines one by one and runs each by itself. `Session` collects what is written to
the two outputs meanwhile. Nothing here touches the world: files, environment
and input are values.
-/

namespace ScopeScript.CommandLine

/-- The version of the program. -/
def version : String := "0.1.0"

/-- What is written to the two outputs. -/
structure Session where
  /-- The output. -/
  out : String := ""
  /-- Errors and the trace. -/
  err : String := ""
deriving Repr

namespace Session

/-- Writes to the output. -/
def write (s : Session) (text : String) : Session := { s with out := s.out ++ text }

/-- Writes a line to the output. -/
def writeLine (s : Session) (text : String) : Session := s.write (text ++ "\n")

/-- Writes a line for errors. -/
def warn (s : Session) (text : String) : Session := { s with err := s.err ++ text ++ "\n" }

/-- Writes the lines of a trace. -/
def trace (s : Session) (lines : Array String) : Session :=
  { s with err := s.err ++ String.join (lines.toList.map (· ++ "\n")) }

/-- Takes over what a machine has written, so that it can start afresh. -/
def collect (s : Session) (m : Machine) : Session × Machine :=
  ((s.write m.store.console.output).trace m.store.trace,
    { m with
      store := { m.store with console := { m.store.console with output := "" }, trace := #[] } })

end Session

/-- A failure that ends the program. -/
inductive Crash where
  /-- A failure outside the scripts. -/
  | host (error : HostError)
  /-- Options that cannot be read. -/
  | settings (error : SettingsError)
  /-- A tree that cannot be written. -/
  | format (error : FormatError)
deriving Repr

/-- How the program ends. -/
inductive Outcome where
  /-- Before it does anything. -/
  | stopped (stop : Stop)
  /-- With an exit code. -/
  | exited (code : Nat) (session : Session)
  /-- With a failure that nobody handles. -/
  | crashed (cause : Crash) (session : Session)

/-! ### Options -/

/-- Whether an error of the settings is reported; any other ends the program. -/
def isReported : SettingsError → Bool
  | .malformed (.tooShort _) | .malformed (.unsuitable _) | .malformed (.noEntry _)
  | .malformed (.notExtensible _) | .unknownField _ => false
  | _ => true

/-- The settings that a request asks for. An empty file name counts as none. -/
def Request.settings (r : Request) (fs : FileStore) (env : List (String × String)) :
    Except SettingsError Settings := do
  let s ←
    match r.config with
    | some path =>
      if path.isEmpty then .ok (Settings.ofEnvironment env) else Settings.ofFile fs path
    | none => .ok (Settings.ofEnvironment env)
  let s := if r.debug then s.set .debug (.bool true) else s
  return if r.invoke then s.set .invokeFunctions (.bool true) else s

/-! ### Trees -/

/-- Shows the trees of sources one after the other. -/
def dumpSources (fs : FileStore) (format : String) (scanner : Scanner) (session : Session) :
    List String → Outcome
  | [] => .exited 0 session
  | path :: rest =>
    match fs.absolute path with
    | .error e => .crashed (.host e) session
    | .ok path =>
      match Script.importFrom fs path none none with
      | .error (.host e) => .crashed (.host e) session
      | .error (.script e) => .exited 1 (session.warn ("Error: " ++ e.format))
      | .ok script =>
        let scanned := scanner.parse script.name script.content
        let session := session.trace scanned.state.trace
        match scanned with
        | .failed _ (.host e) => .crashed (.host e) session
        | .failed _ (.script e) => .exited 1 (session.warn ("Error: " ++ e.format))
        | .ok scanner =>
          match scanner.tree.serialize format with
          | .error e => .crashed (.format e) session
          | .ok text =>
            dumpSources fs format { scanner with trace := #[] } (session.writeLine text) rest

/-! ### Sources -/

/-- Registers sources one after the other. -/
def addSources (fs : FileStore) (m : Machine) : List String → Except Failure Machine
  | [] => .ok m
  | path :: rest => do
    match fs.absolute path with
    | .error e => .error (.host e)
    | .ok path =>
      match Script.make path none none with
      | .error e => .error (.host e)
      | .ok script =>
        let m ← m.addScript script
        addSources fs m rest

/-- Runs sources. -/
def runSources (fs : FileStore) (options : Options) (session : Session) (sources : List String) :
    Outcome :=
  match addSources fs (Machine.new options) sources with
  | .error (.host e) => .crashed (.host e) session
  | .error (.script e) => .exited 1 (session.warn ("Error: " ++ e.format))
  | .ok m =>
    let session := m.scripts.foldl (fun s script => s.writeLine (" - " ++ script.text)) session
    let (result, m) := m.run fs
    let (session, _) := session.collect m
    match result with
    | .ok () => .exited 0 session
    | .error (.script e) => .exited 1 (session.warn ("Error: " ++ e.format))
    | .error (.host e) => .crashed (.host e) session

/-! ### Lines -/

/-- The prompt for a line. -/
def prompt : String := ">> "

/-- What is written before the first line is read. -/
def greeting : String :=
  programName ++ " REPL v" ++ version ++ "\nType 'exit' or press Ctrl+D to quit.\n"

/-- What is written when there are no more lines. -/
def farewell : String := "\nExiting.\n"

/-- What a line leads to. -/
inductive Reply where
  /-- The next line is read. -/
  | more (session : Session) (machine : Machine)
  /-- The program ends. -/
  | done (session : Session)
  /-- A failure that nobody handles. -/
  | crashed (cause : HostError) (session : Session)

/-- Runs a line by itself. Blanks around it do not count, and the word `exit` ends
the program. -/
def answer (m : Machine) (session : Session) (line : String) : Reply :=
  let line := Text.strip line
  if line.isEmpty then .more session m
  else if line == "exit" then .done session
  else
    let (result, m) := m.runSource line "repl"
    let (session, m) := session.collect m
    match result with
    | .error e => .crashed e session
    | .ok report => .more (if report.failed then session.warn report.format else session) m

/-- Reads lines and runs each of them. -/
def readLines (m : Machine) (session : Session) : List String → Outcome
  | [] => .exited 0 (session.write (prompt ++ farewell))
  | line :: rest =>
    match answer m (session.write prompt) line with
    | .more session m => readLines m session rest
    | .done session => .exited 0 session
    | .crashed e session => .crashed (.host e) session

/-! ### The program -/

/-- Carries out a request with the given settings. -/
def Request.perform (r : Request) (fs : FileStore) (settings : Settings) (input : String) :
    Outcome :=
  let options := settings.toOptions
  if r.sources.isEmpty then
    readLines (Machine.new options) (({} : Session).write greeting) (Text.inputLines input)
  else
    let session := ({} : Session).writeLine (programName ++ " v" ++ version)
    match r.dump with
    | some format => dumpSources fs format { debug := options.debug } session r.sources
    | none => runSources fs options session r.sources

/-- Runs the program with all that it can see: files, environment and input. -/
def run (fs : FileStore) (env : List (String × String)) (input : String)
    (arguments : List String) : Outcome :=
  match Request.ofArguments arguments with
  | .error stop => .stopped stop
  | .ok request =>
    match request.settings fs env with
    | .error e =>
      if isReported e then
        .exited 2 (({} : Session).warn ("Error: invalid options: " ++ e.message?.getD ""))
      else .crashed (.settings e) {}
    | .ok settings => request.perform fs settings input

end ScopeScript.CommandLine
