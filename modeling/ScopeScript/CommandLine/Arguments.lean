import ScopeScript.Text.Affix
import ScopeScript.Text.Decimal
import ScopeScript.Text.Lines
import ScopeScript.Text.Quoted

/-!
# Arguments of the command line

Arguments are **sorted** first: each is an option, a plain word, or the mark
`--`, behind which everything is a word. Long options may be abbreviated, and
take a value behind an equals sign or as the next word. Then they are **taken**
from left to right. The first run of words names the sources; words after a
later option are too many.
-/

namespace ScopeScript.CommandLine

/-- An option. -/
inductive Flag where
  /-- Show how the program is called. -/
  | help
  /-- Keep a trace. -/
  | debug
  /-- Run the bodies of declared functions. -/
  | invoke
  /-- Take the options from a file. -/
  | config
  /-- Show the trees of the sources in some format instead of running them. -/
  | dump
deriving DecidableEq, Repr

/-- The name of the program. -/
def programName : String := "scopevm"

namespace Flag

/-- All options. -/
def all : List Flag := [help, debug, invoke, config, dump]

/-- The spellings of an option. -/
def spellings : Flag → List String
  | help => ["-h", "--help"]
  | debug => ["--debug"]
  | invoke => ["--invoke"]
  | config => ["--config"]
  | dump => ["--dump"]

/-- Whether an option needs a value. -/
def takesValue : Flag → Bool
  | config | dump => true
  | _ => false

/-- All spellings with their options. -/
def table : List (String × Flag) := all.flatMap fun f => f.spellings.map fun s => (s, f)

/-- The option with a given spelling. -/
def ofSpelling? (s : String) : Option Flag := table.lookup s

/-- How messages name an option. -/
def title (f : Flag) : String := "/".intercalate f.spellings

end Flag

/-- The formats that trees can be shown in. -/
def dumpFormats : List String := ["json", "yaml", "toml", "xml"]

/-- Why arguments are refused. -/
inductive UsageError where
  /-- An abbreviation of several options. -/
  | ambiguous (argument : String) (candidates : List String)
  /-- A value for an option that takes none. -/
  | ignoredValue (flag : Flag) (value : String)
  /-- An option without its value. -/
  | missingValue (flag : Flag)
  /-- A format that trees cannot be shown in. -/
  | unknownFormat (value : String)
  /-- Arguments that are left over. -/
  | unrecognized (arguments : List String)
deriving DecidableEq, Repr

namespace UsageError

/-- The wording of an error. -/
def message : UsageError → String
  | ambiguous argument candidates =>
    "ambiguous option: " ++ argument ++ " could match " ++ ", ".intercalate candidates
  | ignoredValue flag value =>
    "argument " ++ flag.title ++ ": ignored explicit argument " ++ Text.quoted value
  | missingValue flag => "argument " ++ flag.title ++ ": expected one argument"
  | unknownFormat value =>
    "argument " ++ Flag.dump.title ++ ": invalid choice: " ++ Text.quoted value ++
      " (choose from " ++ ", ".intercalate (dumpFormats.map Text.quoted) ++ ")"
  | unrecognized arguments => "unrecognized arguments: " ++ " ".intercalate arguments

/-- The line that reports an error. -/
def report (e : UsageError) : String := programName ++ ": error: " ++ e.message

end UsageError

/-- Why the program ends before it does anything. -/
inductive Stop where
  /-- Help was asked for. -/
  | help
  /-- The arguments are refused. -/
  | refused (error : UsageError)
deriving DecidableEq, Repr

/-! ### Sorting -/

/-- What is written to an option. -/
inductive Written where
  /-- Nothing. -/
  | nothing
  /-- A value behind an equals sign. -/
  | assigned (value : String)
  /-- What follows the letter of a short option directly. -/
  | attached (rest : String)
deriving DecidableEq, Repr

/-- An argument that has been sorted. -/
inductive Argument where
  /-- A word. -/
  | word (text : String)
  /-- The mark behind which everything is a word. -/
  | mark
  /-- An option, with what is written to it. -/
  | option (flag : Flag) (written : Written)
  /-- Something that looks like an option and is none. -/
  | unknown (text : String)
deriving DecidableEq, Repr

/-- The argument as it was written, if it is no option. -/
def Argument.text : Argument → String
  | word s => s
  | mark => "--"
  | option f _ => f.title
  | unknown s => s

/-- A text cut at its first equals sign. -/
def cutAtEquals (s : String) : String × Written :=
  let cs := s.toList
  match cs.dropWhile (· != '=') with
  | [] => (s, .nothing)
  | _ :: rest => (String.ofList (cs.takeWhile (· != '=')), .assigned (String.ofList rest))

/-- What an argument may abbreviate. Of a single hyphen and several letters, the
first may be a short option with the others attached to it. -/
def candidates (s : String) : List (String × Flag × Written) :=
  if Text.startsWith s "--" then
    let (start, written) := cutAtEquals s
    (Flag.table.filter fun (spelling, _) => Text.startsWith spelling start).map
      fun (spelling, f) => (spelling, f, written)
  else
    Flag.table.filterMap fun (spelling, f) =>
      if spelling == String.ofList (s.toList.take 2) then
        some (spelling, f, .attached (Text.dropChars 2 s))
      else if Text.startsWith spelling s then some (spelling, f, .nothing)
      else none

/-- Whether an argument is a negative number, which is a word. A line end behind
it does not matter. -/
def isNegativeNumber (s : String) : Bool :=
  match s.toList with
  | '-' :: cs =>
    let digits := if cs.getLast? == some '\n' then cs.dropLast else cs
    match digits.dropWhile Text.isDecimal with
    | [] => !digits.isEmpty
    | '.' :: ds => !ds.isEmpty && ds.all Text.isDecimal
    | _ => false
  | _ => false

/-- Sorts an argument in front of any mark. -/
def sortOne (s : String) : Except UsageError Argument :=
  if !Text.startsWith s "-" then .ok (.word s)
  else
    match Flag.ofSpelling? s with
    | some f => .ok (.option f .nothing)
    | none =>
      if s == "-" then .ok (.word s)
      else
        let (start, written) := cutAtEquals s
        match Flag.ofSpelling? start with
        | some f => .ok (.option f written)
        | none =>
          match candidates s with
          | [(_, f, written)] => .ok (.option f written)
          | _ :: _ :: _ => .error (.ambiguous s ((candidates s).map Prod.fst))
          | [] =>
            if isNegativeNumber s || s.toList.contains ' ' then .ok (.word s)
            else .ok (.unknown s)

/-- Sorts all arguments. -/
def sort : List String → Except UsageError (List Argument)
  | [] => .ok []
  | s :: rest =>
    if s == "--" then .ok (.mark :: rest.map Argument.word)
    else do
      let a ← sortOne s
      let more ← sort rest
      return a :: more

/-! ### Taking -/

/-- What the arguments ask for. -/
structure Request where
  /-- Keep a trace. -/
  debug : Bool := false
  /-- Run the bodies of declared functions. -/
  invoke : Bool := false
  /-- The file with the options. -/
  config : Option String := none
  /-- The format to show trees in. -/
  dump : Option String := none
  /-- The sources. -/
  sources : List String := []
deriving DecidableEq, Repr

/-- Arguments that are being taken. -/
structure Taking where
  /-- What has been asked for. -/
  request : Request := {}
  /-- The run of words that is being read. -/
  run : List Argument := []
  /-- Whether the sources have been named. -/
  named : Bool := false
  /-- Arguments that are left over. -/
  extras : List String := []

namespace Taking

/-- Ends a run of words: the first names the sources, of which the first mark is
none. -/
def endRun (t : Taking) : Taking :=
  if t.run.isEmpty then t
  else if t.named then
    { t with run := [], extras := t.extras ++ t.run.map Argument.text }
  else
    { t with run := [], named := true
             request := { t.request with sources := (t.run.map Argument.text).erase "--" } }

/-- Takes the value of an option. -/
def takeValue (t : Taking) (f : Flag) (value : String) : Except Stop Taking :=
  match f with
  | .config => .ok { t with request := { t.request with config := some value } }
  | .dump =>
    if dumpFormats.contains value then
      .ok { t with request := { t.request with dump := some value } }
    else .error (.refused (.unknownFormat value))
  | f => .error (.refused (.ignoredValue f value))

/-- Takes an option without a value. -/
def takeFlag (t : Taking) (f : Flag) : Except Stop Taking :=
  match f with
  | .help => .error .help
  | .debug => .ok { t with request := { t.request with debug := true } }
  | .invoke => .ok { t with request := { t.request with invoke := true } }
  | f => .error (.refused (.missingValue f))

/-- Takes what is attached to the short option for help: the same option again, or
letters that are no options. A hyphen or an equals sign would begin a value. -/
def takeAttached (t : Taking) (f : Flag) (rest : String) : Except Stop Taking :=
  match rest.toList.dropWhile (· == 'h') with
  | '-' :: cs => .error (.refused (.ignoredValue f (String.ofList ('-' :: cs))))
  | '=' :: cs => .error (.refused (.ignoredValue f (String.ofList cs)))
  | _ => t.takeFlag f

/-- Takes an option with a value. -/
def takeAssigned (t : Taking) (f : Flag) (value : String) : Except Stop Taking :=
  if f.takesValue then t.takeValue f value else .error (.refused (.ignoredValue f value))

/-- Takes arguments from left to right. -/
def takeAll (t : Taking) : List Argument → Except Stop Taking
  | [] => .ok t.endRun
  | .unknown s :: rest =>
    let t := t.endRun
    { t with extras := t.extras ++ [s] }.takeAll rest
  | .option f (.assigned value) :: rest => do
    let t ← t.endRun.takeAssigned f value
    t.takeAll rest
  | .option f (.attached letters) :: rest => do
    let t ← t.endRun.takeAttached f letters
    t.takeAll rest
  | .option f .nothing :: rest =>
    let t := t.endRun
    if f.takesValue then
      match rest with
      | .word value :: rest' => do
        let t ← t.takeValue f value
        t.takeAll rest'
      | _ => .error (.refused (.missingValue f))
    else do
      let t ← t.takeFlag f
      t.takeAll rest
  | a :: rest => { t with run := t.run ++ [a] }.takeAll rest

end Taking

/-- What arguments ask for. -/
def Request.ofArguments (arguments : List String) : Except Stop Request :=
  match sort arguments with
  | .error e => .error (.refused e)
  | .ok sorted => do
    let t ← ({} : Taking).takeAll sorted
    if t.extras.isEmpty then return t.request
    .error (.refused (.unrecognized t.extras))

end ScopeScript.CommandLine
