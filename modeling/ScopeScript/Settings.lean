import ScopeScript.Files.Store
import ScopeScript.Format.Codec
import ScopeScript.Options

/-!
# Settings

Options come from the environment, from a mapping or from a file. What is
written there need not be of the right type, so **settings** keep their fields as
plain data: only the depth of calls is checked whenever settings are made, and
flags are checked when they come from a mapping. `Settings.toOptions` says how
the fields count in the end.
-/

namespace ScopeScript

/-! ### Answers -/

/-- The answers that mean *yes*. -/
def positiveAnswers : List String := ["yes", "y", "1", "on", "ok"]

/-- The answers that mean *no*. -/
def negativeAnswers : List String := ["no", "n", "0", "off"]

/-- An answer without the blanks around it, in lower case. -/
def normalAnswer (s : String) : String := Text.lower (Text.strip s)

/-- Whether an answer means *yes*. -/
def isPositiveAnswer (s : String) : Bool := positiveAnswers.contains (normalAnswer s)

/-- Whether an answer means *no*. -/
def isNegativeAnswer (s : String) : Bool := negativeAnswers.contains (normalAnswer s)

/-! ### Settings -/

/-- Options as they are written down. -/
structure Settings where
  /-- Keep a trace of scanning and running. -/
  debug : Datum := .bool false
  /-- Run the bodies of functions that scripts declare. -/
  invokeFunctions : Datum := .bool false
  /-- How many calls may be under way at once. -/
  maxCallDepth : Datum := .int 256
deriving Repr

/-- Why settings cannot be made. -/
inductive SettingsError where
  /-- The depth of calls is no positive integer. -/
  | badDepth (found : Datum)
  /-- A key that names no field. -/
  | unknownOption (key : Datum)
  /-- An argument that names no field. -/
  | unknownField (name : String)
  /-- A flag that is no truth value. -/
  | notBoolean (name : String)
  /-- A file in no known format. -/
  | unsupportedFile (name : String)
  /-- A file that holds something else than a mapping. -/
  | notMapping (name : String)
  /-- A file that cannot be read. -/
  | unreadable (cause : HostError)
  /-- A file that does not follow its format. -/
  | malformed (cause : FormatError)
deriving Repr

/-- A message that shows a datum, or what the host says if it cannot be written out. -/
def messageShowing (start : String) (d : Datum) : String :=
  if d.isWritable then start ++ d.shown else Datum.limitMessage

/-- The wording of an error, if it has one of its own. -/
def SettingsError.message? : SettingsError → Option String
  | badDepth found => some (messageShowing "max_call_depth must be a positive integer, got " found)
  | unknownOption key => some (messageShowing "unknown option: " key)
  | unknownField name =>
    some ("VmOptions.__init__() got an unexpected keyword argument " ++ Text.quoted name)
  | notBoolean name => some ("option " ++ Text.quoted name ++ " must be a boolean")
  | unsupportedFile name => some ("unsupported options file type: " ++ name)
  | notMapping name => some ("options file " ++ name ++ " must contain a mapping")
  | unreadable cause => some cause.message
  | malformed cause => cause.message?

namespace Settings

/-- A field of settings. -/
inductive Field where
  | debug
  | invokeFunctions
  | maxCallDepth
deriving DecidableEq, Repr

namespace Field

/-- All fields, in order. -/
def all : List Field := [debug, invokeFunctions, maxCallDepth]

/-- The name of a field. -/
def name : Field → String
  | debug => "debug"
  | invokeFunctions => "invoke_user_functions"
  | maxCallDepth => "max_call_depth"

/-- The field of a given name. -/
def ofName? (s : String) : Option Field := all.find? fun f => f.name == s

end Field

/-- What a field holds. -/
def get (s : Settings) : Field → Datum
  | .debug => s.debug
  | .invokeFunctions => s.invokeFunctions
  | .maxCallDepth => s.maxCallDepth

/-- Puts something into a field. -/
def set (s : Settings) (f : Field) (d : Datum) : Settings :=
  match f with
  | .debug => { s with debug := d }
  | .invokeFunctions => { s with invokeFunctions := d }
  | .maxCallDepth => { s with maxCallDepth := d }

/-- Whether a datum is a positive integer; the truth value *true* counts as
one. -/
def isDepth : Datum → Bool
  | .int n => 1 ≤ n
  | .bool b => b
  | _ => false

/-- Settings, if their depth of calls is one. -/
def checked (s : Settings) : Except SettingsError Settings :=
  if isDepth s.maxCallDepth then .ok s else .error (.badDepth s.maxCallDepth)

/-- A full description. -/
def summary (s : Settings) : String :=
  "VmOptions(" ++
    ", ".intercalate (Field.all.map fun f => f.name ++ "=" ++ (s.get f).shown) ++ ")"

/-- How the fields count: flags as truth values, the depth as a number. -/
def toOptions (s : Settings) : Options :=
  { debug := s.debug.isTruthy
    invokeFunctions := s.invokeFunctions.isTruthy
    maxCallDepth := (s.maxCallDepth.toInt?.getD 0).toNat }

/-! ### Where settings come from -/

/-- Puts named data into their fields; the last of several with one name counts. -/
def assign (s : Settings) : List (String × Datum) → Except SettingsError Settings
  | [] => .ok s
  | (name, d) :: rest =>
    match Field.ofName? name with
    | some f => (s.set f d).assign rest
    | none => .error (.unknownField name)

/-- Settings with the given fields, where only the depth of calls is checked. -/
def ofFields (fields : List (String × Datum)) : Except SettingsError Settings := do
  let s ← ({} : Settings).assign fields
  s.checked

/-- Settings from environment variables: a trace is kept unless the answer is
*no*, and functions are run if it is *yes*. -/
def ofEnvironment (env : List (String × String)) : Settings :=
  let debug := (env.lookup "VM_PARSER_DEBUG").any fun a => !isNegativeAnswer a
  let invoke := (env.lookup "VM_INVOKE_FUNCTIONS").any isPositiveAnswer
  { debug := .bool debug, invokeFunctions := .bool invoke }

/-- The name that a key stands for: hyphens count as underscores. -/
def keyName (key : Datum) : String :=
  String.ofList (key.plain.toList.map fun c => if c == '-' then '_' else c)

/-- The fields that the entries of a mapping stand for. -/
def fieldsOf : List (Datum × Datum) → Except SettingsError (List (Field × Datum))
  | [] => .ok []
  | (key, d) :: rest =>
    match Field.ofName? (keyName key) with
    | none => .error (.unknownOption key)
    | some f => (fieldsOf rest).map ((f, d) :: ·)

/-- Whether a datum is a truth value. -/
def isBoolean : Datum → Bool
  | .bool _ => true
  | _ => false

/-- Settings, if a flag among them is a truth value. -/
def checkFlag (s : Settings) (f : Field) : Except SettingsError Settings :=
  if isBoolean (s.get f) then .ok s else .error (.notBoolean f.name)

/-- Settings from a mapping. Its keys are checked first, then the flags, and the
depth of calls last. -/
def ofMapping (entries : List (Datum × Datum)) : Except SettingsError Settings := do
  let fields ← fieldsOf entries
  let s := fields.foldl (fun s (f, d) => s.set f d) ({} : Settings)
  let s ← s.checkFlag .debug
  let s ← s.checkFlag .invokeFunctions
  s.checked

/-- The name of the format for a suffix, in any case. -/
def formatOf? (suffix : String) : Option String :=
  match Text.lower suffix with
  | ".json" => some "json"
  | ".yaml" => some "yaml"
  | ".yml" => some "yaml"
  | ".toml" => some "toml"
  | _ => none

/-- The key under which settings may stand in a file with other things. -/
def ownSection : String := "scopevm"

/-- Settings from what a file of a given name holds. -/
def ofContent (name : String) : Datum → Except SettingsError Settings
  | .null => .ok {}
  | .map entries =>
    match Datum.field? ownSection entries with
    | some (.map inner) => ofMapping inner
    | _ => ofMapping entries
  | _ => .error (.notMapping name)

/-- Settings from a file. -/
def ofFile (fs : FileStore) (path : String) : Except SettingsError Settings :=
  let name := Path.fileName path
  match formatOf? (Path.suffix path) with
  | none => .error (.unsupportedFile name)
  | some format =>
    match fs.readBytes (Path.tidy path) with
    | .error e => .error (.unreadable e)
    | .ok content =>
      match deserializeOctets format content with
      | .error e => .error (.malformed e)
      | .ok d => ofContent name d

end Settings

end ScopeScript
