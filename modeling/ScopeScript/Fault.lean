import ScopeScript.Datum.Convert
import ScopeScript.Symbol
import ScopeScript.Text.Utf8
import ScopeScript.Tree.Node

/-!
# What can go wrong

Failures come in two sorts.

* A **script error** is the fault of a script or of its source: it has a cause,
  a family, and often a location. Runners catch these and report them.
* A **host error** is any other failure: data that make no value, a file system
  that refuses, a native function that gives up in its own way. It passes
  through runners untouched.

`Fault` lists the causes of script errors, one constructor each, and
`Fault.message` holds all their wording.
-/

namespace ScopeScript

/-- The families of script errors. -/
inductive Family where
  /-- Any failure of the machine. -/
  | general
  /-- A script that cannot be read, or output that cannot be written. -/
  | inputOutput
  /-- A script that is not well formed. -/
  | malformed
  /-- Misuse of scopes, unresolved calls and conflicting names. -/
  | unknown
deriving DecidableEq, Repr

/-- Why the system refuses something: the number of its error, and what it says. -/
structure Refusal where
  /-- The number of the error. -/
  number : Nat
  /-- The wording of the error. -/
  reason : String
deriving DecidableEq, Repr

/-- Why a file cannot be read. -/
inductive FileError where
  /-- A virtual locator, which has no file behind it. -/
  | noBackingFile (locator : String)
  /-- The path is that of a directory, found before opening it. -/
  | directory (path : String)
  /-- Opening: there is nothing at the path. -/
  | missing (path : String)
  /-- Opening: a part of the path is no directory. -/
  | notDirectory (path : String)
  /-- Opening: the path is that of a directory. -/
  | isDirectory (path : String)
  /-- Opening: the path or a part of it is longer than any name can be. -/
  | tooLong (path : String)
  /-- Opening: more links have to be followed than the system follows. -/
  | tooManyLinks (path : String)
  /-- The system refuses to read what is at the path, or on the way to it. -/
  | refused (refusal : Refusal) (path : String)
  /-- There is no working directory any more. -/
  | noWorkingDirectory
  /-- The file holds no text. -/
  | undecodable (fault : Text.Utf8Fault)
deriving DecidableEq, Repr

/-- The wording of a file error. -/
def FileError.message : FileError → String
  | noBackingFile locator => locator ++ " has no backing file"
  | directory path => path
  | missing path => "[Errno 2] No such file or directory: " ++ Text.quoted path
  | notDirectory path => "[Errno 20] Not a directory: " ++ Text.quoted path
  | isDirectory path => "[Errno 21] Is a directory: " ++ Text.quoted path
  | tooLong path => "[Errno 36] File name too long: " ++ Text.quoted path
  | tooManyLinks path => "[Errno 40] Too many levels of symbolic links: " ++ Text.quoted path
  | refused r path =>
    "[Errno " ++ toString r.number ++ "] " ++ r.reason ++ ": " ++ Text.quoted path
  | noWorkingDirectory => "[Errno 2] No such file or directory"
  | undecodable fault => fault.message

/-- The cause of a script error. -/
inductive Fault where
  /-- There is nothing to scan. -/
  | noContent (script : String)
  /-- The file of a script cannot be read. -/
  | unreadable (script path : String) (cause : FileError)
  /-- The file of a script is empty. -/
  | emptyScript (script : String)
  /-- Output was refused. -/
  | unwritable (reason : String)
  /-- A quote is never closed. -/
  | unterminated
  /-- A scope is never closed. -/
  | unclosed (kind : NodeKind)
  /-- A symbol where it has no meaning. -/
  | unexpected (symbol : Symbol)
  /-- Text that belongs to nothing. -/
  | unprocessed
  /-- The end of a scope where none is open. -/
  | noActiveScope
  /-- A call of something that is neither declared nor native. -/
  | unknownFunction (name : Option String)
  /-- Calls are nested too deeply. -/
  | tooDeep
  /-- A call with more arguments than parameters. -/
  | tooManyArguments (function : Option String) (expected found : Nat)
  /-- A native function of that name exists. -/
  | nativeExists (name : String)
  /-- A script of that name exists. -/
  | scriptExists (name : String)
  /-- A failure that a native function reports. -/
  | raised (family : Family) (message : String)
deriving DecidableEq, Repr

namespace Fault

/-- The family that a cause belongs to. -/
def family : Fault → Family
  | noContent _ | unreadable .. | emptyScript _ | unwritable _ => .inputOutput
  | unterminated | unclosed _ | unexpected _ | unprocessed => .malformed
  | noActiveScope | unknownFunction _ | tooDeep | tooManyArguments .. | nativeExists _
  | scriptExists _ => .unknown
  | raised family _ => family

/-- The wording of a cause. -/
def message : Fault → String
  | noContent script => "script '" ++ script ++ "' has no content"
  | unreadable script path cause =>
    "cannot read script '" ++ script ++ "' from " ++ path ++ ": " ++ cause.message
  | emptyScript script => "script '" ++ script ++ "' is empty"
  | unwritable reason => "cannot write to stdout: " ++ reason
  | unterminated => "unterminated string"
  | unclosed kind => "unclosed " ++ kind.text ++ " scope"
  | unexpected symbol => "unexpected '" ++ String.singleton symbol.char ++ "'"
  | unprocessed => "unprocessed expression"
  | noActiveScope => "no active scope"
  | unknownFunction (some name) => "Unknown function '" ++ name ++ "'"
  | unknownFunction none => "Unknown function <unnamed>"
  | tooDeep => "maximum call depth exceeded"
  | tooManyArguments function expected found =>
    "function '" ++ function.getD "None" ++ "' expects " ++ toString expected ++
      " argument(s), got " ++ toString found
  | nativeExists name => "native function '" ++ name ++ "' already registered"
  | scriptExists name => "script '" ++ name ++ "' already registered"
  | raised _ message => message

end Fault

/-- A script error: a cause and the place where it shows. -/
structure ScriptError where
  /-- The cause. -/
  fault : Fault
  /-- The place, if there is one. -/
  location : Option Location := none
deriving DecidableEq, Repr

namespace ScriptError

/-- The family of the cause. -/
def family (e : ScriptError) : Family := e.fault.family

/-- The wording of the cause. -/
def message (e : ScriptError) : String := e.fault.message

/-- The error as it is reported. The place is named where the family has one. -/
def format (e : ScriptError) : String :=
  match e.family with
  | .inputOutput => "I/O: " ++ e.message
  | .malformed => "Syntax: " ++ e.message ++ " at " ++ (e.location.map Location.text).getD "None"
  | .general | .unknown =>
    e.message ++ (e.location.map fun l => " at " ++ l.text).getD ""

end ScriptError

/-- A failure that is not the fault of a script. -/
inductive HostError where
  /-- Data that make no value. -/
  | conversion (cause : ConversionError)
  /-- A file that cannot be read. -/
  | file (cause : FileError)
  /-- A path with a NUL in it, which no file system takes. -/
  | nulInPath
  /-- Resolving a path leads to links that lead back to themselves. -/
  | linkLoop (path : String)
  /-- Links lead on to links so often that resolving them is given up. -/
  | tooNested
  /-- A locator from which no name can be derived. -/
  | noScriptName (locator : String)
  /-- A position outside a list. -/
  | outOfRange
  /-- A node used with a tree that it does not belong to. -/
  | foreignParent
  /-- Something registered as a native function that cannot be called. -/
  | notCallable (name : String)
  /-- A native function refuses a value. -/
  | badValue (message : String)
  /-- A native function reports a failure of the operating system. -/
  | system (message : String)
deriving DecidableEq, Repr

/-- The wording of a host error. -/
def HostError.message : HostError → String
  | conversion cause => cause.message
  | file cause => cause.message
  | nulInPath => "embedded null byte"
  | linkLoop path => "Symlink loop from " ++ Text.quoted path
  | tooNested => "maximum recursion depth exceeded"
  | noScriptName locator => "cannot derive a script name from " ++ Text.quoted locator
  | outOfRange => "list index out of range"
  | foreignParent => "parent node belongs to another tree"
  | notCallable name => "native function '" ++ name ++ "' must be callable"
  | badValue message => message
  | system message => message

/-- Any failure. -/
inductive Failure where
  /-- The fault of a script. -/
  | script (error : ScriptError)
  /-- Any other failure. -/
  | host (error : HostError)
deriving Repr

end ScopeScript
