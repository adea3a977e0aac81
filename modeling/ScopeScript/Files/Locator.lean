import ScopeScript.Files.Store

/-!
# Locators

A **locator** says where a script comes from: a path, a path after the scheme
`file://`, or any text after the scheme `virtual://`, which has no file behind
it. Relative paths are taken from a base directory, or from the working
directory if none is given.
-/

namespace ScopeScript.Locator

/-- The scheme of scripts without a file. -/
def virtualScheme : String := "virtual://"

/-- The scheme of files. -/
def fileScheme : String := "file://"

/-- Whether a locator has no file behind it. -/
def isVirtual (locator : String) : Bool := Text.startsWith locator virtualScheme

/-- A locator without its scheme. -/
def withoutScheme (locator : String) : String :=
  if isVirtual locator then Text.dropChars virtualScheme.length locator
  else if Text.startsWith locator fileScheme then Text.dropChars fileScheme.length locator
  else locator

/-- The name of a script that is given none: the stem of its file. -/
def stem (locator : String) : Except HostError String :=
  let name := Path.stem (withoutScheme locator)
  if name.isEmpty then .error (.noScriptName locator) else .ok name

/-- The directory that relative paths are taken from. -/
def baseOr (fs : FileStore) : Option String → Except HostError String
  | some base => if base.isEmpty then fs.currentDirectory else .ok base
  | none => fs.currentDirectory

/-- The path for what follows the scheme `file://`. -/
def resolveFile (fs : FileStore) (base : Option String) (rest : String) :
    Except HostError String :=
  match rest.toList with
  | [] => baseOr fs base
  | '/' :: _ => .ok ("/" ++ Path.dropStartSlashes rest)
  | '~' :: tail =>
    let tail :=
      if tail.isEmpty || tail.head? == some '/' then String.ofList tail
      else "/" ++ String.ofList tail
    .ok (Path.expandHome fs.home ("~" ++ tail))
  | '.' :: '/' :: rest' =>
    (baseOr fs base).map fun b => Path.normalize (Path.join b (String.ofList rest'))
  | _ => (baseOr fs base).map fun b => Path.normalize (Path.join b rest)

/-- The path that a locator stands for. -/
def resolve (fs : FileStore) (locator : String) (base : Option String) :
    Except HostError String :=
  if isVirtual locator then .error (.file (.noBackingFile locator))
  else if Text.startsWith locator fileScheme then
    resolveFile fs base (withoutScheme locator)
  else
    let p := Path.expandHome fs.home locator
    if Path.isAbsolute p then .ok (Path.normalize p)
    else (baseOr fs base).map fun b => Path.normalize (Path.join b p)

/-- The text of the script that a locator stands for. -/
def read (fs : FileStore) (locator : String) (base : Option String) :
    Except HostError String := do
  let path ← resolve fs locator base
  if fs.isDirectory path then .error (.file (.directory path)) else fs.readText path

end ScopeScript.Locator
