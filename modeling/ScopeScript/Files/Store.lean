import ScopeScript.Fault
import ScopeScript.Files.Path

/-!
# Files

What a program can see of the file system is a value: files with their content,
directories, links, what the system refuses to read, the working directory and the
home directory.

There are two ways to follow a path. The **system** does it when something is opened
(`FileStore.locate`): part by part, where every part but the last has to be a directory
or a link to one, and `..` goes up from where the parts before it lead. It follows forty
links and no more. The **host** does it when a path is made absolute
(`FileStore.resolveFrom`): it asks the system of each part whether there is a link, and
goes on with the target of the link if there is one. A part that does not exist is no
reason to stop, and neither is a link that leads back to itself: what comes behind it is
kept as it is. But the path that results is looked up, and if the system gives up on it,
then so does the host (`FileStore.absolute`).

Names are texts, and the system takes every text for a name.
-/

namespace ScopeScript

/-- What stands at a path. -/
inductive FileEntry where
  /-- A file with its content. -/
  | file (content : List UInt8)
  /-- A directory. -/
  | directory
  /-- A link to a path, which is taken from the directory that the link is in. -/
  | link (target : String)
deriving Repr

/-- The visible part of a file system. Directories that contain something need
not be listed. -/
structure FileStore where
  /-- Files, directories and links, by the names on the way from the root. -/
  entries : List (List String × FileEntry) := []
  /-- What the system refuses, by the same names: to read a file or a link, or to look
  up anything in a directory. -/
  refusals : List (List String × Refusal) := []
  /-- The working directory. -/
  workingDirectory : String := "/"
  /-- Whether the working directory has been removed. -/
  lost : Bool := false
  /-- The home directory. -/
  home : String := "/"
  /-- How deep the host goes into links that lead to links. The limit comes from the depth
  of recursion that it allows. -/
  nesting : Nat := 993

namespace FileStore

/-- What stands at a place that is given by the names on the way from the root. -/
def at? (fs : FileStore) (place : List String) : Option FileEntry :=
  match fs.entries.lookup place with
  | some e => some e
  | none =>
    if !fs.lost && place.isPrefixOf (Path.names fs.workingDirectory) ||
        fs.entries.any fun (p, _) => place.isPrefixOf p then some .directory
    else none

/-- Why the system refuses to read what stands at a place, if it does. -/
def refusal? (fs : FileStore) (place : List String) : Option Refusal := fs.refusals.lookup place

/-- The working directory, as long as there is one. -/
def currentDirectory (fs : FileStore) : Except HostError String :=
  if fs.lost then .error (.file .noWorkingDirectory) else .ok fs.workingDirectory

/-! ### What the system does -/

/-- Why following a path fails. -/
inductive Blocked where
  /-- There is nothing of that name. -/
  | missing
  /-- There is a file where a directory is needed. -/
  | notDirectory
  /-- The path or a part of it is too long. -/
  | tooLong
  /-- There are too many links. -/
  | tooManyLinks
  /-- The system refuses to go on. -/
  | refused (refusal : Refusal)

/-- The error for a path that cannot be followed. -/
def Blocked.toFileError (path : String) : Blocked → FileError
  | missing => .missing path
  | notDirectory => .notDirectory path
  | tooLong => .tooLong path
  | tooManyLinks => .tooManyLinks path
  | refused r => .refused r path

/-- The most octets that a part of a path can have. -/
def nameLimit : Nat := 255

/-- The most octets that a path can have. -/
def pathLimit : Nat := 4095

/-- The most links that the system follows along a path. -/
def linkLimit : Nat := 40

/-- Follows the parts of a path from a directory on, up to the first link that is not at
the end. From there `enter` goes on, with the directory that the target of the link is taken
from and all parts that are left. A link at the end counts as any other if `last` says so. -/
def walk (fs : FileStore) (last : Bool)
    (enter : List String → List String → Except Blocked (List String × FileEntry))
    (place : List String) : List String → Except Blocked (List String × FileEntry)
  | [] => .ok (place, .directory)
  | s :: rest =>
    if s == "" then walk fs last enter place rest
    else
      match fs.refusal? place with
      | some r => .error (.refused r)
      | none =>
        if s == "." then walk fs last enter place rest
        else if s == ".." then walk fs last enter place.dropLast rest
        else if nameLimit < s.utf8ByteSize then .error .tooLong
        else
          match fs.at? (place ++ [s]) with
          | none => .error .missing
          | some .directory => walk fs last enter (place ++ [s]) rest
          | some (.file content) =>
            if rest.isEmpty then .ok (place ++ [s], .file content) else .error .notDirectory
          | some (.link target) =>
            if rest.isEmpty && !last then .ok (place ++ [s], .link target)
            else
              match fs.refusal? (place ++ [s]) with
              | some r => .error (.refused r)
              | none =>
                enter (if Path.isAbsolute target then [] else place) (Path.parts target ++ rest)

/-- Follows the parts of a path from a directory on, and so many links. -/
def follow (fs : FileStore) (last : Bool) :
    Nat → List String → List String → Except Blocked (List String × FileEntry)
  | 0 => fs.walk last fun _ _ => .error .tooManyLinks
  | links + 1 => fs.walk last (follow fs last links)

/-- Where a path leads, and what stands there. The empty path leads nowhere. A link at the
end of the path is followed if `last` says so. -/
def locate (fs : FileStore) (last : Bool) (path : String) :
    Except Blocked (List String × FileEntry) :=
  if path.isEmpty then .error .missing
  else if pathLimit < path.utf8ByteSize then .error .tooLong
  else
    fs.follow last linkLimit (if Path.isAbsolute path then [] else Path.names fs.workingDirectory)
      (Path.parts path)

/-- Whether a path contains a NUL, which no file system takes. -/
def hasNul (path : String) : Bool := path.toList.contains (Char.ofNat 0)

/-- Whether a path leads to a directory. -/
def isDirectory (fs : FileStore) (path : String) : Bool :=
  !hasNul path &&
    match fs.locate true path with
    | .ok (_, .directory) => true
    | _ => false

/-- The content of the file at a path. -/
def readBytes (fs : FileStore) (path : String) : Except HostError (List UInt8) :=
  if hasNul path then .error .nulInPath
  else
    match fs.locate true path with
    | .ok (place, .file content) =>
      match fs.refusal? place with
      | some r => .error (.file (.refused r path))
      | none => .ok content
    | .ok (_, .directory) => .error (.file (.isDirectory path))
    | .ok (_, .link _) => .error (.file (.tooManyLinks path))
    | .error blocked => .error (.file (blocked.toFileError path))

/-- The text of the file at a path, with `\n` as its only newline. -/
def readText (fs : FileStore) (path : String) : Except HostError String := do
  match Text.decodeUtf8 (← fs.readBytes path) with
  | .ok text => return Text.unifyNewlines text
  | .error fault => .error (.file (.undecodable fault))

/-- The target of the link at a path, if there is a link. -/
def readLink (fs : FileStore) (path : String) : Except HostError (Option String) :=
  if hasNul path then .error .nulInPath
  else
    match fs.locate false path with
    | .ok (place, .link target) =>
      match fs.refusal? place with
      | some r => .error (.file (.refused r path))
      | none => .ok (some target)
    | _ => .ok none

/-! ### What the host does -/

/-- A path that has been resolved. -/
structure Resolved where
  /-- The path. -/
  path : String
  /-- Whether all of it has been resolved, and not only up to a link that leads back to
  itself. -/
  complete : Bool := true
  /-- The links on the way, the last one first: where each of them leads, or nothing as
  long as that is being found out. -/
  links : List (String × Option String)

/-- Resolves the parts behind a path that has been resolved. At a link `enter` goes on, with
the path so far, the target of the link, and the links that are known. -/
def resolveParts (fs : FileStore)
    (enter : String → String → List (String × Option String) → Except HostError Resolved)
    (path : String) (links : List (String × Option String)) :
    List String → Except HostError Resolved
  | [] => .ok { path, links }
  | s :: rest =>
    if s == "" || s == "." then resolveParts fs enter path links rest
    else if s == ".." then resolveParts fs enter (Path.parent path) links rest
    else
      let next := Path.join path s
      match fs.readLink next with
      | .error e => .error e
      | .ok none => resolveParts fs enter next links rest
      | .ok (some target) =>
        match links.lookup next with
        | some (some known) => resolveParts fs enter known links rest
        | some none =>
          .ok { path := Path.join next ("/".intercalate rest), complete := false, links }
        | none =>
          match enter path target ((next, none) :: links) with
          | .error e => .error e
          | .ok found =>
            if found.complete then
              resolveParts fs enter found.path ((next, some found.path) :: found.links) rest
            else .ok { found with path := Path.join found.path ("/".intercalate rest) }

/-- Resolves a path behind another one that has been resolved, with links up to some depth. -/
def resolveFrom (fs : FileStore) :
    Nat → String → String → List (String × Option String) → Except HostError Resolved
  | 0, _, _, _ => .error .tooNested
  | depth + 1, start, path, links =>
    fs.resolveParts (resolveFrom fs depth) (if Path.isAbsolute path then "/" else start) links
      (Path.parts path)

/-- A path seen from the working directory, without `..`. -/
def fromRoot (fs : FileStore) (path : String) : Except HostError String :=
  let below (base : String) : String :=
    "/" ++ "/".intercalate (Path.collapse true [] (Path.names (Path.join base path)))
  if Path.isAbsolute path then .ok (below "/") else fs.currentDirectory.map below

/-- The absolute form of a path, with all links resolved. -/
def absolute (fs : FileStore) (path : String) : Except HostError String := do
  let found ← fs.resolveFrom fs.nesting "" (Path.tidy path) []
  let full ← fs.fromRoot found.path
  if hasNul full then .error .nulInPath
  else
    match fs.locate true full with
    | .error .tooManyLinks => .error (.linkLoop full)
    | _ => .ok full

end FileStore

end ScopeScript
