import ScopeScript.Text.Affix
import ScopeScript.Text.Lines

/-!
# Paths

Paths are texts with `/` between their parts. The operations here are purely
textual and follow the POSIX rules: a path that begins with exactly two slashes
keeps both, one that begins with three or more counts as beginning with one.
-/

namespace ScopeScript.Path

/-- Whether a path starts at the root. -/
def isAbsolute (p : String) : Bool := Text.startsWith p "/"

/-- The root that a path starts with: none, `/`, or `//`. -/
def root (p : String) : String :=
  if Text.startsWith p "//" && !Text.startsWith p "///" then "//"
  else if isAbsolute p then "/"
  else ""

/-- The parts of a path between its slashes, empty ones included. -/
def parts (p : String) : List String := Text.splitAtChar '/' p

/-- The parts of a path that name something: neither empty nor a dot. -/
def names (p : String) : List String :=
  (parts p).filter fun s => !(s == "" || s == ".")

/-- A path under a base: an absolute one stays as it is. -/
def join (base p : String) : String :=
  if isAbsolute p then p
  else if base.isEmpty || base.toList.getLast? == some '/' then base ++ p
  else base ++ "/" ++ p

/-- Resolves the parts `..` against the parts before them, which are given in
reverse. Above the root there is nothing; a relative path keeps them. -/
def collapse (absolute : Bool) (done : List String) : List String → List String
  | [] => done.reverse
  | s :: rest =>
    if s == ".." then
      match done with
      | [] => collapse absolute (if absolute then [] else [".."]) rest
      | d :: before =>
        if d == ".." then collapse absolute (s :: done) rest else collapse absolute before rest
    else collapse absolute (s :: done) rest

/-- A path without empty parts, dots and, as far as possible, `..`. -/
def normalize (p : String) : String :=
  let r := root p
  let text := r ++ "/".intercalate (collapse (!r.isEmpty) [] (names p))
  if text.isEmpty then "." else text

/-- A path without empty parts and dots, but with its `..`. -/
def tidy (p : String) : String :=
  let text := root p ++ "/".intercalate (names p)
  if text.isEmpty then "." else text

/-- The path one level up, for one without empty parts and dots. At the root there is
nothing above, and behind `..` another one is needed. -/
def parent (p : String) : String :=
  match (names p).getLast? with
  | none => if isAbsolute p then "/" else ".."
  | some s => if s == ".." then p ++ "/.." else root p ++ "/".intercalate (names p).dropLast

/-- The last name in a path, or nothing. -/
def fileName (p : String) : String := (names p).getLast?.getD ""

/-- Cuts a file name before its last dot, unless that dot is its first or last
character. -/
def cutSuffix (name : String) : String × String :=
  let cs := name.toList
  let after := cs.reverse.takeWhile (· != '.')
  let before := cs.length - after.length - 1
  if cs.contains '.' && 0 < before && !after.isEmpty then
    (String.ofList (cs.take before), String.ofList (cs.drop before))
  else (name, "")

/-- The file name without its suffix. -/
def stem (p : String) : String := (cutSuffix (fileName p)).1

/-- The suffix of the file name, with its dot. -/
def suffix (p : String) : String := (cutSuffix (fileName p)).2

/-- Drops the slashes that a text ends with. -/
def dropEndSlashes (p : String) : String :=
  String.ofList (p.toList.reverse.dropWhile (· == '/')).reverse

/-- Drops the slashes that a text begins with. -/
def dropStartSlashes (p : String) : String :=
  String.ofList (p.toList.dropWhile (· == '/'))

/-- Replaces a leading `~` by the home directory. A `~` that is followed by a
name stays, as no users are known. -/
def expandHome (home p : String) : String :=
  match p.toList with
  | '~' :: rest =>
    if rest.isEmpty || rest.head? == some '/' then
      let text := dropEndSlashes home ++ String.ofList rest
      if text.isEmpty then "/" else text
    else p
  | _ => p

end ScopeScript.Path
