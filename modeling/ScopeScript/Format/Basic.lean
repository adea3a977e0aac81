import ScopeScript.Datum.Convert
import ScopeScript.Text.Case
import ScopeScript.Text.Utf8

/-!
# Formats

Plain data are written as JSON, YAML, TOML or XML, and read back from the first
three. This file holds the names of the formats, the errors they share, and the
step that comes before all writing: script values become plain data wherever
they stand in a list or mapping.
-/

namespace ScopeScript

/-- A serialisation format. -/
inductive Format where
  | json
  | yaml
  | toml
  | xml
deriving DecidableEq, Repr

/-- The format of a given name, in any case. -/
def Format.ofName? (name : String) : Option Format :=
  match Text.lower name with
  | "json" => some .json
  | "yaml" => some .yaml
  | "toml" => some .toml
  | "xml" => some .xml
  | _ => none

/-- Why data cannot be written or read. -/
inductive FormatError where
  /-- A name that is no format for writing. -/
  | unknownForWriting (name : String)
  /-- A name that is no format for reading. -/
  | unknownForReading (name : String)
  /-- The octets are no text. -/
  | undecodable (fault : Text.Utf8Fault)
  /-- The text does not follow the format. -/
  | malformed
  /-- A datum that JSON cannot hold. -/
  | unwritable (found : String)
  /-- A datum that YAML cannot hold, as it is shown. -/
  | unrepresentable (shown : String)
  /-- A datum that JSON cannot have as a key. -/
  | badKey (found : String)
  /-- An XML document with more than one root. -/
  | multipleRoots
  /-- An XML document without a root. -/
  | noRoot
  /-- A name that no element or attribute of XML can have. -/
  | badName (message : String)
  /-- A table without an entry that is looked up in it. -/
  | noEntry (key : String)
  /-- A list or text that is too short for what is looked up in it. -/
  | tooShort (what : String)
  /-- A datum that is used in a way that its type does not allow. -/
  | unsuitable (message : String)
  /-- A datum that nothing can be added to. -/
  | notExtensible (found : String)
deriving Repr

/-- The wording of an error, if it has one of its own. -/
def FormatError.message? : FormatError → Option String
  | unknownForWriting name => some ("Unsupported serialization format: " ++ Text.quoted name)
  | unknownForReading name => some ("Unsupported deserialization format: " ++ Text.quoted name)
  | undecodable fault => some fault.message
  | malformed => none
  | unwritable found => some ("Object of type " ++ found ++ " is not JSON serializable")
  | unrepresentable shown =>
    some (Datum.parenthesised [Text.quoted "cannot represent an object", shown])
  | badKey found => some ("keys must be str, int, float, bool or None, not " ++ found)
  | multipleRoots => some "document with multiple roots"
  | noRoot => some "Document must have exactly one root."
  | badName message => some message
  | noEntry key => some (Text.quoted key)
  | tooShort what => some (what ++ " index out of range")
  | unsuitable message => some message
  | notExtensible found => some ("'" ++ found ++ "' object has no attribute 'append'")

namespace Datum

mutual

/-- Replaces script values by the plain data they stand for, in lists and
mappings to any depth. -/
def unwrap : Datum → Datum
  | value v => v.toDatum
  | list xs => list (unwrapItems xs)
  | map es => map (unwrapEntries es)
  | d => d

/-- Replaces script values among the items of a list. -/
def unwrapItems : List Datum → List Datum
  | [] => []
  | x :: xs => unwrap x :: unwrapItems xs

/-- Replaces script values among the entries of a mapping. -/
def unwrapEntries : List (Datum × Datum) → List (Datum × Datum)
  | [] => []
  | (k, v) :: es => (k, unwrap v) :: unwrapEntries es

end

end Datum

end ScopeScript
