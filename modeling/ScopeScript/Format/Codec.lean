import ScopeScript.Format.Json.Printer
import ScopeScript.Format.Json.Reader
import ScopeScript.Format.Toml.Printer
import ScopeScript.Format.Toml.Reader
import ScopeScript.Format.Xml.Printer
import ScopeScript.Format.Yaml.Printer
import ScopeScript.Format.Yaml.Reader
import ScopeScript.Tree.Export

/-!
# Writing and reading in any format

The entry points to the four formats. TOML and XML need a mapping at the top:
for TOML anything else is put under a name of the caller's choice, and so it is
for XML, unless the mapping has exactly one entry, which is the root then.
-/

namespace ScopeScript

/-- The name under which data are put that are no mapping. -/
def defaultRoot : String := "root"

namespace Format

/-- Writes data in a format. -/
def write (format : Format) (pretty : Bool) (root : String) (d : Datum) :
    Except FormatError String :=
  match format, d.unwrap with
  | .json, d => Json.write pretty d
  | .yaml, d => Yaml.write d
  | .toml, .map es => Toml.write (.map es)
  | .toml, d => Toml.write (.map [(.text root, d)])
  | .xml, .map [(key, d)] => Xml.write pretty key d
  | .xml, d => Xml.write pretty (.text root) d

/-- Reads data in a format. XML cannot be read. -/
def read? (format : Format) (s : String) : Option (Except FormatError Datum) :=
  let orMalformed (d : Option Datum) : Except FormatError Datum :=
    match d with
    | some d => .ok d
    | none => .error .malformed
  match format with
  | .json => some (orMalformed (Json.read s))
  | .yaml => some (orMalformed (Yaml.read s))
  | .toml => some (Toml.read s)
  | .xml => none

end Format

/-- Writes data in the format of a given name. -/
def serialize (name : String) (pretty : Bool) (root : String) (d : Datum) :
    Except FormatError String :=
  match Format.ofName? name with
  | some format => format.write pretty root d
  | none => .error (.unknownForWriting name)

/-- Reads data in the format of a given name. -/
def deserialize (name s : String) : Except FormatError Datum :=
  match (Format.ofName? name).bind fun format => format.read? s with
  | some result => result
  | none => .error (.unknownForReading name)

/-- Reads data from octets, which have to be text before anything else. -/
def deserializeOctets (name : String) (content : List UInt8) : Except FormatError Datum :=
  match Text.decodeUtf8 content with
  | .ok s => deserialize name s
  | .error fault => .error (.undecodable fault)

/-- Writes a tree in the format of a given name. -/
def Tree.serialize (t : Tree) (name : String) : Except FormatError String :=
  ScopeScript.serialize name true defaultRoot t.exportTree

end ScopeScript
