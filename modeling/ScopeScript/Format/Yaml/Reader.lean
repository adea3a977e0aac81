import ScopeScript.Format.Yaml.Node
import ScopeScript.Format.Yaml.Scalar

/-!
# Reading YAML

The node of a document becomes plain data. A scalar without quotes and tag
stands for what `ScalarKind.of` says; dates are kept as texts. Of entries with
the same key the last counts, and the key `<<` enters the entries of other
mappings in front of the mapping's own.
-/

namespace ScopeScript.Yaml

/-- What the tags of the language begin with. -/
def tagSpace : String := "tag:yaml.org,2002:"

/-- What a scalar of a known kind stands for. -/
def scalarDatum (kind : ScalarKind) (text : String) : Option Datum :=
  match kind with
  | .text | .timestamp => some (.text text)
  | .null => some .null
  | .bool => some (.bool (trueWords.contains text))
  | .int => (intValue? text.toList).map Datum.int
  | .float => (floatValue? text.toList).map Datum.float
  | .merge | .default => none

/-- Whether a text is a word for a truth value, in any case. -/
def truthOf? (text : String) : Option Bool :=
  let word := String.ofList (text.toList.map Char.toLower)
  if trueWords.contains word then some true
  else if falseWords.contains word then some false
  else none

/-- What a scalar with a tag stands for. -/
def taggedDatum (tag text : String) : Option Datum :=
  if tag == tagSpace ++ "str" then some (.text text)
  else if tag == tagSpace ++ "null" then some .null
  else if tag == tagSpace ++ "bool" then (truthOf? text).map Datum.bool
  else if tag == tagSpace ++ "int" then
    if isInt text.toList then (intValue? text.toList).map Datum.int else none
  else if tag == tagSpace ++ "float" then (floatValue? text.toList).map Datum.float
  else none

namespace Node

/-- Whether a node is a mapping. -/
def isMap : Node → Bool
  | map .. => true
  | _ => false

/-- Whether a node can be merged into a mapping: it is a mapping or a list of
mappings. -/
def isMergeable : Node → Bool
  | map .. => true
  | list items _ => items.all isMap
  | _ => false

/-- The part that a key plays in its mapping, if it is not an ordinary one. -/
def keyKind : Node → ScalarKind
  | scalar text true none => ScalarKind.of text
  | _ => .text

end Node

/-- Whether a datum can be a key: containers cannot. -/
def canBeKey : Datum → Bool
  | .list _ | .map _ => false
  | _ => true

/-- The entries that a datum contributes to the mapping it is merged into; of
several mappings the last comes first. -/
def mergedEntries : Datum → List (Datum × Datum)
  | .map es => es
  | .list xs =>
    xs.reverse.flatMap fun
      | .map es => es
      | _ => []
  | _ => []

mutual

/-- The datum that a node stands for. -/
def Node.toDatum : Node → Option Datum
  | .scalar text plain none =>
    if plain then scalarDatum (ScalarKind.of text) text else some (.text text)
  | .scalar text _ (some tag) => taggedDatum tag text
  | .list items tag =>
    if tag.all (· == tagSpace ++ "seq") then (itemData items).map Datum.list else none
  | .map entries tag =>
    if tag.all (· == tagSpace ++ "map") then
      (entryData entries).map fun (merged, own) => Datum.ofEntries (merged ++ own)
    else none

/-- The data that the items of a list stand for. -/
def itemData : List Node → Option (List Datum)
  | [] => some []
  | n :: rest => do
    let d ← n.toDatum
    let ds ← itemData rest
    return d :: ds

/-- The entries that those of a mapping stand for: the ones merged in, and its
own. -/
def entryData : List (Node × Node) → Option (List (Datum × Datum) × List (Datum × Datum))
  | [] => some ([], [])
  | (k, v) :: rest => do
    let d ← v.toDatum
    match k.keyKind with
    | .merge =>
      if !v.isMergeable then none
      let (merged, own) ← entryData rest
      return (mergedEntries d ++ merged, own)
    | .default =>
      let (merged, own) ← entryData rest
      return (merged, (.text "=", d) :: own)
    | _ =>
      let key ← k.toDatum
      if !canBeKey key then none
      let (merged, own) ← entryData rest
      return (merged, (key, d) :: own)

end

/-- The datum that a YAML document holds. -/
def read (s : String) : Option Datum := do
  let tokens ← Token.ofText? s
  let n ← Node.ofTokens? tokens
  n.toDatum

end ScopeScript.Yaml
