import ScopeScript.Format.Basic

/-!
# Writing XML

A mapping becomes an element whose children are its entries, a list becomes as
many elements of the same name as it has items, and anything else an element with
text. Keys that begin with `@` are attributes, the key `#text` holds the text of
an element that has attributes or children as well, and `#comment` a comment.

A document has exactly one root, which the caller names. Where `pretty` holds,
every element with children is laid out over several lines.
-/

namespace ScopeScript.Xml

/-- The first line of every document. -/
def declaration : String := "<?xml version=\"1.0\" encoding=\"utf-8\"?>\n"

/-- What stands for a character in a text. -/
def escapeChar (c : Char) : String :=
  match c with
  | '&' => "&amp;"
  | '<' => "&lt;"
  | '>' => "&gt;"
  | c => String.singleton c

/-- A text as it is written between tags. -/
def escaped (s : String) : String := String.join (s.toList.map escapeChar)

/-- What stands for a character in an attribute. -/
def escapeAttributeChar (c : Char) : String :=
  match c with
  | '\n' => "&#10;"
  | '\r' => "&#13;"
  | '\t' => "&#9;"
  | c => escapeChar c

/-- A text as the value of an attribute: between double quotes, unless it contains
these and no single ones. -/
def attributeText (s : String) : String :=
  let cs := s.toList
  let body := String.join (cs.map escapeAttributeChar)
  if cs.contains '"' then
    if cs.contains '\'' then
      let quoteless := body.toList.map fun c => if c == '"' then "&quot;" else String.singleton c
      "\"" ++ String.join quoteless ++ "\""
    else "'" ++ body ++ "'"
  else "\"" ++ body ++ "\""

/-- The text of a datum that is no mapping. -/
def contentText : Datum → String
  | .bool b => if b then "true" else "false"
  | d => d.plain

/-- The key of the text of an element. -/
def textKey : String := "#text"

/-- The key of comments. -/
def commentKey : String := "#comment"

/-- The name that a key is, for an element or an attribute. -/
def checkedName (what : String) (key : Datum) : Except FormatError String :=
  match key with
  | .text s =>
    let cs := s.toList
    let bad := fun reason => .error (.badName ("Invalid " ++ what ++ " name: " ++ reason))
    if cs.head? == some '?' || cs.head? == some '!' then bad "cannot start with \"?\" or \"!\""
    else if cs.contains '<' || cs.contains '>' then bad "\"<\" or \">\" not allowed"
    else if cs.contains '/' then bad "\"/\" not allowed"
    else if cs.contains '"' || cs.contains '\'' then bad "quotes not allowed"
    else if cs.contains '=' then bad "\"=\" not allowed"
    else if cs.any Text.isBlank then bad "whitespace not allowed"
    else .ok s
  | _ => .error (.badName (what ++ " name must be a string"))

/-- What an entry of a mapping is for its element. -/
inductive Role where
  /-- The text of the element. -/
  | content
  /-- An attribute. -/
  | attribute (name : String)
  /-- Nothing: an empty list has no elements. -/
  | nothing
  /-- A child. -/
  | child

/-- The role of an entry. -/
def roleOf (key value : Datum) : Role :=
  match key, value with
  | .text s, d =>
    if s == textKey then .content
    else
      match s.toList, d with
      | '@' :: name, _ => .attribute (String.ofList name)
      | _, .list [] => .nothing
      | _, _ => .child
  | _, .list [] => .nothing
  | _, _ => .child

/-- The attributes of the element of a mapping; the last of several with the same
name counts. -/
def attributesOf : List (Datum × Datum) → Except FormatError (List (String × String))
  | [] => .ok []
  | (k, v) :: rest =>
    match roleOf k v with
    | .attribute name => do
      let name ← checkedName "attribute" (.text name)
      let more ← attributesOf rest
      return (name, v.plain) :: more
    | _ => attributesOf rest

/-- The text of the element of a mapping. -/
def textOf (entries : List (Datum × Datum)) : String :=
  match Datum.field? textKey entries with
  | some .null => ""
  | some d => contentText d
  | none => ""

/-- Whether the element of a mapping has children. -/
def hasChildren (entries : List (Datum × Datum)) : Bool :=
  entries.any fun (k, v) =>
    match roleOf k v with
    | .child => true
    | _ => false

/-- The layout of a document. -/
structure Style where
  /-- Whether elements stand on lines of their own. -/
  pretty : Bool

/-- The blanks in front of an element at some depth. -/
def Style.indent (s : Style) (depth : Nat) : String :=
  if s.pretty then String.ofList (List.replicate depth '\t') else ""

/-- An element around children that are written already. -/
def Style.element (s : Style) (depth : Nat) (name : String) (attributes : List (String × String))
    (children : Option String) (text : String) : String :=
  let line := if s.pretty then "\n" else ""
  let tag :=
    String.join ((enterAll attributes).map fun (k, v) => " " ++ k ++ "=" ++ attributeText v)
  let body :=
    match children with
    | some c => line ++ c ++ escaped text ++ s.indent depth
    | none => escaped text
  s.indent depth ++ "<" ++ name ++ tag ++ ">" ++ body ++ "</" ++ name ++ ">" ++
    if depth = 0 then "" else line

/-- An element without children. -/
def Style.leaf (s : Style) (depth : Nat) (name : String) (d : Datum) : String :=
  match d with
  | .null => s.element depth name [] none ""
  | d => s.element depth name [] none (contentText d)

/-- A comment, unless it is empty. -/
def Style.comment (s : Style) (depth : Nat) (d : Datum) : String :=
  let text := contentText d
  if text.isEmpty then ""
  else s.indent depth ++ "<!--" ++ text ++ "-->" ++ if s.pretty then "\n" else ""

/-- Comments, one for each item of a list. -/
def Style.comments (s : Style) (depth : Nat) : Datum → String
  | .list xs =>
    String.join ((xs.filter fun d => d.isTruthy || d.toInt?.isSome).map (s.comment depth))
  | .null => ""
  | d => s.comment depth d

/-- Whether a key is that of comments. -/
def isComment : Datum → Bool
  | .text s => s == commentKey
  | _ => false

mutual

/-- The elements for an entry. -/
def Style.entry (s : Style) (depth : Nat) (name : String) : Datum → Except FormatError String
  | .list xs => s.items depth name true xs
  | .tuple xs => s.items depth name true xs
  | .set xs => s.items depth name true xs
  | .map es => do
    let attributes ← attributesOf es
    let children ← s.children (depth + 1) es
    let inside := if hasChildren es then some children else none
    return s.element depth name attributes inside (textOf es)
  | d => .ok (s.leaf depth name d)

/-- The element for an item of a list. A list in a list is no more than a text. -/
def Style.item (s : Style) (depth : Nat) (name : String) : Datum → Except FormatError String
  | .map es => do
    let attributes ← attributesOf es
    let children ← s.children (depth + 1) es
    let inside := if hasChildren es then some children else none
    return s.element depth name attributes inside (textOf es)
  | d => .ok (s.leaf depth name d)

/-- The elements for the items of a list. At the root there can be only one. -/
def Style.items (s : Style) (depth : Nat) (name : String) (first : Bool) :
    List Datum → Except FormatError String
  | [] => .ok ""
  | x :: xs => do
    if depth = 0 && !first then .error .multipleRoots
    let text ← s.item depth name x
    let rest ← s.items depth name false xs
    return text ++ rest

/-- The elements for those entries of a mapping that are children. -/
def Style.children (s : Style) (depth : Nat) :
    List (Datum × Datum) → Except FormatError String
  | [] => .ok ""
  | (k, v) :: rest => do
    let text ←
      match roleOf k v with
      | .child =>
        if isComment k then .ok (s.comments depth v)
        else do
          let name ← checkedName "element" k
          s.entry depth name v
      | _ => .ok ""
    let more ← s.children depth rest
    return text ++ more

end

/-- A document with the given root. -/
def write (pretty : Bool) (root content : Datum) : Except FormatError String := do
  if isComment root then .error .noRoot
  let name ← checkedName "element" root
  let text ← ({ pretty } : Style).entry 0 name content
  return declaration ++ text

end ScopeScript.Xml
