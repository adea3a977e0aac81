import ScopeScript.Text.Quoted

/-!
# The page that YAML is written on

Where a line may be broken and how a node is indented depends on what stands on
the current line already. A **page** keeps the text written so far together with
the column reached, whether a blank would be superfluous here, and whether
nothing but indentation and indicators stands on the line.
-/

namespace ScopeScript.Yaml

/-- Text under way. -/
structure Page where
  /-- What has been written. -/
  text : String := ""
  /-- The column reached. -/
  column : Nat := 0
  /-- Whether the last character separates as a blank does. -/
  spaced : Bool := true
  /-- Whether only indentation and indicators stand on the line. -/
  indented : Bool := true
  /-- Whether the document needs a mark for its end. -/
  openEnded : Bool := false

namespace Page

/-- Lines are broken after this column, where possible. -/
def width : Nat := 80

/-- Writes text that contains no line break. -/
def put (p : Page) (s : String) : Page :=
  { p with text := p.text ++ s, column := p.column + s.length }

/-- Writes characters, none of which is a line break. -/
def putChars (p : Page) (cs : List Char) : Page := p.put (String.ofList cs)

/-- Marks what was written last as content. -/
def content (p : Page) : Page := { p with spaced := false, indented := false }

/-- Writes an indicator, with a blank in front if one is needed. -/
def indicator (p : Page) (s : String) (needsSpace spacedAfter keepsIndent : Bool) : Page :=
  let q := p.put (if p.spaced || !needsSpace then s else " " ++ s)
  { q with spaced := spacedAfter, indented := p.indented && keepsIndent, openEnded := false }

/-- Ends the line with a given break. -/
def breakWith (p : Page) (s : String) : Page :=
  { p with text := p.text ++ s, column := 0, spaced := true, indented := true }

/-- Ends the line. -/
def lineBreak (p : Page) : Page := p.breakWith "\n"

/-- Goes to a column: on this line if only indentation stands there, else on the
next. -/
def indentTo (p : Page) (indent : Nat) : Page :=
  let p :=
    if !p.indented || indent < p.column || (p.column == indent && !p.spaced) then p.lineBreak
    else p
  if p.column < indent then
    { p.putChars (List.replicate (indent - p.column) ' ') with spaced := true }
  else p

end Page

end ScopeScript.Yaml
