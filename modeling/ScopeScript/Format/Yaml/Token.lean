import ScopeScript.Format.Yaml.Lexeme

/-!
# Tokens of a YAML document

A document is first cut into **tokens**, among which the beginning and the end
of every collection is explicit, also where the document only shows it by
indentation.

A key before a colon is only known for one when the colon is met. Until then the
place where it may have begun is kept as a `KeyMark`, one for each level of
brackets, and the tokens that announce a key are entered there afterwards. A key
has to stand on one line and within a limited distance of its colon.
-/

namespace ScopeScript.Yaml

/-- A token. -/
inductive Token where
  /-- A list begins, its items announced by hyphens. -/
  | listStart
  /-- A mapping begins, its entries on lines of their own. -/
  | mapStart
  /-- An indented collection ends. -/
  | blockEnd
  /-- A list between brackets begins. -/
  | bracketStart
  /-- A list between brackets ends. -/
  | bracketEnd
  /-- A mapping between braces begins. -/
  | braceStart
  /-- A mapping between braces ends. -/
  | braceEnd
  /-- A hyphen before an item. -/
  | item
  /-- A comma. -/
  | comma
  /-- A key follows. -/
  | key
  /-- The value for a key follows. -/
  | value
  /-- A document begins. -/
  | documentStart
  /-- A document ends. -/
  | documentEnd
  /-- A directive. -/
  | directive (content : Directive)
  /-- A reference to an anchor. -/
  | alias (name : String)
  /-- A name for the node that follows. -/
  | anchor (name : String)
  /-- The tag of the node that follows. -/
  | tag (handle : Option String) (text : String)
  /-- A scalar, in plain style or not. -/
  | scalar (text : String) (plain : Bool)
deriving DecidableEq, Repr

/-- A place where a key may have begun. -/
structure KeyMark where
  /-- How many tokens came before. -/
  position : Nat
  /-- Whether only a key can stand here. -/
  required : Bool
  /-- How many characters came before. -/
  index : Nat
  /-- The line. -/
  line : Nat
  /-- The column. -/
  column : Nat
deriving Repr

/-- A key cannot be further than this from its colon. -/
def keyReach : Nat := 1024

/-- A document cut into tokens up to some place. -/
structure Layout where
  /-- What is left. -/
  cursor : Cursor
  /-- The tokens so far. -/
  tokens : Array Token := #[]
  /-- The column of the innermost indented collection; -1 if there is none. -/
  indent : Int := -1
  /-- The columns of those around it. -/
  outer : List Int := []
  /-- Where keys may have begun, for each level of brackets, innermost first. -/
  marks : List (Option KeyMark) := [none]
  /-- Whether a key may begin here. -/
  keyAllowed : Bool := true

namespace Layout

/-- Whether the place is between brackets. -/
def inFlow (l : Layout) : Bool := 1 < l.marks.length

/-- Adds a token. -/
def push (l : Layout) (t : Token) : Layout := { l with tokens := l.tokens.push t }

/-- Adds a token and moves over the characters that it is written with. -/
def take (l : Layout) (t : Token) (length : Nat) : Layout :=
  { l with tokens := l.tokens.push t, cursor := l.cursor.skip length }

/-- Enters tokens before those from a position on. -/
def insertAt (l : Layout) (position : Nat) (ts : Array Token) : Layout :=
  { l with
    tokens := l.tokens.extract 0 position ++ ts ++ l.tokens.extract position l.tokens.size }

/-! ### Keys -/

/-- Forgets where the key of the innermost level may have begun. That fails if
nothing but a key could stand there. -/
def forgetKey (l : Layout) : Option Layout :=
  match l.marks with
  | some k :: rest => if k.required then none else some { l with marks := none :: rest }
  | _ => some l

/-- Keeps this place as one where a key may begin. -/
def markKey (l : Layout) : Option Layout :=
  if !l.keyAllowed then some l
  else do
    let l ← l.forgetKey
    let c := l.cursor
    let mark : KeyMark :=
      { position := l.tokens.size, required := !l.inFlow && l.indent == c.column
        index := c.index, line := c.line, column := c.column }
    return { l with marks := some mark :: l.marks.drop 1 }

/-- Whether a colon here is too far from where a key began. -/
def isStale (l : Layout) (k : KeyMark) : Bool :=
  k.line != l.cursor.line || keyReach < l.cursor.index - k.index

/-- Forgets all places that are too far away by now. -/
def dropStale (l : Layout) : Option Layout :=
  if l.marks.any fun m => (m.map fun k => l.isStale k && k.required).getD false then none
  else some { l with marks := l.marks.map fun m => m.filter fun k => !l.isStale k }

/-! ### Indentation -/

/-- Ends the collections that stand further right than a column. -/
def unwindFrom (column indent : Int) (tokens : Array Token) :
    (outer : List Int) → Array Token × Int × List Int
  | [] => (tokens, indent, [])
  | o :: outer =>
    if column < indent then unwindFrom column o (tokens.push .blockEnd) outer
    else (tokens, indent, o :: outer)

/-- Ends the indented collections that stand further right than a column.
Between brackets indentation means nothing. -/
def unwind (l : Layout) (column : Int) : Layout :=
  if l.inFlow then l
  else
    let (tokens, indent, outer) := unwindFrom column l.indent l.tokens l.outer
    { l with tokens, indent, outer }

/-- Whether a collection begins in a column, as its entry there shows. -/
def begins (l : Layout) (column : Nat) : Bool := l.indent < (column : Int)

/-- Makes a column that of the innermost collection. -/
def indentTo (l : Layout) (column : Nat) : Layout :=
  if l.begins column then { l with outer := l.indent :: l.outer, indent := column } else l

/-! ### Single tokens -/

/-- A hyphen or question mark that announces an entry of a collection, which may
begin here. -/
def announce (l : Layout) (start entry : Token) (keyAllowed : Bool) : Option Layout := do
  let column := l.cursor.column
  let l ←
    if l.inFlow then some l
    else if !l.keyAllowed then none
    else if l.begins column then some ((l.push start).indentTo column)
    else some l
  let l ← { l with keyAllowed }.forgetKey
  return l.take entry 1

/-- A colon after a key that is announced, or after one that has to be. -/
def takeValue (l : Layout) : Option Layout :=
  match l.marks with
  | some k :: rest =>
    let l := { l with marks := none :: rest, keyAllowed := false }
    if !l.inFlow && l.begins k.column then
      some (((l.insertAt k.position #[.mapStart, .key]).indentTo k.column).take .value 1)
    else some ((l.insertAt k.position #[.key]).take .value 1)
  | _ => l.announce .mapStart .value (!l.inFlow)

/-- The beginning of a collection between brackets. -/
def openBracket (l : Layout) (t : Token) : Option Layout := do
  let l ← l.markKey
  return { l.take t 1 with marks := none :: l.marks, keyAllowed := true }

/-- The end of a collection between brackets. -/
def closeBracket (l : Layout) (t : Token) : Option Layout :=
  if !l.inFlow then none
  else do
    let l ← l.forgetKey
    return { l.take t 1 with marks := l.marks.drop 1, keyAllowed := false }

/-- A comma between entries. -/
def takeComma (l : Layout) : Option Layout := do
  let l ← { l with keyAllowed := true }.forgetKey
  return l.take .comma 1

/-- A line that separates documents, or a directive: all collections end. -/
def endAll (l : Layout) : Option Layout := do
  let l ← (l.unwind (-1)).forgetKey
  return { l with keyAllowed := false }

/-- A token that may be a key or the beginning of one. -/
def takeNode (l : Layout) (read : Cursor → Option (Token × Bool × Cursor)) : Option Layout := do
  let l ← l.markKey
  let (t, keyAllowed, cursor) ← read l.cursor
  return { l.push t with cursor, keyAllowed }

/-- A scalar in one of the two block styles. -/
def takeBlock (l : Layout) (folding : Bool) : Option Layout := do
  let l ← { l with keyAllowed := true }.forgetKey
  let (text, cursor) ← block folding (l.indent + 1).toNat l.cursor.step
  return { l.push (.scalar (String.ofList text) false) with cursor }

/-- A quoted scalar. -/
def readQuoted (c : Cursor) : Option (Token × Bool × Cursor) := do
  let fuel := c.rest.length + 1
  let (text, c') ←
    if c.peek == '"' then doubleQuoted [] fuel c.step else singleQuoted [] fuel c.step
  return (.scalar (String.ofList text) false, false, c')

/-- Whether a plain scalar can begin here. -/
def startsPlain (l : Layout) : Bool :=
  let x := l.cursor.peek
  !(isWideGap x || "-?:,[]\x7b\x7d#&*!|>'\"%@`".toList.contains x) ||
    (!isWideGap (l.cursor.peekAt 1) && (x == '-' || (!l.inFlow && (x == '?' || x == ':'))))

/-- A plain scalar. -/
def readPlain (inFlow : Bool) (indent : Nat) (c : Cursor) : Option (Token × Bool × Cursor) :=
  let (text, ended, c') := plain inFlow indent [] [] false (c.rest.length + 1) c
  some (.scalar (String.ofList text) true, ended, c')

/-- A name behind its indicator. -/
def readName (make : String → Token) (c : Cursor) : Option (Token × Bool × Cursor) :=
  (anchorName c.step).map fun (name, c') => (make name, false, c')

/-- A tag. -/
def readTag (c : Cursor) : Option (Token × Bool × Cursor) :=
  (tag c).map fun ((handle, text), c') => (.tag handle text, false, c')

/-! ### The whole document -/

/-- Moves to the next token. Outside brackets a key may begin on a new line. -/
def skipGap : (fuel : Nat) → Layout → Layout
  | 0, l => l
  | fuel + 1, l =>
    let c := l.cursor.skipBlanks.skipComment
    if isBreak c.peek then
      skipGap fuel
        { l with cursor := c.takeBreak.2, keyAllowed := l.keyAllowed || !l.inFlow }
    else { l with cursor := c }

/-- The place of the next token, with all that ends before it. -/
def approach (l : Layout) : Option Layout := do
  let l :=
    if l.cursor.index == 0 && l.cursor.peek == '\uFEFF' then { l with cursor := l.cursor.step }
    else l
  let l := skipGap (l.cursor.rest.length + 1) l
  let l ← l.dropStale
  return l.unwind l.cursor.column

/-- The next token, at whose place the cursor stands. -/
def next (l : Layout) : Option Layout :=
  let c := l.cursor
  let x := c.peek
  let spaced := isWideGap (c.peekAt 1)
  if x == '%' && c.column == 0 then do
    let l ← l.endAll
    let (d, cursor) ← directive c.step
    return { l.push (.directive d) with cursor }
  else if c.column == 0 && c.isMark '-' then l.endAll.map (·.take .documentStart 3)
  else if c.column == 0 && c.isMark '.' then l.endAll.map (·.take .documentEnd 3)
  else if x == '[' then l.openBracket .bracketStart
  else if x == '{' then l.openBracket .braceStart
  else if x == ']' then l.closeBracket .bracketEnd
  else if x == '}' then l.closeBracket .braceEnd
  else if x == ',' then l.takeComma
  else if x == '-' && spaced then l.announce .listStart .item true
  else if x == '?' && (l.inFlow || spaced) then l.announce .mapStart .key (!l.inFlow)
  else if x == ':' && (l.inFlow || spaced) then l.takeValue
  else if x == '*' then l.takeNode (readName .alias)
  else if x == '&' then l.takeNode (readName .anchor)
  else if x == '!' then l.takeNode readTag
  else if x == '|' && !l.inFlow then l.takeBlock false
  else if x == '>' && !l.inFlow then l.takeBlock true
  else if x == '\'' || x == '"' then l.takeNode readQuoted
  else if l.startsPlain then l.takeNode (readPlain l.inFlow (l.indent + 1).toNat)
  else none

/-- All tokens from here on. Each takes at least one character, so that `fuel`
can be the number of those left. -/
def finish : (fuel : Nat) → Layout → Option (List Token)
  | 0, _ => none
  | fuel + 1, l => do
    let l ← l.approach
    if l.cursor.isAtEnd then
      let l ← (l.unwind (-1)).forgetKey
      return l.tokens.toList
    else finish fuel (← l.next)

end Layout

/-- The tokens of a text. -/
def Token.ofText? (s : String) : Option (List Token) :=
  let cs := s.toList
  if cs.all isAllowed then Layout.finish (cs.length + 1) { cursor := { rest := cs } } else none

end ScopeScript.Yaml
