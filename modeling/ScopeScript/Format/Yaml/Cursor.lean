/-!
# A place in a YAML document

Layout decides the meaning of a YAML document, so reading it has to know on
which line and in which column it is. A **cursor** holds what is left of the
document together with that place. Where nothing is left, `Cursor.peek` gives
the NUL, a character that no document contains.
-/

namespace ScopeScript.Yaml

/-- The characters that a document may contain. -/
def isAllowed (c : Char) : Bool :=
  let n := c.toNat
  n == 0x09 || n == 0x0A || n == 0x0D || (0x20 ≤ n && n ≤ 0x7E) || n == 0x85 ||
    (0xA0 ≤ n && n ≤ 0xD7FF) || (0xE000 ≤ n && n ≤ 0xFFFD) || 0x10000 ≤ n

/-- The character that stands for the end of the document. -/
def endMark : Char := '\x00'

/-- The characters that end a line. -/
def isBreak (c : Char) : Bool :=
  c == '\n' || c == '\r' || c == '\x85' || c == '\u2028' || c == '\u2029'

/-- The end of a line or of the document. -/
def isLineEnd (c : Char) : Bool := c == endMark || isBreak c

/-- A blank or the end of a line. -/
def isGap (c : Char) : Bool := c == ' ' || isLineEnd c

/-- A blank, a tab or the end of a line. -/
def isWideGap (c : Char) : Bool := c == '\t' || isGap c

/-- The characters of names: ASCII letters and digits, hyphen and underscore. -/
def isNameChar (c : Char) : Bool := c.isAlphanum || c == '-' || c == '_'

/-- What is left of a document, and the place that it begins at. -/
structure Cursor where
  /-- What is left. -/
  rest : List Char
  /-- How many characters came before. -/
  index : Nat := 0
  /-- How many lines came before. -/
  line : Nat := 0
  /-- How many characters of this line came before. -/
  column : Nat := 0
deriving Repr

namespace Cursor

/-- The next character. -/
def peek (c : Cursor) : Char := c.rest.headD endMark

/-- The character some places on. -/
def peekAt (c : Cursor) (n : Nat) : Char := c.rest.getD n endMark

/-- Whether nothing is left. -/
def isAtEnd (c : Cursor) : Bool := c.rest.isEmpty

/-- Moves over one character. A carriage return before a line feed does not end
the line by itself, and a byte order mark takes no column. -/
def step (c : Cursor) : Cursor :=
  match c.rest with
  | [] => c
  | x :: rest =>
    if isBreak x && !(x == '\r' && rest.head? == some '\n') then
      { rest, index := c.index + 1, line := c.line + 1, column := 0 }
    else
      { rest, index := c.index + 1, line := c.line
        column := if x == '\uFEFF' then c.column else c.column + 1 }

/-- Moves over several characters. -/
def skip (c : Cursor) : Nat → Cursor
  | 0 => c
  | n + 1 => c.step.skip n

/-- The characters ahead that satisfy `p`, up to the first that does not. -/
def run (c : Cursor) (p : Char → Bool) : List Char := c.rest.takeWhile p

/-- Moves over the characters that satisfy `p`. -/
def skipWhile (c : Cursor) (p : Char → Bool) : Cursor := c.skip (c.run p).length

/-- Moves over blanks. -/
def skipBlanks (c : Cursor) : Cursor := c.skipWhile (· == ' ')

/-- Moves over a comment, if there is one. -/
def skipComment (c : Cursor) : Cursor :=
  if c.peek == '#' then c.skipWhile (fun x => !isBreak x) else c

/-- Moves over the end of a line, and returns the text that it stands for:
everything but the two Unicode separators counts as a line feed. -/
def takeBreak (c : Cursor) : List Char × Cursor :=
  let x := c.peek
  if x == '\r' && c.peekAt 1 == '\n' then (['\n'], c.skip 2)
  else if x == '\r' || x == '\n' || x == '\x85' then (['\n'], c.step)
  else if isBreak x then ([x], c.step)
  else ([], c)

/-- Whether three equal characters stand here by themselves. -/
def isMark (c : Cursor) (x : Char) : Bool :=
  c.peek == x && c.peekAt 1 == x && c.peekAt 2 == x && isWideGap (c.peekAt 3)

/-- Whether a line begins here that separates documents. -/
def isSeparator (c : Cursor) : Bool := c.isMark '-' || c.isMark '.'

end Cursor

end ScopeScript.Yaml
