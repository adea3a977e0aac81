/-!
# Lines of a text

Three views of where lines end are in use.

* `splitLines` cuts a text at every **line boundary** of Unicode, for showing
  the neighbourhood of an error. A boundary ends a line, so that a text ending
  in one has no empty last line.
* `unifyNewlines` reads `\r\n` and a lone `\r` as `\n`: this is how every text
  file is read.
* `inputLines` cuts what is typed at `\n` only.
-/

namespace ScopeScript.Text

/-- The characters that end a line on their own; `\r\n` ends one together. -/
def isLineBreak (c : Char) : Bool :=
  let n := c.toNat
  (0x0A ≤ n && n ≤ 0x0D) || (0x1C ≤ n && n ≤ 0x1E) || n == 0x85 || n == 0x2028 || n == 0x2029

/-- Lines of `rest`, where `line` holds, in reverse, what the current line has
so far. A pending empty line at the end of the text is no line. -/
def splitLinesFrom (line : List Char) : List Char → List (List Char)
  | [] => if line.isEmpty then [] else [line.reverse]
  | '\r' :: '\n' :: rest => line.reverse :: splitLinesFrom [] rest
  | c :: rest =>
    if isLineBreak c then line.reverse :: splitLinesFrom [] rest
    else splitLinesFrom (c :: line) rest

/-- The lines of a text, cut at every line boundary. -/
def splitLines (s : String) : List String :=
  (splitLinesFrom [] s.toList).map String.ofList

/-- Every `\r\n` and every other `\r` becomes `\n`. -/
def unifyNewlinesChars : List Char → List Char
  | [] => []
  | '\r' :: '\n' :: rest => '\n' :: unifyNewlinesChars rest
  | c :: rest => (if c == '\r' then '\n' else c) :: unifyNewlinesChars rest

/-- A text with `\n` as its only newline. -/
def unifyNewlines (s : String) : String :=
  String.ofList (unifyNewlinesChars s.toList)

/-- The pieces of `rest` between the elements that satisfy `p`; there is always
one more piece than there are such elements. -/
def splitWhereFrom {α : Type} (p : α → Bool) (piece : List α) : List α → List (List α)
  | [] => [piece.reverse]
  | c :: rest =>
    if p c then piece.reverse :: splitWhereFrom p [] rest else splitWhereFrom p (c :: piece) rest

/-- The pieces of a text between the occurrences of the character `sep`. -/
def splitAtChar (sep : Char) (s : String) : List String :=
  (splitWhereFrom (· == sep) [] s.toList).map String.ofList

/-- The lines typed at a prompt: each ends with `\n`, and a last one may be cut
off by the end of the input. -/
def inputLines (s : String) : List String :=
  let pieces := splitAtChar '\n' s
  match pieces.getLast? with
  | some "" => pieces.dropLast
  | _ => pieces

end ScopeScript.Text
