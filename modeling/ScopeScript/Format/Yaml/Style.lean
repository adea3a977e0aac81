import ScopeScript.Format.Yaml.Page
import ScopeScript.Format.Yaml.Scalar
import ScopeScript.Text.Affix

/-!
# Three ways to write a scalar

A scalar is written **plain** if it then reads back as what it was, else between
**single quotes**, where only the quote itself is doubled, and between **double
quotes** if it has characters that need escapes. All but ASCII needs escapes.

Which of them is possible follows from a few features of the text, collected in
one pass by `Features.of`. Long scalars are folded at blanks.
-/

namespace ScopeScript.Yaml

/-- The ways to write a scalar. -/
inductive Style where
  | plain
  | single
  | double
deriving DecidableEq, Repr

/-- A line break; the carriage return is none where texts are written. -/
def isFoldable (c : Char) : Bool :=
  c == '\n' || c.toNat == 0x85 || c.toNat == 0x2028 || c.toNat == 0x2029

/-- A character that separates words: a blank, a break, or NUL. -/
def isSeparator (c : Char) : Bool :=
  c == ' ' || c == '\t' || c == '\r' || c.toNat == 0 || isFoldable c

/-- What matters about a text for the way it is written. -/
structure Features where
  /-- It has something that would be taken for structure. -/
  indicators : Bool := false
  /-- It has a line break. -/
  multiline : Bool := false
  /-- It has a character that needs an escape. -/
  special : Bool := false
  /-- It begins or ends with a blank or a break. -/
  ragged : Bool := false
  /-- A blank follows a break. -/
  breakSpace : Bool := false
  /-- A break follows a blank. -/
  spaceBreak : Bool := false
deriving DecidableEq, Repr

namespace Features

/-- Characters that cannot begin a plain scalar. -/
def leadIndicators : List Char := "#,[]\x7b\x7d&*!|>'\"%@`".toList

/-- Whether a character is structure where it stands, given its neighbours. -/
def isIndicator (first : Bool) (before : Option Char) (c : Char) (after : Option Char) : Bool :=
  let endsHere := (after.map isSeparator).getD true
  if first then
    leadIndicators.contains c || ((c == '?' || c == ':' || c == '-') && endsHere)
  else (c == ':' && endsHere) || (c == '#' && (before.map isSeparator).getD true)

/-- Adds the features of the characters in `rest`, the first of which stands
after `before`. -/
def scan (f : Features) (before : Option Char) : List Char → Features
  | [] => f
  | c :: rest =>
    let first := before.isNone
    let last := rest.isEmpty
    scan
      { indicators := f.indicators || isIndicator first before c rest.head?
        multiline := f.multiline || isFoldable c
        special := f.special || !(c == '\n' || (0x20 ≤ c.toNat && c.toNat ≤ 0x7E))
        ragged := f.ragged || ((first || last) && (c == ' ' || isFoldable c))
        breakSpace := f.breakSpace || (c == ' ' && (before.map isFoldable).getD false)
        spaceBreak := f.spaceBreak || (isFoldable c && before == some ' ') }
      (some c) rest

/-- The features of a text. -/
def of (s : String) : Features :=
  scan { indicators := Text.startsWith s "---" || Text.startsWith s "..." } none s.toList

/-- Whether the text can be written plain, if it is not taken for something
else. -/
def allowsPlain (f : Features) : Bool :=
  !(f.ragged || f.breakSpace || f.spaceBreak || f.special || f.multiline || f.indicators)

/-- Whether the text can be written between single quotes. -/
def allowsSingle (f : Features) : Bool := !(f.breakSpace || f.spaceBreak || f.special)

end Features

/-- The way to write a text. A key that has to stay on one line cannot be
broken. -/
def Style.forText (s : String) (oneLine : Bool) : Style :=
  let f := Features.of s
  if oneLine && f.multiline then .double
  else if ScalarKind.of s = .text && f.allowsPlain then .plain
  else if f.allowsSingle then .single
  else .double

/-! ### Plain -/

/-- Blanks between two words: a single one is a place to break the line. -/
def putBlanks (p : Page) (indent : Nat) (fold : Bool) (count : Nat) : Page :=
  if count == 1 && Page.width < p.column && fold then p.indentTo indent
  else p.putChars (List.replicate count ' ')

/-- Writes the words of a plain scalar; `blanks` of them stand before the next
word. -/
def putPlainFrom (indent : Nat) (fold : Bool) (p : Page) (blanks : Nat) : List Char → Page
  | [] => p.putChars (List.replicate blanks ' ')
  | c :: rest =>
    if c == ' ' then putPlainFrom indent fold p (blanks + 1) rest
    else
      let p := if blanks == 0 then p else (putBlanks p indent fold blanks).content
      putPlainFrom indent fold (p.putChars [c]) 0 rest

/-- Writes a plain scalar. -/
def putPlain (p : Page) (indent : Nat) (fold : Bool) (s : String) : Page :=
  let p := if p.spaced then p else p.put " "
  putPlainFrom indent fold p.content 0 s.toList

/-! ### Single quotes -/

/-- Line breaks inside quotes: one more than there are in the text. -/
def putBreaks (p : Page) (indent : Nat) : (count : Nat) → Page
  | 0 => p.lineBreak.indentTo indent
  | count + 1 => putBreaks p.lineBreak indent count

/-- Writes what stands between single quotes. `blanks` and `breaks` count those
that come before the next word, one of them being zero, and `started` tells
whether anything comes before them. -/
def putSingleFrom (indent : Nat) (fold : Bool) (p : Page) (started : Bool) (blanks breaks : Nat) :
    List Char → Page
  | [] =>
    if breaks != 0 then putBreaks p indent breaks else p.putChars (List.replicate blanks ' ')
  | c :: rest =>
    if c == ' ' then
      let p := if breaks != 0 then putBreaks p indent breaks else p
      putSingleFrom indent fold p (started || breaks != 0) (blanks + 1) 0 rest
    else
      let p := if blanks == 0 then p else putBlanks p indent (fold && started) blanks
      if c == '\n' then putSingleFrom indent fold p (started || blanks != 0) 0 (breaks + 1) rest
      else
        let p := if breaks != 0 then putBreaks p indent breaks else p
        let written := if c == '\'' then ['\'', '\''] else [c]
        putSingleFrom indent fold (p.putChars written) true 0 0 rest

/-- Writes a scalar between single quotes. -/
def putSingle (p : Page) (indent : Nat) (fold : Bool) (s : String) : Page :=
  let p := p.indicator "'" true false false
  (putSingleFrom indent fold p false 0 0 s.toList).indicator "'" false false false

/-! ### Double quotes -/

/-- The escape of a character: a letter if it has one, else its code. -/
def escapeCode (c : Char) : List Char :=
  let n := c.toNat
  let upper := fun w => (Text.hexDigits w n).map Char.toUpper
  let letter : Option Char :=
    match n with
    | 0x00 => some '0'
    | 0x07 => some 'a'
    | 0x08 => some 'b'
    | 0x09 => some 't'
    | 0x0A => some 'n'
    | 0x0B => some 'v'
    | 0x0C => some 'f'
    | 0x0D => some 'r'
    | 0x1B => some 'e'
    | 0x22 => some '"'
    | 0x5C => some '\\'
    | 0x85 => some 'N'
    | 0xA0 => some '_'
    | 0x2028 => some 'L'
    | 0x2029 => some 'P'
    | _ => none
  match letter with
  | some l => ['\\', l]
  | none =>
    if n ≤ 0xFF then '\\' :: 'x' :: upper 2
    else if n ≤ 0xFFFF then '\\' :: 'u' :: upper 4
    else '\\' :: 'U' :: upper 8

/-- Whether a character needs an escape between double quotes. -/
def needsEscape (c : Char) : Bool :=
  c == '"' || c == '\\' || !(0x20 ≤ c.toNat && c.toNat ≤ 0x7E)

/-- Breaks the line between double quotes; a blank that follows is protected. -/
def foldDouble (p : Page) (indent : Nat) (next : Option Char) : Page :=
  let p := ((p.put "\\").indentTo indent).content
  if next == some ' ' then p.put "\\" else p

/-- Writes what stands between double quotes. The line may be broken before a
blank and around an escape, but not next to the quotes. -/
def putDoubleFrom (indent : Nat) (fold : Bool) (p : Page) (first afterEscape : Bool) :
    List Char → Page
  | [] => p
  | c :: rest =>
    let inner := fold && !first && !rest.isEmpty
    if needsEscape c then
      let p := p.putChars (escapeCode c)
      let p := if inner && Page.width + 1 < p.column then foldDouble p indent rest.head? else p
      putDoubleFrom indent fold p false true rest
    else
      let p :=
        if inner && (c == ' ' || afterEscape) && Page.width < p.column then
          foldDouble p indent (some c)
        else p
      putDoubleFrom indent fold (p.putChars [c]) false false rest

/-- Writes a scalar between double quotes. -/
def putDouble (p : Page) (indent : Nat) (fold : Bool) (s : String) : Page :=
  let p := p.indicator "\"" true false false
  (putDoubleFrom indent fold p true false s.toList).indicator "\"" false false false

/-- Writes a scalar in a given way. -/
def Style.put (style : Style) (p : Page) (indent : Nat) (fold : Bool) (s : String) : Page :=
  match style with
  | .plain => putPlain p indent fold s
  | .single => putSingle p indent fold s
  | .double => putDouble p indent fold s

end ScopeScript.Yaml
