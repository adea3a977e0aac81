import ScopeScript.Format.Basic
import ScopeScript.Number.Written
import ScopeScript.Text.Blank
import ScopeScript.Text.Decimal
import ScopeScript.Text.Hex
import ScopeScript.Text.Lines

/-!
# Scalars of TOML

The texts, numbers and dates of a TOML document. Dates and times of day are kept
as texts.
-/

namespace ScopeScript.Toml

/-- The kinds of value that an array cannot mix. -/
inductive ValueSort where
  | bool
  | text
  | array
  | table
  | time
  | date
  | int
  | float
deriving DecidableEq, Repr

/-- Characters without the blanks around them. -/
def trimmed (cs : List Char) : List Char := Text.trimBoth Text.isBlank cs

/-- The pieces between the occurrences of a character. -/
def pieces (sep : Char) (cs : List Char) : List (List Char) := Text.splitWhereFrom (· == sep) [] cs

/-- Whether the number of backslashes at the end is odd. -/
def endsEscaped (cs : List Char) : Bool :=
  (cs.reverse.takeWhile (· == '\\')).length % 2 == 1

/-! ### Texts -/

/-- The state of looking for what follows the end of a text. -/
structure Closing where
  /-- Whether the text stands between three quotes. -/
  triple : Bool
  /-- How many quotes have just been seen of three. -/
  count : Nat := 0
  /-- Whether the text has ended. -/
  closed : Bool := false

/-- A piece between quotes: nothing may follow the end of the text. -/
def Closing.step (c : Closing) (piece : List Char) : Option Closing :=
  if piece.isEmpty then
    some (if c.triple then { c with count := c.count + 1 } else { c with closed := true })
  else if endsEscaped piece then some c
  else if c.closed then none
  else if !c.triple || 1 < c.count then some { c with closed := true }
  else some { c with count := 0 }

/-- Whether nothing follows the end of a text, given what stands behind its first
quote. -/
def isClosedText (quote : Char) (cs : List Char) : Bool :=
  let (triple, parts) :=
    match pieces quote cs with
    | [] :: [] :: rest => (true, rest)
    | parts => (false, parts)
  (parts.foldlM Closing.step { triple }).isSome

/-- The character that an escape letter stands for. -/
def escapeChar? : Char → Option Char
  | '0' => some '\x00'
  | 'b' => some '\x08'
  | 'f' => some '\x0c'
  | 'n' => some '\n'
  | 'r' => some '\r'
  | 't' => some '\t'
  | '"' => some '"'
  | _ => none

/-- Whether all escapes are known ones, given the pieces behind backslashes. -/
def areKnownEscapes (escaped : Bool) : List (List Char) → Bool
  | [] => true
  | [] :: rest => areKnownEscapes (!escaped) rest
  | (c :: _) :: rest =>
    ((escapeChar? c).isSome || c == 'u' || c == 'U' || escaped) && areKnownEscapes false rest

/-- The character with a code in hexadecimal digits; half of a pair is none. -/
def codeChar (digits : List Char) : Except FormatError Char :=
  match Text.hexNumber? digits with
  | none => .error .malformed
  | some n =>
    match digits with
    | [] => .error (.tooShort "string")
    | d :: rest =>
      let high := (rest.head?.bind Text.hexValue?).getD 0
      if (d == 'd' || d == 'D') && 8 ≤ high then .error .malformed
      else if 0x10FFFF < n then .error .malformed
      else .ok (Char.ofNat n)

/-- Whether a text begins with an escape for a code with the given letter. -/
def codeEscape? (letter : Char) : List Char → Option (List Char)
  | '\\' :: c :: rest => if c == letter then some rest else none
  | _ => none

/-- Replaces the escapes for codes by their characters. A mark behind a backslash
is none. `escaped` tells whether the text before ends in an odd number of
backslashes, and `fuel` is at least the number of characters left. -/
def replaceCodes (letter : Char) (length : Nat) (escaped : Bool) :
    (fuel : Nat) → List Char → Except FormatError (List Char)
  | 0, cs => .ok cs
  | _, [] => .ok []
  | fuel + 1, c :: cs =>
    match codeEscape? letter (c :: cs) with
    | some rest =>
      if escaped then do
        let done ← replaceCodes letter length false fuel rest
        return '\\' :: letter :: done
      else do
        let d ← codeChar (rest.take length)
        let done ← replaceCodes letter length false fuel (rest.drop length)
        return d :: done
    | none => do
      let done ← replaceCodes letter length (c == '\\' && !escaped) fuel cs
      return c :: done

/-- Replaces all other escapes. Escapes for codes that are left stay. -/
def unescape : List Char → Except FormatError (List Char)
  | [] => .ok []
  | ['\\'] => .ok ['\\']
  | '\\' :: c :: rest =>
    match escapeChar? c with
    | some d => (unescape rest).map (d :: ·)
    | none =>
      if c == '\\' then (unescape rest).map ('\\' :: ·)
      else if c == 'u' || c == 'U' then (unescape rest).map ('\\' :: c :: ·)
      else .error .malformed
  | c :: rest => (unescape rest).map (c :: ·)

/-- A list without its first and its last `n` elements. -/
def inner (n : Nat) (cs : List Char) : List Char := (cs.drop n).take (cs.length - 2 * n)

/-- The text between quotes, three or one on each side. -/
def withoutQuotes (quote : Char) (cs : List Char) : List Char :=
  match cs with
  | [_, b] => if b == quote then [] else inner 1 cs
  | _ :: b :: c :: _ => if b == quote && c == b then inner 1 (inner 2 cs) else inner 1 cs
  | _ => inner 1 cs

/-- A quoted text. Between double quotes there may be escapes. -/
def quotedText (quote : Char) (cs : List Char) : Except FormatError Datum := do
  if !isClosedText quote (cs.drop 1) then .error .malformed
  if quote == '"' then
    if !areKnownEscapes false ((pieces '\\' cs).drop 1) then .error .malformed
    let cs ← replaceCodes 'u' 4 false (cs.length + 1) cs
    let cs ← replaceCodes 'U' 8 false (cs.length + 1) cs
    let cs ← unescape cs
    return .text (String.ofList (withoutQuotes quote cs))
  else return .text (String.ofList (withoutQuotes quote cs))

/-! ### Dates -/

/-- The number that a fixed number of digits stand for. -/
def fixedNumber? (from' length : Nat) (cs : List Char) : Option Nat :=
  let ds := (cs.drop from').take length
  if ds.length == length && ds.all Char.isDigit then some (Number.digitsValue ds) else none

/-- How many days a month has. -/
def daysIn (year month : Nat) : Nat :=
  if month == 2 then
    if year % 4 == 0 && (year % 100 != 0 || year % 400 == 0) then 29 else 28
  else if month == 4 || month == 6 || month == 9 || month == 11 then 30
  else 31

/-- Whether a text is a date, with or without a time of day. -/
def isDate (cs : List Char) : Bool :=
  (cs.drop 1).contains '-' &&
    match fixedNumber? 0 4 cs, fixedNumber? 5 2 cs, fixedNumber? 8 2 cs with
    | some year, some month, some day =>
      1 ≤ year && 1 ≤ month && month ≤ 12 && 1 ≤ day && day ≤ daysIn year month &&
        (cs.length == 10 ||
          match fixedNumber? 11 2 cs, fixedNumber? 14 2 cs, fixedNumber? 17 2 cs with
          | some h, some m, some s => h < 24 && m < 60 && s < 60
          | _, _, _ => false)
    | _, _, _ => false

/-- Whether a text begins with a time of day. -/
def startsWithTime (cs : List Char) : Bool :=
  (fixedNumber? 0 2 cs).isSome && cs[2]? == some ':' && (fixedNumber? 3 2 cs).isSome &&
    cs[5]? == some ':' && (fixedNumber? 6 2 cs).isSome

/-- Whether the time of day that a text begins with exists. -/
def isTime (cs : List Char) : Bool :=
  match fixedNumber? 0 2 cs, fixedNumber? 3 2 cs, fixedNumber? 6 2 cs with
  | some h, some m, some s => h < 24 && m < 60 && s < 60
  | _, _, _ => false

/-! ### Numbers -/

/-- Removes the underscores that stand between two digits. -/
def joinDigits : List Char → List Char
  | a :: '_' :: b :: rest =>
    if a.isDigit && b.isDigit then a :: joinDigits (b :: rest)
    else a :: '_' :: joinDigits (b :: rest)
  | c :: rest => c :: joinDigits rest
  | [] => []

/-- The double that a text stands for by itself. Its digits may be those of any
script. -/
def float? (cs : List Char) : Option Number.Double :=
  Number.readDouble (String.ofList (joinDigits ((trimmed cs).map Text.asciiDecimal)))

/-- The value of digits in some base, at least one. -/
def inBase? (base : Nat) (cs : List Char) : Option Nat :=
  if cs.isEmpty then none
  else
    cs.foldlM (fun n d =>
      match Text.hexValue? d with
      | some k => if k < base then some (n * base + k) else none
      | none => none) 0

/-- The integer that a text stands for: a decimal without leading zeros, or
digits behind a mark for another base. -/
def natural? : List Char → Option Nat
  | '0' :: 'x' :: rest => inBase? 16 rest
  | '0' :: 'X' :: rest => inBase? 16 rest
  | '0' :: 'o' :: rest => inBase? 8 rest
  | '0' :: 'O' :: rest => inBase? 8 rest
  | '0' :: 'b' :: rest => inBase? 2 rest
  | '0' :: 'B' :: rest => inBase? 2 rest
  | '0' :: rest => if rest.all (· == '0') then some 0 else none
  | cs => inBase? 10 cs

/-- The integer that a text stands for, with a sign of its own or without. Its
digits may be those of any script. -/
def integer? (cs : List Char) : Option Int :=
  match (trimmed cs).map Text.asciiDecimal with
  | '-' :: rest => (natural? rest).map fun n => -(n : Int)
  | '+' :: rest => (natural? rest).map fun n => (n : Int)
  | rest => (natural? rest).map fun n => (n : Int)

/-- Whether a text contains another. -/
def hasPart (part : List Char) : List Char → Bool
  | [] => part.isEmpty
  | c :: rest => part.isPrefixOf (c :: rest) || hasPart part rest

/-- Whether leading zeros and underscores stand where they may. -/
def isLegalNumber (value : List Char) : Bool :=
  let cs := trimmed value
  match cs with
  | [] => false
  | [c] => c != '_'
  | a :: b :: rest =>
    a != '_' && cs.getLast? != some '_' && !hasPart ['_', '.'] cs && !hasPart ['.', '_'] cs &&
      !(a == '0' && !(b == '.' || b == 'o' || b == 'b' || b == 'x')) &&
      !((a == '+' || a == '-') && b == '0' && !rest.isEmpty && rest.head? != some '.') &&
      !hasPart ['_', '_'] (if a == '+' || a == '-' then b :: rest else cs)

/-- A number. It is a double if it has a point or an exponent. -/
def number (cs : List Char) : Except FormatError (Datum × ValueSort) :=
  let (negative, rest) :=
    match cs with
    | '-' :: rest => (true, rest)
    | '+' :: rest => (false, rest)
    | rest => (false, rest)
  let cs := rest.filter (· != '_')
  let word := String.ofList (cs.map Char.toLower)
  let asFloat := cs.contains '.' || (!cs.contains 'x' && (cs.contains 'e' || cs.contains 'E'))
  let float : Except FormatError (Datum × ValueSort) :=
    match float? cs with
    | some x =>
      let negated := if x.toInt? == some 0 then Number.Double.zero false else x.negate
      .ok (.float (if negative then negated else x), .float)
    | none => .error .malformed
  if asFloat then
    if (cs.dropWhile (· != '.')) == ['.'] then .error .malformed
    else if !(cs.head?.map Char.isDigit).getD false then .error .malformed
    else float
  else if word == "inf" || word == "nan" then float
  else
    match integer? cs with
    | some n => .ok (.int (if negative then 0 - n else n), .int)
    | none => .error .malformed

end ScopeScript.Toml
