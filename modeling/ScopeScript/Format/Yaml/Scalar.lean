import ScopeScript.Datum.Basic
import ScopeScript.Number.Written
import ScopeScript.Text.Lines

/-!
# Plain scalars

A scalar without quotes may stand for something else than its text: a truth
value, a number, a date or nothing. `ScalarKind.of` tells what, by the rules of
YAML 1.1. Writing puts quotes around a text that would otherwise be taken for
something else, and reading uses the same rules.
-/

namespace ScopeScript.Yaml

/-- What a plain scalar stands for. -/
inductive ScalarKind where
  /-- Its own text. -/
  | text
  /-- Nothing. -/
  | null
  /-- A truth value. -/
  | bool
  /-- An integer. -/
  | int
  /-- A double. -/
  | float
  /-- A date, with or without a time of day. -/
  | timestamp
  /-- The key under which other mappings are merged in. -/
  | merge
  /-- The key of a default value. -/
  | default
deriving DecidableEq, Repr

/-! ### Patterns -/

/-- Drops an optional sign. -/
def dropSign : List Char → List Char
  | '-' :: cs => cs
  | '+' :: cs => cs
  | cs => cs

/-- A digit or an underscore. -/
def isDigitOr (c : Char) : Bool := c.isDigit || c == '_'

/-- A hexadecimal digit. -/
def isHexDigit (c : Char) : Bool :=
  c.isDigit || ('a' ≤ c && c ≤ 'f') || ('A' ≤ c && c ≤ 'F')

/-- One or more characters, all of a class. -/
def someOf (p : Char → Bool) (cs : List Char) : Bool := !cs.isEmpty && cs.all p

/-- A digit followed by digits and underscores; what comes after them. -/
def afterDigits? : List Char → Option (List Char)
  | c :: rest => if c.isDigit then some (rest.dropWhile isDigitOr) else none
  | [] => none

/-- One or two digits, of two the first below six. -/
def isSixtieth : List Char → Bool
  | [b] => b.isDigit
  | [a, b] => '0' ≤ a && a ≤ '5' && b.isDigit
  | _ => false

/-- The pieces of a text between colons. -/
def colonPieces (cs : List Char) : List (List Char) := Text.splitWhereFrom (· == ':') [] cs

/-- An exponent with its sign, which is not optional; or nothing. -/
def isExponent : List Char → Bool
  | [] => true
  | e :: s :: ds => (e == 'e' || e == 'E') && (s == '-' || s == '+') && someOf Char.isDigit ds
  | _ => false

/-- A number to the base sixty: digits, then groups after colons. -/
def isSexagesimal (first : Char → Bool) (pieces : List (List Char)) : Bool :=
  match pieces with
  | (c :: rest) :: group :: groups =>
    first c && rest.all isDigitOr && (group :: groups).all isSixtieth
  | _ => false

/-- The pattern of integers. -/
def isInt (s : List Char) : Bool :=
  let cs := dropSign s
  (match cs with
    | ['0'] => true
    | '0' :: 'b' :: rest => someOf (fun c => c == '0' || c == '1' || c == '_') rest
    | '0' :: 'x' :: rest => someOf (fun c => isHexDigit c || c == '_') rest
    | '0' :: rest => someOf (fun c => ('0' ≤ c && c ≤ '7') || c == '_') rest
    | c :: rest => c.isDigit && rest.all isDigitOr
    | [] => false) ||
  isSexagesimal (fun c => '1' ≤ c && c ≤ '9') (colonPieces cs)

/-- The part of a number to the base sixty up to the point, and what follows it. -/
def splitPoint (cs : List Char) : List Char × Option (List Char) :=
  match cs.dropWhile (· != '.') with
  | [] => (cs, none)
  | _ :: rest => (cs.takeWhile (· != '.'), some rest)

/-- The pattern of doubles. -/
def isFloat (s : List Char) : Bool :=
  let cs := dropSign s
  let decimal :=
    match afterDigits? cs with
    | some ('.' :: rest) => isExponent (rest.dropWhile isDigitOr)
    | _ => false
  let pointFirst :=
    match s with
    | '.' :: rest =>
      match afterDigits? rest with
      | some rest' => isExponent rest'
      | none => false
    | _ => false
  let sexagesimal :=
    match splitPoint cs with
    | (whole, some frac) => isSexagesimal Char.isDigit (colonPieces whole) && frac.all isDigitOr
    | _ => false
  let word := String.ofList cs
  decimal || pointFirst || sexagesimal || word == ".inf" || word == ".Inf" || word == ".INF" ||
    [".nan", ".NaN", ".NAN"].contains (String.ofList s)

/-- Takes between `least` and `most` digits off a text. -/
def takeSomeDigits (least most : Nat) (cs : List Char) : Option (List Char) :=
  let n := min most (cs.takeWhile Char.isDigit).length
  if least ≤ n then some (cs.drop n) else none

/-- Takes one character off a text. -/
def takeChar (c : Char) : List Char → Option (List Char)
  | d :: rest => if d == c then some rest else none
  | [] => none

/-- A time zone, after optional blanks: `Z`, or an offset in hours and minutes. -/
def isZone (cs : List Char) : Bool :=
  match cs with
  | [] => true
  | _ =>
    match cs.dropWhile fun c => c == ' ' || c == '\t' with
    | ['Z'] => true
    | s :: rest =>
      (s == '-' || s == '+') &&
        match takeSomeDigits 1 2 rest with
        | some [] => true
        | some (':' :: rest') => takeSomeDigits 2 2 rest' == some []
        | _ => false
    | [] => false

/-- The time of day that follows a date. -/
def isTimeOfDay (cs : List Char) : Bool :=
  let rest? : Option (List Char) :=
    match cs with
    | c :: rest =>
      if c == 'T' || c == 't' then some rest
      else if c == ' ' || c == '\t' then some (rest.dropWhile fun c => c == ' ' || c == '\t')
      else none
    | [] => none
  let after : Option (List Char) := do
    let cs ← rest?
    let cs ← takeSomeDigits 1 2 cs
    let cs ← takeChar ':' cs
    let cs ← takeSomeDigits 2 2 cs
    let cs ← takeChar ':' cs
    takeSomeDigits 2 2 cs
  match after with
  | some ('.' :: rest) => isZone (rest.dropWhile Char.isDigit)
  | some rest => isZone rest
  | none => false

/-- The pattern of dates. -/
def isTimestamp (cs : List Char) : Bool :=
  let short : Option (List Char) := do
    let cs ← takeSomeDigits 4 4 cs
    let cs ← takeChar '-' cs
    let cs ← takeSomeDigits 2 2 cs
    let cs ← takeChar '-' cs
    takeSomeDigits 2 2 cs
  let long : Option (List Char) := do
    let cs ← takeSomeDigits 4 4 cs
    let cs ← takeChar '-' cs
    let cs ← takeSomeDigits 1 2 cs
    let cs ← takeChar '-' cs
    takeSomeDigits 1 2 cs
  short == some [] || (long.map isTimeOfDay).getD false

/-- The words for *true*. -/
def trueWords : List String := ["yes", "Yes", "YES", "true", "True", "TRUE", "on", "On", "ON"]

/-- The words for *false*. -/
def falseWords : List String := ["no", "No", "NO", "false", "False", "FALSE", "off", "Off", "OFF"]

/-- The words for nothing. -/
def nullWords : List String := ["", "~", "null", "Null", "NULL"]

/-- What a plain scalar stands for. -/
def ScalarKind.of (s : String) : ScalarKind :=
  let cs := s.toList
  if trueWords.contains s || falseWords.contains s then .bool
  else if isFloat cs then .float
  else if isInt cs then .int
  else if s == "<<" then .merge
  else if nullWords.contains s then .null
  else if isTimestamp cs then .timestamp
  else if s == "=" then .default
  else .text

/-! ### Numbers -/

/-- The value of digits in some base. -/
def baseValue (base : Nat) (cs : List Char) : Nat :=
  cs.foldl (fun n c =>
    n * base + (if c.isDigit then c.toNat - 48 else c.toLower.toNat - 87)) 0

/-- Whether a number has a minus sign. -/
def isNegative : List Char → Bool
  | '-' :: _ => true
  | _ => false

/-- The integer that a scalar of that pattern stands for. A prefix without
digits after it stands for none. -/
def intValue? (s : List Char) : Option Int :=
  let cs := s.filter (· != '_')
  let magnitude : Option Nat :=
    match dropSign cs with
    | ['0'] => some 0
    | '0' :: 'b' :: rest => if rest.isEmpty then none else some (baseValue 2 rest)
    | '0' :: 'x' :: rest => if rest.isEmpty then none else some (baseValue 16 rest)
    | '0' :: rest => some (baseValue 8 rest)
    | rest => some ((colonPieces rest).foldl (fun n g => n * 60 + Number.digitsValue g) 0)
  magnitude.map fun (n : Nat) => if isNegative cs then -(n : Int) else n

/-- Groups to the base sixty added up from the last, each rounded to a double. -/
def sexagesimalSum (base : Nat) (sum : Number.Double) : List Number.Double → Number.Double
  | [] => sum
  | g :: groups => sexagesimalSum (base * 60) (sum.add (g.scaleBy base)) groups

/-- The double that a scalar of that pattern stands for. -/
def floatValue? (s : List Char) : Option Number.Double :=
  let cs := s.filter (· != '_')
  let negative := isNegative cs
  let rest := dropSign cs
  let word := String.ofList (rest.map Char.toLower)
  if word == ".inf" then some (.infinity negative)
  else if word == ".nan" then some .nan
  else if rest.contains ':' then do
    let groups ← (colonPieces rest).mapM (Number.readUnsigned false)
    let sum := sexagesimalSum 1 (.zero false) groups.reverse
    return if negative then sum.negate else sum
  else Number.readUnsigned negative rest

end ScopeScript.Yaml
