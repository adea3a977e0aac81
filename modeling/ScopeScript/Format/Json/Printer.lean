import ScopeScript.Format.Basic

/-!
# Writing JSON

Texts are written with as few escapes as possible: quote, backslash and control
characters only. In the **pretty** layout each item stands on a line of its own,
indented by two blanks for each level; otherwise everything stands on one line.
Keys that are not texts are written as texts.
-/

namespace ScopeScript.Json

/-- What stands for a character inside a text. -/
def escapeChar (c : Char) : List Char :=
  match c with
  | '"' => ['\\', '"']
  | '\\' => ['\\', '\\']
  | '\n' => ['\\', 'n']
  | '\r' => ['\\', 'r']
  | '\t' => ['\\', 't']
  | '\x08' => ['\\', 'b']
  | '\x0c' => ['\\', 'f']
  | c => if c.toNat < 0x20 then '\\' :: 'u' :: Text.hexDigits 4 c.toNat else [c]

/-- A text between quotes. -/
def quote (s : String) : String :=
  String.ofList ('"' :: s.toList.flatMap escapeChar ++ ['"'])

/-- A double; those that are no numbers have names. -/
def number : Number.Double → String
  | .nan => "NaN"
  | .infinity negative => if negative then "-Infinity" else "Infinity"
  | x => x.text

/-- The text that a key is written as. -/
def keyText : Datum → Except FormatError String
  | .text s => .ok s
  | .float x => .ok (number x)
  | .bool b => .ok (if b then "true" else "false")
  | .null => .ok "null"
  | .int n => .ok (toString n)
  | d => .error (.badKey d.typeName)

/-- Items between brackets, in the pretty layout at a given depth, or else on one
line. -/
def enclose (opening closing : String) (pretty : Option Nat) (items : List String) : String :=
  if items.isEmpty then opening ++ closing
  else
    match pretty with
    | none => opening ++ ", ".intercalate items ++ closing
    | some depth =>
      let newline (d : Nat) := "\n" ++ String.ofList (List.replicate (2 * d) ' ')
      opening ++ newline (depth + 1) ++ ("," ++ newline (depth + 1)).intercalate items ++
        newline depth ++ closing

mutual

/-- A datum as JSON; in the pretty layout with its depth. -/
def render (pretty : Option Nat) : Datum → Except FormatError String
  | .null => .ok "null"
  | .bool b => .ok (if b then "true" else "false")
  | .int n => .ok (toString n)
  | .float x => .ok (number x)
  | .text s => .ok (quote s)
  | .list xs => (renderItems (pretty.map (· + 1)) xs).map (enclose "[" "]" pretty)
  | .tuple xs => (renderItems (pretty.map (· + 1)) xs).map (enclose "[" "]" pretty)
  | .map es => (renderEntries (pretty.map (· + 1)) es).map (enclose "\x7b" "\x7d" pretty)
  | d => .error (.unwritable d.typeName)

/-- The items of a list. -/
def renderItems (pretty : Option Nat) : List Datum → Except FormatError (List String)
  | [] => .ok []
  | x :: xs => do
    let s ← render pretty x
    let ss ← renderItems pretty xs
    return s :: ss

/-- The entries of a mapping. -/
def renderEntries (pretty : Option Nat) : List (Datum × Datum) → Except FormatError (List String)
  | [] => .ok []
  | (k, v) :: es => do
    let key ← keyText k
    let s ← render pretty v
    let ss ← renderEntries pretty es
    return (quote key ++ ": " ++ s) :: ss

end

/-- A datum as a JSON document. -/
def write (pretty : Bool) (d : Datum) : Except FormatError String :=
  render (if pretty then some 0 else none) d

end ScopeScript.Json
