/-!
# Symbols

The thirteen characters that give a script its structure. Every other character
is ordinary text, white space outside this list included.
-/

namespace ScopeScript

/-- A character with a structural meaning. -/
inductive Symbol where
  | openParen
  | closeParen
  | openBrace
  | closeBrace
  | openBracket
  | closeBracket
  | singleQuote
  | doubleQuote
  | comma
  | semicolon
  | tab
  | space
  | newline
deriving DecidableEq, Repr

namespace Symbol

/-- All symbols. -/
def all : List Symbol :=
  [openParen, closeParen, openBrace, closeBrace, openBracket, closeBracket, singleQuote,
    doubleQuote, comma, semicolon, tab, space, newline]

/-- The character of a symbol. -/
def char : Symbol → Char
  | openParen => '('
  | closeParen => ')'
  | openBrace => '{'
  | closeBrace => '}'
  | openBracket => '['
  | closeBracket => ']'
  | singleQuote => '\''
  | doubleQuote => '"'
  | comma => ','
  | semicolon => ';'
  | tab => '\t'
  | space => ' '
  | newline => '\n'

/-- Whether the symbol opens and closes quoted text. -/
def isQuote : Symbol → Bool
  | singleQuote | doubleQuote => true
  | _ => false

/-- The symbol that a character is, if any. -/
def ofChar? : Char → Option Symbol
  | '(' => some openParen
  | ')' => some closeParen
  | '{' => some openBrace
  | '}' => some closeBrace
  | '[' => some openBracket
  | ']' => some closeBracket
  | '\'' => some singleQuote
  | '"' => some doubleQuote
  | ',' => some comma
  | ';' => some semicolon
  | '\t' => some tab
  | ' ' => some space
  | '\n' => some newline
  | _ => none

/-- The symbol that a text of one character is, if any. -/
def ofText? (s : String) : Option Symbol :=
  match s.toList with
  | [c] => ofChar? c
  | _ => none

end Symbol

end ScopeScript
