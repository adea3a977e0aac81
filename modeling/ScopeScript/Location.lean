/-!
# Places in a script

A **location** names a script and a place in it, by offset and by line and
column, all counted from one. The scanner moves one location along the source;
nodes and errors keep the value it had. A newline puts the column at zero, so
that moving on from the newline character itself leads to column one.
-/

namespace ScopeScript

/-- A place in a script. The numbers may be anything that a caller names. -/
structure Location where
  /-- Name of the script. -/
  file : String := ""
  /-- Characters up to and including this one. -/
  offset : Int := 1
  /-- The line. -/
  line : Int := 1
  /-- The column. -/
  column : Int := 1
deriving DecidableEq, Repr

namespace Location

/-- The place after `n` more characters of the same line. -/
def advanceBy (l : Location) (n : Nat) : Location :=
  { l with offset := l.offset + n, column := l.column + n }

/-- The place one character on. -/
def advance (l : Location) : Location := l.advanceBy 1

/-- The place of a newline, seen from the line it begins. -/
def newline (l : Location) : Location :=
  { l with line := l.line + 1, column := 0 }

/-- Script, line and column. -/
def text (l : Location) : String :=
  l.file ++ ":" ++ toString l.line ++ ":" ++ toString l.column

end Location

end ScopeScript
