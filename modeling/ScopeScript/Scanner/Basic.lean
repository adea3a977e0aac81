import ScopeScript.Fault
import ScopeScript.Keyword
import ScopeScript.Tree.Dump

/-!
# The scanner and its parts

The scanner reads a script character by character and builds its tree on the
way; there are no tokens in between. Ordinary text is collected in a **word**
until the next symbol decides what it was. The **cursor** is the node whose
scope is open.

This file holds the state of the scanner and the moves that symbols are made of:
opening a scope, closing one, and turning the word into a node. Most moves
always succeed and are plain functions on the state. The others return a
`Scanned`, in which the state of a failed scan is kept, since what was built
before the failure can be looked at.
-/

namespace ScopeScript

/-- Ordinary text collected since the last symbol that used it up. -/
structure Word where
  /-- The characters. -/
  text : String := ""
  /-- Whether any part of it was quoted. -/
  quoted : Bool := false
  /-- Where it began. -/
  start : Option Location := none
deriving DecidableEq, Repr

namespace Word

/-- Whether there is anything in the word: quoted text counts even if empty. -/
def isPending (w : Word) : Bool := w.quoted || !Text.isAllBlank w.text

/-- The text that the word stands for: blanks around it count only if quoted. -/
def literal (w : Word) : String := if w.quoted then w.text else Text.strip w.text

end Word

/-- The state of the scanner. -/
structure Scanner where
  /-- Whether a trace is kept. -/
  debug : Bool := false
  /-- What has been built. -/
  tree : Tree := Tree.empty "" {}
  /-- Index of the node whose scope is open. -/
  cursor : Nat := 0
  /-- The quote that ends the quoted text being read, if any. -/
  quote : Option Char := none
  /-- Keywords since the last statement ended. -/
  keywords : List Keyword := []
  /-- The word being collected. -/
  word : Word := {}
  /-- The place reached. -/
  location : Location := {}
  /-- The lines of the trace. -/
  trace : Array String := #[]

/-- The result of a move of the scanner. -/
inductive Scanned where
  /-- The move was made. -/
  | ok (state : Scanner)
  /-- The move failed, and left the scanner in this state. -/
  | failed (state : Scanner) (failure : Failure)

namespace Scanned

/-- The state after a move, whether it failed or not. -/
def state : Scanned → Scanner
  | ok s => s
  | failed s _ => s

/-- Why the move failed, if it did. -/
def failure? : Scanned → Option Failure
  | ok _ => none
  | failed _ e => some e

/-- Goes on with another move, unless this one failed. -/
def andThen (r : Scanned) (next : Scanner → Scanned) : Scanned :=
  match r with
  | ok s => next s
  | failed s e => failed s e

end Scanned

namespace Scanner

/-- Fails with a cause at a place. -/
def fail (s : Scanner) (fault : Fault) (place : Location) : Scanned :=
  .failed s (.script { fault, location := some place })

/-- Adds a line to the trace, if one is kept. -/
def note (s : Scanner) (line : String) : Scanner :=
  if s.debug then { s with trace := s.trace.push ("[DBG] " ++ line) } else s

/-- The kind of the open scope. -/
def cursorKind (s : Scanner) : NodeKind := (s.tree.kind? s.cursor).getD .global

/-- The name of the open scope. -/
def cursorName (s : Scanner) : Option String := (s.tree.node? s.cursor).bind (·.name)

/-- The place where the open scope begins. -/
def cursorLocation (s : Scanner) : Location :=
  ((s.tree.node? s.cursor).map (·.location)).getD {}

/-- Whether no scope but the script itself is open. -/
def atRoot (s : Scanner) : Bool := (s.tree.parent? s.cursor).isNone

/-- Changes a node of the tree. -/
def modifyNode (s : Scanner) (i : Nat) (f : Node → Node) : Scanner :=
  { s with tree := s.tree.modify i f }

/-! ### The word -/

/-- Forgets the word. -/
def clearWord (s : Scanner) : Scanner := { s with word := {} }

/-- The word with its beginning here, unless it began before. -/
def beginWord (s : Scanner) : Word :=
  { s.word with start := some (s.word.start.getD s.location) }

/-- Adds a character to the word. -/
def append (s : Scanner) (c : Char) : Scanner :=
  let w := s.beginWord
  { s with word := { w with text := w.text.push c } }

/-- The place where the word began, or this place if there is no word. -/
def wordLocation (s : Scanner) : Location := s.word.start.getD s.location

/-- Names the open scope after the word, and uses the word up. -/
def nameCursor (s : Scanner) : Scanner :=
  let literal := s.word.literal
  (s.modifyNode s.cursor fun n => { n with name := some literal }).clearWord

/-- Names the open scope after the word, if there is one. -/
def nameCursorIfPending (s : Scanner) : Scanner :=
  if s.word.isPending then s.nameCursor else s

/-- Puts the word into a node as its value and, unless it was quoted, as its
name, and uses the word up. -/
def fillLiteral (s : Scanner) (i : Nat) : Scanner :=
  let w := s.word
  (s.modifyNode i fun n =>
    { n with
      value := some (.string w.literal)
      quoted := w.quoted
      name := if w.quoted then n.name else some w.literal }).clearWord

/-- Adds a child to the open scope, and returns its index. -/
def addChild (s : Scanner) (kind : NodeKind) (place : Location) : Scanner × Nat :=
  let (tree, i) := s.tree.addChild s.cursor kind place
  ({ s with tree }, i)

/-- The value of a node, spelled out for the trace. -/
def valueText (s : Scanner) (i : Nat) : String :=
  (((s.tree.node? i).bind (·.value)).map Value.constructor).getD "None"

/-- Makes the word a leaf of the open scope. -/
def flushWord (s : Scanner) : Scanner :=
  let (s, leaf) := s.addChild .none s.wordLocation
  let s := s.fillLiteral leaf
  s.note ("expression: " ++ s.valueText leaf)

/-- Makes the word a leaf of the open scope, if there is one. -/
def flushIfPending (s : Scanner) : Scanner :=
  if s.word.isPending then s.flushWord else s

/-- Makes the word a parameter, which has a name and no value. -/
def addParameter (s : Scanner) : Scanner :=
  let (s, i) := s.addChild .functionParam s.wordLocation
  let w := s.word
  (s.modifyNode i fun n => { n with name := some w.literal, quoted := w.quoted }).clearWord

/-- Makes the word an argument; without a word the argument has no value. -/
def addArgument (s : Scanner) : Scanner :=
  let (s, i) := s.addChild .functionParam s.wordLocation
  if s.word.isPending then s.fillLiteral i else s.clearWord

/-! ### Scopes -/

/-- Opens a scope below the open one. -/
def pushScope (s : Scanner) (kind : NodeKind) (place : Location) : Scanner :=
  let last := s.cursorKind
  let (s, i) := s.addChild kind place
  { s with cursor := i }.note ("push_scope: " ++ last.text ++ " -> " ++ kind.text)

/-- Closes the open scope. There has to be one, and no word may be left over. -/
def popScope (s : Scanner) : Scanned :=
  match s.tree.parent? s.cursor with
  | none => s.fail .noActiveScope s.location
  | some parent =>
    if s.word.isPending then s.fail .unprocessed s.wordLocation
    else
      let last := s.cursorKind
      let s := { s.clearWord with cursor := parent }
      .ok (s.note ("pop_scope: " ++ last.text ++ " -> " ++ s.cursorKind.text))

/-- The kind of scope that a keyword opens, if it opens one. -/
def scopeOf? : Keyword → Option NodeKind
  | .function => some .function
  | .class => some .class
  | .enum => some .enum
  | _ => none

/-- If the word is a keyword, uses it up, and opens the scope that goes with it.
Quoted text is no keyword. -/
def takeKeyword (s : Scanner) : Scanner :=
  if s.word.quoted then s
  else
    match Keyword.ofText? s.word.text with
    | none => s
    | some k =>
      let place := s.wordLocation
      let s := s.clearWord.note ("keyword: " ++ k.text)
      let s :=
        match scopeOf? k with
        | some kind => s.pushScope kind place
        | none => s
      { s with keywords := s.keywords ++ [k] }

/-- Forgets the keywords: a statement has ended. -/
def endStatement (s : Scanner) : Scanner := { s with keywords := [] }

end Scanner

end ScopeScript
