import ScopeScript.Keyword
import ScopeScript.Proofs.Tree.Outline
import ScopeScript.Symbol

/-!
# Statements

The statements that scripts are made of, as data: calls with calls for
arguments, words and quoted texts standing alone, blocks, functions with their
parameters and bodies, and types. A statement can be **written**
(`ScopeScript.Statement.render`), and it has an **outline**
(`ScopeScript.Statement.outline`), the part of a tree that it ought to become.

Words and quoted texts carry what makes them readable: a bare word holds no
symbol, has no blanks around it and is no keyword, and a quoted text does not
hold the mark it is quoted with.
-/

namespace ScopeScript

/-- A word that can be written without quotes. -/
structure BareWord where
  /-- The characters. -/
  text : String
  /-- There is something to read. -/
  nonempty : text ≠ ""
  /-- No character has a structural meaning. -/
  plain : ∀ c ∈ text.toList, Symbol.ofChar? c = none
  /-- There are no blanks around it. -/
  trimmed : Text.strip text = text
  /-- It is no keyword. -/
  free : ∀ k : Keyword, k.text ≠ text

theorem plain_of_all {cs : List Char} (h : cs.all fun c => (Symbol.ofChar? c).isNone) :
    ∀ c ∈ cs, Symbol.ofChar? c = none := by
  intro c hc
  exact Option.isNone_iff_eq_none.mp (List.all_eq_true.mp h c hc)

/-- A quoted text. -/
structure Quotation where
  /-- The symbol on its two sides. -/
  mark : Symbol
  /-- The symbol is one that quotes. -/
  quotes : mark.isQuote = true
  /-- The text between. -/
  text : String
  /-- The text does not end early. -/
  unmarked : mark.char ∉ text.toList

/-- What can be written in one piece. -/
inductive Atom where
  /-- A bare word. -/
  | word (w : BareWord)
  /-- A quoted text. -/
  | quotation (q : Quotation)

/-- An argument of a call. -/
inductive Argument where
  /-- A word or a quoted text. -/
  | atom (a : Atom)
  /-- Another call. -/
  | call (name : BareWord) (args : List Argument)

/-- The sorts of types that can be declared. -/
inductive TypeForm where
  | «class»
  | enum

/-- A statement. -/
inductive Statement where
  /-- A word or a quoted text standing alone. -/
  | atom (a : Atom)
  /-- A call. -/
  | call (name : BareWord) (args : List Argument)
  /-- A block. -/
  | block (body : List Statement)
  /-- A function with its parameters and its body. -/
  | function (name : BareWord) (params : List BareWord) (body : List Statement)
  /-- A type with its body. -/
  | type (form : TypeForm) (name : BareWord) (body : List Statement)

namespace TypeForm

/-- The keyword that begins a declaration. -/
def keyword : TypeForm → Keyword
  | «class» => .class
  | enum => .enum

/-- The kind of node that a declaration becomes. -/
def kind : TypeForm → NodeKind
  | «class» => .class
  | enum => .enum

end TypeForm

/-! ### Writing -/

namespace Atom

/-- The text that is meant. -/
def text : Atom → String
  | word w => w.text
  | quotation q => q.text

/-- Whether it stands between quotes. -/
def quoted : Atom → Bool
  | word _ => false
  | quotation _ => true

/-- The text that is written. -/
def render : Atom → String
  | word w => w.text
  | quotation q => String.singleton q.mark.char ++ q.text ++ String.singleton q.mark.char

end Atom

namespace Argument

mutual

/-- An argument as it is written. -/
def render : Argument → String
  | atom a => a.render
  | call name args => name.text ++ "(" ++ ",".intercalate (renderEach args) ++ ")"

/-- Arguments as they are written. -/
def renderEach : List Argument → List String
  | [] => []
  | a :: rest => a.render :: renderEach rest

end

end Argument

namespace Statement

mutual

/-- A statement as it is written. -/
def render : Statement → String
  | atom a => a.render ++ ";"
  | call name args => name.text ++ "(" ++ ",".intercalate (Argument.renderEach args) ++ ")" ++ ";"
  | block body => braced (renderAll body)
  | function name params body =>
    "function " ++ name.text ++ "(" ++ ",".intercalate (params.map BareWord.text) ++ ")" ++
      braced (renderAll body)
  | type form name body => form.keyword.text ++ " " ++ name.text ++ braced (renderAll body)

/-- Statements as they are written, one after the other. -/
def renderAll : List Statement → String
  | [] => ""
  | st :: rest => st.render ++ renderAll rest

end

end Statement

/-! ### Outlines -/

/-- The label of a word or quoted text: a bare word is its own name. -/
def Atom.label (a : Atom) (kind : NodeKind) : Label :=
  { kind
    name := if a.quoted then none else some a.text
    value := some (.string a.text)
    quoted := a.quoted }

/-- The leaf of a word or quoted text. -/
def Atom.outline (a : Atom) (kind : NodeKind) : Outline := .node (a.label kind) []

/-- The outline of a word or quoted text that stands in the list of a header, which has no
value. -/
def Atom.parameter (a : Atom) : Outline :=
  .node { kind := .functionParam, name := some a.text, quoted := a.quoted } []

/-- The outline of a parameter, which has no value. -/
def BareWord.parameter (w : BareWord) : Outline :=
  .node { kind := .functionParam, name := some w.text } []

/-- The outline of a call with some arguments. -/
def BareWord.callOf (name : BareWord) (args : List Outline) : Outline :=
  .node { kind := .call, name := some name.text } args

/-- The argument that a comma makes where nothing was written. -/
def Outline.blank : Outline := .node { kind := .functionParam } []

namespace Argument

/-- Whether the argument is a call. -/
def isCall : Argument → Bool
  | atom _ => false
  | call _ _ => true

mutual

/-- The outline of an argument. -/
def outline : Argument → Outline
  | atom a => a.outline .functionParam
  | call name args => name.callOf (outlines args)

/-- The outlines of arguments. A call is used up when its own parenthesis
closes, so that a comma behind it makes an argument without a value. -/
def outlines : List Argument → List Outline
  | [] => []
  | a :: rest =>
    a.outline :: (if a.isCall && !rest.isEmpty then [Outline.blank] else []) ++ outlines rest

end

end Argument

namespace Statement

mutual

/-- The outline of a statement. -/
def outline : Statement → Outline
  | atom a => a.outline .none
  | call name args => name.callOf (Argument.outlines args)
  | block body => .node { kind := .none } (outlines body)
  | function name params body =>
    .node { kind := .function, name := some name.text }
      [.node { kind := .functionParams } (params.map BareWord.parameter),
        .node { kind := .functionImpl } (outlines body)]
  | type form name body =>
    .node { kind := form.kind, name := some name.text } [.node { kind := .none } (outlines body)]

/-- The outlines of statements. -/
def outlines : List Statement → List Outline
  | [] => []
  | st :: rest => st.outline :: outlines rest

end

/-- The outline of a whole script. -/
def script (program : List Statement) : Outline := .node { kind := .global } (outlines program)

end Statement

end ScopeScript
