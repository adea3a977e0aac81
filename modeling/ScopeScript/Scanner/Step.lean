import ScopeScript.Scanner.Basic

/-!
# What each symbol does

One function for each symbol that changes the state, then `Scanner.scan` for a
character of any sort, and on top of it `Scanner.feed` for a text and
`Scanner.parse` for a whole script.

A function header that ends without a body is a **call**: its parameters become
the arguments, moved up from the parameter list, which is left behind empty and
belongs to the tree no more.
-/

namespace ScopeScript.Scanner

/-! ### Headers without a body -/

/-- Makes parameters the arguments of a call: each takes its name for its value,
and keeps the name only if it was not quoted. What has no name cannot be an
argument. -/
def adoptParameters (s : Scanner) (call : Nat) : List Nat → Scanned
  | [] => .ok s
  | p :: rest =>
    let s := s.modifyNode p fun n => { n with parent := some call }
    match (s.tree.node? p).bind (·.name) with
    | none => .failed s (.host (.conversion (.wrongPayload .string Datum.null.typeName)))
    | some name =>
      adoptParameters
        (s.modifyNode p fun n =>
          { n with value := some (.string name), name := if n.quoted then none else n.name })
        call rest

/-- Replaces the parameter list below a call by what it holds. -/
def hoistParameters (s : Scanner) (call : Nat) : Scanned :=
  match s.tree.childOfKind? call .functionParams with
  | none => .ok s
  | some params =>
    let moved := s.tree.children params
    (s.adoptParameters call moved).andThen fun s =>
      .ok <|
        (s.modifyNode call fun n =>
          { n with children := n.children.flatMap fun c => if c = params then moved else [c] })
        |>.modifyNode params fun n => { n with children := [] }

/-! ### Symbols -/

/-- An opening parenthesis begins the parameters of a function header, or the
arguments of the call that the word names. -/
def openParen (s : Scanner) : Scanned :=
  if s.cursorKind = .function then
    let s := s.nameCursorIfPending
    if (s.tree.childOfKind? s.cursor .functionParams).isSome then
      s.fail (.unexpected .openParen) s.location
    else .ok (s.pushScope .functionParams s.location)
  else
    let name := Text.strip s.word.literal
    if name.isEmpty then s.fail (.unexpected .openParen) s.location
    else
      let s := s.pushScope .call s.wordLocation
      .ok (s.modifyNode s.cursor fun n => { n with name := some name }).clearWord

/-- A closing parenthesis ends a parameter list or a call. -/
def closeParen (s : Scanner) : Scanned :=
  match s.cursorKind with
  | .functionParams => (if s.word.isPending then s.addParameter else s).popScope
  | .call => (if s.word.isPending then s.addArgument else s).popScope
  | _ => s.fail (.unexpected .closeParen) s.location

/-- A comma ends a parameter, which must not be empty, or an argument. -/
def comma (s : Scanner) : Scanned :=
  match s.cursorKind with
  | .functionParams =>
    if s.word.isPending then .ok s.addParameter else s.fail (.unexpected .comma) s.location
  | .call => .ok s.addArgument
  | _ => s.fail (.unexpected .comma) s.location

/-- An opening brace begins the body of a function, the body of a type, or a
block, and the word names what it begins. -/
def openBrace (s : Scanner) : Scanned :=
  if s.cursorKind = .function then
    if s.word.isPending && s.cursorName.isSome then s.fail .unprocessed s.wordLocation
    else
      let s := s.nameCursorIfPending
      .ok (s.pushScope .functionImpl s.location).endStatement
  else if s.cursorKind.isType then
    let s := s.nameCursorIfPending
    .ok (s.pushScope .none s.location)
  else
    let name := if s.word.isPending then some s.word.literal else none
    let s := s.pushScope .none s.wordLocation
    .ok (s.modifyNode s.cursor fun n => { n with name }).clearWord

/-- A closing brace ends the open scope; the body of a function or type ends
together with what it is the body of. -/
def closeBrace (s : Scanner) : Scanned :=
  let kind := s.cursorKind
  if kind = .call || kind = .functionParams then s.fail (.unexpected .closeBrace) s.location
  else
    let s := s.flushIfPending
    let parentKind := (s.tree.parent? s.cursor).bind s.tree.kind?
    let isBody :=
      kind = .functionImpl || (kind = .none && (parentKind.map NodeKind.isType).getD false)
    s.popScope.andThen fun s =>
      (if isBody then s.popScope else .ok s).andThen fun s => .ok s.endStatement

/-- A semicolon ends a statement. A function header that ends here is a call. -/
def semicolon (s : Scanner) : Scanned :=
  let kind := s.cursorKind
  if kind = .call || kind = .functionParams then s.fail (.unexpected .semicolon) s.location
  else
    let header := kind = .function && (s.tree.childOfKind? s.cursor .functionImpl).isNone
    let s := if header && s.cursorName.isNone then s.nameCursorIfPending else s
    let s := s.flushIfPending
    if header then
      let call := s.cursor
      ((s.modifyNode call fun n => { n with kind := .call }).hoistParameters call).andThen fun s =>
        let s := s.note ("reclassify: " ++ s.cursorName.getD "None" ++ " -> Call")
        s.popScope.andThen fun s => .ok s.endStatement
    else .ok s.endStatement

/-- What a symbol outside quotes does, after the word before it was looked at for
a keyword. -/
def symbol (s : Scanner) : Symbol → Scanned
  | .openParen => s.openParen
  | .closeParen => s.closeParen
  | .openBrace => s.openBrace
  | .closeBrace => s.closeBrace
  | .comma => s.comma
  | .semicolon => s.semicolon
  | .newline => .ok { s with location := s.location.newline }
  | .singleQuote => .ok { s with word := { s.beginWord with quoted := true }, quote := some '\'' }
  | .doubleQuote => .ok { s with word := { s.beginWord with quoted := true }, quote := some '"' }
  | .openBracket | .closeBracket | .tab | .space => .ok s

/-! ### Characters and texts -/

/-- One character. Between quotes only the closing quote is special. -/
def scan (s : Scanner) (c : Char) : Scanned :=
  match s.quote with
  | some q =>
    if c = q then .ok { s with quote := none }
    else
      let s := s.append c
      .ok { s with word := { s.word with quoted := true } }
  | none =>
    match Symbol.ofChar? c with
    | none => .ok (s.append c)
    | some sym => s.takeKeyword.symbol sym

/-- The state one place on. -/
def advance (s : Scanner) : Scanner := { s with location := s.location.advance }

/-- The characters of a text, one after the other, up to the first failure. -/
def feed (s : Scanner) : List Char → Scanned
  | [] => .ok s
  | c :: rest => (s.scan c).andThen fun s => feed s.advance rest

/-- The end of the script: quotes and scopes have to be closed. -/
def finish (s : Scanner) : Scanned :=
  if s.quote.isSome then s.fail .unterminated s.wordLocation
  else
    let s := s.takeKeyword.flushIfPending
    if s.atRoot then .ok s else s.fail (.unclosed s.cursorKind) s.cursorLocation

/-- A scanner that has read nothing. -/
def reset (s : Scanner) : Scanner := { debug := s.debug, trace := s.trace }

/-- A scanner about to read the script of a given name. -/
def start (s : Scanner) (name : String) : Scanner :=
  let place : Location := { file := name }
  { s.reset with location := place, tree := Tree.empty name place }

/-- Notes the finished tree in the trace. -/
def noteTree (s : Scanner) (name : String) : Scanner :=
  if s.debug then s.note ("tree for '" ++ name ++ "':\n" ++ s.tree.dump 0 0) else s

/-- Reads a whole script from the beginning. -/
def parse (s : Scanner) (name : String) (content : Option String) : Scanned :=
  match content with
  | none => .failed s.reset (.script { fault := .noContent name })
  | some text =>
    if text.isEmpty then .failed s.reset (.script { fault := .noContent name })
    else
      ((s.start name).feed text.toList).andThen fun s =>
        s.finish.andThen fun s => .ok (s.noteTree name)

end ScopeScript.Scanner
