import Mathlib.Data.List.Induction
import ScopeScript.Proofs.Scanner.CallNames
import ScopeScript.Proofs.Scanner.Places

/-!
# Nodes begin where their words do

A node that is made of a word has the place where the word began, and any other node the
place of the symbol that made it. **So every node of a parsed tree but the root begins at
a character that can be told from the source** (`ScopeScript.Node.BeginsIn`): a part of
the source is collected as the word, and the node is told by it; or the character is the
bracket or the comma that the node stands for.

A word begins with a quotation mark or with a character that is no symbol
(`ScopeScript.Word.Spans`), and that is not the same as a character that shows: of the
blanks only the space, the tab and the newline are symbols. Any other blank outside quotes
begins a word, or goes on with one, although it does not count at the ends of a bare word.
A node may therefore begin at a blank
(`ScopeScript.Node.BeginsIn.of_blank`), and since symbols other than quotation marks
leave such a word alone, far in front of what it shows.

The proof follows the word while it is collected (`ScopeScript.Scanner.Collects`), and
goes through the symbols for the nodes they make.
-/

namespace ScopeScript

/-! ### Words -/

theorem scannedText_append (quote : Option Char) (cs ds : List Char) :
    scannedText quote (cs ++ ds)
      = scannedText quote cs ++ scannedText (cs.foldl quoteAfter quote) ds := by
  induction cs generalizing quote with
  | nil => rfl
  | cons c cs ih =>
    rw [List.cons_append, scannedText, scannedText, ih, List.append_assoc, List.foldl_cons]

/-- Whether a character opens and closes quotations. -/
def isQuotationMark (c : Char) : Bool := (Symbol.ofChar? c).any Symbol.isQuote

/-- **The word is what a part of the source is collected as.** It begins with a quotation
mark, or with a character that is no symbol. -/
structure Word.Spans (w : Word) (taken : List Char) : Prop where
  begins : ∃ c rest, taken = c :: rest ∧ (Symbol.ofChar? c).all Symbol.isQuote
  text : w.text.toList = scannedText none taken
  quoted : w.quoted = taken.any isQuotationMark

namespace Word.Spans

variable {w v : Word} {taken : List Char} {c : Char}

/-- A word of one character. -/
theorem single (hc : (Symbol.ofChar? c).all Symbol.isQuote = true)
    (htext : v.text.toList = if isText none c then [c] else [])
    (hquoted : v.quoted = isQuotationMark c) : v.Spans [c] where
  begins := ⟨c, [], rfl, hc⟩
  text := by rw [htext, scannedText, scannedText, List.append_nil]
  quoted := by rw [hquoted, List.any_cons, List.any_nil, Bool.or_false]

/-- A word with one more character, which may leave no trace in it. -/
theorem concat (h : w.Spans taken)
    (htext : v.text.toList
      = w.text.toList ++ if isText (taken.foldl quoteAfter none) c then [c] else [])
    (hquoted : v.quoted = (w.quoted || isQuotationMark c)) : v.Spans (taken ++ [c]) where
  begins := by
    obtain ⟨b, rest, rfl, hb⟩ := h.begins
    exact ⟨b, rest ++ [c], rfl, hb⟩
  text := by
    rw [htext, h.text, scannedText_append, scannedText, scannedText, List.append_nil]
  quoted := by
    rw [hquoted, h.quoted, List.any_append, List.any_cons, List.any_nil, Bool.or_false]

end Word.Spans

/-! ### Nodes -/

/-- **The text of a node**: its value or its name, or both. -/
def Node.Bears (n : Node) (text : String) : Prop :=
  n.value = none ∧ n.name = some text ∨
    n.value = some (.string text) ∧ (n.name = none ∨ n.name = some text)

/-- The node has neither value nor name. -/
def Node.IsBare (n : Node) : Prop := n.value = none ∧ n.name = none

/-- **The word that tells a node.** -/
inductive Node.Tells (n : Node) (w : Word) : Prop
  /-- The keyword of a declaration, or of the header that a call has been. -/
  | keyword {k : Keyword} {kind : NodeKind} (hquoted : w.quoted = false)
      (hk : Keyword.ofText? w.text = some k) (hscope : Scanner.scopeOf? k = some kind)
      (hn : n.kind = kind ∨ kind = .function ∧ n.kind = .call) : Tells n w
  /-- The name of a call. -/
  | name (hn : n.kind = .call) (hquoted : n.quoted = false)
      (hname : n.name = some (Text.strip w.literal)) : Tells n w
  /-- The text of a parameter or an argument, of a word that stands alone, or in front of a
  block. -/
  | text (hpending : w.isPending = true) (hn : n.kind = .none ∨ n.kind = .functionParam)
      (hbears : n.Bears w.literal) : Tells n w
  /-- Nothing but blanks, where an argument is left out, or in front of a block. -/
  | blanks (hblank : w.isPending = false) (hn : n.kind = .none ∨ n.kind = .functionParam)
      (hbare : n.IsBare) : Tells n w

/-- **The symbol that a node stands for**, if no word tells it. -/
inductive Node.OpenedBy (n : Node) : Char → Prop
  /-- A parameter list. -/
  | list (hn : n.kind = .functionParams) : OpenedBy n '('
  /-- The body of a function. -/
  | body (hn : n.kind = .functionImpl) : OpenedBy n '{'
  /-- A block, or the body of a type. -/
  | block (hn : n.kind = .none) (hbare : n.IsBare) : OpenedBy n '{'
  /-- An argument that is left out. -/
  | omitted (hn : n.kind = .functionParam) (hbare : n.IsBare) : OpenedBy n ','

/-- **Where a node begins in a text**: at the first character of the word that tells it,
or else at its symbol. -/
inductive Node.BeginsIn (n : Node) (name : String) (text : List Char) : Prop
  /-- At a word. -/
  | word {before taken after : List Char} {w : Word} (htext : text = before ++ taken ++ after)
      (hplace : n.location = placeAfter name before) (hspans : w.Spans taken)
      (htells : n.Tells w) : BeginsIn n name text
  /-- At a symbol. -/
  | symbol {before after : List Char} {c : Char} (htext : text = before ++ c :: after)
      (hplace : n.location = placeAfter name before) (hopened : n.OpenedBy c) :
      BeginsIn n name text

namespace Node

variable {n m : Node} {w : Word} {name : String} {text : List Char}

theorem Tells.congr (h : n.Tells w) (hkind : m.kind = n.kind) (hquoted : m.quoted = n.quoted)
    (hname : m.name = n.name) (hvalue : m.value = n.value) : m.Tells w := by
  have hbare : n.IsBare → m.IsBare := fun h => ⟨hvalue.trans h.1, hname.trans h.2⟩
  cases h with
  | keyword hq hk hscope hn => exact .keyword hq hk hscope (hkind ▸ hn)
  | name hn hq hnm => exact .name (hkind ▸ hn) (hquoted.trans hq) (hname.trans hnm)
  | text hpending hn hbears =>
    refine .text hpending (hkind ▸ hn) ?_
    rw [Bears, hvalue, hname]
    exact hbears
  | blanks hblank hn h => exact .blanks hblank (hkind ▸ hn) (hbare h)

theorem OpenedBy.congr {c : Char} (h : n.OpenedBy c) (hkind : m.kind = n.kind)
    (hname : m.name = n.name) (hvalue : m.value = n.value) : m.OpenedBy c := by
  have hbare : n.IsBare → m.IsBare := fun h => ⟨hvalue.trans h.1, hname.trans h.2⟩
  cases h with
  | list hn => exact .list (hkind.trans hn)
  | body hn => exact .body (hkind.trans hn)
  | block hn h => exact .block (hkind.trans hn) (hbare h)
  | omitted hn h => exact .omitted (hkind.trans hn) (hbare h)

namespace BeginsIn

/-- What a node is told by, or stands for, decides where it begins. -/
theorem imp (h : n.BeginsIn name text) (hplace : m.location = n.location)
    (htells : ∀ w, n.Tells w → m.Tells w) (hopened : ∀ c, n.OpenedBy c → m.OpenedBy c) :
    m.BeginsIn name text := by
  cases h with
  | word htext hp hspans h => exact .word htext (hplace.trans hp) hspans (htells _ h)
  | symbol htext hp h => exact .symbol htext (hplace.trans hp) (hopened _ h)

/-- Where more text follows, nothing changes. -/
theorem append (h : n.BeginsIn name text) (more : List Char) :
    n.BeginsIn name (text ++ more) := by
  cases h with
  | @word before taken after w htext hplace hspans htells =>
    have hmore : text ++ more = before ++ taken ++ (after ++ more) := by
      rw [htext, List.append_assoc]
    exact .word hmore hplace hspans htells
  | @symbol before after c htext hplace hopened =>
    have hmore : text ++ more = before ++ c :: (after ++ more) := by
      rw [htext, List.append_assoc, List.cons_append]
    exact .symbol hmore hplace hopened

/-- What stands below a node makes no difference. -/
theorem relist (h : n.BeginsIn name text) (children : List Nat) :
    ({ n with children } : Node).BeginsIn name text :=
  h.imp rfl (fun _ htells => htells.congr rfl rfl rfl rfl)
    fun _ hopened => hopened.congr rfl rfl rfl

/-- The name of a declaration makes no difference. -/
theorem entitle (h : n.BeginsIn name text) (hk : n.kind.isDeclaration) (w : Word) :
    (w.entitle n).BeginsIn name text := by
  refine h.imp rfl (fun v htells => ?_) fun c hopened => ?_
  · cases htells with
    | keyword hq hkey hscope hn => exact .keyword hq hkey hscope hn
    | name hn =>
      rw [hn] at hk
      cases hk
    | text _ hn | blanks _ hn =>
      rcases hn with hn | hn <;> rw [hn] at hk <;> cases hk
  · cases hopened with
    | list hn | body hn | block hn | omitted hn =>
      rw [hn] at hk
      cases hk

/-- A header that becomes a call begins where it began. -/
theorem asCall (h : n.BeginsIn name text) (hk : n.kind = .function) (children : List Nat) :
    ({ n with kind := .call, children } : Node).BeginsIn name text := by
  refine h.imp rfl (fun v htells => ?_) fun c hopened => ?_
  · cases htells with
    | keyword hq hkey hscope hn =>
      refine .keyword hq hkey hscope (Or.inr ⟨?_, rfl⟩)
      rcases hn with hn | ⟨hkind, -⟩
      · exact hn.symm.trans hk
      · exact hkind
    | name hn =>
      rw [hk] at hn
      cases hn
    | text _ hn | blanks _ hn =>
      rcases hn with hn | hn <;> rw [hk] at hn <;> cases hn
  · cases hopened with
    | list hn | body hn | block hn | omitted hn =>
      rw [hk] at hn
      cases hn

/-- A parameter that becomes an argument begins where it began. -/
theorem asArgument (h : n.BeginsIn name text) (hname : n.name.isSome) (call : Nat) :
    (n.asArgument call).BeginsIn name text := by
  have hnot : ¬n.IsBare := by
    rintro ⟨-, hnone⟩
    rw [hnone] at hname
    cases hname
  refine h.imp rfl (fun v htells => ?_) fun c hopened => ?_
  · cases htells with
    | keyword hq hkey hscope hn => exact .keyword hq hkey hscope hn
    | name hn hq hnm => exact .name hn hq (by simp [Node.asArgument, hq, hnm])
    | text hpending hn hbears =>
      -- the name is the text, whether the text was the value before or not
      have htext : n.name = some v.literal := by
        rcases hbears with ⟨-, hsome⟩ | ⟨-, hnone | hsome⟩
        · exact hsome
        · rw [hnone] at hname
          cases hname
        · exact hsome
      refine .text hpending hn (Or.inr ⟨by simp [Node.asArgument, htext], ?_⟩)
      cases hq : n.quoted with
      | true => exact Or.inl (by simp [Node.asArgument, hq])
      | false => exact Or.inr (by simp [Node.asArgument, hq, htext])
    | blanks _ _ hbare => exact absurd hbare hnot
  · cases hopened with
    | list hn => exact .list hn
    | body hn => exact .body hn
    | block _ hbare | omitted _ hbare => exact absurd hbare hnot

end BeginsIn

end Node

/-- Every node of the tree but the root begins in the text. -/
def Tree.BeginsIn (t : Tree) (name : String) (text : List Char) : Prop :=
  ∀ i n, t.node? i = some n → i ≠ 0 → n.BeginsIn name text

namespace Tree.BeginsIn

variable {t t' : Tree} {name : String} {text : List Char} {p c : Nat} {n : Node}

theorem append (h : t.BeginsIn name text) (more : List Char) : t.BeginsIn name (text ++ more) :=
  fun i n hn hi => (h i n hn hi).append more

theorem sprout (h : t.BeginsIn name text) (hp : p < t.size) (hn : n.BeginsIn name text) :
    (t.sprout p n).BeginsIn name text := by
  intro i m hm hi
  rw [node?_sprout hp] at hm
  split at hm
  · cases hm
    exact hn
  · split at hm
    · rename_i hip
      obtain ⟨m', hm', rfl⟩ := Option.map_eq_some_iff.mp hm
      exact (h p m' hm' (hip ▸ hi)).relist _
    · exact h i m hm hi

theorem names (h : t.BeginsIn name text) (hnames : t.Names c t') : t'.BeginsIn name text := by
  cases hnames with
  | still => exact h
  | named w hk =>
    intro i m hm hi
    rw [node?_modify] at hm
    split at hm
    · rename_i hci
      obtain ⟨m', hm', rfl⟩ := Option.map_eq_some_iff.mp hm
      exact (h i m' hm' hi).entitle (hk _ (kind?_of_node? (hci ▸ hm'))) w
    · exact h i m hm hi

end Tree.BeginsIn

namespace Scanner

variable {s s' : Scanner} {name : String} {read : List Char} {c : Char} {n : Node}

/-! ### The word that is being collected -/

/-- **The word is collected from the end of what has been read.** -/
def Collects (s : Scanner) (name : String) (read : List Char) : Prop :=
  ∃ before taken, read = before ++ taken ∧ s.word.start = some (placeAfter name before) ∧
    s.word.Spans taken ∧ s.quote = taken.foldl quoteAfter none

/-- **What the scanner is at once a text has been read**: it is behind it, collects its
word from it, and has built a tree whose nodes begin in it. -/
structure Tokens (name : String) (read : List Char) (s : Scanner) : Prop where
  reached : s.location = placeAfter name read
  word : s.word = {} ∧ s.quote = none ∨ s.Collects name read
  nodes : s.tree.BeginsIn name read

theorem location_note (s : Scanner) (line : String) : (s.note line).location = s.location := by
  rw [note]
  split <;> rfl

theorem location_nameCursorIfPending (s : Scanner) :
    s.nameCursorIfPending.location = s.location := by
  rw [nameCursorIfPending]
  split <;> rfl

theorem location_takeKeyword (s : Scanner) : s.takeKeyword.location = s.location := by
  rcases s.takeKeyword_cases with htake | ⟨k, line, -, -, ⟨-, htake⟩ | ⟨kind, -, htake⟩⟩
  · rw [htake]
  · rw [htake]
    exact location_note _ _
  · rw [htake]
    exact (location_note _ _).trans (location_note _ _)

theorem leavesWord_takeKeyword (s : Scanner) : s.LeavesWord s.takeKeyword := by
  rcases s.takeKeyword_cases with htake | ⟨k, line, -, -, ⟨-, htake⟩ | ⟨kind, -, htake⟩⟩
  · rw [htake]
    exact Or.inl rfl
  · rw [htake]
    exact Or.inr (word_note _ _)
  · rw [htake]
    exact Or.inr ((word_pushScope _ _ _).trans (word_note _ _))

/-- A pending word is a word that there is. -/
theorem ne_of_isPending (h : s.word.isPending = true) : s.word ≠ {} := by
  intro hempty
  rw [hempty] at h
  exact absurd h (by decide)

namespace Tokens

variable (h : s.Tokens name read)

include h

/-- A node that is told by the word begins where the word began. -/
theorem begins_word (hword : s.word ≠ {}) (hplace : n.location = s.wordLocation)
    (htells : n.Tells s.word) : n.BeginsIn name read := by
  obtain ⟨before, taken, rfl, hstart, hspans, -⟩ :=
    h.word.resolve_left fun hempty => hword hempty.1
  have hbegan : n.location = placeAfter name before := by
    rw [hplace, wordLocation, hstart, Option.getD_some]
  exact .word (List.append_nil _).symm hbegan hspans htells

/-- A node that stands for the next character begins there. -/
theorem begins_symbol (hplace : n.location = s.location) (hopened : n.OpenedBy c) :
    n.BeginsIn name (read ++ [c]) :=
  .symbol rfl (hplace.trans h.reached) hopened

/-- A node without a text begins where the blanks began, or else at its symbol. -/
theorem begins_bare (hblank : s.word.isPending = false) (hplace : n.location = s.wordLocation)
    (hn : n.kind = .none ∨ n.kind = .functionParam) (hbare : n.IsBare) (hopened : n.OpenedBy c) :
    n.BeginsIn name (read ++ [c]) := by
  by_cases hword : s.word = {}
  · refine h.begins_symbol (hplace.trans ?_) hopened
    rw [wordLocation, hword]
    rfl
  · exact (h.begins_word hword hplace (.blanks hblank hn hbare)).append [c]

/-! ### The parts of a move -/

theorem nodes_takeKeyword (hs : s.Sound) : s.takeKeyword.tree.BeginsIn name read := by
  rcases s.takeKeyword_cases with htake | ⟨k, line, hquoted, hk, ⟨-, htake⟩ | ⟨kind, hscope, htake⟩⟩
  · rw [htake]
    exact h.nodes
  · rw [htake]
    exact (tree_note s.clearWord line ▸ h.nodes :)
  · have htree : s.takeKeyword.tree
        = s.tree.sprout s.cursor
            { kind, location := s.wordLocation, parent := some s.cursor } := by
      rw [htake]
      refine (tree_pushScope _ _ _).trans ?_
      rw [tree_note, cursor_note]
      rfl
    rw [htree]
    refine h.nodes.sprout hs.isOpen.lt_size
      (h.begins_word ?_ rfl (.keyword hquoted hk hscope (Or.inl rfl)))
    intro hempty
    rw [hempty] at hk
    cases hk

/-- Outside quotes a word may be looked at for a keyword. -/
theorem takeKeyword (hs : s.Sound) (hquote : s.quote = none) : s.takeKeyword.Tokens name read where
  reached := s.location_takeKeyword.trans h.reached
  word := by
    have hq : s.takeKeyword.quote = none := s.quote_takeKeyword.trans hquote
    rcases s.leavesWord_takeKeyword with hsame | hempty
    · rw [Collects, hsame, s.quote_takeKeyword]
      exact h.word
    · exact Or.inl ⟨hempty, hq⟩
  nodes := h.nodes_takeKeyword hs

theorem nodes_flushIfPending (hs : s.Sound) : s.flushIfPending.tree.BeginsIn name read := by
  rw [flushIfPending]
  split
  · rename_i hpending
    rw [tree_flushWord_eq hs]
    refine h.nodes.sprout hs.isOpen.lt_size
      (h.begins_word (ne_of_isPending hpending) rfl (.text hpending (Or.inl rfl) ?_))
    refine Or.inr ⟨rfl, ?_⟩
    cases hquoted : s.word.quoted with
    | true => exact Or.inl (by simp [Word.fill, hquoted])
    | false => exact Or.inr (by simp [Word.fill, hquoted])
  · exact h.nodes

theorem nodes_addParameter (hs : s.Sound) (hpending : s.word.isPending = true) :
    s.addParameter.tree.BeginsIn name read := by
  rw [tree_addParameter hs]
  exact h.nodes.sprout hs.isOpen.lt_size
    (h.begins_word (ne_of_isPending hpending) rfl
      (.text hpending (Or.inr rfl) (Or.inl ⟨rfl, rfl⟩)))

theorem nodes_addArgument (hs : s.Sound) (hpending : s.word.isPending = true) :
    s.addArgument.tree.BeginsIn name read := by
  rw [tree_addArgument hs, if_pos hpending]
  refine h.nodes.sprout hs.isOpen.lt_size
    (h.begins_word (ne_of_isPending hpending) rfl (.text hpending (Or.inr rfl) ?_))
  refine Or.inr ⟨rfl, ?_⟩
  cases hquoted : s.word.quoted with
  | true => exact Or.inl (by simp [Word.fill, hquoted])
  | false => exact Or.inr (by simp [Word.fill, hquoted])

/-- An argument in front of a comma may be left out. -/
theorem nodes_addArgument_comma (hs : s.Sound) :
    s.addArgument.tree.BeginsIn name (read ++ [',']) := by
  cases hpending : s.word.isPending with
  | true => exact (h.nodes_addArgument hs hpending).append [',']
  | false =>
    rw [tree_addArgument hs, hpending, if_neg Bool.false_ne_true]
    exact (h.nodes.append [',']).sprout hs.isOpen.lt_size
      (h.begins_bare hpending rfl (Or.inr rfl) ⟨rfl, rfl⟩ (.omitted rfl ⟨rfl, rfl⟩))

/-- A scope that is opened for its symbol, once the declaration around it may have been
named. -/
theorem nodes_pushScope (hs : s.Sound) (hk : s.cursorKind.isDeclaration) {kind : NodeKind}
    (hopened : Node.OpenedBy
      { kind, location := s.nameCursorIfPending.location, parent := some s.cursor } c) :
    (s.nameCursorIfPending.pushScope kind s.nameCursorIfPending.location).tree.BeginsIn name
      (read ++ [c]) := by
  have hsize : s.cursor < s.nameCursorIfPending.tree.size := by
    rw [s.sameLinks_nameCursorIfPending.size]
    exact hs.isOpen.lt_size
  rw [tree_pushScope, cursor_nameCursorIfPending]
  exact ((h.nodes.append [c]).names (names_nameCursorIfPending hk)).sprout hsize
    (h.begins_symbol s.location_nameCursorIfPending hopened)

/-! ### Symbols -/

theorem nodes_openParen (hs : s.Sound) (hopen : s.openParen = .ok s') :
    s'.tree.BeginsIn name (read ++ ['(']) := by
  rcases openParen_ok hopen with ⟨hk, rfl⟩ | ⟨-, hname, rfl⟩
  · exact h.nodes_pushScope hs (by rw [hk]; rfl) (.list rfl)
  · rw [tree_pushNamed hs]
    refine (h.nodes.append _).sprout hs.isOpen.lt_size
      ((h.begins_word ?_ rfl (.name rfl rfl rfl)).append _)
    intro hempty
    rw [hempty] at hname
    exact absurd hname (by decide)

theorem nodes_openBrace (hs : s.Sound) (hopen : s.openBrace = .ok s') :
    s'.tree.BeginsIn name (read ++ ['{']) := by
  rcases openBrace_ok hopen with ⟨hk, rfl⟩ | ⟨htype, rfl⟩ | ⟨-, -, rfl⟩
  · exact h.nodes_pushScope hs (by rw [hk]; rfl) (.body rfl)
  · refine h.nodes_pushScope hs ?_ (.block rfl ⟨rfl, rfl⟩)
    generalize s.cursorKind = k at htype
    cases k <;> first | rfl | cases htype
  · rw [tree_pushNamed hs]
    refine (h.nodes.append _).sprout hs.isOpen.lt_size ?_
    cases hpending : s.word.isPending with
    | true =>
      exact (h.begins_word (ne_of_isPending hpending) rfl
        (.text hpending (Or.inl rfl) (Or.inl ⟨rfl, rfl⟩))).append _
    | false => exact h.begins_bare hpending rfl (Or.inl rfl) ⟨rfl, rfl⟩ (.block rfl ⟨rfl, rfl⟩)

theorem nodes_closeParen (hs : s.Sound) (hclose : s.closeParen = .ok s') :
    s'.tree.BeginsIn name read := by
  obtain ⟨s₁, hpop, hcases⟩ := closeParen_ok hclose
  rw [tree_popScope hpop]
  rcases hcases with ⟨-, hpending, rfl⟩ | ⟨-, hpending, rfl⟩ | ⟨-, -, rfl⟩
  · exact h.nodes_addParameter hs hpending
  · exact h.nodes_addArgument hs hpending
  · exact h.nodes

theorem nodes_comma (hs : s.Sound) (hcomma : s.comma = .ok s') :
    s'.tree.BeginsIn name (read ++ [',']) := by
  rcases comma_ok hcomma with ⟨-, hpending, rfl⟩ | ⟨-, rfl⟩
  · exact (h.nodes_addParameter hs hpending).append _
  · exact h.nodes_addArgument_comma hs

theorem nodes_closeBrace (hs : s.Sound) (hclose : s.closeBrace = .ok s') :
    s'.tree.BeginsIn name read := by
  obtain ⟨-, -, s₁, s₂, hpop, rfl, hcases⟩ := closeBrace_ok hclose
  have htree : s₂.tree = s.flushIfPending.tree := by
    rcases hcases with ⟨-, hpop'⟩ | ⟨-, -, rfl⟩
    · exact (tree_popScope hpop').trans (tree_popScope hpop)
    · exact tree_popScope hpop
  change s₂.tree.BeginsIn name read
  rw [htree]
  exact h.nodes_flushIfPending hs

end Tokens

/-! ### Headers that become calls -/

/-- **The list of a header is emptied** where the header becomes a call, and is otherwise
left alone. -/
theorem Sound.node?_emptied (hs : s.Sound) (hk : s.cursorKind = .function)
    (h : s.asCall.hoistParameters s.cursor = .ok s') {l : Nat}
    (hl : s.tree.childOfKind? s.cursor .functionParams = some l) :
    s'.tree.node? l = (s.tree.node? l).map fun n => { n with children := [] } := by
  have hlt := hs.laid.lt_of_mem (Tree.mem_of_childOfKind? hl)
  have hnot : l ∉ s.tree.children l := fun hmem => Nat.lt_irrefl l (hs.laid.lt_of_mem hmem)
  rw [hoistParameters_some hk hl] at h
  obtain ⟨s₁, hadopt, h⟩ := Scanned.andThen_ok.mp h
  cases h
  simp only [relist, modifyNode]
  rw [Tree.node?_modify_self, Tree.node?_modify_of_ne (Nat.ne_of_lt hlt),
    node?_adoptParameters hadopt hnot, asCall, modifyNode,
    Tree.node?_modify_of_ne (Nat.ne_of_lt hlt)]

/-- **Where a header becomes a call, every node begins where it began.** -/
theorem beginsIn_hoisted (hs : s.Sound) (hk : s.cursorKind = .function)
    (h : s.asCall.hoistParameters s.cursor = .ok s') (hnodes : s.tree.BeginsIn name read) :
    s'.tree.BeginsIn name read := by
  intro i n hn hi
  by_cases hcursor : i = s.cursor
  · obtain ⟨m, hm, hkm⟩ := hs.exists_header hk
    rw [hcursor, hs.node?_header hk h, hm] at hn
    cases hn
    exact (hnodes s.cursor m hm (hcursor ▸ hi)).asCall hkm _
  · by_cases hlist : s.tree.childOfKind? s.cursor .functionParams = some i
    · rw [hs.node?_emptied hk h hlist] at hn
      obtain ⟨m, hm, rfl⟩ := Option.map_eq_some_iff.mp hn
      exact (hnodes i m hm hi).relist _
    · rw [hs.node?_hoisted hk h hcursor hlist] at hn
      split at hn
      · rename_i hmem
        obtain ⟨m, hm, rfl⟩ := Option.map_eq_some_iff.mp hn
        have hname := (hoistParameters_ok_iff hk (hs.nodup_listed s.cursor)).mp ⟨s', h⟩ i hmem
        rw [Tree.name?, hm] at hname
        exact (hnodes i m hm hi).asArgument hname s.cursor
      · exact hnodes i n hn hi

namespace Tokens

variable (h : s.Tokens name read)

include h

theorem nodes_nameHeader (hk : s.cursorKind = .function) :
    s.nameHeader.tree.BeginsIn name read :=
  h.nodes.names (names_nameHeader hk)

/-- The word in front of a semicolon that ends a header names it, or is put below it. -/
theorem nodes_flushHeader (hs : s.Sound) (hk : s.cursorKind = .function) :
    s.nameHeader.flushIfPending.tree.BeginsIn name read := by
  by_cases hnamed : s.cursorName.isNone = true ∧ s.word.isPending = true
  · -- the word is used up by the name
    have hused : s.nameHeader.flushIfPending = s.nameHeader := by
      rw [nameHeader, if_pos hnamed.1, nameCursorIfPending, if_pos hnamed.2]
      rfl
    rw [hused]
    exact h.nodes_nameHeader hk
  · have hsame : s.nameHeader = s := by
      rw [nameHeader]
      split
      · rename_i hnone
        rw [nameCursorIfPending, if_neg fun hpending => hnamed ⟨hnone, hpending⟩]
      · rfl
    rw [hsame]
    exact h.nodes_flushIfPending hs

theorem nodes_semicolon (hs : s.Sound) (hend : s.semicolon = .ok s') :
    s'.tree.BeginsIn name read := by
  rcases semicolon_ok hend with ⟨hheader, hretire⟩ | ⟨-, -, -, rfl⟩
  · obtain ⟨s₁, s₂, line, hhoist, hpop, rfl⟩ := retire_ok hretire
    have hflushed := hs.nameHeader.reach s.nameHeader.reach_flushIfPending
    change s₂.tree.BeginsIn name read
    rw [tree_popScope hpop, tree_note]
    exact beginsIn_hoisted hflushed hheader.nameHeader.flushIfPending.1 hhoist
      (h.nodes_flushHeader hs hheader.1)
  · exact h.nodes_flushIfPending hs

/-- **A symbol makes nodes that begin at the word in front of it, or at the symbol.** -/
theorem nodes_symbol (hs : s.Sound) {sym : Symbol} (hsym : s.symbol sym = .ok s') :
    s'.tree.BeginsIn name (read ++ [sym.char]) := by
  cases sym with
  | openParen => exact h.nodes_openParen hs hsym
  | openBrace => exact h.nodes_openBrace hs hsym
  | comma => exact h.nodes_comma hs hsym
  | closeParen => exact (h.nodes_closeParen hs hsym).append _
  | closeBrace => exact (h.nodes_closeBrace hs hsym).append _
  | semicolon => exact (h.nodes_semicolon hs hsym).append _
  | openBracket | closeBracket | tab | space | singleQuote | doubleQuote | newline =>
    cases hsym
    exact h.nodes.append _

end Tokens

/-! ### Characters -/

/-- A character that is collected begins a word, or goes on with one. -/
theorem Collects.append (hquote : s'.quote = quoteAfter s.quote c)
    (hc : s.quote = none → (Symbol.ofChar? c).all Symbol.isQuote = true)
    (hreached : s.location = placeAfter name read)
    (hword : s.word = {} ∧ s.quote = none ∨ s.Collects name read)
    (hstart : s'.word.start = s.beginWord.start)
    (htext : s'.word.text.toList = s.word.text.toList ++ if isText s.quote c then [c] else [])
    (hquoted : s'.word.quoted = (s.word.quoted || isQuotationMark c)) :
    s'.Collects name (read ++ [c]) := by
  rcases hword with ⟨hempty, hnone⟩ | ⟨before, taken, rfl, hbegun, hspans, hopen⟩
  · rw [hempty, hnone] at htext
    rw [hempty] at hquoted
    refine ⟨read, [c], rfl, ?_, .single (hc hnone) htext hquoted, ?_⟩
    · rw [hstart, beginWord, hempty, ← hreached]
      rfl
    · rw [hquote, hnone]
      rfl
  · refine ⟨before, taken ++ [c], List.append_assoc _ _ _, ?_, ?_, ?_⟩
    · rw [hstart, beginWord, hbegun]
      rfl
    · rw [hopen] at htext
      exact hspans.concat htext hquoted
    · rw [hquote, hopen, List.foldl_append]
      rfl

/-- A symbol that is no quotation mark leaves the word alone, or uses it up. -/
theorem Collects.skip {sym : Symbol} (hc : Symbol.ofChar? c = some sym)
    (hsym : sym.isQuote = false) (h : s.Collects name read) (hquote : s.quote = none)
    (hquote' : s'.quote = none) (hword : s'.word = s.word) : s'.Collects name (read ++ [c]) := by
  obtain ⟨before, taken, rfl, hbegun, hspans, hopen⟩ := h
  have hmark : isQuotationMark c = false := by rw [isQuotationMark, hc]; exact hsym
  have htext : isText (taken.foldl quoteAfter none) c = false := by
    rw [← hopen, hquote, isText, hc]
    rfl
  refine ⟨before, taken ++ [c], List.append_assoc _ _ _, hword ▸ hbegun, ?_, ?_⟩
  · refine hspans.concat ?_ ?_
    · rw [hword, htext, if_neg Bool.false_ne_true, List.append_nil]
    · rw [hword, hmark, Bool.or_false]
  · rw [hquote', List.foldl_append, ← hopen, hquote, List.foldl_cons, List.foldl_nil, quoteAfter,
      hc]
    exact (if_neg (by simp [hsym])).symm

/-- A quotation that is open goes on with the word, and so does the mark that ends it. -/
theorem Tokens.collects_quoted (h : s.Tokens name read) (hquotes : s.Quotes) {q : Char}
    (hq : s.quote = some q) (hscan : s.scan c = .ok s') : s'.Collects name (read ++ [c]) := by
  have hquote := quote_scan hscan
  have hquoted : s.word.quoted = true := hquotes (by simp [hq])
  have hnot : s.quote = none → (Symbol.ofChar? c).all Symbol.isQuote = true := by
    intro hnone
    rw [hq] at hnone
    cases hnone
  rw [scan, hq] at hscan
  dsimp only at hscan
  split at hscan
  · -- the quotation ends, and the word goes on
    rename_i hc
    cases hscan
    have hstart : s.word.start = s.beginWord.start := by
      obtain ⟨before, taken, -, hbegun, -⟩ := h.word.resolve_left fun hempty => by
        rw [hq] at hempty
        cases hempty.2
      rw [beginWord, hbegun]
      rfl
    refine Collects.append hquote hnot h.reached h.word hstart ?_ ?_
    · simp [hq, isText, hc]
    · exact (by rw [hquoted]; rfl)
  · rename_i hc
    cases hscan
    refine Collects.append hquote hnot h.reached h.word rfl ?_ ?_
    · simp [hq, isText, hc, append, beginWord]
    · exact (by rw [hquoted]; rfl)

/-- A quotation mark outside quotes begins a quotation, and nothing of it has been collected
yet. -/
theorem Tokens.collects_mark (h : s.Tokens name read) (hq : s.quote = none) {sym : Symbol}
    (hc : Symbol.ofChar? c = some sym) (hsym : sym.isQuote = true)
    (hquote : s'.quote = quoteAfter s.quote c) (hscan : s.symbol sym = .ok s') :
    s'.Collects name (read ++ [c]) := by
  have hall : (Symbol.ofChar? c).all Symbol.isQuote = true := by rw [hc]; exact hsym
  have hmark : isQuotationMark c = true := by rw [isQuotationMark, hc]; exact hsym
  have htext : isText none c = false := by rw [isText, hc]; rfl
  cases sym with
  | singleQuote | doubleQuote =>
    cases hscan
    refine Collects.append hquote (fun _ => hall) h.reached h.word rfl ?_ ?_
    · simp [hq, htext, beginWord]
    · simp [hmark]
  | _ => cases hsym

/-- **What a character does to the word that is being collected.** -/
theorem Tokens.word_scan (h : s.Tokens name read) (hs : s.Sound) (hquotes : s.Quotes)
    (hscan : s.scan c = .ok s') :
    s'.word = {} ∧ s'.quote = none ∨ s'.Collects name (read ++ [c]) := by
  have hquote := quote_scan hscan
  cases hq : s.quote with
  | some q => exact Or.inr (h.collects_quoted hquotes hq hscan)
  | none =>
    rw [scan, hq] at hscan
    dsimp only at hscan
    cases hc : Symbol.ofChar? c with
    | none =>
      rw [hc] at hscan
      cases hscan
      refine Or.inr (Collects.append hquote (fun _ => by rw [hc]; rfl) h.reached h.word rfl ?_ ?_)
      · simp [hq, isText, hc, append, beginWord]
      · simp [isQuotationMark, hc, append, beginWord]
    | some sym =>
      rw [hc] at hscan
      have hkey := h.takeKeyword hs hq
      have hqkey : s.takeKeyword.quote = none := s.quote_takeKeyword.trans hq
      cases hsym : sym.isQuote with
      | false =>
        have hnone : s'.quote = none := by rw [quote_symbol hscan, hsym, hqkey]; rfl
        rcases leavesWord_symbol hscan hsym with hsame | hempty
        · rcases hkey.word with ⟨hempty, -⟩ | hcollects
          · exact Or.inl ⟨hsame.trans hempty, hnone⟩
          · exact Or.inr (hcollects.skip hc hsym hqkey hnone hsame)
        · exact Or.inl ⟨hempty, hnone⟩
      | true =>
        have hquote' : s'.quote = quoteAfter s.takeKeyword.quote c := by rw [hquote, hqkey, hq]
        exact Or.inr (hkey.collects_mark hqkey hc hsym hquote' hscan)

/-- **What a character does to the tree**: nodes begin in the text that ends with it. -/
theorem Tokens.nodes_scan (h : s.Tokens name read) (hs : s.Sound) (hscan : s.scan c = .ok s') :
    s'.tree.BeginsIn name (read ++ [c]) := by
  rw [scan] at hscan
  cases hq : s.quote with
  | some q =>
    rw [hq] at hscan
    dsimp only at hscan
    split at hscan <;> cases hscan <;> exact h.nodes.append [c]
  | none =>
    rw [hq] at hscan
    dsimp only at hscan
    cases hc : Symbol.ofChar? c with
    | none =>
      rw [hc] at hscan
      cases hscan
      exact h.nodes.append [c]
    | some sym =>
      rw [hc] at hscan
      rw [eq_char_of_ofChar? hc]
      exact (h.takeKeyword hs hq).nodes_symbol (hs.reach s.reach_takeKeyword) hscan

/-! ### Whole sources -/

/-- The place that is reached tells what has been read. -/
theorem location_feed (s : Scanner) (name : String) (h : (s.start name).feed read = .ok s') :
    s'.location = placeAfter name read := by
  have hstart := s.located_start name (P := fun _ => True) trivial
  have hlocated := hstart.feed read rfl rfl fun _ _ => trivial
  rw [h] at hlocated
  exact hlocated.reached

/-- **A text that has been read is what the word and the nodes begin in.** The induction is
on the characters from the last one, since what is known of a scanner is known of the text
it has read from its start. -/
theorem tokens_feed (s : Scanner) (name : String) (h : (s.start name).feed read = .ok s') :
    s'.Tokens name read := by
  induction read using List.reverseRecOn generalizing s' with
  | nil =>
    cases h
    refine ⟨rfl, Or.inl ⟨rfl, rfl⟩, fun i n hn hi => ?_⟩
    have hlt := Tree.lt_size_of_node? hn
    exact absurd (Nat.lt_one_iff.mp hlt) hi
  | append_singleton read c ih =>
    have hreached := location_feed s name h
    rw [feed_append] at h
    obtain ⟨s₁, hread, h⟩ := Scanned.andThen_ok.mp h
    obtain ⟨s₂, hscan, hend⟩ := feed_cons_ok.mp h
    cases hend
    have hs₁ := (s.sound_start name).feed hread
    have hquotes : s₁.Quotes := Quotes.feed (fun hquote => absurd rfl hquote) hread
    have hword := (ih hread).word_scan hs₁ hquotes hscan
    have hnodes := (ih hread).nodes_scan hs₁ hscan
    exact ⟨hreached, hword, hnodes⟩

/-- **Every node of a parsed tree begins in the source**, but for the root. -/
theorem beginsIn_parse {source : String} (h : s.parse name (some source) = .ok s') :
    s'.tree.BeginsIn name source.toList := by
  obtain ⟨s₁, s₂, hfeed, hfinish, rfl⟩ := parse_ok h
  have htokens := tokens_feed s name hfeed
  have hs₁ := (s.sound_start name).feed hfeed
  have hquote : s₁.quote = none := by
    rw [finish] at hfinish
    split at hfinish
    · cases hfinish
    · rename_i hnone
      simpa using hnone
  rw [tree_noteTree, (finish_ok hfinish).1]
  exact (htokens.takeKeyword hs₁ hquote).nodes_flushIfPending (hs₁.reach s₁.reach_takeKeyword)

end Scanner

/-! ### Blanks -/

/-- The offset of a place tells what stands in front of it. -/
theorem append_inj_of_placeAfter {name : String} {xs xs' ys ys' : List Char}
    (hplace : placeAfter name xs = placeAfter name xs') (h : xs ++ ys = xs' ++ ys') :
    xs = xs' ∧ ys = ys' := by
  have hoffset := congrArg Location.offset hplace
  simp only [placeAfter] at hoffset
  exact List.append_inj h (by omega)

/-- A quotation mark is no blank. -/
theorem Symbol.not_isBlank_of_isQuote {sym : Symbol} (h : sym.isQuote = true) :
    Text.isBlank sym.char = false := by
  cases sym with
  | singleQuote | doubleQuote => decide
  | _ => cases h

/-- **A node begins at a blank only if the blank is no symbol, and begins a word that tells
the node.** -/
theorem Node.BeginsIn.of_blank {n : Node} {name : String} {before after : List Char} {c : Char}
    (h : n.BeginsIn name (before ++ c :: after)) (hplace : n.location = placeAfter name before)
    (hblank : Text.isBlank c = true) :
    Symbol.ofChar? c = none ∧ ∃ taken rest w, after = taken ++ rest ∧ Word.Spans w (c :: taken) ∧
      n.Tells w := by
  cases h with
  | @word before' taken after' w htext hplace' hspans htells =>
    rw [List.append_assoc] at htext
    obtain ⟨-, htaken⟩ := append_inj_of_placeAfter (hplace.symm.trans hplace') htext
    obtain ⟨b, rest, rfl, hb⟩ := hspans.begins
    obtain ⟨rfl, rfl⟩ := List.cons.inj htaken
    refine ⟨?_, rest, after', w, rfl, hspans, htells⟩
    cases hc : Symbol.ofChar? c with
    | none => rfl
    | some sym =>
      rw [hc] at hb
      rw [Scanner.eq_char_of_ofChar? hc, Symbol.not_isBlank_of_isQuote hb] at hblank
      cases hblank
  | symbol htext hplace' hopened =>
    obtain ⟨-, hafter⟩ := append_inj_of_placeAfter (hplace.symm.trans hplace') htext
    obtain ⟨rfl, rfl⟩ := List.cons.inj hafter
    cases hopened <;> exact absurd hblank (by decide)

end ScopeScript
