import Mathlib.Data.List.TakeWhile
import ScopeScript.Proofs.Scanner.Moves
import ScopeScript.Proofs.Scanner.Statement

/-!
# Where a scanner stands between two symbols

For what comes next it matters which tree has been built, which scope is open,
and which word has been collected; places, keywords and the trace do not. This
is a **standing** (`ScopeScript.Standing`), and a text **leads** from one to
others (`ScopeScript.Standing.Leads`) if a scanner that stands there reads it
without a failure. Texts lead on one after the other
(`ScopeScript.Standing.Leads.andThen`), so that what a statement does can be put
together from what its symbols do.
-/

namespace ScopeScript

/-- Tree, open scope and collected word. -/
structure Standing where
  /-- What has been built. -/
  tree : Tree
  /-- Index of the node whose scope is open. -/
  cursor : Nat
  /-- The word that has been collected, if any. -/
  word : Option Atom := none

/-- The same place with another word. -/
def Standing.holding (x : Standing) (word : Option Atom) : Standing := { x with word }

/-- A scope of some label has just been opened. -/
def Standing.opened (x : Standing) (l : Label) (place : Location) : Standing :=
  { tree := x.tree.sprout x.cursor (l.toNode place (some x.cursor) []), cursor := x.tree.size }

/-- The word is a given one, or there is none. -/
def Word.Is (w : Word) : Option Atom → Prop
  | none => w.text = "" ∧ w.quoted = false
  | some a => w.text = a.text ∧ w.quoted = a.quoted

/-- The scanner stands between two symbols. -/
structure Scanner.StandsIn (s : Scanner) (x : Standing) : Prop where
  /-- The tree is that of the standing. -/
  tree : s.tree = x.tree
  /-- The open scope is that of the standing. -/
  cursor : s.cursor = x.cursor
  /-- No quote is open. -/
  quote : s.quote = none
  /-- The word is that of the standing. -/
  word : s.word.Is x.word

/-- **A text leads from a standing to one of some sort.** -/
def Standing.Leads (x : Standing) (text : String) (P : Standing → Prop) : Prop :=
  ∀ s : Scanner, s.StandsIn x → ∃ s' y, s.feed text.toList = .ok s' ∧ s'.StandsIn y ∧ P y

/-! ### Words -/

namespace BareWord

/-- A text all of whose characters are blank is empty without them. -/
theorem strip_of_isAllBlank {text : String} (h : Text.isAllBlank text) : Text.strip text = "" := by
  have hdrop : text.toList.dropWhile Text.isBlank = [] := by
    rw [List.dropWhile_eq_nil_iff]
    exact List.all_eq_true.mp h
  rw [Text.strip, Text.trimBoth, hdrop]
  rfl

theorem not_isAllBlank (w : BareWord) : Text.isAllBlank w.text = false := by
  by_contra h
  have hstrip := strip_of_isAllBlank (eq_true_of_ne_false h)
  exact w.nonempty (w.trimmed.symm.trans hstrip)

theorem ofText?_text (w : BareWord) : Keyword.ofText? w.text = none := by
  rw [Keyword.ofText?, List.find?_eq_none]
  intro k _
  rw [w.trimmed, beq_iff_eq]
  exact w.free k

end BareWord

namespace Word

variable {w : Word} {a : Atom} {o : Option Atom}

theorem Is.isPending_some (h : w.Is (some a)) : w.isPending = true := by
  obtain ⟨htext, hquoted⟩ := h
  rw [isPending, htext, hquoted]
  cases a with
  | word b => simp [Atom.text, b.not_isAllBlank]
  | quotation q => rfl

theorem Is.isPending_none (h : w.Is none) : w.isPending = false := by
  obtain ⟨htext, hquoted⟩ := h
  rw [isPending, htext, hquoted]
  rfl

theorem Is.not_isPending (h : w.Is none) : ¬w.isPending = true := by
  rw [h.isPending_none]
  exact Bool.false_ne_true

theorem Is.literal_some (h : w.Is (some a)) : w.literal = a.text := by
  obtain ⟨htext, hquoted⟩ := h
  rw [literal, htext, hquoted]
  cases a with
  | word b => exact b.trimmed
  | quotation q => rfl

theorem Is.fill (h : w.Is (some a)) (kind : NodeKind) (place : Location) (p : Option Nat) :
    w.fill (Label.toNode { kind } place p []) = (a.label kind).toNode place p [] := by
  rw [Word.fill, h.literal_some, h.2]
  rfl

end Word

namespace Scanner

variable {s s' : Scanner} {x : Standing}

theorem StandsIn.word_is {o : Option Atom} (h : s.StandsIn x) (hx : x.word = o) : s.word.Is o :=
  hx ▸ h.word

/-- Words and quoted texts are no keywords. -/
theorem StandsIn.takeKeyword (h : s.StandsIn x) : s.takeKeyword = s := by
  unfold Scanner.takeKeyword
  cases hx : x.word with
  | none =>
    have hword := h.word_is hx
    rw [if_neg (by simp [hword.2]), hword.1]
    rfl
  | some a =>
    have hword := h.word_is hx
    cases a with
    | word b =>
      rw [if_neg (by simp [hword.2, Atom.quoted]), hword.1]
      dsimp only [Atom.text]
      rw [b.ofText?_text]
    | quotation q => rw [if_pos (by simp [hword.2, Atom.quoted])]

theorem StandsIn.advance (h : s.StandsIn x) : s.advance.StandsIn x :=
  ⟨h.tree, h.cursor, h.quote, h.word⟩

theorem StandsIn.cursorKind {k : NodeKind} (h : s.StandsIn x)
    (hk : x.tree.kind? x.cursor = some k) : s.cursorKind = k := by
  rw [Scanner.cursorKind, h.tree, h.cursor, hk, Option.getD_some]

@[simp] theorem tree_pushScope (s : Scanner) (kind : NodeKind) (place : Location) :
    (s.pushScope kind place).tree
      = s.tree.sprout s.cursor { kind, location := place, parent := some s.cursor } :=
  tree_note _ _

@[simp] theorem cursor_pushScope (s : Scanner) (kind : NodeKind) (place : Location) :
    (s.pushScope kind place).cursor = s.tree.size :=
  cursor_note _ _

@[simp] theorem quote_pushScope (s : Scanner) (kind : NodeKind) (place : Location) :
    (s.pushScope kind place).quote = s.quote :=
  quote_note _ _

@[simp] theorem word_pushScope (s : Scanner) (kind : NodeKind) (place : Location) :
    (s.pushScope kind place).word = s.word :=
  word_note _ _

theorem feed_append (s : Scanner) (xs ys : List Char) :
    s.feed (xs ++ ys) = (s.feed xs).andThen fun s' => s'.feed ys := by
  induction xs generalizing s with
  | nil => rfl
  | cons c cs ih =>
    rw [List.cons_append, feed, feed]
    cases s.scan c with
    | ok s₁ => exact ih s₁.advance
    | failed s₁ e => rfl

/-- **Characters without a structural meaning are collected.** -/
theorem feed_plain {cs : List Char} (hq : s.quote = none)
    (hcs : ∀ c ∈ cs, Symbol.ofChar? c = none) :
    ∃ s', s.feed cs = .ok s' ∧ s'.tree = s.tree ∧ s'.cursor = s.cursor ∧ s'.quote = none ∧
      s'.word.text = s.word.text ++ String.ofList cs ∧ s'.word.quoted = s.word.quoted := by
  induction cs generalizing s with
  | nil => exact ⟨s, rfl, rfl, rfl, hq, by simp, rfl⟩
  | cons c cs ih =>
    have hscan : s.scan c = .ok (s.append c) := by
      simp [scan, hq, hcs c List.mem_cons_self]
    obtain ⟨s', hfeed, htree, hcursor, hquote, htext, hquoted⟩ :=
      ih (s := (s.append c).advance) hq fun d hd => hcs d (List.mem_cons_of_mem c hd)
    refine ⟨s', feed_cons_ok.mpr ⟨_, hscan, hfeed⟩, htree, hcursor, hquote, ?_, hquoted⟩
    rw [htext]
    simp [advance, append, beginWord, ← String.toList_inj]

/-- **Between quotes everything is collected** but the closing quote. -/
theorem feed_quoted {q : Char} {cs : List Char} (hq : s.quote = some q) (hcs : q ∉ cs)
    (hw : s.word.quoted = true) :
    ∃ s', s.feed (cs ++ [q]) = .ok s' ∧ s'.tree = s.tree ∧ s'.cursor = s.cursor ∧
      s'.quote = none ∧ s'.word.text = s.word.text ++ String.ofList cs ∧
      s'.word.quoted = true := by
  induction cs generalizing s with
  | nil =>
    have hscan : s.scan q = .ok { s with quote := none } := by simp [scan, hq]
    refine ⟨_, feed_cons_ok.mpr ⟨_, hscan, rfl⟩, rfl, rfl, rfl, ?_, hw⟩
    simp [advance]
  | cons c cs ih =>
    obtain ⟨hc, hcs⟩ := not_or.mp (mt List.mem_cons.mpr hcs)
    have hscan : s.scan c
        = .ok { s.append c with word := { (s.append c).word with quoted := true } } := by
      simp [scan, hq, Ne.symm hc]
    obtain ⟨s', hfeed, htree, hcursor, hquote, htext, hquoted⟩ :=
      ih (s := Scanner.advance
        { s.append c with word := { (s.append c).word with quoted := true } }) hq hcs rfl
    refine ⟨s', feed_cons_ok.mpr ⟨_, hscan, hfeed⟩, htree, hcursor, hquote, ?_, hquoted⟩
    rw [htext]
    simp [advance, append, beginWord, ← String.toList_inj]

end Scanner

/-! ### Texts one after the other -/

namespace Standing

open Scanner

variable {x : Standing} {P Q : Standing → Prop} {text text' : String}

theorem kind?_opened (h : x.cursor < x.tree.size) (l : Label) (place : Location) :
    (x.opened l place).tree.kind? (x.opened l place).cursor = some l.kind :=
  Tree.kind?_of_node? (Tree.node?_sprout_new h _)

theorem parent?_opened (h : x.cursor < x.tree.size) (l : Label) (place : Location) :
    (x.opened l place).tree.parent? (x.opened l place).cursor = some x.cursor :=
  Tree.parent?_of_node? (Tree.node?_sprout_new h _)

theorem kind?_opened_of_lt {j : Nat} (h : x.cursor < x.tree.size) (hj : j < x.tree.size)
    (l : Label) (place : Location) : (x.opened l place).tree.kind? j = x.tree.kind? j :=
  Tree.kind?_sprout_of_lt h _ hj

theorem parent?_opened_of_lt {j : Nat} (h : x.cursor < x.tree.size) (hj : j < x.tree.size)
    (l : Label) (place : Location) : (x.opened l place).tree.parent? j = x.tree.parent? j := by
  rw [opened, Tree.parent?_sprout h, if_neg (by omega)]

theorem lt_size_opened {j : Nat} (hj : j < x.tree.size) (l : Label) (place : Location) :
    j < (x.opened l place).tree.size := by
  rw [opened, Tree.size_sprout]
  omega

theorem Leads.andThen (h : x.Leads text P) (h' : ∀ y, P y → y.Leads text' Q) :
    x.Leads (text ++ text') Q := by
  intro s hs
  obtain ⟨s₁, y, hfeed, hs₁, hy⟩ := h s hs
  obtain ⟨s₂, z, hfeed', hs₂, hz⟩ := h' y hy s₁ hs₁
  refine ⟨s₂, z, ?_, hs₂, hz⟩
  rw [String.toList_append, feed_append, hfeed]
  exact hfeed'

theorem Leads.imp (h : x.Leads text P) (hPQ : ∀ y, P y → Q y) : x.Leads text Q := by
  intro s hs
  obtain ⟨s', y, hfeed, hs', hy⟩ := h s hs
  exact ⟨s', y, hfeed, hs', hPQ y hy⟩

/-- A text of no characters leads nowhere else. -/
theorem leads_empty (h : P x) : x.Leads "" P := fun s hs => ⟨s, x, rfl, hs, h⟩

theorem leads_symbol (sym : Symbol)
    (h : ∀ s : Scanner, s.StandsIn x → ∃ s' y, s.symbol sym = .ok s' ∧ s'.StandsIn y ∧ P y) :
    x.Leads (String.singleton sym.char) P := by
  intro s hs
  obtain ⟨s', y, hsym, hs', hy⟩ := h s hs
  refine ⟨s'.advance, y, ?_, hs'.advance, hy⟩
  have hchar : Symbol.ofChar? sym.char = some sym := by cases sym <;> rfl
  have hscan : s.scan sym.char = .ok s' := by
    simp [scan, hs.quote, hchar, hs.takeKeyword, hsym]
  rw [String.toList_singleton]
  exact feed_cons_ok.mpr ⟨s', hscan, rfl⟩

/-- **Where no word has been collected, a word or a quoted text is.** -/
theorem leads_atom (a : Atom) (h : x.word = none) :
    x.Leads a.render (· = x.holding (some a)) := by
  intro s hs
  have hword := hs.word_is h
  cases a with
  | word w =>
    obtain ⟨s', hfeed, htree, hcursor, hquote, htext, hquoted⟩ := feed_plain hs.quote w.plain
    refine ⟨s', x.holding (some (.word w)), hfeed,
      ⟨htree.trans hs.tree, hcursor.trans hs.cursor, hquote, ?_, hquoted.trans hword.2⟩, rfl⟩
    rw [htext, hword.1, String.ofList_toList, String.empty_append]
    rfl
  | quotation q =>
    -- the opening mark is a symbol, and begins the word
    obtain ⟨s₁, hopen, hopened⟩ : ∃ s₁, s.scan q.mark.char = .ok s₁ ∧
        s₁ = { s with word := { s.beginWord with quoted := true }, quote := some q.mark.char } := by
      refine ⟨_, ?_, rfl⟩
      have hquotes := q.quotes
      rw [scan, hs.quote]
      cases hmark : q.mark with
      | singleQuote => exact congrArg (Scanner.symbol · .singleQuote) hs.takeKeyword
      | doubleQuote => exact congrArg (Scanner.symbol · .doubleQuote) hs.takeKeyword
      | _ =>
        rw [hmark] at hquotes
        cases hquotes
    subst hopened
    obtain ⟨s', hfeed, htree, hcursor, hquote, htext, hquoted⟩ :=
      feed_quoted (s := Scanner.advance
        { s with word := { s.beginWord with quoted := true }, quote := some q.mark.char })
        rfl q.unmarked rfl
    refine ⟨s', x.holding (some (.quotation q)), ?_,
      ⟨htree.trans hs.tree, hcursor.trans hs.cursor, hquote, ?_, hquoted⟩, rfl⟩
    · simp only [Atom.render, String.toList_append, String.toList_singleton, List.append_assoc]
      exact feed_cons_ok.mpr ⟨_, hopen, hfeed⟩
    · rw [htext, String.ofList_toList]
      simp [advance, beginWord, hword.1, Atom.text]

/-- **A keyword that opens a scope does so at the blank behind it.** -/
theorem leads_keyword {k : Keyword} {kind : NodeKind} (hk : scopeOf? k = some kind)
    (h : x.word = none) :
    x.Leads (k.text ++ " ") fun y => ∃ place, y = x.opened { kind } place := by
  intro s hs
  have hword := hs.word_is h
  have hplain : ∀ c ∈ k.text.toList, Symbol.ofChar? c = none :=
    plain_of_all (by cases k <;> rfl)
  obtain ⟨s₁, hfeed, htree, hcursor, hquote, htext, hquoted⟩ := feed_plain hs.quote hplain
  have htext₁ : s₁.word.text = k.text := by
    rw [htext, hword.1, String.ofList_toList, String.empty_append]
  have hkey : Keyword.ofText? s₁.word.text = some k := by
    rw [htext₁]
    cases k <;> decide
  -- the blank itself does nothing, but the word before it is looked at
  have hscan : s₁.scan ' ' = .ok s₁.takeKeyword := by
    rw [scan, hquote]
    rfl
  have htake : s₁.takeKeyword.StandsIn (x.opened { kind } s₁.wordLocation) := by
    unfold Scanner.takeKeyword
    rw [if_neg (by simp [hquoted, hword.2]), hkey]
    dsimp only
    rw [hk]
    refine ⟨?_, ?_, ?_, ?_⟩
    · simp [clearWord, htree, hcursor, hs.tree, hs.cursor, opened, Label.toNode]
    · simp [clearWord, htree, hs.tree, opened]
    · simp [clearWord, hquote]
    · simp [clearWord, Word.Is, opened]
  refine ⟨s₁.takeKeyword.advance, _, ?_, htake.advance, s₁.wordLocation, rfl⟩
  rw [String.toList_append, feed_append, hfeed]
  exact feed_cons_ok.mpr ⟨_, hscan, rfl⟩

end Standing

/-! ### What symbols are made of -/

namespace Scanner

variable {s : Scanner} {x : Standing} {a : Atom} {p : Nat}

/-- Naming the open scope after the word. -/
theorem StandsIn.nameCursorIfPending (h : s.StandsIn x) (hx : x.word = some a) :
    s.nameCursorIfPending.StandsIn
      { tree := x.tree.modify x.cursor fun n => { n with name := some a.text }
        cursor := x.cursor } := by
  have hword := h.word_is hx
  rw [Scanner.nameCursorIfPending, if_pos hword.isPending_some]
  refine ⟨?_, h.cursor, h.quote, rfl, rfl⟩
  rw [nameCursor, hword.literal_some]
  exact congrArg₂ (fun t i => Tree.modify t i _) h.tree h.cursor

theorem StandsIn.nameCursorIfPending_none (h : s.StandsIn x) (hx : x.word = none) :
    s.nameCursorIfPending = s := by
  have hword := h.word_is hx
  rw [Scanner.nameCursorIfPending, if_neg hword.not_isPending]

/-- Opening a scope. -/
theorem StandsIn.pushScope (h : s.StandsIn x) (kind : NodeKind) (place : Location) :
    (s.pushScope kind place).StandsIn ((x.opened { kind } place).holding x.word) := by
  refine ⟨?_, ?_, ?_, ?_⟩
  · rw [tree_pushScope, h.tree, h.cursor]
    rfl
  · rw [cursor_pushScope, h.tree]
    rfl
  · rw [quote_pushScope, h.quote]
  · rw [word_pushScope]
    exact h.word

/-- Opening a scope of some name, which uses the word up. -/
theorem StandsIn.pushNamed (h : s.StandsIn x) (hx : x.cursor < x.tree.size) (kind : NodeKind)
    (place : Location) (name : Option String) :
    ((s.pushScope kind place).modifyNode (s.pushScope kind place).cursor fun n =>
      { n with name }).clearWord.StandsIn (x.opened { kind, name } place) := by
  have hpush := h.pushScope kind place
  refine ⟨?_, hpush.cursor, hpush.quote, rfl, rfl⟩
  dsimp only [clearWord, modifyNode]
  rw [hpush.tree, hpush.cursor]
  exact Tree.modify_sprout hx _ _

/-- Naming a scope that has just been opened. -/
theorem StandsIn.nameOpened {kind : NodeKind} {place : Location} (hx : x.cursor < x.tree.size)
    (h : s.StandsIn ((x.opened { kind } place).holding (some a))) :
    s.nameCursorIfPending.StandsIn (x.opened { kind, name := some a.text } place) := by
  have hname := h.nameCursorIfPending rfl
  dsimp only [Standing.holding, Standing.opened] at hname
  rw [Tree.modify_sprout hx] at hname
  exact hname

/-- Closing a scope. -/
theorem StandsIn.popScope (h : s.StandsIn x) (hx : x.word = none)
    (hp : x.tree.parent? x.cursor = some p) :
    ∃ s', s.popScope = .ok s' ∧ s'.StandsIn { x with cursor := p } := by
  have hword := h.word_is hx
  rw [Scanner.popScope, h.tree, h.cursor, hp]
  dsimp only
  rw [if_neg hword.not_isPending]
  refine ⟨_, rfl, ?_, ?_, ?_, ?_⟩
  · simp [clearWord, h.tree]
  · simp
  · simp [clearWord, h.quote]
  · rw [hx]
    simp [clearWord, Word.Is]

theorem StandsIn.flushIfPending_none (h : s.StandsIn x) (hx : x.word = none) :
    s.flushIfPending = s := by
  have hword := h.word_is hx
  rw [Scanner.flushIfPending, if_neg hword.not_isPending]

/-- Making the word a leaf of the open scope. -/
theorem StandsIn.flushIfPending (h : s.StandsIn x) (hp : x.cursor < x.tree.size) :
    ∃ t, s.flushIfPending.StandsIn { tree := t, cursor := x.cursor } ∧
      x.tree.Grown x.cursor (x.word.toList.map (·.outline .none)) t := by
  cases hx : x.word with
  | none =>
    rw [h.flushIfPending_none hx]
    exact ⟨x.tree, ⟨h.tree, h.cursor, h.quote, h.word_is hx⟩, Tree.Grown.refl _ _⟩
  | some a =>
    have hword := h.word_is hx
    rw [Scanner.flushIfPending, if_pos hword.isPending_some]
    refine ⟨s.flushWord.tree, ⟨rfl, s.cursor_flushWord.trans h.cursor, ?_, ?_⟩, ?_⟩
    · simp [flushWord, fillLiteral, clearWord, modifyNode, addChild, h.quote]
    · simp [flushWord, fillLiteral, clearWord, Word.Is]
    · rw [tree_flushWord, h.tree, h.cursor, Tree.addChild_eq_sprout, Tree.modify_sprout hp]
      exact hword.fill .none s.wordLocation (some x.cursor) ▸ Tree.Grown.leaf hp _ _

/-- The argument that a comma makes. -/
def argumentOf : Option Atom → Outline
  | none => Outline.blank
  | some a => a.outline .functionParam

/-- Making the word an argument, whether there is one or not. -/
theorem StandsIn.addArgument (h : s.StandsIn x) (hp : x.cursor < x.tree.size) :
    ∃ t, s.addArgument.StandsIn { tree := t, cursor := x.cursor } ∧
      x.tree.Grown x.cursor [argumentOf x.word] t := by
  refine ⟨s.addArgument.tree, ⟨rfl, ?_, ?_, ?_⟩, ?_⟩
  all_goals rw [Scanner.addArgument]; dsimp only [addChild]
  · rw [apply_ite Scanner.cursor]
    exact (ite_self _).trans h.cursor
  · rw [apply_ite Scanner.quote]
    exact (ite_self _).trans h.quote
  · rw [apply_ite Scanner.word]
    exact (ite_self (c := s.word.isPending = true) ({} : Word)) ▸ ⟨rfl, rfl⟩
  · cases hx : x.word with
    | none =>
      rw [if_neg (h.word_is hx).not_isPending]
      dsimp only [clearWord]
      rw [h.tree, h.cursor, Tree.addChild_eq_sprout]
      exact Tree.Grown.leaf hp { kind := .functionParam } s.wordLocation
    | some a =>
      have hword := h.word_is hx
      rw [if_pos hword.isPending_some]
      dsimp only [fillLiteral, clearWord, modifyNode]
      rw [h.tree, h.cursor, Tree.addChild_eq_sprout]
      dsimp only
      have hfill := Tree.modify_sprout hp
        (Label.toNode { kind := .functionParam } s.wordLocation (some x.cursor) []) s.word.fill
      rw [hword.fill] at hfill
      exact hfill ▸ Tree.Grown.leaf hp (a.label .functionParam) s.wordLocation

/-- Making the word a parameter. -/
theorem StandsIn.addParameter (h : s.StandsIn x) (hx : x.word = some a)
    (hp : x.cursor < x.tree.size) :
    ∃ t, s.addParameter.StandsIn { tree := t, cursor := x.cursor } ∧
      x.tree.Grown x.cursor [a.parameter] t := by
  have hword := h.word_is hx
  refine ⟨s.addParameter.tree, ⟨rfl, h.cursor, h.quote, rfl, rfl⟩, ?_⟩
  have hdeclare : s.word.declare
        (Label.toNode { kind := .functionParam } s.wordLocation (some x.cursor) [])
      = Label.toNode { kind := .functionParam, name := some a.text, quoted := a.quoted }
          s.wordLocation (some x.cursor) [] := by
    rw [Word.declare, hword.literal_some, hword.2]
    rfl
  have htree : s.addParameter.tree
      = (s.tree.addChild s.cursor .functionParam s.wordLocation).1.modify s.tree.size
          s.word.declare := rfl
  rw [htree, h.tree, h.cursor, Tree.addChild_eq_sprout]
  have hmodify := Tree.modify_sprout hp
    (Label.toNode { kind := .functionParam } s.wordLocation (some x.cursor) []) s.word.declare
  rw [hdeclare] at hmodify
  exact hmodify ▸ Tree.Grown.leaf hp _ s.wordLocation

end Scanner

end ScopeScript
