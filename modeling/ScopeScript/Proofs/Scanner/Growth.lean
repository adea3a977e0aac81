import ScopeScript.Proofs.Scanner.Conservation

/-!
# What a character adds to the tree

A character that is read without a failure changes the tree in a few ways only: the
open scope may get its name, a node may be put below it, and a header that ends without
a body becomes a call. This file says **which nodes are put below which scopes**
(`ScopeScript.Node.Suits`), and with which labels, once for all characters
(`ScopeScript.Scanner.builds_of_scan`). What holds of all nodes of a tree is then shown
by going through these cases.

Where something is said of a source rather than of a tree, it is said of one of its
characters: *somewhere in the source a character is met that does this*
(`ScopeScript.Scanner.Meets`).
-/

namespace ScopeScript

/-- Whether a symbol opens a scope. -/
def Symbol.opens : Symbol → Bool
  | openParen | openBrace => true
  | _ => false

/-- **An argument of a call**: its text is its value, and its name unless it was quoted.
An argument that was left out has no text. -/
def Node.IsArgument (n : Node) : Prop :=
  (n.value = none ∧ n.quoted = false) ∨
    ∃ text, n.value = some (.string text) ∧ n.name = if n.quoted then none else some text

/-- **A node that is put below a scope of kind `k`**, and whether it is a scope
itself. -/
inductive Node.Suits (n : Node) (k : NodeKind) : (opens : Bool) → Prop
  /-- A parameter, which has a name. -/
  | parameter (hk : k = .functionParams) (hn : n.kind = .functionParam) (hname : n.name.isSome) :
      Suits n k false
  /-- An argument. -/
  | argument (hk : k = .call) (hn : n.kind = .functionParam) (h : n.IsArgument) : Suits n k false
  /-- A word that stands alone. -/
  | word (hcall : k ≠ .call) (hlist : k ≠ .functionParams) (hn : n.kind = .none) :
      Suits n k false
  /-- A call, which has a name. -/
  | call (hk : k ≠ .function) (hn : n.kind = .call) (hname : ∃ text ≠ "", n.name = some text)
      (hquoted : n.quoted = false) : Suits n k true
  /-- The parameter list of a function. -/
  | list (hk : k = .function) (hn : n.kind = .functionParams) : Suits n k true
  /-- The body of a function. -/
  | body (hk : k = .function) (hn : n.kind = .functionImpl) : Suits n k true
  /-- A block, or the body of a type. -/
  | block (hk : k ≠ .function) (hn : n.kind = .none) : Suits n k true
  /-- A declaration. -/
  | declaration (hn : n.kind.isDeclaration) (hquoted : n.quoted = false) : Suits n k true

theorem Node.Suits.ne_functionParam {n : Node} {k : NodeKind} (h : n.Suits k true) :
    n.kind ≠ .functionParam := by
  intro hn
  cases h with
  | call _ hk | list _ hk | body _ hk | block _ hk =>
    rw [hn] at hk
    cases hk
  | declaration hk =>
    rw [hn] at hk
    cases hk

theorem Node.Suits.ne_functionParams {n : Node} {k : NodeKind} (h : n.Suits k false) :
    n.kind ≠ .functionParams := by
  intro hn
  cases h with
  | parameter _ hk | argument _ hk | word _ _ hk =>
    rw [hn] at hk
    cases hk

theorem Word.isArgument_fill (w : Word) {n : Node} (hname : n.name = none) :
    (w.fill n).IsArgument := by
  refine Or.inr ⟨w.literal, rfl, ?_⟩
  rw [fill, hname]

/-- The tree once a declaration may have been given its name. -/
inductive Tree.Names (t : Tree) (c : Nat) : Tree → Prop
  /-- It was not. -/
  | still : Names t c t
  /-- It was. -/
  | named (w : Word) (hk : ∀ k, t.kind? c = some k → k.isDeclaration) :
      Names t c (t.modify c w.entitle)

theorem Tree.Names.sameLinks {t t' : Tree} {c : Nat} (h : t.Names c t') : SameLinks t t' := by
  cases h with
  | still => exact SameLinks.refl t
  | named w hk => exact SameLinks.modify w.keepsLinks_entitle t c

/-- A node of an ordinary kind fits anywhere. -/
theorem Tree.fits_of_kind {t : Tree} {c : Nat} {n : Node} (hparent : n.parent = some c)
    (hchildren : n.children = []) (hglobal : n.kind ≠ .global)
    (hlist : n.kind ≠ .functionParams) : t.Fits c n :=
  ⟨hparent, hchildren, hglobal, fun hk => absurd hk hlist⟩

namespace Scanner

variable {s s' : Scanner} {c : Char} {cs : List Char} {opens : Bool} {t' : Tree}

/-- **What is added to the tree**: the open scope may get its name, and then one node may
be put below it, which is a scope if one is opened. -/
inductive Adds (s : Scanner) : (opens : Bool) → Tree → Prop
  /-- No node is put there. -/
  | nothing {t₁ : Tree} (hname : s.tree.Names s.cursor t₁) : Adds s false t₁
  /-- A node is put there. -/
  | child {t₁ : Tree} {n : Node} {opens : Bool} (hname : s.tree.Names s.cursor t₁)
      (hfits : t₁.Fits s.cursor n) (hsuits : n.Suits s.cursorKind opens) :
      Adds s opens (t₁.sprout s.cursor n)

/-- Only the tree and the cursor count. -/
theorem Adds.congr (h : s.Adds opens t') (ht : s.tree = s'.tree) (hc : s.cursor = s'.cursor) :
    s'.Adds opens t' := by
  have hk : s.cursorKind = s'.cursorKind := by rw [cursorKind, cursorKind, ht, hc]
  cases h with
  | nothing hname =>
    rw [ht, hc] at hname
    exact .nothing hname
  | child hname hfits hsuits =>
    rw [hk] at hsuits
    rw [ht, hc] at hname
    rw [hc] at hfits ⊢
    exact .child hname hfits hsuits

/-! ### Naming the open scope, and leaves -/

theorem names_nameCursorIfPending (hk : s.cursorKind.isDeclaration) :
    s.tree.Names s.cursor s.nameCursorIfPending.tree := by
  rw [nameCursorIfPending]
  split
  · exact .named s.word fun k hkind => cursorKind_of_kind? hkind ▸ hk
  · exact .still

theorem adds_flushIfPending (hs : s.Sound) (hcall : s.cursorKind ≠ .call)
    (hlist : s.cursorKind ≠ .functionParams) : s.Adds false s.flushIfPending.tree := by
  rw [flushIfPending]
  split
  · rw [tree_flushWord_eq hs]
    exact .child .still (Tree.fits_of_kind rfl rfl (by simp [Word.fill]) (by simp [Word.fill]))
      (.word hcall hlist rfl)
  · exact .nothing .still

theorem adds_addParameter (hs : s.Sound) (hk : s.cursorKind = .functionParams) :
    s.Adds false s.addParameter.tree := by
  rw [tree_addParameter hs]
  exact .child .still
    (Tree.fits_of_kind rfl rfl (by simp [Word.declare]) (by simp [Word.declare]))
    (.parameter hk rfl rfl)

theorem adds_addArgument (hs : s.Sound) (hk : s.cursorKind = .call) :
    s.Adds false s.addArgument.tree := by
  rw [tree_addArgument hs]
  split
  · exact .child .still (Tree.fits_of_kind rfl rfl (by simp [Word.fill]) (by simp [Word.fill]))
      (.argument hk rfl (s.word.isArgument_fill rfl))
  · exact .child .still (Tree.fits_of_kind rfl rfl (by simp) (by simp))
      (.argument hk rfl (Or.inl ⟨rfl, rfl⟩))

/-! ### Scopes -/

/-- The word is a keyword that opens a scope. -/
def declares (s : Scanner) : Bool :=
  !s.word.quoted && ((Keyword.ofText? s.word.text).bind scopeOf?).isSome

theorem isDeclaration_of_scopeOf? {k : Keyword} {kind : NodeKind} (h : scopeOf? k = some kind) :
    kind.isDeclaration := by
  cases k <;> cases h <;> rfl

theorem takeKeyword_of_declares (h : s.declares = true) :
    ∃ k kind line, scopeOf? k = some kind ∧
      s.takeKeyword = ((s.clearWord.note line).pushScope kind s.wordLocation).addKeyword k := by
  rw [declares, Bool.and_eq_true, Bool.not_eq_true'] at h
  obtain ⟨kind, hkind⟩ := Option.isSome_iff_exists.mp h.2
  obtain ⟨k, hk, hscope⟩ := Option.bind_eq_some_iff.mp hkind
  refine ⟨k, kind, "keyword: " ++ k.text, hscope, ?_⟩
  rw [takeKeyword, if_neg (by simp [h.1])]
  simp only [hk, hscope]
  rfl

/-- A word that opens no scope leaves tree and cursor alone. -/
theorem takeKeyword_of_not_declares (h : s.declares = false) :
    s.takeKeyword.tree = s.tree ∧ s.takeKeyword.cursor = s.cursor := by
  rcases s.takeKeyword_cases with htake | ⟨k, line, hquoted, hk, ⟨-, htake⟩ | ⟨kind, hkind, -⟩⟩
  · rw [htake]
    exact ⟨rfl, rfl⟩
  · rw [htake]
    exact ⟨tree_note _ _, cursor_note _ _⟩
  · simp [declares, hquoted, hk, hkind] at h

/-- **A keyword opens the scope of a declaration**, or adds nothing. -/
theorem adds_takeKeyword (s : Scanner) : s.Adds s.declares s.takeKeyword.tree := by
  cases h : s.declares with
  | false =>
    rw [(takeKeyword_of_not_declares h).1]
    exact .nothing .still
  | true =>
    obtain ⟨k, kind, line, hscope, htake⟩ := takeKeyword_of_declares h
    have hkind := isDeclaration_of_scopeOf? hscope
    have htree : s.takeKeyword.tree
        = s.tree.sprout s.cursor
            { kind, location := s.wordLocation, parent := some s.cursor } := by
      rw [htake]
      refine (tree_pushScope _ _ _).trans ?_
      rw [tree_note, cursor_note]
      rfl
    rw [htree]
    refine .child .still (Tree.fits_of_kind rfl rfl ?_ ?_) (.declaration hkind rfl)
    · rintro rfl
      cases hkind
    · rintro rfl
      cases hkind

theorem adds_openParen (hs : s.Sound) (h : s.openParen = .ok s') : s.Adds true s'.tree := by
  have hopen := h
  rcases openParen_ok h with ⟨hk, rfl⟩ | ⟨hk, hname, rfl⟩
  · have hcan : s.nameCursorIfPending.CanOpen .functionParams := by
      refine ⟨by rw [cursorKind_nameCursorIfPending, hk], ?_⟩
      rw [cursor_nameCursorIfPending, s.sameLinks_nameCursorIfPending.childOfKind?]
      exact openParen_unlisted hopen hk
    have hfits := fits_scope hcan s.nameCursorIfPending.location
    rw [cursor_nameCursorIfPending] at hfits
    rw [tree_pushScope, cursor_nameCursorIfPending]
    exact .child (names_nameCursorIfPending (by rw [hk]; rfl)) hfits (.list hk rfl)
  · rw [tree_pushNamed hs]
    refine .child .still (Tree.fits_of_kind rfl rfl (by simp) (by simp)) (.call hk rfl ?_ rfl)
    refine ⟨_, ?_, rfl⟩
    rintro hempty
    rw [hempty] at hname
    cases hname

theorem adds_openBrace (hs : s.Sound) (h : s.openBrace = .ok s') : s.Adds true s'.tree := by
  rcases openBrace_ok h with ⟨hk, rfl⟩ | ⟨htype, rfl⟩ | ⟨hk, -, rfl⟩
  · have htree : (s.nameCursorIfPending.pushScope .functionImpl
        s.nameCursorIfPending.location).endStatement.tree
        = (s.nameCursorIfPending.pushScope .functionImpl s.nameCursorIfPending.location).tree :=
      rfl
    rw [htree, tree_pushScope, cursor_nameCursorIfPending]
    exact .child (names_nameCursorIfPending (by rw [hk]; rfl))
      (Tree.fits_of_kind rfl rfl (by simp) (by simp)) (.body hk rfl)
  · rw [tree_pushScope, cursor_nameCursorIfPending]
    obtain ⟨hne, hdeclares⟩ : s.cursorKind ≠ .function ∧ s.cursorKind.isDeclaration := by
      generalize s.cursorKind = k at htype
      cases k <;> first | decide | cases htype
    exact .child (names_nameCursorIfPending hdeclares)
      (Tree.fits_of_kind rfl rfl (by simp) (by simp)) (.block hne rfl)
  · rw [tree_pushNamed hs]
    exact .child .still (Tree.fits_of_kind rfl rfl (by simp) (by simp)) (.block hk rfl)

/-! ### Symbols -/

theorem adds_closeParen (hs : s.Sound) (h : s.closeParen = .ok s') : s.Adds false s'.tree := by
  obtain ⟨s₁, hpop, hcases⟩ := closeParen_ok h
  rw [tree_popScope hpop]
  rcases hcases with ⟨hk, -, rfl⟩ | ⟨hk, -, rfl⟩ | ⟨-, -, rfl⟩
  · exact adds_addParameter hs hk
  · exact adds_addArgument hs hk
  · exact .nothing .still

theorem adds_comma (hs : s.Sound) (h : s.comma = .ok s') : s.Adds false s'.tree := by
  rcases comma_ok h with ⟨hk, -, rfl⟩ | ⟨hk, rfl⟩
  · exact adds_addParameter hs hk
  · exact adds_addArgument hs hk

theorem adds_closeBrace (hs : s.Sound) (h : s.closeBrace = .ok s') : s.Adds false s'.tree := by
  obtain ⟨hcall, hlist, s₁, s₂, hpop, rfl, hcases⟩ := closeBrace_ok h
  have htree : s₂.tree = s.flushIfPending.tree := by
    rcases hcases with ⟨-, hpop'⟩ | ⟨-, -, rfl⟩
    · rw [tree_popScope hpop', tree_popScope hpop]
    · exact tree_popScope hpop
  change s.Adds false s₂.tree
  rw [htree]
  exact adds_flushIfPending hs hcall hlist

/-- **A symbol adds to the tree**, unless it ends a header. -/
theorem adds_symbol {sym : Symbol} (hs : s.Sound) (h : s.symbol sym = .ok s')
    (hheader : ¬(sym = .semicolon ∧ s.IsHeader)) : s.Adds sym.opens s'.tree := by
  cases sym with
  | openParen => exact adds_openParen hs h
  | closeParen => exact adds_closeParen hs h
  | openBrace => exact adds_openBrace hs h
  | closeBrace => exact adds_closeBrace hs h
  | comma => exact adds_comma hs h
  | semicolon =>
    rcases semicolon_ok h with ⟨hyes, -⟩ | ⟨hcall, hlist, -, rfl⟩
    · exact absurd ⟨rfl, hyes⟩ hheader
    · exact adds_flushIfPending hs hcall hlist
  | openBracket | closeBracket | tab | space | singleQuote | doubleQuote | newline =>
    cases h
    exact .nothing .still

/-- The header that is open, named and with the last word below it, becomes a call. -/
structure Retires (s : Scanner) (t' : Tree) : Prop where
  /-- The open scope is a header. -/
  header : s.IsHeader
  /-- What is added to it before, and how it becomes a call. -/
  becomes : ∃ s₁ s₂ : Scanner, s.Adds false s₁.tree ∧ s₁.cursor = s.cursor ∧ s₁.Sound ∧
    s₁.IsHeader ∧ s₁.asCall.hoistParameters s₁.cursor = .ok s₂ ∧ t' = s₂.tree

theorem names_nameHeader (hk : s.cursorKind = .function) :
    s.tree.Names s.cursor s.nameHeader.tree := by
  rw [nameHeader]
  split
  · exact names_nameCursorIfPending (by rw [hk]; rfl)
  · exact .still

@[simp] theorem cursor_nameHeader (s : Scanner) : s.nameHeader.cursor = s.cursor := by
  rw [nameHeader]
  split
  · exact s.cursor_nameCursorIfPending
  · rfl

/-- The word before the semicolon is the name of the header, or is put below it. -/
theorem adds_flushHeader (hs : s.Sound) (hk : s.cursorKind = .function) :
    s.Adds false s.nameHeader.flushIfPending.tree := by
  have hname := names_nameHeader hk
  rw [flushIfPending]
  split
  · rw [tree_flushWord_eq hs.nameHeader, cursor_nameHeader]
    exact .child hname
      (Tree.fits_of_kind rfl rfl (by simp [Word.fill]) (by simp [Word.fill]))
      (.word (by simp [hk]) (by simp [hk]) rfl)
  · exact .nothing hname

theorem retires_semicolon (hs : s.Sound) (hheader : s.IsHeader) (h : s.semicolon = .ok s') :
    s.Retires s'.tree := by
  refine ⟨hheader, s.nameHeader.flushIfPending, ?_⟩
  rw [semicolon_of_header hheader] at h
  obtain ⟨s₁, s₂, line, hhoist, hpop, rfl⟩ := retire_ok h
  refine ⟨s₁, adds_flushHeader hs hheader.1, ?_,
    hs.nameHeader.reach s.nameHeader.reach_flushIfPending, hheader.nameHeader.flushIfPending,
    hhoist, ?_⟩
  · rw [cursor_flushIfPending, cursor_nameHeader]
  · exact (tree_popScope hpop).trans (tree_note _ _)

/-! ### Characters -/

/-- **What a character does to the tree.** -/
inductive Builds (s : Scanner) (c : Char) : Tree → Prop
  /-- It is collected, or ends a quotation. -/
  | text (hplain : s.quote.isSome ∨ Symbol.ofChar? c = none) : Builds s c s.tree
  /-- It is a symbol, which adds to the tree. -/
  | symbol {sym : Symbol} {t' : Tree} (hquote : s.quote = none) (hc : Symbol.ofChar? c = some sym)
      (hheader : ¬(sym = .semicolon ∧ s.takeKeyword.IsHeader))
      (hadds : s.takeKeyword.Adds sym.opens t') : Builds s c t'
  /-- It is a semicolon, and ends a header. -/
  | header {t' : Tree} (hquote : s.quote = none) (hc : c = ';')
      (hretires : s.takeKeyword.Retires t') : Builds s c t'

/-- **Nothing else is done to the tree where a character is read.** -/
theorem builds_of_scan (hs : s.Sound) (h : s.scan c = .ok s') : s.Builds c s'.tree := by
  have hkey := hs.reach s.reach_takeKeyword
  rw [scan] at h
  cases hquote : s.quote with
  | some q =>
    -- a quotation goes on or ends, and is not in the tree yet
    have htext := Builds.text (s := s) (c := c) (Or.inl (by rw [hquote]; rfl))
    rw [hquote] at h
    dsimp only at h
    split at h <;> cases h <;> exact htext
  | none =>
    rw [hquote] at h
    cases hc : Symbol.ofChar? c with
    | none =>
      rw [hc] at h
      cases h
      exact .text (Or.inr hc)
    | some sym =>
      rw [hc] at h
      by_cases hheader : sym = .semicolon ∧ s.takeKeyword.IsHeader
      · obtain ⟨rfl, hheader⟩ := hheader
        exact .header hquote (eq_char_of_ofChar? hc) (retires_semicolon hkey hheader h)
      · exact .symbol hquote hc hheader (adds_symbol hkey h hheader)

/-- A character that is collected, or ends a quotation, is no semicolon outside quotes. -/
theorem not_semicolon_of_text (hplain : s.quote.isSome ∨ Symbol.ofChar? c = none) :
    ¬(c = ';' ∧ s.quote = none) := by
  rintro ⟨rfl, hquote⟩
  rcases hplain with hsome | hnone
  · rw [hquote] at hsome
    cases hsome
  · cases hnone

/-- A symbol that ends no header is no semicolon where a header is open. -/
theorem not_header_of_symbol {sym : Symbol} (hc : Symbol.ofChar? c = some sym)
    (hheader : ¬(sym = .semicolon ∧ s.takeKeyword.IsHeader)) :
    ¬(c = ';' ∧ s.takeKeyword.IsHeader) := by
  rintro ⟨rfl, hyes⟩
  exact hheader ⟨(Option.some.inj hc).symm, hyes⟩

/-- The invariant goes on from a character to the next. -/
theorem Sound.scan (hs : s.Sound) (h : s.scan c = .ok s') : s'.advance.Sound := by
  have hfollows := s.scan_follows c
  rw [h] at hfollows
  exact (hs.reach hfollows).congr rfl rfl

theorem Sound.feed (hs : s.Sound) (h : s.feed cs = .ok s') : s'.Sound := by
  have hfollows := s.feed_follows cs
  rw [h] at hfollows
  exact hs.reach hfollows

/-! ### The end of a script -/

theorem isDeclaration_of_declares (hs : s.Sound) (h : s.declares = true) :
    s.takeKeyword.cursorKind.isDeclaration := by
  obtain ⟨k, kind, line, hscope, htake⟩ := takeKeyword_of_declares h
  have hclear : (s.clearWord.note line).Sound := hs.congr (tree_note _ _) (cursor_note _ _)
  have hkind : s.takeKeyword.tree.kind? s.takeKeyword.cursor = some kind := by
    rw [htake]
    change ((s.clearWord.note line).pushScope kind s.wordLocation).tree.kind?
      ((s.clearWord.note line).pushScope kind s.wordLocation).cursor = some kind
    rw [tree_pushScope, cursor_pushScope, Tree.kind?_sprout hclear.isOpen.lt_size, if_pos rfl]
  rw [cursorKind_of_kind? hkind]
  exact isDeclaration_of_scopeOf? hscope

/-- Where a script ends, no scope but the script itself is open. -/
theorem Sound.cursorKind_of_finish (hs : s.Sound) (h : s.finish = .ok s') :
    s.takeKeyword.cursorKind = .global := by
  obtain ⟨rfl, hroot⟩ := finish_ok h
  have hkey := hs.reach s.reach_takeKeyword
  have hend := hkey.reach s.takeKeyword.reach_flushIfPending
  have hzero := (hend.laid.orphan_iff _ hend.isOpen.lt_size).mp hroot
  rw [← hkey.cursorKind_flushIfPending]
  exact cursorKind_of_kind? ((hend.laid.global_iff _).mpr hzero)

/-- **At the end of a script the last word may be added**, and nothing else. -/
theorem adds_finish (hs : s.Sound) (h : s.finish = .ok s') : s.Adds false s'.tree := by
  have hglobal := hs.cursorKind_of_finish h
  have hkey := hs.reach s.reach_takeKeyword
  -- a keyword would open a scope, which nothing closes any more
  have hdeclares : s.declares = false := by
    refine eq_false_of_ne_true fun hyes => ?_
    have hkind := isDeclaration_of_declares hs hyes
    rw [hglobal] at hkind
    cases hkind
  obtain ⟨htree, hcursor⟩ := takeKeyword_of_not_declares hdeclares
  have hadds : s.takeKeyword.Adds false s'.tree := by
    rw [(finish_ok h).1]
    exact adds_flushIfPending hkey (by simp [hglobal]) (by simp [hglobal])
  exact hadds.congr htree hcursor

/-! ### What is added changes little -/

theorem Adds.isDetached (hs : s.Sound) (h : s.Adds opens t') (i : Nat) :
    t'.IsDetached i ↔ s.tree.IsDetached i := by
  cases h with
  | nothing hname => exact hname.sameLinks.isDetached i
  | child hname hfits _ =>
    have hlinks := hname.sameLinks
    rw [(hlinks.laid hs.laid).isDetached_sprout (hlinks.isOpen hs.isOpen) hfits]
    exact hlinks.isDetached i

/-- Where no scope is opened, every node keeps its parameter list. -/
theorem Adds.list (hs : s.Sound) (h : s.Adds false t') (i : Nat) :
    t'.childOfKind? i .functionParams = s.tree.childOfKind? i .functionParams := by
  cases h with
  | nothing hname => exact hname.sameLinks.childOfKind? i .functionParams
  | child hname hfits hsuits =>
    have hlinks := hname.sameLinks
    rw [Tree.childOfKind?_sprout (hlinks.isOpen hs.isOpen).lt_size hfits.children
      hsuits.ne_functionParams]
    exact hlinks.childOfKind? i .functionParams

/-! ### Somewhere in a text -/

/-- **Somewhere in a text a character is met** for which something holds of the scanner
that reads it. -/
def Meets (s : Scanner) (P : Scanner → Char → Prop) (cs : List Char) : Prop :=
  ∃ read c rest x, cs = read ++ c :: rest ∧ s.feed read = .ok x ∧ P x c

theorem not_meets_nil (s : Scanner) (P : Scanner → Char → Prop) : ¬s.Meets P [] := by
  rintro ⟨read, c, rest, x, hcs, -⟩
  simp at hcs

theorem meets_cons {P : Scanner → Char → Prop} (h : s.scan c = .ok s') :
    s.Meets P (c :: cs) ↔ P s c ∨ s'.advance.Meets P cs := by
  constructor
  · rintro ⟨read, d, rest, x, hcs, hread, hx⟩
    rcases read with - | ⟨b, read⟩
    · obtain ⟨rfl, rfl⟩ := List.cons.inj hcs
      cases hread
      exact Or.inl hx
    · obtain ⟨rfl, rfl⟩ := List.cons.inj hcs
      obtain ⟨s₁, hs₁, hread⟩ := feed_cons_ok.mp hread
      obtain rfl := Scanned.ok.inj (h.symm.trans hs₁)
      exact Or.inr ⟨read, d, rest, x, rfl, hread, hx⟩
  · rintro (hc | ⟨read, d, rest, x, rfl, hread, hx⟩)
    · exact ⟨[], c, cs, s, rfl, rfl, hc⟩
    · exact ⟨c :: read, d, rest, x, rfl, feed_cons_ok.mpr ⟨s', h, hread⟩, hx⟩

/-- **What a character does to the tree for good**, a text does to it just if one of its
characters does. -/
theorem iff_meets {I : Scanner → Prop} {P : Tree → Prop} {Q : Scanner → Char → Prop}
    (hstep : ∀ {s c s'}, I s → s.scan c = .ok s' →
      I s'.advance ∧ (P s'.tree ↔ P s.tree ∨ Q s c))
    (hs : I s) (h : s.feed cs = .ok s') : I s' ∧ (P s'.tree ↔ P s.tree ∨ s.Meets Q cs) := by
  induction cs generalizing s with
  | nil =>
    cases h
    exact ⟨hs, by simp [not_meets_nil]⟩
  | cons c cs ih =>
    obtain ⟨s₁, hc, h⟩ := feed_cons_ok.mp h
    obtain ⟨hs₁, hiff⟩ := hstep hs hc
    obtain ⟨hs', hrest⟩ := ih hs₁ h
    have htree : s₁.advance.tree = s₁.tree := rfl
    refine ⟨hs', ?_⟩
    rw [hrest, htree, hiff, meets_cons hc, or_assoc]

end Scanner

end ScopeScript
