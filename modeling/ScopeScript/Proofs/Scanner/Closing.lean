import ScopeScript.Proofs.Scanner.Conservation
import ScopeScript.Proofs.Scanner.Failure

/-!
# Scopes are closed whole

A scope is closed in four places: by a closing parenthesis, by a closing brace, by the same
brace once more if the scope was the body of something, and by a semicolon that ends a header.
Closing refuses if no scope is open and if a word is left over. This file shows that **neither
can happen where something has been closed already**.

No word is ever left over, since every symbol that closes a scope has used it up before. And
there is always a scope to close, but for one case: a closing brace where only the script itself
is open. For the second closing this rests on how scopes are nested
(`ScopeScript.Nesting`): what has a body is a function or a type, and stands in another scope.
So a closing brace closes a body together with what it is the body of, or one scope by itself,
or it is refused and closes nothing (`ScopeScript.Scanner.ClosesWhole`).

`ScopeScript.Scanner.Refusal` lists what can go wrong at a symbol, with the conditions. The
message about a word that is left over does occur, but only at an opening brace behind a header
that has its name.
-/

namespace ScopeScript

/-- **The moves failed with a script error of this cause.** -/
def Scanned.FailsWith (r : Scanned) (fault : Fault) : Prop :=
  ∃ e, r.failure? = some (.script e) ∧ e.fault = fault

namespace Scanner

variable {s s' : Scanner} {p : Nat} {e : Failure} {sym : Symbol} {c : Char}

/-! ### Closing a scope -/

theorem Sound.atRoot_iff (hs : s.Sound) : s.atRoot ↔ s.cursorKind = .global := by
  have hroot := hs.laid.orphan_iff s.cursor hs.isOpen.lt_size
  rw [atRoot, Option.isNone_iff_eq_none, hroot, ← hs.laid.global_iff, hs.kind?_eq,
    Option.some.injEq]

theorem Sound.exists_parent (hs : s.Sound) (hk : s.cursorKind ≠ .global) :
    ∃ p, s.tree.parent? s.cursor = some p := by
  rw [← Option.ne_none_iff_exists']
  intro hnone
  exact hk (hs.atRoot_iff.mp (Option.isNone_iff_eq_none.mpr hnone))

theorem exists_popScope (hp : s.tree.parent? s.cursor = some p)
    (hw : s.word.isPending = false) : ∃ s', s.popScope = .ok s' := by
  rw [popScope, hp]
  simp [hw]

/-- **A scope other than the script itself can be closed once the word is used up.** -/
theorem Sound.exists_popScope (hs : s.Sound) (hk : s.cursorKind ≠ .global)
    (hw : s.word.isPending = false) : ∃ s', s.popScope = .ok s' := by
  obtain ⟨p, hp⟩ := hs.exists_parent hk
  exact Scanner.exists_popScope hp hw

/-- The open scopes tell the kind of the innermost one. -/
theorem Sound.cursorKind_congr (hs : s.Sound) (hs' : s'.Sound) (h : s'.scopes = s.scopes) :
    s'.cursorKind = s.cursorKind := by
  obtain ⟨ks, hks⟩ := hs.scopes_eq
  obtain ⟨ks', hks'⟩ := hs'.scopes_eq
  rw [hks, hks'] at h
  exact (List.cons.inj h).1

theorem isPending_flushIfPending (s : Scanner) : s.flushIfPending.word.isPending = false := by
  rw [flushIfPending]
  split
  · rw [show s.flushWord.word = {} from word_note _ _]
    rfl
  · rename_i hw
    exact eq_false_of_ne_true hw

/-- A word that becomes a leaf leaves what there is in its place. -/
theorem Sound.parent?_flushIfPending (hs : s.Sound) {i : Nat} (hi : i < s.tree.size) :
    s.flushIfPending.tree.parent? i = s.tree.parent? i := by
  rw [flushIfPending]
  split
  · rw [tree_flushWord_eq hs, Tree.parent?_sprout hs.isOpen.lt_size, if_neg (by omega)]
  · rfl

theorem Sound.kind?_flushIfPending (hs : s.Sound) {i : Nat} (hi : i < s.tree.size) :
    s.flushIfPending.tree.kind? i = s.tree.kind? i := by
  rw [flushIfPending]
  split
  · rw [tree_flushWord_eq hs, Tree.kind?_sprout_of_lt hs.isOpen.lt_size _ hi]
  · rfl

/-! ### What can go wrong at a symbol -/

/-- **What a symbol can fail with, and when.** -/
inductive Refusal (s : Scanner) : Symbol → Failure → Prop
  /-- The symbol has no meaning here. -/
  | unexpected (sym : Symbol) (place : Location) :
      Refusal s sym (.script { fault := .unexpected sym, location := some place })
  /-- A body begins behind a header that has its name and another word. -/
  | unprocessed (place : Location) (hk : s.cursorKind = .function)
      (hname : s.cursorName.isSome) (hw : s.word.isPending) :
      Refusal s .openBrace (.script { fault := .unprocessed, location := some place })
  /-- A scope ends where only the script itself is open. -/
  | noActiveScope (place : Location) (hroot : s.atRoot) :
      Refusal s .closeBrace (.script { fault := .noActiveScope, location := some place })
  /-- A header ends that cannot become a call. -/
  | nameless (h : s.IsHeader) : Refusal s .semicolon nameless

theorem refusal_openParen (h : s.openParen.failure? = some e) : s.Refusal .openParen e := by
  rw [openParen] at h
  split at h
  · dsimp only at h
    split at h
    · cases h
      exact .unexpected _ _
    · cases h
  · dsimp only at h
    split at h
    · cases h
      exact .unexpected _ _
    · cases h

/-- **The end of a list or call that is open is never refused.** -/
theorem exists_closeParen (hs : s.Sound)
    (hk : s.cursorKind = .functionParams ∨ s.cursorKind = .call) :
    ∃ s', s.closeParen = .ok s' := by
  have hpop : ∀ {y : Scanner}, y.Sound → y.scopes = s.scopes → y.word.isPending = false →
      ∃ s', y.popScope = .ok s' := by
    intro y hy hscopes hw
    refine hy.exists_popScope ?_ hw
    rw [hs.cursorKind_congr hy hscopes]
    rcases hk with hk | hk <;> rw [hk] <;> decide
  rw [closeParen]
  rcases hk with hk | hk <;> rw [hk] <;> dsimp only <;> split
  · exact hpop (hs.reach s.reach_addParameter) hs.scopes_addParameter rfl
  · rename_i hw
    exact hpop hs rfl (eq_false_of_ne_true hw)
  · refine hpop (hs.reach s.reach_addArgument) hs.scopes_addArgument ?_
    rw [word_addArgument]
    rfl
  · rename_i hw
    exact hpop hs rfl (eq_false_of_ne_true hw)

theorem refusal_closeParen (hs : s.Sound) (h : s.closeParen.failure? = some e) :
    s.Refusal .closeParen e := by
  by_cases hk : s.cursorKind = .functionParams ∨ s.cursorKind = .call
  · obtain ⟨s', hs'⟩ := exists_closeParen hs hk
    rw [hs'] at h
    cases h
  · obtain ⟨hlist, hcall⟩ := not_or.mp hk
    rw [closeParen] at h
    split at h
    · exact absurd ‹_› hlist
    · exact absurd ‹_› hcall
    · cases h
      exact .unexpected _ _

theorem refusal_comma (h : s.comma.failure? = some e) : s.Refusal .comma e := by
  rw [comma] at h
  split at h
  · split at h
    · cases h
    · cases h
      exact .unexpected _ _
  · cases h
  · cases h
    exact .unexpected _ _

theorem refusal_openBrace (h : s.openBrace.failure? = some e) : s.Refusal .openBrace e := by
  rw [openBrace] at h
  split at h
  · rename_i hk
    split at h
    · rename_i hword
      obtain ⟨hw, hname⟩ := Bool.and_eq_true_iff.mp hword
      cases h
      exact .unprocessed _ hk hname hw
    · cases h
  · split at h <;> cases h

/-- **A header that can become a call is closed as well.** -/
theorem refusal_semicolon (hs : s.Sound) (h : s.semicolon.failure? = some e) :
    s.Refusal .semicolon e := by
  by_cases hlist : s.cursorKind = .call ∨ s.cursorKind = .functionParams
  · rw [semicolon_of_list hlist] at h
    cases h
    exact .unexpected _ _
  · obtain ⟨hcall, hparams⟩ := not_or.mp hlist
    by_cases hh : s.IsHeader
    · rw [semicolon_of_header hh] at h
      set y := s.nameHeader.flushIfPending
      have hy : y.Sound := hs.nameHeader.reach s.nameHeader.reach_flushIfPending
      have hyh : y.IsHeader := hh.nameHeader.flushIfPending
      rcases hy.hoist_outcome hyh with ⟨z, hhoist, -⟩ | ⟨z, hhoist, -⟩
      · obtain ⟨hcursor, hhoists⟩ := hoists_of_ok hyh.1 hhoist
        obtain ⟨p, hp⟩ := hy.exists_parent (by rw [hyh.1]; decide)
        -- the header stands where it stood, and its word has been used up
        have hparent : z.tree.parent? z.cursor = some p := by
          rw [hcursor, hhoists.parent?, if_neg (hy.laid.not_mem_listed (Nat.le_refl _)), hp]
        have hword : z.word.isPending = false := by
          rw [word_hoistParameters hhoist]
          exact s.nameHeader.isPending_flushIfPending
        obtain ⟨w, hw⟩ := exists_popScope
          (s := z.note ("reclassify: " ++ z.cursorName.getD "None" ++ " -> Call"))
          (by rw [tree_note, cursor_note, hparent]) (by rw [word_note, hword])
        rw [retire, hhoist, Scanned.andThen, hw] at h
        cases h
      · rw [retire, hhoist] at h
        cases h
        exact .nameless hh
    · rw [semicolon_of_not_header hcall hparams hh] at h
      cases h

/-! ### Closing braces -/

/-- **The open scope is the body** of a function or of a type. -/
def InBody (s : Scanner) : Prop :=
  ∃ owner kind, s.tree.parent? s.cursor = some owner ∧ s.tree.kind? owner = some kind ∧
    (s.cursorKind = .functionImpl ∧ kind = .function ∨ s.cursorKind = .none ∧ kind.isType)

/-- **A closing brace closes a scope whole, or nothing.** -/
inductive ClosesWhole (s : Scanner) : Scanned → Prop
  /-- A scope that is no body is closed by itself. -/
  | scope {s' : Scanner} (hbody : ¬s.InBody) (h : s.tree.parent? s.cursor = some s'.cursor) :
      ClosesWhole s (.ok s')
  /-- A body is closed together with what it is the body of. -/
  | body {s' : Scanner} {owner : Nat} (hbody : s.InBody)
      (howner : s.tree.parent? s.cursor = some owner)
      (h : s.tree.parent? owner = some s'.cursor) : ClosesWhole s (.ok s')
  /-- The open scope is the script itself, or in parentheses, and stays open. -/
  | refused {s' : Scanner} {e : Failure}
      (hwhy : s.atRoot ∨ s.cursorKind = .call ∨ s.cursorKind = .functionParams)
      (h : s'.cursor = s.cursor) : ClosesWhole s (.failed s' e)

/-- What a brace closes first, and what is open then. -/
theorem Nested.popScope_flushed (hs : s.Nested) (h : s.flushIfPending.popScope = .ok s') :
    s'.Sound ∧ s.tree.parent? s.cursor = some s'.cursor ∧
      s.tree.kind? s'.cursor = some s'.cursorKind ∧
      s.tree.parent? s'.cursor = s'.tree.parent? s'.cursor ∧
      (s.cursorKind = .functionImpl → s'.cursorKind = .function) := by
  have hflush := hs.reach s.reach_flushIfPending
  have hs' := hflush.popScope h
  have hparent : s.tree.parent? s.cursor = some s'.cursor := by
    rw [← hs.parent?_flushIfPending hs.isOpen.lt_size, ← s.cursor_flushIfPending]
    exact parent?_of_popScope h
  have hlt : s'.cursor < s.tree.size :=
    (hs.laid.parent_lt _ _ hparent).trans hs.isOpen.lt_size
  refine ⟨hs', hparent, ?_, ?_, fun hk => ?_⟩
  · rw [← hs.kind?_flushIfPending hlt, ← tree_popScope h, hs'.kind?_eq]
  · rw [← hs.parent?_flushIfPending hlt, tree_popScope h]
  · have hscopes := hflush.scopes_popScope h
    obtain ⟨ks, hks⟩ := hs'.scopes_eq
    have hnesting := hs.nesting
    rw [← hs.scopes_flushIfPending, hscopes, hs.cursorKind_flushIfPending, hk, hks] at hnesting
    exact hnesting.tail_of_body

theorem Nested.inBody_iff (hs : s.Nested) (h : s.flushIfPending.popScope = .ok s') :
    s.InBody ↔ s.cursorKind = .functionImpl ∨ s.cursorKind = .none ∧ s'.cursorKind.isType := by
  obtain ⟨-, hparent, hkind, -, hbody⟩ := hs.popScope_flushed h
  constructor
  · rintro ⟨owner, kind, howner, hk, hcases⟩
    obtain rfl := Option.some.inj (hparent.symm.trans howner)
    obtain rfl := Option.some.inj (hkind.symm.trans hk)
    exact hcases.imp And.left id
  · rintro (hk | hk)
    · exact ⟨s'.cursor, s'.cursorKind, hparent, hkind, Or.inl ⟨hk, hbody hk⟩⟩
    · exact ⟨s'.cursor, s'.cursorKind, hparent, hkind, Or.inr hk⟩

/-- Once a scope is closed, a brace closes another one if the first was its body. -/
theorem closeBrace_of_popScope (hlist : ¬(s.cursorKind = .call ∨ s.cursorKind = .functionParams))
    (h : s.flushIfPending.popScope = .ok s') :
    s.closeBrace =
      Scanned.andThen
        (if s.cursorKind = .functionImpl ∨ s.cursorKind = .none ∧ s'.cursorKind.isType then
          s'.popScope else .ok s')
        fun s => .ok s.endStatement := by
  have hparent : ((((s.flushIfPending.tree.parent? s.flushIfPending.cursor).bind
      s.flushIfPending.tree.kind?).map NodeKind.isType).getD false) = s'.cursorKind.isType := by
    rw [parent?_of_popScope h, Option.bind_some, cursorKind, tree_popScope h]
    cases s.flushIfPending.tree.kind? s'.cursor <;> rfl
  rw [closeBrace, if_neg (by simpa using hlist)]
  dsimp only
  rw [h, hparent]
  simp [Scanned.andThen]

/-- **What has a body can be closed as well.** -/
theorem Nested.exists_closeBrace (hs : s.Nested) (hk : s.cursorKind ≠ .global)
    (hlist : ¬(s.cursorKind = .call ∨ s.cursorKind = .functionParams)) :
    ∃ s', s.closeBrace = .ok s' := by
  have hflush := hs.reach s.reach_flushIfPending
  obtain ⟨s₁, hpop⟩ := hflush.exists_popScope (hs.cursorKind_flushIfPending.trans_ne hk)
    s.isPending_flushIfPending
  obtain ⟨hs₁, -, -, -, hfunction⟩ := hs.popScope_flushed hpop
  rw [closeBrace_of_popScope hlist hpop]
  split
  · rename_i hbody
    have hinner : s₁.cursorKind ≠ .global := by
      rcases hbody with hk | ⟨-, htype⟩
      · rw [hfunction hk]
        decide
      · intro hglobal
        rw [hglobal] at htype
        cases htype
    obtain ⟨s₂, hpop'⟩ := hs₁.exists_popScope hinner (by rw [word_popScope hpop]; rfl)
    rw [hpop']
    exact ⟨_, rfl⟩
  · exact ⟨_, rfl⟩

/-- **A closing brace closes a body together with what it is the body of**, and any other scope
by itself. -/
theorem Nested.closesWhole_of_ok (hs : s.Nested) (h : s.closeBrace = .ok s') :
    s.ClosesWhole (.ok s') := by
  obtain ⟨-, -, s₁, s₂, hpop, rfl, hcases⟩ := closeBrace_ok h
  obtain ⟨-, hparent, -, hup, -⟩ := hs.popScope_flushed hpop
  have hbody := hs.inBody_iff hpop
  rcases hcases with ⟨hk, hpop'⟩ | ⟨himpl, hnone, rfl⟩
  · have hclosed := hup.trans (parent?_of_popScope hpop')
    exact .body (hbody.mpr hk) hparent hclosed
  · exact .scope (mt hbody.mp (not_or.mpr ⟨himpl, hnone⟩)) hparent

/-- **A closing brace is refused in parentheses and where only the script itself is open**, and
then nothing is closed. -/
theorem Nested.closeBrace_cases (hs : s.Nested) :
    ((s.cursorKind = .call ∨ s.cursorKind = .functionParams) ∧
        s.closeBrace = s.fail (.unexpected .closeBrace) s.location) ∨
      (s.atRoot ∧
        s.closeBrace = s.flushIfPending.fail .noActiveScope s.flushIfPending.location) ∨
      ∃ s', s.closeBrace = .ok s' := by
  by_cases hlist : s.cursorKind = .call ∨ s.cursorKind = .functionParams
  · refine Or.inl ⟨hlist, ?_⟩
    rw [closeBrace]
    simp [hlist]
  · by_cases hk : s.cursorKind = .global
    · have hroot := hs.atRoot_iff.mpr hk
      have hparent : s.flushIfPending.tree.parent? s.flushIfPending.cursor = none := by
        rw [cursor_flushIfPending, hs.parent?_flushIfPending hs.isOpen.lt_size]
        exact Option.isNone_iff_eq_none.mp hroot
      have hpop : s.flushIfPending.popScope
          = s.flushIfPending.fail .noActiveScope s.flushIfPending.location := by
        rw [popScope, hparent]
      refine Or.inr (Or.inl ⟨hroot, ?_⟩)
      rw [closeBrace]
      simp [hlist, hpop, Scanned.andThen, fail]
    · exact Or.inr (Or.inr (hs.exists_closeBrace hk hlist))

theorem Nested.closesWhole (hs : s.Nested) : s.ClosesWhole s.closeBrace := by
  rcases hs.closeBrace_cases with ⟨hlist, hr⟩ | ⟨hroot, hr⟩ | ⟨s', hr⟩
  · rw [hr]
    exact .refused (Or.inr hlist) rfl
  · rw [hr]
    exact .refused (Or.inl hroot) s.cursor_flushIfPending
  · rw [hr]
    exact hs.closesWhole_of_ok hr

theorem refusal_closeBrace (hs : s.Nested) (h : s.closeBrace.failure? = some e) :
    s.Refusal .closeBrace e := by
  rcases hs.closeBrace_cases with ⟨-, hr⟩ | ⟨hroot, hr⟩ | ⟨s', hr⟩
  · rw [hr] at h
    cases h
    exact .unexpected _ _
  · rw [hr] at h
    cases h
    exact .noActiveScope _ hroot
  · rw [hr] at h
    cases h

/-! ### Symbols and characters -/

/-- **A symbol fails as listed and in no other way.** -/
theorem refusal_of_symbol (hs : s.Nested) (h : (s.symbol sym).failure? = some e) :
    s.Refusal sym e := by
  cases sym with
  | openParen => exact refusal_openParen h
  | closeParen => exact refusal_closeParen hs.toSound h
  | openBrace => exact refusal_openBrace h
  | closeBrace => exact refusal_closeBrace hs h
  | comma => exact refusal_comma h
  | semicolon => exact refusal_semicolon hs.toSound h
  | openBracket | closeBracket | tab | space | singleQuote | doubleQuote | newline => cases h

theorem scan_of_symbol (hq : s.quote = none) (hc : Symbol.ofChar? c = some sym) :
    s.scan c = s.takeKeyword.symbol sym := by
  rw [scan, hq, hc]

theorem scan_openBrace (hq : s.quote = none) : s.scan '{' = s.takeKeyword.openBrace := by
  have hc : Symbol.ofChar? '{' = some .openBrace := rfl
  exact scan_of_symbol hq hc

theorem scan_closeBrace (hq : s.quote = none) : s.scan '}' = s.takeKeyword.closeBrace := by
  have hc : Symbol.ofChar? '}' = some .closeBrace := rfl
  exact scan_of_symbol hq hc

/-- A character that fails is a symbol outside quotes. -/
theorem scan_failure (h : (s.scan c).failure? = some e) :
    s.quote = none ∧ ∃ sym, c = sym.char ∧ (s.takeKeyword.symbol sym).failure? = some e := by
  cases hq : s.quote with
  | some q =>
    rw [scan, hq] at h
    dsimp only at h
    split at h <;> cases h
  | none =>
    cases hc : Symbol.ofChar? c with
    | none =>
      rw [scan, hq, hc] at h
      cases h
    | some sym =>
      rw [scan_of_symbol hq hc] at h
      exact ⟨rfl, sym, eq_char_of_ofChar? hc, h⟩

/-- **A word is left over only before the body of a header that has its name.** -/
theorem Nested.failsWith_unprocessed_iff (hs : s.Nested) :
    (s.scan c).FailsWith .unprocessed ↔
      s.quote = none ∧ c = '{' ∧ s.takeKeyword.cursorKind = .function ∧
        s.takeKeyword.cursorName.isSome ∧ s.takeKeyword.word.isPending := by
  constructor
  · rintro ⟨e, he, hfault⟩
    obtain ⟨hq, sym, rfl, hsym⟩ := scan_failure he
    cases refusal_of_symbol hs.takeKeyword hsym with
    | unexpected => cases hfault
    | unprocessed _ hk hname hw => exact ⟨hq, rfl, hk, hname, hw⟩
    | noActiveScope => cases hfault
  · rintro ⟨hq, rfl, hk, hname, hw⟩
    refine ⟨{ fault := .unprocessed, location := some s.takeKeyword.wordLocation }, ?_, rfl⟩
    rw [scan_openBrace hq, openBrace, if_pos hk,
      if_pos (Bool.and_eq_true_iff.mpr ⟨hw, hname⟩)]
    rfl

/-- **There is no scope to close only where a brace closes and the script itself is open.** -/
theorem Nested.failsWith_noActiveScope_iff (hs : s.Nested) :
    (s.scan c).FailsWith .noActiveScope ↔
      s.quote = none ∧ c = '}' ∧ s.takeKeyword.atRoot := by
  constructor
  · rintro ⟨e, he, hfault⟩
    obtain ⟨hq, sym, rfl, hsym⟩ := scan_failure he
    cases refusal_of_symbol hs.takeKeyword hsym with
    | unexpected => cases hfault
    | unprocessed => cases hfault
    | noActiveScope _ hroot => exact ⟨hq, rfl, hroot⟩
  · rintro ⟨hq, rfl, hroot⟩
    have hkey := hs.takeKeyword
    have hglobal := hkey.atRoot_iff.mp hroot
    rw [Scanned.FailsWith, scan_closeBrace hq]
    rcases hkey.closeBrace_cases with ⟨hlist, -⟩ | ⟨-, hr⟩ | ⟨s', hr⟩
    · rw [hglobal] at hlist
      simp at hlist
    · rw [hr]
      exact ⟨_, rfl, rfl⟩
    · have hparent := Option.isNone_iff_eq_none.mp hroot
      cases hkey.closesWhole_of_ok hr with
      | scope _ h => rw [hparent] at h; cases h
      | body _ h _ => rw [hparent] at h; cases h

/-- The end of a script fails over a quote or a scope that is still open. -/
theorem not_failsWith_finish (s : Scanner) :
    ¬s.finish.FailsWith .unprocessed ∧ ¬s.finish.FailsWith .noActiveScope := by
  have hcases : ∀ e, s.finish.failure? = some (.script e) →
      e.fault = .unterminated ∨ ∃ kind, e.fault = .unclosed kind := by
    intro e he
    rw [finish] at he
    split at he
    · cases he
      exact Or.inl rfl
    · dsimp only at he
      split at he
      · cases he
      · cases he
        exact Or.inr ⟨_, rfl⟩
  refine ⟨?_, ?_⟩ <;> rintro ⟨e, he, hfault⟩ <;> rcases hcases e he with h | ⟨kind, h⟩ <;>
    rw [hfault] at h <;> cases h

/-- **Scopes are closed whole at every moment of a parse.** Whatever has been read of a source,
the next character fails over a word that is left only if it is a brace that opens a body behind
a header with a name and another word, and over a missing scope only if it is a closing brace
where the script itself is open. Any other closing brace outside quotes closes a body together
with what it is the body of, or one scope by itself, or nothing. And the end of the source fails
in neither of these ways. -/
theorem scopes_close_whole (s : Scanner) (name : String) (read : List Char) {s' : Scanner}
    (h : (s.start name).feed read = .ok s') :
    (∀ c, (s'.scan c).FailsWith .unprocessed ↔
        s'.quote = none ∧ c = '{' ∧ s'.takeKeyword.cursorKind = .function ∧
          s'.takeKeyword.cursorName.isSome ∧ s'.takeKeyword.word.isPending) ∧
      (∀ c, (s'.scan c).FailsWith .noActiveScope ↔
        s'.quote = none ∧ c = '}' ∧ s'.takeKeyword.atRoot) ∧
      (s'.quote = none → s'.takeKeyword.ClosesWhole (s'.scan '}')) ∧
      ¬s'.finish.FailsWith .unprocessed ∧ ¬s'.finish.FailsWith .noActiveScope := by
  have hs' := ((s.nested_start name).feed h).1
  refine ⟨fun c => hs'.failsWith_unprocessed_iff, fun c => hs'.failsWith_noActiveScope_iff,
    fun hq => ?_, s'.not_failsWith_finish⟩
  rw [scan_closeBrace hq]
  exact hs'.takeKeyword.closesWhole

/-- A type that is closed with its body, a brace too many, and a header with a name and another
word. -/
theorem scopes_close_whole_type :
    (∃ s' s'', (({} : Scanner).start "test").feed "class A\x7bx".toList = .ok s' ∧
        s'.takeKeyword.ClosesWhole (s'.scan '}') ∧ s'.scan '}' = .ok s'' ∧
        s'.cursor = 2 ∧ s''.cursor = 0) ∧
      (∃ s', (({} : Scanner).start "test").feed "a".toList = .ok s' ∧
        (s'.scan '}').FailsWith .noActiveScope) ∧
      ∃ s', (({} : Scanner).start "test").feed "function f(a) g".toList = .ok s' ∧
        (s'.scan '{').FailsWith .unprocessed := by
  obtain ⟨s', hs', hquote, hcursor, s'', hs'', hcursor''⟩ : ∃ s',
      (({} : Scanner).start "test").feed "class A\x7bx".toList = .ok s' ∧ s'.quote = none ∧
        s'.cursor = 2 ∧ ∃ s'', s'.scan '}' = .ok s'' ∧ s''.cursor = 0 :=
    ⟨_, rfl, rfl, rfl, _, rfl, rfl⟩
  obtain ⟨t, ht, htquote, htroot⟩ : ∃ t,
      (({} : Scanner).start "test").feed "a".toList = .ok t ∧ t.quote = none ∧
        t.takeKeyword.atRoot := ⟨_, rfl, rfl, rfl⟩
  obtain ⟨u, hu, huquote, hukind, huname, huword⟩ : ∃ u,
      (({} : Scanner).start "test").feed "function f(a) g".toList = .ok u ∧ u.quote = none ∧
        u.takeKeyword.cursorKind = .function ∧ u.takeKeyword.cursorName.isSome ∧
        u.takeKeyword.word.isPending := ⟨_, rfl, rfl, rfl, rfl, rfl⟩
  refine ⟨⟨s', s'', hs', ?_, hs'', hcursor, hcursor''⟩, ⟨t, ht, ?_⟩, u, hu, ?_⟩
  · exact (scopes_close_whole {} "test" _ hs').2.2.1 hquote
  · exact ((scopes_close_whole {} "test" _ ht).2.1 '}').mpr ⟨htquote, rfl, htroot⟩
  · exact ((scopes_close_whole {} "test" _ hu).1 '{').mpr ⟨huquote, rfl, hukind, huname, huword⟩

end Scanner

end ScopeScript
