import ScopeScript.Proofs.Scanner.Moves

/-!
# What a symbol has done where it is read

A symbol looks at the open scope and at the word, and either fails or makes one of
a few moves. This file says once for each symbol **what the moves were if it did
not fail**, and under which conditions each was made. What holds after a symbol is
then shown from these cases, and nowhere by going through the symbol again.
-/

namespace ScopeScript.Scanner

variable {s s' : Scanner}

/-! ### Opening and closing scopes -/

/-- Opens a scope of some name, which uses the word up. -/
def pushNamed (s : Scanner) (kind : NodeKind) (name : Option String) : Scanner :=
  ((s.pushScope kind s.wordLocation).modifyNode (s.pushScope kind s.wordLocation).cursor fun n =>
    { n with name }).clearWord

/-- The scanner once the word has named the header that is open, unless the header
has a name. -/
def nameHeader (s : Scanner) : Scanner :=
  if s.cursorName.isNone then s.nameCursorIfPending else s

/-- Makes the header that is open a call, and closes it. -/
def retire (s : Scanner) : Scanned :=
  (s.asCall.hoistParameters s.cursor).andThen fun s =>
    (s.note ("reclassify: " ++ s.cursorName.getD "None" ++ " -> Call")).popScope.andThen fun s =>
      .ok s.endStatement

/-- The keyword is one of those since the last statement ended. -/
def addKeyword (s : Scanner) (k : Keyword) : Scanner := { s with keywords := s.keywords ++ [k] }

theorem popScope_ok (h : s.popScope = .ok s') :
    ∃ parent line, s.tree.parent? s.cursor = some parent ∧ s.word.isPending = false ∧
      s' = { s.clearWord with cursor := parent }.note line := by
  rw [popScope] at h
  split at h
  · cases h
  · rename_i parent hparent
    split at h
    · cases h
    · rename_i hpending
      exact ⟨parent, _, hparent, eq_false_of_ne_true hpending, (Scanned.ok.inj h).symm⟩

theorem tree_popScope (h : s.popScope = .ok s') : s'.tree = s.tree := by
  obtain ⟨parent, line, -, -, rfl⟩ := popScope_ok h
  exact tree_note _ _

theorem parent?_of_popScope (h : s.popScope = .ok s') :
    s.tree.parent? s.cursor = some s'.cursor := by
  obtain ⟨parent, line, hparent, -, rfl⟩ := popScope_ok h
  rw [hparent, cursor_note]

/-- A keyword is used up, and opens a scope if it is one that does. -/
theorem takeKeyword_cases (s : Scanner) :
    s.takeKeyword = s ∨
      ∃ k line, s.word.quoted = false ∧ Keyword.ofText? s.word.text = some k ∧
        ((scopeOf? k = none ∧ s.takeKeyword = (s.clearWord.note line).addKeyword k) ∨
          ∃ kind, scopeOf? k = some kind ∧
            s.takeKeyword
              = ((s.clearWord.note line).pushScope kind s.wordLocation).addKeyword k) := by
  rw [takeKeyword]
  split
  · exact Or.inl rfl
  · rename_i hquoted
    split
    · exact Or.inl rfl
    · rename_i k hk
      refine Or.inr ⟨k, "keyword: " ++ k.text, eq_false_of_ne_true hquoted, hk, ?_⟩
      cases hkind : scopeOf? k with
      | none => exact Or.inl ⟨rfl, rfl⟩
      | some kind => exact Or.inr ⟨kind, rfl, rfl⟩

/-! ### Symbols -/

/-- The parameters of a function begin, or a call that the word names. -/
theorem openParen_ok (h : s.openParen = .ok s') :
    (s.cursorKind = .function ∧
        s' = s.nameCursorIfPending.pushScope .functionParams s.nameCursorIfPending.location) ∨
      (s.cursorKind ≠ .function ∧ (Text.strip s.word.literal).isEmpty = false ∧
        s' = s.pushNamed .call (some (Text.strip s.word.literal))) := by
  rw [openParen] at h
  split at h
  · rename_i hk
    dsimp only at h
    split at h
    · cases h
    · exact Or.inl ⟨hk, (Scanned.ok.inj h).symm⟩
  · rename_i hk
    dsimp only at h
    split at h
    · cases h
    · rename_i hname
      exact Or.inr ⟨hk, eq_false_of_ne_true hname, (Scanned.ok.inj h).symm⟩

/-- The word becomes the last parameter or argument, and the list is closed. -/
theorem closeParen_ok (h : s.closeParen = .ok s') :
    ∃ s₁, s₁.popScope = .ok s' ∧
      ((s.cursorKind = .functionParams ∧ s.word.isPending ∧ s₁ = s.addParameter) ∨
        (s.cursorKind = .call ∧ s.word.isPending ∧ s₁ = s.addArgument) ∨
        ((s.cursorKind = .functionParams ∨ s.cursorKind = .call) ∧ s.word.isPending = false ∧
          s₁ = s)) := by
  rw [closeParen] at h
  split at h
  · rename_i hk
    refine ⟨_, h, ?_⟩
    split
    · rename_i hw
      exact Or.inl ⟨hk, hw, rfl⟩
    · rename_i hw
      exact Or.inr (Or.inr ⟨Or.inl hk, eq_false_of_ne_true hw, rfl⟩)
  · rename_i hk
    refine ⟨_, h, ?_⟩
    split
    · rename_i hw
      exact Or.inr (Or.inl ⟨hk, hw, rfl⟩)
    · rename_i hw
      exact Or.inr (Or.inr ⟨Or.inr hk, eq_false_of_ne_true hw, rfl⟩)
  · cases h

/-- The word becomes a parameter, or an argument even if there is none. -/
theorem comma_ok (h : s.comma = .ok s') :
    (s.cursorKind = .functionParams ∧ s.word.isPending ∧ s' = s.addParameter) ∨
      (s.cursorKind = .call ∧ s' = s.addArgument) := by
  rw [comma] at h
  split at h
  · rename_i hk
    split at h
    · rename_i hw
      exact Or.inl ⟨hk, hw, (Scanned.ok.inj h).symm⟩
    · cases h
  · rename_i hk
    exact Or.inr ⟨hk, (Scanned.ok.inj h).symm⟩
  · cases h

/-- The body of a function, the body of a type or a block begins. -/
theorem openBrace_ok (h : s.openBrace = .ok s') :
    (s.cursorKind = .function ∧
        s' = (s.nameCursorIfPending.pushScope .functionImpl
          s.nameCursorIfPending.location).endStatement) ∨
      (s.cursorKind.isType ∧
        s' = s.nameCursorIfPending.pushScope .none s.nameCursorIfPending.location) ∨
      (s.cursorKind ≠ .function ∧ s.cursorKind.isType = false ∧
        s' = s.pushNamed .none (if s.word.isPending then some s.word.literal else none)) := by
  rw [openBrace] at h
  split at h
  · rename_i hk
    split at h
    · cases h
    · exact Or.inl ⟨hk, (Scanned.ok.inj h).symm⟩
  · rename_i hk
    split at h
    · rename_i htype
      exact Or.inr (Or.inl ⟨htype, (Scanned.ok.inj h).symm⟩)
    · rename_i htype
      exact Or.inr (Or.inr ⟨hk, eq_false_of_ne_true htype, (Scanned.ok.inj h).symm⟩)

/-- The word becomes a leaf, and the open scope is closed, with what it is the body
of. -/
theorem closeBrace_ok (h : s.closeBrace = .ok s') :
    s.cursorKind ≠ .call ∧ s.cursorKind ≠ .functionParams ∧
      ∃ s₁ s₂, s.flushIfPending.popScope = .ok s₁ ∧ s' = s₂.endStatement ∧
        (((s.cursorKind = .functionImpl ∨ s.cursorKind = .none ∧ s₁.cursorKind.isType) ∧
            s₁.popScope = .ok s₂) ∨
          (s.cursorKind ≠ .functionImpl ∧ ¬(s.cursorKind = .none ∧ s₁.cursorKind.isType) ∧
            s₂ = s₁)) := by
  rw [closeBrace] at h
  dsimp only at h
  split at h
  · cases h
  · rename_i hk
    obtain ⟨hcall, hlist⟩ : s.cursorKind ≠ .call ∧ s.cursorKind ≠ .functionParams := by
      simpa using hk
    obtain ⟨s₁, hpop, h⟩ := Scanned.andThen_ok.mp h
    obtain ⟨s₂, hbody, h⟩ := Scanned.andThen_ok.mp h
    refine ⟨hcall, hlist, s₁, s₂, hpop, (Scanned.ok.inj h).symm, ?_⟩
    -- the scope that is open now is the parent of the one that was
    have hparent : ((((s.flushIfPending.tree.parent? s.flushIfPending.cursor).bind
        s.flushIfPending.tree.kind?).map NodeKind.isType).getD false) = s₁.cursorKind.isType := by
      rw [parent?_of_popScope hpop, Option.bind_some, cursorKind, tree_popScope hpop]
      cases s.flushIfPending.tree.kind? s₁.cursor <;> rfl
    rw [hparent] at hbody
    split at hbody
    · rename_i hisBody
      exact Or.inl ⟨by simpa using hisBody, hbody⟩
    · rename_i hisBody
      obtain ⟨himpl, hnone⟩ : s.cursorKind ≠ .functionImpl ∧
          ¬(s.cursorKind = .none ∧ s₁.cursorKind.isType) := by simpa using hisBody
      exact Or.inr ⟨himpl, hnone, (Scanned.ok.inj hbody).symm⟩

theorem semicolon_of_list (h : s.cursorKind = .call ∨ s.cursorKind = .functionParams) :
    s.semicolon = s.fail (.unexpected .semicolon) s.location := by
  rw [semicolon, if_pos (by simpa using h)]

theorem semicolon_of_header (h : s.IsHeader) :
    s.semicolon = s.nameHeader.flushIfPending.retire := by
  have hbool : (decide (s.cursorKind = .function) &&
      (s.tree.childOfKind? s.cursor .functionImpl).isNone) = true := by
    simpa [IsHeader] using h
  rw [semicolon, if_neg (by simp [h.1])]
  dsimp only
  rw [hbool, if_pos rfl, Bool.true_and]
  rfl

theorem semicolon_of_not_header (hcall : s.cursorKind ≠ .call)
    (hlist : s.cursorKind ≠ .functionParams) (h : ¬s.IsHeader) :
    s.semicolon = .ok s.flushIfPending.endStatement := by
  have hbool : (decide (s.cursorKind = .function) &&
      (s.tree.childOfKind? s.cursor .functionImpl).isNone) = false := by
    rw [Bool.eq_false_iff]
    simpa [IsHeader] using h
  rw [semicolon, if_neg (by simp [hcall, hlist])]
  dsimp only
  rw [hbool, Bool.false_and, if_neg Bool.false_ne_true, if_neg Bool.false_ne_true]

/-- A header without a body becomes a call and is closed; otherwise the word
becomes a leaf. -/
theorem semicolon_ok (h : s.semicolon = .ok s') :
    (s.IsHeader ∧ s.nameHeader.flushIfPending.retire = .ok s') ∨
      (s.cursorKind ≠ .call ∧ s.cursorKind ≠ .functionParams ∧ ¬s.IsHeader ∧
        s' = s.flushIfPending.endStatement) := by
  by_cases hlist : s.cursorKind = .call ∨ s.cursorKind = .functionParams
  · rw [semicolon_of_list hlist] at h
    cases h
  · obtain ⟨hcall, hlist⟩ := not_or.mp hlist
    by_cases hheader : s.IsHeader
    · rw [semicolon_of_header hheader] at h
      exact Or.inl ⟨hheader, h⟩
    · rw [semicolon_of_not_header hcall hlist hheader] at h
      exact Or.inr ⟨hcall, hlist, hheader, (Scanned.ok.inj h).symm⟩

theorem retire_ok (h : s.retire = .ok s') :
    ∃ s₁ s₂ line, s.asCall.hoistParameters s.cursor = .ok s₁ ∧
      (s₁.note line).popScope = .ok s₂ ∧ s' = s₂.endStatement := by
  obtain ⟨s₁, hhoist, h⟩ := Scanned.andThen_ok.mp h
  obtain ⟨s₂, hpop, h⟩ := Scanned.andThen_ok.mp h
  exact ⟨s₁, s₂, _, hhoist, hpop, (Scanned.ok.inj h).symm⟩

end ScopeScript.Scanner
