import ScopeScript.Proofs.Scanner.Inversion
import ScopeScript.Proofs.Scanner.Standing

/-!
# Which quote is open

Whether a character stands between quotes is settled by the characters before it
alone: a quotation mark outside quotes opens a quote, the same mark closes it, and
nothing else does either (`ScopeScript.quoteAfter`). No symbol of another sort
touches the open quote (`ScopeScript.Scanner.quote_symbol`), so that a scanner
that has not failed agrees with this (`ScopeScript.Scanner.quote_scan`).
-/

namespace ScopeScript

/-- The quote that is open after a character, given the one before it. -/
def quoteAfter : Option Char → Char → Option Char
  | some q, c => if c = q then none else some q
  | none, c => if (Symbol.ofChar? c).any Symbol.isQuote then some c else none

namespace Scanner

variable {s s' : Scanner} {c : Char}

/-! ### The parts of a move -/

theorem quote_nameCursorIfPending (s : Scanner) : s.nameCursorIfPending.quote = s.quote := by
  rw [nameCursorIfPending]
  split <;> rfl

theorem quote_flushIfPending (s : Scanner) : s.flushIfPending.quote = s.quote := by
  rw [flushIfPending]
  split
  · exact quote_note _ _
  · rfl

theorem quote_addArgument (s : Scanner) : s.addArgument.quote = s.quote := by
  rw [addArgument]
  dsimp only
  split <;> rfl

theorem quote_nameHeader (s : Scanner) : s.nameHeader.quote = s.quote := by
  rw [nameHeader]
  split
  · exact s.quote_nameCursorIfPending
  · rfl

theorem quote_pushNamed (s : Scanner) (kind : NodeKind) (name : Option String) :
    (s.pushNamed kind name).quote = s.quote :=
  s.quote_pushScope kind s.wordLocation

theorem quote_popScope (h : s.popScope = .ok s') : s'.quote = s.quote := by
  obtain ⟨parent, line, -, -, rfl⟩ := popScope_ok h
  exact quote_note _ _

theorem quote_takeKeyword (s : Scanner) : s.takeKeyword.quote = s.quote := by
  rcases s.takeKeyword_cases with htake | ⟨k, line, -, -, ⟨-, htake⟩ | ⟨kind, -, htake⟩⟩
  · rw [htake]
  · rw [htake]
    exact quote_note _ _
  · rw [htake]
    exact (quote_pushScope _ _ _).trans (quote_note _ _)

theorem quote_adoptParameters (s : Scanner) (call : Nat) (ps : List Nat) :
    (s.adoptParameters call ps).state.quote = s.quote := by
  induction ps generalizing s with
  | nil => rfl
  | cons p ps ih =>
    rw [adoptParameters]
    split
    · rfl
    · exact ih _

theorem quote_hoistParameters {call : Nat} (h : s.hoistParameters call = .ok s') :
    s'.quote = s.quote := by
  rw [hoistParameters] at h
  split at h
  · cases h
    rfl
  · rename_i l _
    have hadopt := s.quote_adoptParameters call (s.tree.children l)
    obtain ⟨s₁, hs₁, h⟩ := Scanned.andThen_ok.mp h
    rw [hs₁] at hadopt
    cases h
    exact hadopt

/-! ### Symbols -/

theorem quote_openParen (h : s.openParen = .ok s') : s'.quote = s.quote := by
  rcases openParen_ok h with ⟨-, rfl⟩ | ⟨-, -, rfl⟩
  · rw [quote_pushScope, quote_nameCursorIfPending]
  · exact s.quote_pushNamed _ _

theorem quote_closeParen (h : s.closeParen = .ok s') : s'.quote = s.quote := by
  obtain ⟨s₁, hpop, hcases⟩ := closeParen_ok h
  rw [quote_popScope hpop]
  rcases hcases with ⟨-, -, rfl⟩ | ⟨-, -, rfl⟩ | ⟨-, -, rfl⟩
  · rfl
  · exact s.quote_addArgument
  · rfl

theorem quote_comma (h : s.comma = .ok s') : s'.quote = s.quote := by
  rcases comma_ok h with ⟨-, -, rfl⟩ | ⟨-, rfl⟩
  · rfl
  · exact s.quote_addArgument

theorem quote_openBrace (h : s.openBrace = .ok s') : s'.quote = s.quote := by
  rcases openBrace_ok h with ⟨-, rfl⟩ | ⟨-, rfl⟩ | ⟨-, -, rfl⟩
  · exact (quote_pushScope _ _ _).trans s.quote_nameCursorIfPending
  · rw [quote_pushScope, quote_nameCursorIfPending]
  · exact s.quote_pushNamed _ _

theorem quote_closeBrace (h : s.closeBrace = .ok s') : s'.quote = s.quote := by
  obtain ⟨-, -, s₁, s₂, hpop, rfl, hcases⟩ := closeBrace_ok h
  have hquote : s₁.quote = s.quote := (quote_popScope hpop).trans s.quote_flushIfPending
  rcases hcases with ⟨-, hpop'⟩ | ⟨-, -, rfl⟩
  · exact (quote_popScope hpop').trans hquote
  · exact hquote

theorem quote_retire (h : s.retire = .ok s') : s'.quote = s.quote := by
  obtain ⟨s₁, s₂, line, hhoist, hpop, rfl⟩ := retire_ok h
  calc s₂.quote = (s₁.note line).quote := quote_popScope hpop
    _ = s₁.quote := quote_note _ _
    _ = s.asCall.quote := quote_hoistParameters hhoist

theorem quote_semicolon (h : s.semicolon = .ok s') : s'.quote = s.quote := by
  rcases semicolon_ok h with ⟨-, hretire⟩ | ⟨-, -, -, rfl⟩
  · rw [quote_retire hretire, quote_flushIfPending, quote_nameHeader]
  · exact s.quote_flushIfPending

/-- **Only a quotation mark opens a quote.** -/
theorem quote_symbol {sym : Symbol} (h : s.symbol sym = .ok s') :
    s'.quote = if sym.isQuote then some sym.char else s.quote := by
  cases sym with
  | openParen => exact quote_openParen h
  | closeParen => exact quote_closeParen h
  | openBrace => exact quote_openBrace h
  | closeBrace => exact quote_closeBrace h
  | comma => exact quote_comma h
  | semicolon => exact quote_semicolon h
  | openBracket | closeBracket | tab | space | singleQuote | doubleQuote | newline =>
    cases h
    rfl

/-! ### Characters -/

/-- **The open quote depends on nothing but the characters.** -/
theorem quote_scan (h : s.scan c = .ok s') : s'.quote = quoteAfter s.quote c := by
  rw [scan] at h
  cases hq : s.quote with
  | some q =>
    rw [hq] at h
    dsimp only at h
    rw [quoteAfter]
    split at h
    · rename_i hc
      cases h
      rw [if_pos hc]
    · rename_i hc
      cases h
      rw [if_neg hc]
      exact hq
  | none =>
    rw [hq] at h
    dsimp only at h
    rw [quoteAfter]
    cases hc : Symbol.ofChar? c with
    | none =>
      rw [hc] at h
      cases h
      exact hq
    | some sym =>
      rw [hc] at h
      rw [quote_symbol h, quote_takeKeyword, hq, eq_char_of_ofChar? hc]
      rfl

end Scanner

end ScopeScript
