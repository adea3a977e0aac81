import ScopeScript.Proofs.Scanner.Quotation

/-!
# Blanks next to symbols

A blank outside quotes, or a square bracket, does one thing only: it has the word
before it looked at for a keyword. Every other symbol does the same before
anything else, and so does the end of the script. So **blanks next to a symbol
make no difference** (`ScopeScript.Scanner.parse_respaced`): a script into which
they are put is accepted or refused as before, with the same complaint, and its
tree and its keywords are the same but for places.

What carries the proof is that a word is looked at for a keyword once and not
again: a symbol leaves a word that is none (`ScopeScript.Scanner.settled_of_symbol`).
In front of a symbol a scanner may therefore be taken for the one that has looked
(`ScopeScript.Scanner.scan_takeKeyword`), and behind a symbol it is that one.
-/

namespace ScopeScript

namespace Symbol

/-- Whether the symbol does nothing of its own, as blanks and square brackets. -/
def isIdle : Symbol → Bool
  | openBracket | closeBracket | tab | space | newline => true
  | _ => false

theorem exists_isIdle {c : Char} (h : c ∈ [' ', '\t', '\n', '[', ']']) :
    ∃ sym, ofChar? c = some sym ∧ sym.isIdle := by
  simp only [List.mem_cons, List.not_mem_nil, or_false] at h
  rcases h with rfl | rfl | rfl | rfl | rfl
  · exact ⟨.space, rfl, rfl⟩
  · exact ⟨.tab, rfl, rfl⟩
  · exact ⟨.newline, rfl, rfl⟩
  · exact ⟨.openBracket, rfl, rfl⟩
  · exact ⟨.closeBracket, rfl, rfl⟩

end Symbol

namespace Scanner

variable {s s' : Scanner} {c : Char} {cs : List Char} {sym : Symbol}

/-! ### Words that are no keywords -/

/-- **The word is no keyword**, so that looking at it for one does nothing. -/
def Settled (s : Scanner) : Prop := s.word.quoted = true ∨ Keyword.ofText? s.word.text = none

theorem settled_of_empty (h : s.word = {}) : s.Settled := by
  rw [Settled, h]
  exact Or.inr rfl

theorem Settled.congr (h : s.Settled) (hw : s'.word = s.word) : s'.Settled := by
  rw [Settled, hw]
  exact h

theorem Settled.takeKeyword (h : s.Settled) : s.takeKeyword = s := by
  rcases h with hquoted | hnone
  · exact takeKeyword_of_quoted hquoted
  · rw [Scanner.takeKeyword, hnone]
    split <;> rfl

/-- **Once it has been looked at, a word is no keyword.** -/
theorem settled_takeKeyword (s : Scanner) : s.takeKeyword.Settled := by
  rw [takeKeyword]
  split
  · rename_i hquoted
    exact Or.inl hquoted
  · split
    · rename_i hnone
      exact Or.inr hnone
    · rename_i k _
      refine settled_of_empty ?_
      dsimp only
      cases scopeOf? k with
      | none => exact word_note _ _
      | some kind => exact (word_pushScope _ _ _).trans (word_note _ _)

/-! ### The word behind a symbol -/

/-- The word is as it was, or used up. -/
def LeavesWord (s s' : Scanner) : Prop := s'.word = s.word ∨ s'.word = {}

theorem leavesWord_nameCursorIfPending (s : Scanner) : s.LeavesWord s.nameCursorIfPending := by
  rw [nameCursorIfPending]
  split
  · exact Or.inr rfl
  · exact Or.inl rfl

theorem leavesWord_flushIfPending (s : Scanner) : s.LeavesWord s.flushIfPending := by
  rw [flushIfPending]
  split
  · exact Or.inr (word_note _ _)
  · exact Or.inl rfl

theorem word_addArgument (s : Scanner) : s.addArgument.word = {} := by
  rw [addArgument]
  dsimp only
  split <;> rfl

theorem word_popScope (h : s.popScope = .ok s') : s'.word = {} := by
  obtain ⟨parent, line, -, -, rfl⟩ := popScope_ok h
  exact word_note _ _

theorem leavesWord_openParen (h : s.openParen = .ok s') : s.LeavesWord s' := by
  rcases openParen_ok h with ⟨-, rfl⟩ | ⟨-, -, rfl⟩
  · rw [LeavesWord, word_pushScope]
    exact s.leavesWord_nameCursorIfPending
  · exact Or.inr rfl

theorem leavesWord_comma (h : s.comma = .ok s') : s.LeavesWord s' := by
  rcases comma_ok h with ⟨-, -, rfl⟩ | ⟨-, rfl⟩
  · exact Or.inr rfl
  · exact Or.inr s.word_addArgument

theorem leavesWord_openBrace (h : s.openBrace = .ok s') : s.LeavesWord s' := by
  have hpush := fun kind place => word_pushScope s.nameCursorIfPending kind place
  rcases openBrace_ok h with ⟨-, rfl⟩ | ⟨-, rfl⟩ | ⟨-, -, rfl⟩
  · exact s.leavesWord_nameCursorIfPending.imp (hpush _ _).trans (hpush _ _).trans
  · exact s.leavesWord_nameCursorIfPending.imp (hpush _ _).trans (hpush _ _).trans
  · exact Or.inr rfl

theorem word_closeBrace (h : s.closeBrace = .ok s') : s'.word = {} := by
  obtain ⟨-, -, s₁, s₂, hpop, rfl, hcases⟩ := closeBrace_ok h
  change s₂.word = {}
  rcases hcases with ⟨-, hpop'⟩ | ⟨-, -, rfl⟩
  · exact word_popScope hpop'
  · exact word_popScope hpop

theorem leavesWord_semicolon (h : s.semicolon = .ok s') : s.LeavesWord s' := by
  rcases semicolon_ok h with ⟨-, hretire⟩ | ⟨-, -, -, rfl⟩
  · obtain ⟨s₁, s₂, line, -, hpop, rfl⟩ := retire_ok hretire
    exact Or.inr (word_popScope hpop :)
  · exact s.leavesWord_flushIfPending

/-- **A symbol uses the word up or leaves it alone**, unless it opens a quote. -/
theorem leavesWord_symbol (h : s.symbol sym = .ok s') (hsym : sym.isQuote = false) :
    s.LeavesWord s' := by
  cases sym with
  | openParen => exact leavesWord_openParen h
  | closeParen =>
    obtain ⟨s₁, hpop, -⟩ := closeParen_ok h
    exact Or.inr (word_popScope hpop)
  | openBrace => exact leavesWord_openBrace h
  | closeBrace => exact Or.inr (word_closeBrace h)
  | comma => exact leavesWord_comma h
  | semicolon => exact leavesWord_semicolon h
  | openBracket | closeBracket | tab | space | newline =>
    cases h
    exact Or.inl rfl
  | singleQuote | doubleQuote => cases hsym

/-- Between quotes the word is quoted. -/
def Quotes (s : Scanner) : Prop := s.quote ≠ none → s.word.quoted = true

theorem quotes_of_scan (h : s.scan c = .ok s') : s'.Quotes := by
  rw [scan] at h
  cases hq : s.quote with
  | some q =>
    rw [hq] at h
    dsimp only at h
    split at h
    · cases h
      exact fun hquote => absurd rfl hquote
    · cases h
      exact fun _ => rfl
  | none =>
    rw [hq] at h
    dsimp only at h
    cases hc : Symbol.ofChar? c with
    | none =>
      rw [hc] at h
      cases h
      exact fun hquote => absurd hq hquote
    | some sym =>
      rw [hc] at h
      intro hquote
      rw [quote_symbol h, quote_takeKeyword, hq] at hquote
      -- only a quotation mark opens a quote, and the word is quoted from there on
      cases sym with
      | singleQuote | doubleQuote =>
        cases h
        rfl
      | _ => exact absurd rfl hquote

theorem Quotes.feed (hs : s.Quotes) (h : s.feed cs = .ok s') : s'.Quotes := by
  induction cs generalizing s with
  | nil =>
    cases h
    exact hs
  | cons c cs ih =>
    obtain ⟨s₁, hc, h⟩ := feed_cons_ok.mp h
    have hs₁ : s₁.Quotes := quotes_of_scan hc
    exact ih (s := s₁.advance) hs₁ h

/-- **Behind a symbol no keyword is left**, as long as no quote is open. -/
theorem settled_of_symbol (hs : s.Quotes) (hc : Symbol.ofChar? c = some sym)
    (h : s.scan c = .ok s') (hq' : s'.quote = none) : s'.Settled := by
  rw [scan] at h
  cases hq : s.quote with
  | some q =>
    -- the symbol is the closing quote
    have hquoted := hs (by simp [hq])
    rw [hq] at h
    dsimp only at h
    split at h
    · cases h
      exact Or.inl hquoted
    · cases h
      exact Or.inl rfl
  | none =>
    rw [hq, hc] at h
    dsimp only at h
    have hsym : sym.isQuote = false := by
      rw [quote_symbol h, quote_takeKeyword, hq] at hq'
      cases hquote : sym.isQuote with
      | false => rfl
      | true =>
        rw [hquote] at hq'
        cases hq'
    rcases leavesWord_symbol h hsym with hsame | hempty
    · exact s.settled_takeKeyword.congr hsame
    · exact settled_of_empty hempty

/-! ### Blanks -/

/-- In front of a symbol the word may have been looked at before. -/
theorem scan_takeKeyword (hq : s.quote = none) (hc : Symbol.ofChar? c = some sym) :
    s.takeKeyword.scan c = s.scan c := by
  rw [scan, scan, quote_takeKeyword, hq, hc]
  dsimp only
  rw [s.settled_takeKeyword.takeKeyword]

/-- At the end of a script the word may have been looked at before. -/
theorem finish_takeKeyword (hq : s.quote = none) : s.takeKeyword.finish = s.finish := by
  rw [finish, finish, quote_takeKeyword, hq, s.settled_takeKeyword.takeKeyword]
  rfl

theorem scan_of_isIdle (hq : s.quote = none) (hc : Symbol.ofChar? c = some sym)
    (hidle : sym.isIdle) :
    ∃ place, s.scan c = .ok { s.takeKeyword with location := place } := by
  rw [scan, hq, hc]
  cases sym with
  | openBracket | closeBracket | tab | space => exact ⟨s.takeKeyword.location, rfl⟩
  | newline => exact ⟨_, rfl⟩
  | _ => cases hidle

/-- **Blanks have the word looked at for a keyword**, and do nothing else. -/
theorem Like.feed_blanks {R : Nat → String → String → Prop}
    (h : s.takeKeyword.Like R Eq s'.takeKeyword) (hq : s.quote = none)
    (hcs : ∀ c ∈ cs, c ∈ [' ', '\t', '\n', '[', ']']) :
    ∃ x, s.feed cs = .ok x ∧ x.quote = none ∧ x.takeKeyword.Like R Eq s'.takeKeyword ∧
      (s.Settled → x.Settled) := by
  induction cs generalizing s with
  | nil => exact ⟨s, rfl, hq, h, fun hs => hs⟩
  | cons c cs ih =>
    obtain ⟨sym, hc, hidle⟩ := Symbol.exists_isIdle (hcs c List.mem_cons_self)
    obtain ⟨place, hscan⟩ := scan_of_isIdle hq hc hidle
    set s₁ : Scanner := Scanner.advance { s.takeKeyword with location := place }
    have hsettled : s₁.Settled := s.settled_takeKeyword.congr rfl
    have hlike : s₁.takeKeyword.Like R Eq s'.takeKeyword := by
      rw [hsettled.takeKeyword]
      exact ⟨h.tree, h.cursor, h.quote, h.keywords, h.word⟩
    obtain ⟨x, hfeed, hquote, hx, hxs⟩ := ih hlike ((quote_takeKeyword s).trans hq)
      fun d hd => hcs d (List.mem_cons_of_mem c hd)
    exact ⟨x, feed_cons_ok.mpr ⟨_, hscan, hfeed⟩, hquote, hx, fun _ => hxs hsettled⟩

theorem Like.refl (s : Scanner) : s.Like (fun _ => Eq) Eq s :=
  ⟨Tree.Like.refl _, rfl, rfl, rfl, rfl, rfl, fun _ => rfl⟩

/-- Scanners that agree read what follows alike, down to the end of the script. -/
theorem Like.rest {x y : Scanner} (h : x.Like (fun _ => Eq) Eq y) (rest : List Char) :
    ((x.feed rest).andThen Scanner.finish).Like (fun _ => Eq) Eq
      ((y.feed rest).andThen Scanner.finish) := by
  refine (h.feed (fun _ _ => rfl) rest).andThen fun s₁ s₁' h₁ => ?_
  exact h₁.finish h₁.takeKeyword (admits_eq fun _ => rfl)

/-- **What follows is read alike by scanners that agree once they have looked at
their words**, if it begins with a symbol or there is nothing left of it. -/
theorem Like.rest_of_symbol {x y : Scanner} {rest : List Char}
    (h : x.takeKeyword.Like (fun _ => Eq) Eq y.takeKeyword) (hx : x.quote = none)
    (hy : y.quote = none)
    (hrest : ∀ c tail, rest = c :: tail → ∃ sym, Symbol.ofChar? c = some sym) :
    ((x.feed rest).andThen Scanner.finish).Like (fun _ => Eq) Eq
      ((y.feed rest).andThen Scanner.finish) := by
  have hlooked : ∀ {z : Scanner}, z.quote = none →
      (z.feed rest).andThen Scanner.finish
        = (z.takeKeyword.feed rest).andThen Scanner.finish := by
    intro z hz
    cases rest with
    | nil => exact (finish_takeKeyword hz).symm
    | cons c tail =>
      obtain ⟨sym, hsym⟩ := hrest c tail rfl
      rw [Scanner.feed, Scanner.feed, scan_takeKeyword hz hsym]
  rw [hlooked hx, hlooked hy]
  exact h.rest rest

/-! ### Whole sources -/

/-- **The place between two parts of a text is next to a symbol**, or at an end of
the text. -/
def IsSeam (before rest : String) : Prop :=
  before = "" ∨ rest = "" ∨
    (∃ init c, before.toList = init ++ [c] ∧ (Symbol.ofChar? c).isSome) ∨
    ∃ c tail, rest.toList = c :: tail ∧ (Symbol.ofChar? c).isSome

/-- A text that is empty or ends with a symbol leaves no keyword. -/
theorem settled_of_feed {name before : String} {x : Scanner}
    (hx : (s.start name).feed before.toList = .ok x) (hq : x.quote = none)
    (hend : before = "" ∨
      ∃ init c, before.toList = init ++ [c] ∧ (Symbol.ofChar? c).isSome) : x.Settled := by
  rcases hend with rfl | ⟨init, c, hbefore, hc⟩
  · cases hx
    exact settled_of_empty rfl
  · obtain ⟨sym, hsym⟩ := Option.isSome_iff_exists.mp hc
    rw [hbefore, feed_append] at hx
    obtain ⟨x₀, hinit, hx⟩ := Scanned.andThen_ok.mp hx
    obtain ⟨x₁, hscan, hx⟩ := feed_cons_ok.mp hx
    cases hx
    have hstart : (s.start name).Quotes := fun h => absurd rfl h
    exact (settled_of_symbol (hstart.feed hinit) hsym hscan hq).congr rfl

/-- **Blanks next to a symbol make no difference**: where they are put in, or left
out, a script is read alike. -/
theorem parse_respaced (s : Scanner) (name before blanks rest : String) (hne : before ++ rest ≠ "")
    (hq : ∀ x, (s.start name).feed before.toList = .ok x → x.quote = none)
    (hseam : IsSeam before rest) (hblanks : ∀ c ∈ blanks.toList, c ∈ [' ', '\t', '\n', '[', ']']) :
    (s.parse name (some (before ++ blanks ++ rest))).Like (fun _ => Eq) Eq
      (s.parse name (some (before ++ rest))) := by
  have hne' : before ++ blanks ++ rest ≠ "" := by
    intro h
    refine hne ?_
    simp only [← String.toList_inj, String.toList_append, String.toList_empty,
      List.append_eq_nil_iff] at h ⊢
    exact ⟨h.1.1, h.2⟩
  rw [parse_of_ne hne, parse_of_ne hne']
  refine Scanned.Like.andThen ?_ fun s₁ s₁' h₁ => .ok (h₁.noteTree name)
  rw [String.toList_append, String.toList_append, String.toList_append, List.append_assoc,
    feed_append, feed_append]
  cases hx : (s.start name).feed before.toList with
  | failed x e => exact .failed (Tree.Like.refl _) rfl
  | ok x =>
    have hquote := hq x hx
    obtain ⟨y, hy, hyquote, hlike, hkept⟩ :=
      Like.feed_blanks (Like.refl x.takeKeyword) hquote hblanks
    simp only [Scanned.andThen]
    rw [feed_append, hy]
    -- behind a symbol neither scanner has a keyword left to look at
    have hbehind : (before = "" ∨
          ∃ init c, before.toList = init ++ [c] ∧ (Symbol.ofChar? c).isSome) →
        ((y.feed rest.toList).andThen finish).Like (fun _ => Eq) Eq
          ((x.feed rest.toList).andThen finish) := by
      intro hend
      have hsettled := settled_of_feed hx hquote hend
      rw [(hkept hsettled).takeKeyword, hsettled.takeKeyword] at hlike
      exact hlike.rest rest.toList
    rcases hseam with hempty | hempty | hend | ⟨c, tail, hrest, hc⟩
    · exact hbehind (Or.inl hempty)
    · refine hlike.rest_of_symbol hyquote hquote fun d tail hd => ?_
      rw [hempty] at hd
      cases hd
    · exact hbehind (Or.inr hend)
    · refine hlike.rest_of_symbol hyquote hquote fun d tail' hd => ?_
      rw [hrest] at hd
      cases hd
      exact Option.isSome_iff_exists.mp hc

/-- Blanks between a keyword and a quote, and between a bracket and a word. -/
theorem parse_respaced_keyword :
    ("function" ++ "'f'(a);" ≠ "" ∧ IsSeam "function" "'f'(a);" ∧
        (({} : Scanner).parse "test" (some ("function" ++ "\t[ \n" ++ "'f'(a);"))).Like
          (fun _ => Eq) Eq (({} : Scanner).parse "test" (some ("function" ++ "'f'(a);")))) ∧
      "f(" ++ "a b" ≠ "" ∧ IsSeam "f(" "a b" ∧
        (({} : Scanner).parse "test" (some ("f(" ++ "\n ]" ++ "a b"))).Like
          (fun _ => Eq) Eq (({} : Scanner).parse "test" (some ("f(" ++ "a b"))) := by
  have hquote : IsSeam "function" "'f'(a);" :=
    Or.inr (Or.inr (Or.inr ⟨'\'', "f'(a);".toList, rfl, rfl⟩))
  have hparen : IsSeam "f(" "a b" := Or.inr (Or.inr (Or.inl ⟨['f'], '(', rfl, rfl⟩))
  refine ⟨⟨by decide, hquote, ?_⟩, by decide, hparen, ?_⟩
  · refine parse_respaced {} "test" "function" "\t[ \n" "'f'(a);" (by decide) ?_ hquote (by simp)
    rintro x ⟨⟩
    rfl
  · refine parse_respaced {} "test" "f(" "\n ]" "a b" (by decide) ?_ hparen (by simp)
    rintro x ⟨⟩
    rfl

/-- Elsewhere a blank does matter: it ends a keyword. -/
example :
    (({} : Scanner).parse "test" (some "let x;")).state.tree.name? 1 = some "x" ∧
      (({} : Scanner).parse "test" (some "letx;")).state.tree.name? 1 = some "letx" :=
  ⟨rfl, rfl⟩

end Scanner

end ScopeScript
