import ScopeScript.Proofs.Scanner.Quotes
import ScopeScript.Proofs.Scanner.Scopes

/-!
# Brackets come in pairs, but for stray braces

A scanner keeps no record of the brackets it has met. It has the open scopes, and
those that a bracket opened are enough: their brackets are the ones still to be
closed (`ScopeScript.Scanner.openBrackets`). So where a parse succeeds, the
brackets outside quotes are **balanced** (`ScopeScript.Balanced`) once the *stray*
braces are left out: those that close a declaration whose body never began, and
that therefore have no partner. Such a brace is all that can go wrong – the
brackets of the source are balanced just if there is none
(`ScopeScript.Scanner.balanced_of_parse`) – and it does occur
(`ScopeScript.Scanner.not_forall_balanced`).
-/

namespace ScopeScript

/-- One bracket of a pair. -/
inductive Delimiter where
  | opening (b : Bracket)
  | closing (b : Bracket)
deriving DecidableEq, Repr

/-- **Every bracket has its partner, and what is between the two is balanced
too.** -/
inductive Balanced : List Delimiter → Prop
  /-- There is no bracket. -/
  | nil : Balanced []
  /-- A pair, what it encloses, and what follows. -/
  | pair {b : Bracket} {inside rest : List Delimiter} (hi : Balanced inside) (hr : Balanced rest) :
      Balanced (.opening b :: (inside ++ .closing b :: rest))

/-! ### Checking balance -/

namespace Delimiter

variable {ds ds' : List Delimiter} {bs bs' : List Bracket}

/-- The brackets that are open after one more, innermost first. Only the innermost
can be closed. -/
def after : Delimiter → List Bracket → Option (List Bracket)
  | opening b, bs => some (b :: bs)
  | closing _, [] => none
  | closing b, b' :: bs => if b' = b then some bs else none

/-- The brackets that are open after a number of them. -/
def leftOpen (bs : List Bracket) : List Delimiter → Option (List Bracket)
  | [] => some bs
  | d :: ds => (d.after bs).bind fun bs => leftOpen bs ds

theorem leftOpen_closing (b : Bracket) (bs : List Bracket) :
    leftOpen (b :: bs) [closing b] = some bs := by
  simp [leftOpen, after]

theorem leftOpen_append (ds ds' : List Delimiter) (bs : List Bracket) :
    leftOpen bs (ds ++ ds') = (leftOpen bs ds).bind fun bs => leftOpen bs ds' := by
  induction ds generalizing bs with
  | nil => rfl
  | cons d ds ih =>
    rw [List.cons_append, leftOpen, leftOpen, Option.bind_assoc]
    congr 1
    funext bs
    exact ih bs

/-- What closes the open brackets, one after the other, with balanced text between
them. -/
def Closes : List Bracket → List Delimiter → Prop
  | [], ds => Balanced ds
  | b :: bs, ds =>
    ∃ inside rest, ds = inside ++ .closing b :: rest ∧ Balanced inside ∧ Closes bs rest

/-- A pair in front changes nothing. -/
theorem Closes.pair {b : Bracket} {inside rest : List Delimiter} (hi : Balanced inside)
    (h : Closes bs rest) : Closes bs (.opening b :: (inside ++ .closing b :: rest)) := by
  cases bs with
  | nil => exact Balanced.pair hi h
  | cons b' bs =>
    obtain ⟨inside', rest', rfl, hi', hr'⟩ := h
    exact ⟨.opening b :: (inside ++ .closing b :: inside'), rest', by simp, hi.pair hi', hr'⟩

theorem closes_of_leftOpen (h : leftOpen bs ds = some []) : Closes bs ds := by
  induction ds generalizing bs with
  | nil =>
    cases h
    exact Balanced.nil
  | cons d ds ih =>
    obtain ⟨bs', hd, h⟩ := Option.bind_eq_some_iff.mp h
    have hrest := ih h
    -- one more bracket to close, or the innermost one closed
    rcases d with b | b
    · cases hd
      obtain ⟨inside, rest, rfl, hi, hr⟩ := hrest
      exact Closes.pair hi hr
    · rcases bs with - | ⟨b', bs⟩
      · cases hd
      · rw [after] at hd
        split at hd
        · rename_i hb
          cases hd
          subst hb
          exact ⟨[], ds, rfl, Balanced.nil, hrest⟩
        · cases hd

end Delimiter

open Delimiter in
theorem Balanced.leftOpen {ds : List Delimiter} (h : Balanced ds) (bs : List Bracket) :
    leftOpen bs ds = some bs := by
  induction h generalizing bs with
  | nil => rfl
  | @pair b inside rest _ _ ihi ihr =>
    have hclose : (closing b).after (b :: bs) = some bs := if_pos rfl
    rw [Delimiter.leftOpen, after, Option.bind_some, leftOpen_append, ihi, Option.bind_some,
      Delimiter.leftOpen, hclose, Option.bind_some, ihr]

/-- **Balance can be checked from left to right.** -/
theorem balanced_iff_leftOpen {ds : List Delimiter} :
    Balanced ds ↔ Delimiter.leftOpen [] ds = some [] :=
  ⟨fun h => h.leftOpen [], Delimiter.closes_of_leftOpen⟩

instance : DecidablePred Balanced := fun _ => decidable_of_iff _ balanced_iff_leftOpen.symm

/-- In balanced text there are as many brackets of each sort. -/
theorem Balanced.count_eq {ds : List Delimiter} (h : Balanced ds) (b : Bracket) :
    ds.count (.opening b) = ds.count (.closing b) := by
  induction h with
  | nil => rfl
  | @pair b' inside rest _ _ ihi ihr =>
    simp only [List.count_cons, List.count_append, beq_iff_eq, reduceCtorEq, if_false,
      Delimiter.opening.injEq, Delimiter.closing.injEq]
    omega

/-! ### Brackets of a text -/

/-- Which bracket a symbol is, if it is one. -/
def Symbol.delimiter? : Symbol → Option Delimiter
  | openParen => some (.opening .paren)
  | closeParen => some (.closing .paren)
  | openBrace => some (.opening .brace)
  | closeBrace => some (.closing .brace)
  | _ => none

/-- The bracket that a character is, if it is one and stands outside quotes. -/
def delimiterAt : Option Char → Char → Option Delimiter
  | some _, _ => none
  | none, c => (Symbol.ofChar? c).bind Symbol.delimiter?

/-- The parentheses and braces of a text that stand outside quotes, given the
quote that is open at its beginning. -/
def delimiters : Option Char → List Char → List Delimiter
  | _, [] => []
  | q, c :: cs => (delimiterAt q c).toList ++ delimiters (quoteAfter q c) cs

/-- The bracket that a symbol is, unless it is a brace that meets a declaration. -/
def Symbol.delimitersIn (k : NodeKind) (sym : Symbol) : List Delimiter :=
  if sym = .closeBrace ∧ k.isDeclaration then [] else sym.delimiter?.toList

/-- **A symbol opens and closes the brackets of scopes as its own character says**,
unless it is a brace that meets a declaration. -/
theorem Shifts.leftOpen {sym : Symbol} {k : NodeKind} {ks ks' : List NodeKind}
    (h : Shifts sym (k :: ks) ks') (hks : Nesting (k :: ks)) (hks' : ks' ≠ []) :
    Delimiter.leftOpen ((k :: ks).filterMap NodeKind.bracket?) (sym.delimitersIn k)
      = some (ks'.filterMap NodeKind.bracket?) := by
  cases h with
  | call | block => rfl
  | parameters | body => rfl
  | closeParen hk =>
    rw [List.filterMap_cons_some hk]
    exact Delimiter.leftOpen_closing _ _
  | endBlock => exact Delimiter.leftOpen_closing _ _
  | endType hk =>
    have hnone := NodeKind.bracket?_of_isType hk
    have hbrace : NodeKind.bracket? .none = some .brace := rfl
    rw [List.filterMap_cons_some hbrace, List.filterMap_cons_none hnone]
    exact Delimiter.leftOpen_closing _ _
  | endFunction =>
    obtain rfl := hks.tail_of_body
    exact Delimiter.leftOpen_closing _ _
  | stray hk =>
    rw [List.filterMap_cons_none hk, Symbol.delimitersIn,
      if_pos ⟨rfl, hks.isDeclaration hk hks'⟩]
    rfl
  | header => rfl
  | still hp hb =>
    have hnone : sym.delimitersIn k = [] := by
      cases sym <;> first | rfl | exact absurd rfl hp.1 | exact absurd rfl hp.2 |
        exact absurd rfl hb.1 | exact absurd rfl hb.2
    rw [hnone]
    rfl

namespace Scanner

variable {s s' : Scanner} {c : Char} {cs : List Char}

/-! ### Brackets met by a scanner -/

/-- The character is a closing brace outside quotes, and closes a declaration
whose body never began. -/
def IsStray (s : Scanner) (c : Char) : Prop :=
  c = '}' ∧ s.quote = none ∧ s.takeKeyword.cursorKind.isDeclaration

instance (s : Scanner) (c : Char) : Decidable (s.IsStray c) := instDecidableAnd

/-- The bracket that a scanner meets outside quotes, unless it is stray. -/
def pairedAt (s : Scanner) (c : Char) : List Delimiter :=
  if s.IsStray c then [] else (delimiterAt s.quote c).toList

/-- The brackets that a scanner meets outside quotes as it reads a text, without
the stray ones. -/
def paired (s : Scanner) : List Char → List Delimiter
  | [] => []
  | c :: cs =>
    match s.scan c with
    | .ok s' => s.pairedAt c ++ s'.advance.paired cs
    | .failed _ _ => []

/-- The brackets that are still to be closed, innermost first. -/
def openBrackets (s : Scanner) : List Bracket := s.scopes.filterMap NodeKind.bracket?

theorem openBrackets_congr (ht : s'.tree = s.tree) (hc : s'.cursor = s.cursor) :
    s'.openBrackets = s.openBrackets := by
  rw [openBrackets, openBrackets, scopes_congr ht hc]

/-- Keywords open no brackets. -/
theorem Sound.openBrackets_takeKeyword (hs : s.Sound) :
    s.takeKeyword.openBrackets = s.openBrackets := by
  rcases hs.scopes_takeKeyword with hsame | ⟨k, hk, hopened⟩
  · rw [openBrackets, hsame, openBrackets]
  · have hnone := NodeKind.bracket?_of_isDeclaration hk
    rw [openBrackets, hopened, List.filterMap_cons_none hnone, openBrackets]

theorem pairedAt_of_symbol {sym : Symbol} (hq : s.quote = none)
    (hc : Symbol.ofChar? c = some sym) :
    s.pairedAt c = sym.delimitersIn s.takeKeyword.cursorKind := by
  have hstray : s.IsStray c ↔ sym = .closeBrace ∧ s.takeKeyword.cursorKind.isDeclaration := by
    constructor
    · rintro ⟨rfl, -, hk⟩
      exact ⟨(Option.some.inj hc).symm, hk⟩
    · rintro ⟨rfl, hk⟩
      exact ⟨eq_char_of_ofChar? hc, hq, hk⟩
  rw [pairedAt, Symbol.delimitersIn, hq, delimiterAt, hc, Option.bind_some]
  simp only [hstray]

theorem Nested.scan (hs : s.Nested) (h : s.scan c = .ok s') :
    s'.Nested ∧ Delimiter.leftOpen s.openBrackets (s.pairedAt c) = some s'.openBrackets := by
  -- characters that are collected leave tree and cursor as they are
  have hplain : s'.tree = s.tree → s'.cursor = s.cursor → s.pairedAt c = [] →
      s'.Nested ∧ Delimiter.leftOpen s.openBrackets (s.pairedAt c) = some s'.openBrackets := by
    intro ht hcursor hnone
    rw [hnone, openBrackets_congr ht hcursor]
    exact ⟨hs.congr ht hcursor, rfl⟩
  rw [Scanner.scan] at h
  cases hq : s.quote with
  | some q =>
    have hnone : s.pairedAt c = [] := by
      rw [pairedAt, hq]
      split <;> rfl
    rw [hq] at h
    dsimp only at h
    split at h <;> cases h <;> exact hplain rfl rfl hnone
  | none =>
    rw [hq] at h
    dsimp only at h
    cases hc : Symbol.ofChar? c with
    | none =>
      have hnone : s.pairedAt c = [] := by
        rw [pairedAt, hq, delimiterAt, hc]
        split <;> rfl
      rw [hc] at h
      cases h
      exact hplain rfl rfl hnone
    | some sym =>
      rw [hc] at h
      dsimp only at h
      have hkey := hs.takeKeyword
      have hs' := hkey.symbol h
      obtain ⟨ks, hks⟩ := hkey.scopes_eq
      obtain ⟨ks', hks'⟩ := hs'.scopes_eq
      have hshift := shifts_symbol hkey.toSound h
      have hnest := hkey.nesting
      rw [hks] at hshift hnest
      refine ⟨hs', ?_⟩
      rw [pairedAt_of_symbol hq hc, ← hs.openBrackets_takeKeyword, openBrackets, openBrackets, hks]
      exact hshift.leftOpen hnest (by simp [hks'])

/-- **A text opens and closes the brackets of scopes as its own brackets say**, but
for the stray ones. -/
theorem Nested.feed (hs : s.Nested) (h : s.feed cs = .ok s') :
    s'.Nested ∧ Delimiter.leftOpen s.openBrackets (s.paired cs) = some s'.openBrackets := by
  induction cs generalizing s with
  | nil =>
    cases h
    exact ⟨hs, rfl⟩
  | cons c cs ih =>
    obtain ⟨s₁, hc, h⟩ := feed_cons_ok.mp h
    obtain ⟨hs₁, hopen₁⟩ := hs.scan hc
    obtain ⟨hs', hopen'⟩ := ih hs₁.advance h
    refine ⟨hs', ?_⟩
    rw [paired, hc]
    dsimp only
    rw [Delimiter.leftOpen_append, hopen₁]
    exact hopen'

/-! ### Stray braces -/

/-- **Somewhere in the text a stray brace is met.** -/
def MeetsStray (s : Scanner) (cs : List Char) : Prop :=
  ∃ read rest x, cs = read ++ '}' :: rest ∧ s.feed read = .ok x ∧ x.IsStray '}'

theorem meetsStray_cons (h : s.scan c = .ok s') :
    s.MeetsStray (c :: cs) ↔ s.IsStray c ∨ s'.advance.MeetsStray cs := by
  constructor
  · rintro ⟨read, rest, x, hcs, hread, hx⟩
    rcases read with - | ⟨d, read⟩
    · obtain ⟨rfl, rfl⟩ := List.cons.inj hcs
      cases hread
      exact Or.inl hx
    · obtain ⟨rfl, rfl⟩ := List.cons.inj hcs
      obtain ⟨s₁, hs₁, hread⟩ := feed_cons_ok.mp hread
      obtain rfl := Scanned.ok.inj (h.symm.trans hs₁)
      exact Or.inr ⟨read, rest, x, rfl, hread, hx⟩
  · rintro (hc | ⟨read, rest, x, rfl, hread, hx⟩)
    · obtain rfl : c = '}' := hc.1
      exact ⟨[], cs, s, rfl, rfl, hc⟩
    · exact ⟨c :: read, rest, x, rfl, feed_cons_ok.mpr ⟨s', h, hread⟩, hx⟩

/-- Where no stray brace is met, all brackets outside quotes are paired; where one
is met, a closing brace has no partner. -/
theorem paired_or_stray (h : s.feed cs = .ok s') :
    (¬s.MeetsStray cs ∧ s.paired cs = delimiters s.quote cs) ∨
      (s.MeetsStray cs ∧
        (s.paired cs).count (.opening .brace) = (delimiters s.quote cs).count (.opening .brace) ∧
        (s.paired cs).count (.closing .brace)
          < (delimiters s.quote cs).count (.closing .brace)) := by
  induction cs generalizing s with
  | nil =>
    refine Or.inl ⟨?_, rfl⟩
    rintro ⟨read, rest, x, hcs, -⟩
    simp at hcs
  | cons c cs ih =>
    obtain ⟨s₁, hc, h⟩ := feed_cons_ok.mp h
    have hquote : s₁.advance.quote = quoteAfter s.quote c := (quote_scan hc :)
    have hrest := ih h
    rw [meetsStray_cons hc, paired, hc, delimiters, ← hquote]
    dsimp only
    -- a stray brace is met here and paired with nothing; all else is as in the rest
    by_cases hstray : s.IsStray c
    · have hmet : delimiterAt s.quote c = some (.closing .brace) := by
        rw [hstray.1, hstray.2.1]
        rfl
      rw [pairedAt, if_pos hstray, hmet]
      refine Or.inr ⟨Or.inl hstray, ?_⟩
      rcases hrest with ⟨-, hall⟩ | ⟨-, hopening, hclosing⟩
      · simp [hall]
      · simp [hopening]
        omega
    · rw [pairedAt, if_neg hstray]
      rcases hrest with ⟨hno, hall⟩ | ⟨hyes, hopening, hclosing⟩
      · exact Or.inl ⟨by simp [hstray, hno], by rw [hall]⟩
      · refine Or.inr ⟨Or.inr hyes, ?_, ?_⟩
        · rw [List.count_append, List.count_append, hopening]
        · rw [List.count_append, List.count_append]
          omega

/-! ### Whole sources -/

/-- At the end of a script every bracket is closed. -/
theorem Nested.finish (hs : s.Nested) (h : s.finish = .ok s') : s.openBrackets = [] := by
  rw [Scanner.finish] at h
  split at h
  · cases h
  · dsimp only at h
    split at h
    · rename_i hroot
      have hkey := hs.takeKeyword
      have hend := hkey.reach s.takeKeyword.reach_flushIfPending
      -- the last word stands in the script itself, so that no other scope is open
      have horphan := Option.isNone_iff_eq_none.mp hroot
      have hscopes := Tree.lineage_of_orphan horphan hend.kind?_eq
      change s.takeKeyword.flushIfPending.scopes = _ at hscopes
      rw [hkey.scopes_flushIfPending] at hscopes
      have hnest := hkey.nesting
      rw [hscopes] at hnest
      rw [← hs.openBrackets_takeKeyword, openBrackets, hscopes, hnest.eq_global]
      rfl
    · cases h

theorem parse_ok {name source : String} (h : s.parse name (some source) = .ok s') :
    ∃ s₁ s₂, (s.start name).feed source.toList = .ok s₁ ∧ s₁.finish = .ok s₂ ∧
      s' = s₂.noteTree name := by
  rw [parse] at h
  split at h
  · cases h
  · obtain ⟨s₁, hfeed, h⟩ := Scanned.andThen_ok.mp h
    obtain ⟨s₂, hfinish, h⟩ := Scanned.andThen_ok.mp h
    exact ⟨s₁, s₂, hfeed, hfinish, (Scanned.ok.inj h).symm⟩

/-- **Where a parse succeeds, the brackets outside quotes are balanced but for stray
braces**, and all of them are balanced just if there is no stray brace. -/
theorem balanced_of_parse (s : Scanner) (name source : String) {s' : Scanner}
    (h : s.parse name (some source) = .ok s') :
    Balanced ((s.start name).paired source.toList) ∧
      (Balanced (delimiters none source.toList) ↔ ¬(s.start name).MeetsStray source.toList) := by
  obtain ⟨s₁, s₂, hfeed, hfinish, -⟩ := parse_ok h
  obtain ⟨hs₁, hopen⟩ := (s.nested_start name).feed hfeed
  have hpaired : Balanced ((s.start name).paired source.toList) := by
    rw [hs₁.finish hfinish, openBrackets, scopes_start] at hopen
    exact balanced_iff_leftOpen.mpr hopen
  refine ⟨hpaired, ?_⟩
  have hquote : (s.start name).quote = none := rfl
  rcases paired_or_stray hfeed with ⟨hno, hall⟩ | ⟨hyes, hopening, hclosing⟩
  · rw [hquote] at hall
    rw [← hall]
    exact iff_of_true hpaired hno
  · rw [hquote] at hopening hclosing
    refine iff_of_false (fun hbalanced => ?_) (not_not.mpr hyes)
    have hmet := hpaired.count_eq .brace
    have hsource := hbalanced.count_eq .brace
    omega

/-- A class that is closed before its body begins has a stray brace, and a block
among arguments has none. -/
theorem balanced_of_parse_class :
    (∃ s', ({} : Scanner).parse "test" (some "class \x7d") = .ok s' ∧
        Balanced ((({} : Scanner).start "test").paired "class \x7d".toList) ∧
        (({} : Scanner).start "test").MeetsStray "class \x7d".toList) ∧
      ∃ s', ({} : Scanner).parse "test" (some "f({});") = .ok s' ∧
        Balanced (delimiters none "f({});".toList) ∧
        ¬(({} : Scanner).start "test").MeetsStray "f({});".toList := by
  have hclass := balanced_of_parse {} "test" "class \x7d" rfl
  have hblock := balanced_of_parse {} "test" "f({});" rfl
  have hunbalanced : ¬Balanced (delimiters none "class \x7d".toList) := by decide
  have hbalanced : Balanced (delimiters none "f({});".toList) := by decide
  refine ⟨⟨_, rfl, hclass.1, ?_⟩, _, rfl, hbalanced, hblock.2.mp hbalanced⟩
  by_contra hno
  exact hunbalanced (hclass.2.mpr hno)

/-- **Not every script that is read has balanced brackets.** -/
theorem not_forall_balanced :
    ¬∀ (name source : String) (s' : Scanner), ({} : Scanner).parse name (some source) = .ok s' →
      Balanced (delimiters none source.toList) := by
  intro h
  have hbalanced := h "test" "class \x7d" _ rfl
  revert hbalanced
  decide

end Scanner

end ScopeScript
