import ScopeScript.Proofs.Scanner.Likeness
import ScopeScript.Proofs.Scanner.Quotes

/-!
# Quoted text is no structure

What stands between quotes cannot give a script another structure: put another
text there, and the script is read **alike** (`ScopeScript.Scanner.parse_alike`) –
it is accepted or refused as before, with the same complaint, and the tree is the
same but for places and for the texts of a single node, the one that takes the
word with the quoted text in it.

There is one thing that the text decides. A call needs a name, so that where the
word names a call (`ScopeScript.Scanner.NamesCall`) both texts must have something
in them that is not blank.

The two scanners go through three stages. Between the quotes they collect
different texts; after that the word is quoted, whatever else is collected, and
differs around the same place (`ScopeScript.Around`); and once a symbol has used
the word up they are alike but for one node.
-/

namespace ScopeScript

/-! ### The symbol that uses a word up -/

/-- The symbol that a character is, if it uses up the word before it. -/
def userAt : Option Char → Char → Option Symbol
  | some _, _ => none
  | none, c => (Symbol.ofChar? c).filter Symbol.usesWord

/-- The first symbol of a text outside quotes that uses up the word before it,
given the quote that is open at the beginning. -/
def firstUser : Option Char → List Char → Option Symbol
  | _, [] => none
  | q, c :: cs => (userAt q c).or (firstUser (quoteAfter q c) cs)

/-! ### Texts that differ in one place -/

/-- The texts differ in one place, where one has `u` and the other `v`. -/
def Around (u v x y : String) : Prop := ∃ a b, x = a ++ u ++ b ∧ y = a ++ v ++ b

/-- The texts differ in one place, apart from blanks cut off around them. -/
def Shows (u v x y : String) : Prop :=
  Around u v x y ∨ ∃ x' y', Around u v x' y' ∧ x = Text.strip x' ∧ y = Text.strip y'

/-- **Only at one index do texts differ**, and there in one place. -/
def OnlyAt (i : Nat) (u v : String) (j : Nat) (x y : String) : Prop :=
  x = y ∨ j = i ∧ Shows u v x y

variable {u v x y : String}

theorem Around.push (h : Around u v x y) (c : Char) : Around u v (x.push c) (y.push c) := by
  obtain ⟨a, b, rfl, rfl⟩ := h
  exact ⟨a, b.push c, by simp [← String.toList_inj], by simp [← String.toList_inj]⟩

theorem admits_onlyAt (i : Nat) (u v : String) : Admits (OnlyAt i u v) (Around u v) i where
  refl _ := Or.inl rfl
  text _ _ h := Or.inr ⟨rfl, Or.inl h⟩
  strip x y h := Or.inr ⟨rfl, Or.inr ⟨x, y, h, rfl, rfl⟩⟩

/-- What is empty without blanks holds nothing else. -/
theorem isAllBlank_of_strip {text : String} (h : Text.strip text = "") : Text.isAllBlank text := by
  have htrim : Text.trimBoth Text.isBlank text.toList = [] := by
    rw [← String.toList_ofList (l := Text.trimBoth _ _)]
    exact congrArg String.toList h
  rw [Text.trimBoth, List.reverse_eq_nil_iff, List.dropWhile_eq_nil_iff] at htrim
  -- what is left after leading blanks begins with no blank, yet is all blank
  have hdrop : text.toList.dropWhile Text.isBlank = [] := by
    by_contra hne
    have hhead := List.head_dropWhile_not Text.isBlank hne
    have := htrim _ (List.mem_reverse.mpr (List.head_mem hne))
    rw [hhead] at this
    cases this
  rw [List.dropWhile_eq_nil_iff] at hdrop
  exact List.all_eq_true.mpr hdrop

/-- A text around something that is not blank can name a call. -/
theorem isEmpty_strip_around {a b : String} (hu : Text.isAllBlank u = false) :
    (Text.strip (a ++ u ++ b)).isEmpty = false := by
  rw [String.isEmpty_eq_false_iff]
  intro hempty
  have hall := List.all_eq_true.mp (isAllBlank_of_strip hempty)
  refine absurd (List.all_eq_true.mpr fun c hc => hall c ?_) (ne_true_of_eq_false hu)
  simp [hc]

namespace Scanner

variable {s s' : Scanner} {c : Char} {cs : List Char}

/-! ### While the word is quoted -/

theorem takeKeyword_of_quoted (hw : s.word.quoted = true) : s.takeKeyword = s := by
  rw [takeKeyword, if_pos hw]

/-- A symbol that uses the word up stands outside quotes. -/
theorem scan_of_userAt {sym : Symbol} (h : userAt s.quote c = some sym) :
    sym.usesWord ∧ s.scan c = s.takeKeyword.symbol sym := by
  cases hq : s.quote with
  | some q =>
    rw [hq] at h
    cases h
  | none =>
    rw [hq, userAt, Option.filter_eq_some_iff] at h
    refine ⟨h.2, ?_⟩
    rw [scan, hq, h.1]

/-- **Until a symbol uses it up, a quoted word stays one**, and nothing else is
done. -/
theorem scan_of_quoted (hw : s.word.quoted = true) (hc : userAt s.quote c = none) :
    ∃ s₁, s.scan c = .ok s₁ ∧ s₁.tree = s.tree ∧ s₁.cursor = s.cursor ∧ s₁.word.quoted = true := by
  rw [scan]
  cases hq : s.quote with
  | some q =>
    dsimp only
    split
    · exact ⟨_, rfl, rfl, rfl, hw⟩
    · exact ⟨_, rfl, rfl, rfl, rfl⟩
  | none =>
    rw [hq, userAt] at hc
    dsimp only
    cases hsym : Symbol.ofChar? c with
    | none => exact ⟨_, rfl, rfl, rfl, hw⟩
    | some sym =>
      rw [hsym, Option.filter_eq_none_iff] at hc
      rw [takeKeyword_of_quoted hw]
      cases sym with
      | singleQuote | doubleQuote => exact ⟨_, rfl, rfl, rfl, rfl⟩
      | openBracket | closeBracket | tab | space | newline => exact ⟨_, rfl, rfl, rfl, hw⟩
      | _ => exact absurd rfl (hc _ rfl)

theorem Like.scan_of_quoted {R : Nat → String → String → Prop}
    (h : s.Like R (Around u v) s') (hw : s.word.quoted = true) (hc : userAt s.quote c = none) :
    (s.scan c).Like R (Around u v) (s'.scan c) := by
  by_cases hsym : s.quote = none ∧ ∃ sym, Symbol.ofChar? c = some sym
  · obtain ⟨hq, sym, hsym⟩ := hsym
    have hw' : s'.word.quoted = true := h.word.quoted.symm.trans hw
    have huses : sym.usesWord = false := by
      rw [hq, userAt, hsym, Option.filter_eq_none_iff] at hc
      exact eq_false_of_ne_true (hc sym rfl)
    rw [Scanner.scan, Scanner.scan, ← h.quote, hq, hsym]
    dsimp only
    rw [takeKeyword_of_quoted hw, takeKeyword_of_quoted hw']
    exact h.symbol_of_not_usesWord huses
  · refine h.scan_of_collected (fun _ _ hxy => hxy.push c) fun hq => ?_
    by_contra hsome
    exact hsym ⟨hq, Option.ne_none_iff_exists'.mp hsome⟩

/-- **The symbol that uses the word up puts its text into one node.** -/
theorem Like.scan_of_userAt {sym : Symbol} (h : s.Like (fun _ => Eq) (Around u v) s')
    (hw : s.word.quoted = true) (hc : userAt s.quote c = some sym)
    (hcall : sym = .openParen → s.cursorKind ≠ .function →
      Text.isAllBlank u = false ∧ Text.isAllBlank v = false) :
    (s.scan c).Like (OnlyAt (s.receiver sym) u v) Eq (s'.scan c) := by
  have hw' : s'.word.quoted = true := h.word.quoted.symm.trans hw
  obtain ⟨huses, hscan⟩ := Scanner.scan_of_userAt hc
  obtain ⟨-, hscan'⟩ := Scanner.scan_of_userAt (h.quote ▸ hc)
  rw [hscan, hscan', takeKeyword_of_quoted hw, takeKeyword_of_quoted hw']
  refine Like.symbol (fun _ _ => Or.inl rfl) (h.imp fun _ _ _ hxy => Or.inl hxy) huses
    (admits_onlyAt _ u v) fun hsym hk => ?_
  obtain ⟨hu, hv⟩ := hcall hsym hk
  obtain ⟨a, b, htext, htext'⟩ := h.word.text
  rw [Word.literal, Word.literal, if_pos hw, if_pos hw', htext, htext', isEmpty_strip_around hu,
    isEmpty_strip_around hv]

/-- **From the quoted text on the two scanners do alike**, down to the end of the
script. -/
theorem Like.rest_of_quoted (h : s.Like (fun _ => Eq) (Around u v) s') (hw : s.word.quoted = true)
    (cs : List Char)
    (hcall : firstUser s.quote cs = some .openParen → s.cursorKind ≠ .function →
      Text.isAllBlank u = false ∧ Text.isAllBlank v = false) :
    ∃ i, ((s.feed cs).andThen Scanner.finish).Like (OnlyAt i u v) Eq
      ((s'.feed cs).andThen Scanner.finish) := by
  induction cs generalizing s s' with
  | nil =>
    -- no symbol has used the word up: it becomes a leaf
    have hw' : s'.word.quoted = true := h.word.quoted.symm.trans hw
    have hlike : s.Like (OnlyAt s.tree.size u v) (Around u v) s' :=
      h.imp fun _ _ _ hxy => Or.inl hxy
    refine ⟨s.tree.size, hlike.finish ?_ ?_⟩
    · rw [takeKeyword_of_quoted hw, takeKeyword_of_quoted hw']
      exact hlike
    · rw [takeKeyword_of_quoted hw]
      exact admits_onlyAt _ u v
  | cons c cs ih =>
    rw [firstUser] at hcall
    rw [Scanner.feed, Scanner.feed]
    cases hc : userAt s.quote c with
    | some sym =>
      rw [hc, Option.some_or] at hcall
      have hscan := h.scan_of_userAt hw hc fun hsym => hcall (congrArg some hsym)
      -- from here on the words agree, and likeness is kept without further ado
      have hR : ∀ i x, OnlyAt (s.receiver sym) u v i x x := fun _ _ => Or.inl rfl
      refine ⟨s.receiver sym, ?_⟩
      refine Scanned.Like.andThen (hscan.andThen fun s₁ s₁' h₁ => h₁.advance.feed hR cs) ?_
      exact fun s₂ s₂' h₂ => h₂.finish h₂.takeKeyword (admits_eq (hR _))
    | none =>
      -- the word is still quoted, and differs around the same place
      obtain ⟨s₁, hs₁, htree, hcursor, hw₁⟩ := Scanner.scan_of_quoted hw hc
      obtain ⟨s₁', hs₁', h₁⟩ :
          ∃ s₁', s'.scan c = .ok s₁' ∧ s₁.Like (fun _ => Eq) (Around u v) s₁' := by
        have hscan := h.scan_of_quoted hw hc
        rw [hs₁] at hscan
        generalize s'.scan c = r at hscan
        rcases hscan with hscan | -
        exact ⟨_, rfl, hscan⟩
      have hquote : s₁.advance.quote = quoteAfter s.quote c := (quote_scan hs₁ :)
      have hkind : s₁.advance.cursorKind = s.cursorKind := by
        change s₁.cursorKind = s.cursorKind
        rw [Scanner.cursorKind, htree, hcursor, Scanner.cursorKind]
      rw [hs₁, hs₁']
      refine ih h₁.advance hw₁ ?_
      rw [hquote, hkind]
      rwa [hc, Option.none_or] at hcall

/-! ### The quoted text itself -/

theorem keywords_feed_quoted {q : Char} (hq : s.quote = some q) (hcs : q ∉ cs)
    (h : s.feed (cs ++ [q]) = .ok s') : s'.keywords = s.keywords := by
  induction cs generalizing s with
  | nil =>
    have hscan : s.scan q = .ok { s with quote := none } := by simp [scan, hq]
    obtain ⟨s₁, hs₁, h⟩ := feed_cons_ok.mp h
    rw [hscan] at hs₁
    cases hs₁
    cases h
    rfl
  | cons c cs ih =>
    obtain ⟨hc, hcs⟩ := not_or.mp (mt List.mem_cons.mpr hcs)
    obtain ⟨s₁, hs₁, h⟩ := feed_cons_ok.mp h
    rw [scan, hq] at hs₁
    dsimp only at hs₁
    rw [if_neg (Ne.symm hc)] at hs₁
    cases hs₁
    exact (ih (by exact hq) hcs h :)

/-- **A quoted text is added to the word**, once the word before it was looked at
for a keyword. -/
theorem feed_quotation (hq : s.quote = none) (q : Quotation) :
    ∃ s', s.feed (Atom.quotation q).render.toList = .ok s' ∧ s'.tree = s.takeKeyword.tree ∧
      s'.cursor = s.takeKeyword.cursor ∧ s'.quote = none ∧
      s'.keywords = s.takeKeyword.keywords ∧
      s'.word.text = s.takeKeyword.word.text ++ q.text ∧ s'.word.quoted = true := by
  -- the opening mark is a symbol, and begins the word
  obtain ⟨s₁, hopen, hopened⟩ : ∃ s₁, s.scan q.mark.char = .ok s₁ ∧
      s₁ = { s.takeKeyword with
        word := { s.takeKeyword.beginWord with quoted := true }, quote := some q.mark.char } := by
    refine ⟨_, ?_, rfl⟩
    have hquotes := q.quotes
    rw [scan, hq]
    cases hmark : q.mark with
    | singleQuote | doubleQuote => rfl
    | _ =>
      rw [hmark] at hquotes
      cases hquotes
  have hquote : s₁.advance.quote = some q.mark.char := by rw [hopened]; rfl
  have hquoted : s₁.advance.word.quoted = true := by rw [hopened]; rfl
  obtain ⟨s', hfeed, htree, hcursor, hclosed, htext, hw⟩ :=
    feed_quoted hquote q.unmarked hquoted
  have hkeywords := keywords_feed_quoted hquote q.unmarked hfeed
  refine ⟨s', ?_, ?_, ?_, hclosed, ?_, ?_, hw⟩
  · simp only [Atom.render, String.toList_append, String.toList_singleton, List.append_assoc]
    exact feed_cons_ok.mpr ⟨s₁, hopen, hfeed⟩
  · rw [htree, hopened]
    rfl
  · rw [hcursor, hopened]
    rfl
  · rw [hkeywords, hopened]
    rfl
  · rw [htext, hopened, String.ofList_toList]
    rfl

/-- Another quoted text in its place leaves a scanner that differs in one place of
the word. -/
theorem like_of_feed_quotation {x x' : Scanner} (hq : s.quote = none) {q q' : Quotation}
    (hx : s.feed (Atom.quotation q).render.toList = .ok x)
    (hx' : s.feed (Atom.quotation q').render.toList = .ok x') :
    x.Like (fun _ => Eq) (Around q.text q'.text) x' := by
  obtain ⟨y, hy, htree, hcursor, hquote, hkeywords, htext, hw⟩ := feed_quotation hq q
  obtain ⟨y', hy', htree', hcursor', hquote', hkeywords', htext', hw'⟩ := feed_quotation hq q'
  obtain rfl := Scanned.ok.inj (hy.symm.trans hx)
  obtain rfl := Scanned.ok.inj (hy'.symm.trans hx')
  refine ⟨?_, hcursor.trans hcursor'.symm, hquote.trans hquote'.symm,
    hkeywords.trans hkeywords'.symm, ?_, hw.trans hw'.symm, fun hplain => ?_⟩
  · rw [htree, htree']
    exact Tree.Like.refl _
  · exact ⟨s.takeKeyword.word.text, "", by simp [htext], by simp [htext']⟩
  · rw [hw] at hplain
    cases hplain

/-! ### Whole sources -/

/-- **The word with the quoted text in it becomes the name of a call**: the first
symbol behind it that uses it up is an opening parenthesis, and no function header
is open. -/
def NamesCall (s : Scanner) (rest : String) : Prop :=
  firstUser none rest.toList = some .openParen ∧ s.takeKeyword.cursorKind ≠ .function

theorem parse_of_ne {name source : String} (h : source ≠ "") :
    s.parse name (some source) = (((s.start name).feed source.toList).andThen finish).andThen
      fun s => .ok (s.noteTree name) := by
  have hne : source.isEmpty = false := by simpa using h
  simp only [parse, hne, Bool.false_eq_true, if_false]
  cases (s.start name).feed source.toList <;> rfl

theorem render_ne_empty (before rest : String) (q : Quotation) :
    before ++ (Atom.quotation q).render ++ rest ≠ "" := by
  intro h
  have hempty := congrArg String.toList h
  simp [Atom.render] at hempty

/-- **Quoted text is no structure**: with another quoted text in its place a script
is read alike, with other texts in one node at most. Where the word names a call,
both texts must have something in them that is not blank. -/
theorem parse_alike (s : Scanner) (name before rest : String) {x : Scanner}
    (hx : (s.start name).feed before.toList = .ok x) (hq : x.quote = none) (q q' : Quotation)
    (hcall : x.NamesCall rest →
      Text.isAllBlank q.text = false ∧ Text.isAllBlank q'.text = false) :
    ∃ i, (s.parse name (some (before ++ (Atom.quotation q).render ++ rest))).Like
      (OnlyAt i q.text q'.text) Eq
      (s.parse name (some (before ++ (Atom.quotation q').render ++ rest))) := by
  obtain ⟨y, hy, htree, hcursor, hquote, -, -, hw⟩ := feed_quotation hq q
  obtain ⟨y', hy', -⟩ := feed_quotation hq q'
  have hlike := like_of_feed_quotation hq hy hy'
  have hkind : y.cursorKind = x.takeKeyword.cursorKind := by
    rw [cursorKind, htree, hcursor, cursorKind]
  obtain ⟨i, hrest⟩ := hlike.rest_of_quoted hw rest.toList fun huser hk => by
    rw [hquote] at huser
    rw [hkind] at hk
    exact hcall ⟨huser, hk⟩
  refine ⟨i, ?_⟩
  have hread : ∀ {q : Quotation} {y : Scanner}, x.feed (Atom.quotation q).render.toList = .ok y →
      (s.start name).feed (before ++ (Atom.quotation q).render ++ rest).toList
        = y.feed rest.toList := by
    intro q y hy
    rw [String.toList_append, String.toList_append, feed_append, feed_append, hx]
    simp only [Scanned.andThen]
    rw [hy]
  rw [parse_of_ne (render_ne_empty before rest q), parse_of_ne (render_ne_empty before rest q'),
    hread hy, hread hy']
  exact hrest.andThen fun s₁ s₁' h₁ => .ok (h₁.noteTree name)

/-- A name in double quotes. -/
def quotedName : Quotation := ⟨.doubleQuote, rfl, "a", by decide⟩

/-- A text full of symbols, in single quotes. -/
def quotedSymbols : Quotation := ⟨.singleQuote, rfl, ");\x7d class (", by decide⟩

/-- A parameter of a header that becomes a call, and the name of a call. -/
theorem parse_alike_symbols :
    (∃ x, (({} : Scanner).start "test").feed "function f(".toList = .ok x ∧ x.quote = none ∧
      ¬x.NamesCall ");" ∧
      ∃ i, (({} : Scanner).parse "test"
          (some ("function f(" ++ (Atom.quotation quotedName).render ++ ");"))).Like
        (OnlyAt i quotedName.text quotedSymbols.text) Eq
        (({} : Scanner).parse "test"
          (some ("function f(" ++ (Atom.quotation quotedSymbols).render ++ ");")))) ∧
      ∃ x, (({} : Scanner).start "test").feed "".toList = .ok x ∧ x.quote = none ∧
        x.NamesCall " (1);" ∧
        ∃ i, (({} : Scanner).parse "test"
            (some ("" ++ (Atom.quotation quotedName).render ++ " (1);"))).Like
          (OnlyAt i quotedName.text quotedSymbols.text) Eq
          (({} : Scanner).parse "test"
            (some ("" ++ (Atom.quotation quotedSymbols).render ++ " (1);"))) := by
  have hlist : firstUser none ");".toList = some .closeParen := by decide
  have hname : firstUser none " (1);".toList = some .openParen := by decide
  have hnot : ∀ x : Scanner, ¬x.NamesCall ");" := by
    rintro x ⟨huser, -⟩
    rw [hlist] at huser
    cases huser
  refine ⟨⟨_, rfl, rfl, hnot _, ?_⟩, _, rfl, rfl, ⟨hname, by decide⟩, ?_⟩
  · exact parse_alike {} "test" "function f(" ");" rfl rfl quotedName quotedSymbols fun h =>
      absurd h (hnot _)
  · exact parse_alike {} "test" "" " (1);" rfl rfl quotedName quotedSymbols fun _ =>
      ⟨by decide, by decide⟩

/-- Where the word names a call, what is quoted does matter: blanks are no name. -/
example :
    (({} : Scanner).parse "test" (some "' '();")).failure?
        = some (.script { fault := .unexpected .openParen,
                          location := some { file := "test", offset := 4, column := 4 } }) ∧
      (({} : Scanner).parse "test" (some "'a'();")).failure? = none :=
  ⟨rfl, rfl⟩

end Scanner

end ScopeScript
