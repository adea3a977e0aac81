import ScopeScript.Proofs.Scanner.Blanks
import ScopeScript.Proofs.Scanner.Brackets
import ScopeScript.Proofs.Scanner.Naming
import ScopeScript.Proofs.Tree.Texts

/-!
# No text is lost

The characters of a script that are no symbols, or stand between quotes, are collected
in the word, and from there they go to the name of a scope, to a parameter, an argument
or a leaf, or they spell a keyword. The word is also forgotten in many places. **What is
forgotten are blanks only, and nothing is put where something was**: any other character
occurs in the scanned text just as often as in the keywords that were recognised and in
the texts of the tree together (`ScopeScript.Scanner.parse_conserves_text`).

The count is kept step by step: what is in the word and in the tree
(`ScopeScript.Scanner.letters`) stays the same with every symbol
(`ScopeScript.Scanner.letters_symbol`), and only grows with a character that is
collected. Where a scope is named it had no text before, which is what
`ScopeScript.Scanner.Orderly` is for, and where a parameter becomes an argument its name
becomes its value.
-/

namespace ScopeScript

/-! ### What is scanned and recognised -/

/-- Whether a character is part of the text, given the quote that is open: between
quotes all but the closing quote are, and outside all that are no symbols. -/
def isText : Option Char → Char → Bool
  | some q, c => c != q
  | none, c => (Symbol.ofChar? c).isNone

/-- **The scanned text**, given the quote that is open. -/
def scannedText : Option Char → List Char → List Char
  | _, [] => []
  | quote, c :: cs =>
    (if isText quote c then [c] else []) ++ scannedText (quoteAfter quote c) cs

/-- The characters of some keywords. -/
def Keyword.spelling (ks : List Keyword) : List Char := ks.flatMap fun k => k.text.toList

namespace Scanner

variable {s s' : Scanner} {c : Char} {n : Node}

/-- The keyword that is recognised in the word, if any: what taking it adds to the
keywords. -/
def recognised (s : Scanner) : List Keyword := s.takeKeyword.keywords.drop s.keywords.length

/-- What is recognised when a character is read: a symbol outside quotes has the word
before it looked at. -/
def recognisedAt (s : Scanner) (c : Char) : List Keyword :=
  if s.quote.isNone && (Symbol.ofChar? c).isSome then s.recognised else []

/-- **The keywords that are recognised in a text**, up to and including its end. -/
def spotted (s : Scanner) : List Char → List Keyword
  | [] => s.recognised
  | c :: cs =>
    s.recognisedAt c ++
      match s.scan c with
      | .ok s' => spotted s'.advance cs
      | .failed _ _ => []

/-- How often a character occurs in the word and in the tree. -/
def letters (s : Scanner) (c : Char) : Nat := s.word.text.toList.count c + s.tree.tally c

theorem letters_congr (ht : s'.tree = s.tree) (hw : s'.word.text = s.word.text) (c : Char) :
    s'.letters c = s.letters c := by
  rw [letters, letters, ht, hw]

end Scanner

/-! ### Blanks do not count -/

theorem count_dropWhile {p : Char → Bool} {c : Char} (hc : p c = false) (xs : List Char) :
    (xs.dropWhile p).count c = xs.count c := by
  induction xs with
  | nil => rfl
  | cons x xs ih =>
    rw [List.dropWhile_cons]
    split
    · rename_i hx
      have hne : x ≠ c := by
        rintro rfl
        rw [hc] at hx
        cases hx
      rw [ih, List.count_cons_of_ne hne]
    · rfl

theorem count_strip {c : Char} (hc : Text.isBlank c = false) (text : String) :
    (Text.strip text).toList.count c = text.toList.count c := by
  rw [Text.strip, String.toList_ofList, Text.trimBoth, List.count_reverse, count_dropWhile hc,
    List.count_reverse, count_dropWhile hc]

namespace Word

variable {w : Word} {c : Char}

theorem count_literal (hc : Text.isBlank c = false) (w : Word) :
    w.literal.toList.count c = w.text.toList.count c := by
  rw [literal]
  split
  · rfl
  · exact count_strip hc w.text

/-- A word that is not pending holds blanks only. -/
theorem count_of_not_isPending (hc : Text.isBlank c = false) (h : w.isPending = false) :
    w.text.toList.count c = 0 := by
  refine List.count_eq_zero.mpr fun hmem => ?_
  have hblank : Text.isAllBlank w.text = true := by
    rw [isPending, Bool.or_eq_false_iff] at h
    simpa using h.2
  rw [List.all_eq_true.mp hblank c hmem] at hc
  cases hc

theorem tally_fill (hc : Text.isBlank c = false) (w : Word) (n : Node) :
    (w.fill n).tally c = w.text.toList.count c := by
  rw [Node.tally, Node.plain_string rfl]
  exact count_literal hc w

end Word

namespace Scanner

variable {s s' : Scanner} {c : Char} {n : Node}

/-! ### The parts of a move -/

theorem tally_of_unnamed (h : n.name = none ∧ n.value = none) (c : Char) : n.tally c = 0 := by
  rw [Node.tally, Node.plain_of_value h.2, h.1]
  rfl

/-- **Naming a scope that has no text** puts the word there. -/
theorem letters_nameCursorIfPending (hc : Text.isBlank c = false) (hs : s.Sound)
    (hfree : s.word.isPending → ∀ n, s.tree.node? s.cursor = some n →
      n.name = none ∧ n.value = none) :
    s.nameCursorIfPending.letters c = s.letters c := by
  rw [nameCursorIfPending]
  split
  · rename_i hw
    obtain ⟨n, hn⟩ := Tree.exists_node? hs.isOpen.lt_size
    have hempty := hfree hw n hn
    have hmodify := Tree.tally_modify hn s.word.entitle c
    have hnamed : (s.word.entitle n).tally c = s.word.text.toList.count c := by
      have hvalue : (s.word.entitle n).value = none := hempty.2
      rw [Node.tally, Node.plain_of_value hvalue]
      exact s.word.count_literal hc
    rw [tally_of_unnamed hempty, hnamed] at hmodify
    have hletters : s.nameCursor.letters c = (s.tree.modify s.cursor s.word.entitle).tally c :=
      Nat.zero_add _
    rw [hletters, letters]
    omega
  · rfl

/-- **A new node takes the text of the word.** -/
theorem letters_leaf (ht : s'.tree = s.tree.sprout s.cursor n) (hw : s'.word = {})
    (hn : n.tally c = s.word.text.toList.count c) : s'.letters c = s.letters c := by
  have hempty : s'.word.text.toList.count c = 0 := by
    rw [hw]
    rfl
  rw [letters, letters, ht, Tree.tally_sprout, hempty, hn]
  omega

theorem letters_flushIfPending (hc : Text.isBlank c = false) (hs : s.Sound) :
    s.flushIfPending.letters c = s.letters c := by
  rw [flushIfPending]
  split
  · exact letters_leaf (tree_flushWord_eq hs) (word_note _ _) (s.word.tally_fill hc _)
  · rfl

theorem letters_addParameter (hc : Text.isBlank c = false) (hs : s.Sound) :
    s.addParameter.letters c = s.letters c := by
  refine letters_leaf (tree_addParameter hs) rfl ?_
  rw [Node.tally, Node.plain_of_value rfl]
  exact s.word.count_literal hc

theorem letters_addArgument (hc : Text.isBlank c = false) (hs : s.Sound) :
    s.addArgument.letters c = s.letters c := by
  refine letters_leaf (tree_addArgument hs) s.word_addArgument ?_
  split
  · exact s.word.tally_fill hc _
  · rename_i hw
    rw [Word.count_of_not_isPending hc (eq_false_of_ne_true hw)]
    exact tally_of_unnamed ⟨rfl, rfl⟩ c

theorem letters_pushScope (s : Scanner) (kind : NodeKind) (place : Location) (c : Char) :
    (s.pushScope kind place).letters c = s.letters c := by
  rw [letters, letters, word_pushScope, tree_pushScope, Tree.tally_sprout,
    tally_of_unnamed ⟨rfl, rfl⟩ c]
  omega

theorem letters_pushNamed (hs : s.Sound) (kind : NodeKind) {name : Option String}
    (hname : (name.getD "").toList.count c = s.word.text.toList.count c) :
    (s.pushNamed kind name).letters c = s.letters c := by
  refine letters_leaf (tree_pushNamed hs kind name) rfl ?_
  rw [Node.tally, Node.plain_of_value rfl]
  exact hname

theorem letters_popScope (hc : Text.isBlank c = false) (h : s.popScope = .ok s') :
    s'.letters c = s.letters c := by
  obtain ⟨parent, line, -, hw, rfl⟩ := popScope_ok h
  rw [letters, letters, word_note, tree_note, Word.count_of_not_isPending hc hw]
  rfl

/-! ### Keywords -/

/-- **A keyword is used up**, with blanks around it. -/
theorem letters_takeKeyword (hc : Text.isBlank c = false) (s : Scanner) :
    s.takeKeyword.letters c + (Keyword.spelling s.recognised).count c = s.letters c := by
  have hword : ∀ k, Keyword.ofText? s.word.text = some k →
      s.word.text.toList.count c = k.text.toList.count c := by
    intro k hk
    have hspelled := List.find?_some hk
    rw [beq_iff_eq] at hspelled
    rw [hspelled, count_strip hc]
  have hclear : ∀ line, (s.clearWord.note line).letters c = s.tree.tally c := by
    intro line
    rw [letters, word_note, tree_note]
    exact Nat.zero_add _
  rcases s.takeKeyword_cases with htake | ⟨k, line, -, hk, ⟨-, htake⟩ | ⟨kind, -, htake⟩⟩
  · have hnone : s.recognised = [] := by rw [recognised, htake, List.drop_length]
    rw [hnone, htake]
    rfl
  · have hone : s.recognised = [k] := by
      rw [recognised, htake, addKeyword, keywords_note]
      exact List.drop_left
    have hletters : s.takeKeyword.letters c = s.tree.tally c := by
      rw [htake, ← hclear line]
      exact letters_congr rfl rfl c
    rw [hone, hletters, letters, hword k hk, Keyword.spelling, List.flatMap_singleton]
    omega
  · have hone : s.recognised = [k] := by
      rw [recognised, htake, addKeyword, Scanner.pushScope, keywords_note]
      simp [addChild, clearWord]
    have hletters : s.takeKeyword.letters c = s.tree.tally c :=
      calc s.takeKeyword.letters c
          = ((s.clearWord.note line).pushScope kind s.wordLocation).letters c := by
            rw [htake]
            exact letters_congr rfl rfl c
        _ = s.tree.tally c := (letters_pushScope _ _ _ _).trans (hclear line)
    rw [hone, hletters, letters, hword k hk, Keyword.spelling, List.flatMap_singleton]
    omega

/-! ### Headers that become calls -/

/-- **Parameters that become arguments keep their text**, if they had no value. -/
theorem tally_adoptParameters {call : Nat} {ps : List Nat}
    (h : s.adoptParameters call ps = .ok s') (hnd : ps.Nodup)
    (hvalue : ∀ p ∈ ps, ∀ n, s.tree.node? p = some n → n.value = none) (c : Char) :
    s'.tree.tally c = s.tree.tally c := by
  induction ps generalizing s with
  | nil =>
    cases h
    rfl
  | cons p ps ih =>
    obtain ⟨hp, hnd⟩ := List.nodup_cons.mp hnd
    cases hname : s.tree.name? p with
    | none =>
      rw [adoptParameters_cons_none hname] at h
      cases h
    | some name =>
      rw [adoptParameters_cons_some hname] at h
      obtain ⟨n, hn, hnname⟩ := Option.bind_eq_some_iff.mp hname
      have hrest : ∀ q ∈ ps, ∀ m,
          (s.modifyNode p (Node.asArgument call)).tree.node? q = some m → m.value = none := by
        intro q hq m hm
        have hpq : p ≠ q := fun heq => hp (heq ▸ hq)
        rw [modifyNode, Tree.node?_modify_of_ne hpq] at hm
        exact hvalue q (List.mem_cons_of_mem p hq) m hm
      rw [ih h hnd hrest]
      refine Tree.tally_modify_of_plain (fun m hm => ?_) c
      obtain rfl : m = n := Option.some.inj (hm.symm.trans hn)
      have hargument : (m.asArgument call).value = some (.string name) := by
        rw [Node.asArgument, hnname]
        rfl
      rw [Node.plain_string hargument, Node.plain_of_value (hvalue p List.mem_cons_self m hm),
        hnname, Option.getD_some]

theorem word_adoptParameters (s : Scanner) (call : Nat) (ps : List Nat) :
    (s.adoptParameters call ps).state.word = s.word := by
  induction ps generalizing s with
  | nil => rfl
  | cons p ps ih =>
    cases hp : s.tree.name? p with
    | none =>
      rw [adoptParameters_cons_none hp]
      rfl
    | some name =>
      rw [adoptParameters_cons_some hp, ih]
      rfl

theorem word_hoistParameters {call : Nat} (h : s.hoistParameters call = .ok s') :
    s'.word = s.word := by
  rw [hoistParameters] at h
  split at h
  · cases h
    rfl
  · rename_i l _
    have hadopt := s.word_adoptParameters call (s.tree.children l)
    obtain ⟨s₁, hs₁, h⟩ := Scanned.andThen_ok.mp h
    rw [hs₁] at hadopt
    cases h
    exact hadopt

/-- **A header that becomes a call loses no text.** -/
theorem letters_hoistParameters (hs : s.Sound) (hlists : s.tree.PlainLists)
    (hk : s.cursorKind = .function) (h : s.asCall.hoistParameters s.cursor = .ok s') (c : Char) :
    s'.letters c = s.letters c := by
  have hcall : s.asCall.tree.tally c = s.tree.tally c := by
    refine Tree.tally_modify_of_plain ?_ c
    exact fun _ _ => rfl
  cases hl : s.tree.childOfKind? s.cursor .functionParams with
  | none =>
    rw [hoistParameters_none hk hl] at h
    cases h
    rw [letters, letters, hcall]
    rfl
  | some l =>
    rw [hoistParameters_some hk hl] at h
    obtain ⟨s₁, hadopt, h⟩ := Scanned.andThen_ok.mp h
    cases h
    have hlist := Tree.kind?_of_childOfKind? hl
    have hnd : (s.tree.children l).Nodup := (hs.laid.increasing l).imp Nat.ne_of_lt
    have hvalue : ∀ p ∈ s.tree.children l, ∀ n, s.asCall.tree.node? p = some n →
        n.value = none := by
      intro p hp n hn
      obtain ⟨m, hm, -, hsame⟩ := keepsText_asCall.modify hn
      rw [hsame]
      exact hlists.held l p m hlist hp hm
    have hadopted : s₁.tree.tally c = s.tree.tally c :=
      (tally_adoptParameters hadopt hnd hvalue c).trans hcall
    have hrelist : (s₁.relist s.cursor l (s.tree.children l)).tree.tally c = s₁.tree.tally c := by
      refine (Tree.tally_modify_of_plain ?_ c).trans (Tree.tally_modify_of_plain ?_ c)
      · exact fun _ _ => rfl
      · exact fun _ _ => rfl
    have hword : s₁.word = s.word := by
      have hstate := s.asCall.word_adoptParameters s.cursor (s.tree.children l)
      rwa [hadopt] at hstate
    rw [letters, letters, hrelist, hadopted, ← hword]
    rfl

theorem letters_retire (hc : Text.isBlank c = false) (hs : s.Sound)
    (hlists : s.tree.PlainLists) (hk : s.cursorKind = .function) (h : s.retire = .ok s') :
    s'.letters c = s.letters c := by
  obtain ⟨s₁, s₂, line, hhoist, hpop, rfl⟩ := retire_ok h
  calc s₂.endStatement.letters c = s₂.letters c := letters_congr rfl rfl c
    _ = (s₁.note line).letters c := letters_popScope hc hpop
    _ = s₁.letters c := letters_congr (tree_note _ _) (by rw [word_note]) c
    _ = s.letters c := letters_hoistParameters hs hlists hk hhoist c

/-! ### Symbols -/

theorem letters_openParen (hc : Text.isBlank c = false) (hs : s.Sound) (h : s.Orderly)
    (hread : s.openParen = .ok s') : s'.letters c = s.letters c := by
  rcases openParen_ok hread with ⟨hk, rfl⟩ | ⟨-, -, rfl⟩
  · rw [letters_pushScope]
    exact letters_nameCursorIfPending hc hs fun _ n hn => h.unnamed_of_openParen hread hk hn
  · refine letters_pushNamed hs .call ?_
    rw [Option.getD_some, count_strip hc, Word.count_literal hc]

theorem letters_closeParen (hc : Text.isBlank c = false) (hs : s.Sound)
    (hread : s.closeParen = .ok s') : s'.letters c = s.letters c := by
  obtain ⟨s₁, hpop, hcases⟩ := closeParen_ok hread
  rw [letters_popScope hc hpop]
  rcases hcases with ⟨-, -, rfl⟩ | ⟨-, -, rfl⟩ | ⟨-, -, rfl⟩
  · exact letters_addParameter hc hs
  · exact letters_addArgument hc hs
  · rfl

theorem letters_comma (hc : Text.isBlank c = false) (hs : s.Sound)
    (hread : s.comma = .ok s') : s'.letters c = s.letters c := by
  rcases comma_ok hread with ⟨-, -, rfl⟩ | ⟨-, rfl⟩
  · exact letters_addParameter hc hs
  · exact letters_addArgument hc hs

theorem letters_openBrace (hc : Text.isBlank c = false) (hs : s.Sound) (h : s.Orderly)
    (hread : s.openBrace = .ok s') : s'.letters c = s.letters c := by
  have hnamed : s.cursorKind = .function ∨ s.cursorKind.isType →
      s.nameCursorIfPending.letters c = s.letters c := fun hk =>
    letters_nameCursorIfPending hc hs fun hw n hn => h.unnamed_of_openBrace hread hk hw hn
  rcases openBrace_ok hread with ⟨hk, rfl⟩ | ⟨hk, rfl⟩ | ⟨-, -, rfl⟩
  · exact (letters_pushScope _ _ _ _).trans (hnamed (Or.inl hk))
  · exact (letters_pushScope _ _ _ _).trans (hnamed (Or.inr hk))
  · refine letters_pushNamed hs .none ?_
    split
    · rw [Option.getD_some, Word.count_literal hc]
    · rename_i hw
      rw [Word.count_of_not_isPending hc (eq_false_of_ne_true hw)]
      rfl

theorem letters_closeBrace (hc : Text.isBlank c = false) (hs : s.Sound)
    (hread : s.closeBrace = .ok s') : s'.letters c = s.letters c := by
  obtain ⟨-, -, s₁, s₂, hpop, rfl, hcases⟩ := closeBrace_ok hread
  have hfirst : s₁.letters c = s.letters c :=
    (letters_popScope hc hpop).trans (letters_flushIfPending hc hs)
  rcases hcases with ⟨-, hpop'⟩ | ⟨-, -, rfl⟩
  · exact (letters_popScope hc hpop').trans hfirst
  · exact hfirst

theorem letters_nameHeader (hc : Text.isBlank c = false) (hs : s.Sound) (h : s.Orderly) :
    s.nameHeader.letters c = s.letters c := by
  rw [nameHeader]
  split
  · rename_i hname
    exact letters_nameCursorIfPending hc hs fun _ n hn =>
      h.unnamed_of_nameHeader (Option.isNone_iff_eq_none.mp hname) hn
  · rfl

theorem letters_semicolon (hc : Text.isBlank c = false) (hs : s.Sound) (h : s.Orderly)
    (hread : s.semicolon = .ok s') : s'.letters c = s.letters c := by
  rcases semicolon_ok hread with ⟨hheader, hretire⟩ | ⟨-, -, -, rfl⟩
  · have hnamed := hs.nameHeader
    have hflush := hnamed.reach s.nameHeader.reach_flushIfPending
    have hlists : s.nameHeader.flushIfPending.tree.PlainLists := by
      refine plainLists_flushIfPending hnamed (plainLists_nameHeader h (by simp [hheader.1])) ?_
      rw [hheader.nameHeader.1]
      decide
    rw [letters_retire hc hflush hlists hheader.nameHeader.flushIfPending.1 hretire,
      letters_flushIfPending hc hnamed, letters_nameHeader hc hs h]
  · exact letters_flushIfPending hc hs

/-- **A symbol neither adds nor loses text**, in the word and in the tree together. -/
theorem letters_symbol {sym : Symbol} (hc : Text.isBlank c = false) (hs : s.Sound)
    (h : s.Orderly) (hread : s.symbol sym = .ok s') : s'.letters c = s.letters c := by
  cases sym with
  | openParen => exact letters_openParen hc hs h hread
  | closeParen => exact letters_closeParen hc hs hread
  | openBrace => exact letters_openBrace hc hs h hread
  | closeBrace => exact letters_closeBrace hc hs hread
  | comma => exact letters_comma hc hs hread
  | semicolon => exact letters_semicolon hc hs h hread
  | openBracket | closeBracket | tab | space | singleQuote | doubleQuote | newline =>
    cases hread
    exact letters_congr rfl rfl c

/-! ### Characters and whole sources -/

theorem spelling_append (ks ks' : List Keyword) :
    Keyword.spelling (ks ++ ks') = Keyword.spelling ks ++ Keyword.spelling ks' :=
  List.flatMap_append

theorem letters_append (s : Scanner) (x c : Char) :
    (s.append x).letters c = s.letters c + [x].count c := by
  have htext : (s.append x).word.text.toList = s.word.text.toList ++ [x] :=
    String.toList_push x
  rw [letters, letters, htext, List.count_append]
  change s.word.text.toList.count c + [x].count c + s.tree.tally c = _
  omega

/-- **A character that is part of the text is collected**, and no other adds anything. -/
theorem letters_scan {x : Char} (hc : Text.isBlank c = false) (hs : s.Nested) (h : s.Orderly)
    (hread : s.scan x = .ok s') :
    s'.letters c + (Keyword.spelling (s.recognisedAt x)).count c
      = s.letters c + (if isText s.quote x then [x] else []).count c := by
  rw [recognisedAt]
  rw [scan] at hread
  cases hq : s.quote with
  | some q =>
    rw [hq] at hread
    dsimp only at hread
    split at hread
    · rename_i hx
      cases hread
      simp only [isText, hx, bne_self_eq_false, Bool.false_eq_true, if_false, Option.isNone_some,
        Bool.false_and]
      rfl
    · rename_i hx
      cases hread
      have hcollected := s.letters_append x c
      simp only [isText, bne_iff_ne.mpr hx, if_true, Option.isNone_some, Bool.false_and,
        Bool.false_eq_true, if_false]
      exact hcollected
  | none =>
    rw [hq] at hread
    dsimp only at hread
    cases hx : Symbol.ofChar? x with
    | none =>
      rw [hx] at hread
      cases hread
      simp only [isText, hx, Option.isNone_none, if_true, Option.isSome_none, Bool.and_false,
        Bool.false_eq_true, if_false]
      exact s.letters_append x c
    | some sym =>
      rw [hx] at hread
      have hkeyword := s.letters_takeKeyword hc
      have hsymbol := letters_symbol hc hs.takeKeyword.toSound (h.takeKeyword hs.toSound) hread
      simp only [isText, hx, Option.isNone_some, Bool.false_eq_true, if_false, Option.isNone_none,
        Option.isSome_some, Bool.and_self, if_true, List.count_nil]
      omega

theorem Orderly.feed {cs : List Char} (hs : s.Nested) (h : s.Orderly)
    (hread : s.feed cs = .ok s') : s'.Orderly := by
  induction cs generalizing s with
  | nil =>
    cases hread
    exact h
  | cons x cs ih =>
    obtain ⟨s₁, hx, hread⟩ := feed_cons_ok.mp hread
    have hs₁ : s₁.advance.Nested := (hs.scan hx).1.advance
    exact ih hs₁ ((h.scan hs hx).congr rfl rfl) hread

/-- At the end of a script the last word is looked at, and becomes a leaf of the root. -/
theorem finish_ok (h : s.finish = .ok s') :
    s' = s.takeKeyword.flushIfPending ∧ s'.tree.parent? s'.cursor = none := by
  rw [finish] at h
  split at h
  · cases h
  · dsimp only at h
    split at h
    · rename_i hroot
      cases h
      exact ⟨rfl, Option.isNone_iff_eq_none.mp hroot⟩
    · cases h

/-- **At its end a scan has put all text into the tree.** -/
theorem letters_finish (hc : Text.isBlank c = false) (hs : s.Nested) (h : s.Orderly)
    (hend : s.finish = .ok s') : s'.letters c = s'.tree.chars.count c := by
  obtain ⟨rfl, hroot⟩ := finish_ok hend
  have hkey := hs.takeKeyword.toSound
  have hsound := hkey.reach s.takeKeyword.reach_flushIfPending
  have hkind : s.takeKeyword.cursorKind ≠ .functionParams := by
    have hzero := (hsound.laid.orphan_iff _ hsound.isOpen.lt_size).mp hroot
    have hglobal := (hsound.laid.global_iff _).mpr hzero
    rw [← hkey.cursorKind_flushIfPending, cursorKind_of_kind? hglobal]
    decide
  have hlists := plainLists_flushIfPending hkey (h.takeKeyword hs.toSound).lists hkind
  have hword : s.takeKeyword.flushIfPending.word.text.toList.count c = 0 := by
    rw [flushIfPending]
    split
    · exact congrArg (fun w : Word => w.text.toList.count c) (word_note _ _)
    · rename_i hw
      exact Word.count_of_not_isPending hc (eq_false_of_ne_true hw)
  rw [letters, hword, Nat.zero_add]
  refine (hsound.laid.count_chars (fun l hl => ?_) c).symm
  obtain ⟨n, hn, hk⟩ := Option.map_eq_some_iff.mp hl
  obtain ⟨hname, hvalue⟩ := hlists.label l n hn hk
  rw [Tree.charsAt, hn, Option.map_some, Option.getD_some, Node.plain_of_value hvalue, hname]
  rfl

/-- **Text is conserved from any point of a scan to its end.** -/
theorem letters_feed {s₁ : Scanner} {cs : List Char} (hc : Text.isBlank c = false)
    (hs : s.Nested) (h : s.Orderly) (hread : s.feed cs = .ok s₁) (hend : s₁.finish = .ok s') :
    s'.letters c + (Keyword.spelling (s.spotted cs)).count c
      = s.letters c + (scannedText s.quote cs).count c := by
  induction cs generalizing s with
  | nil =>
    obtain rfl : s = s₁ := Scanned.ok.inj hread
    rw [(finish_ok hend).1, letters_flushIfPending hc (hs.reach s.reach_takeKeyword)]
    exact s.letters_takeKeyword hc
  | cons x cs ih =>
    obtain ⟨s₂, hx, hread⟩ := feed_cons_ok.mp hread
    have hrest := ih (hs.scan hx).1.advance ((h.scan hs hx).congr rfl rfl) hread
    have hfirst := letters_scan hc hs h hx
    have hquote : s₂.advance.quote = quoteAfter s.quote x := (quote_scan hx :)
    have hadvance : s₂.advance.letters c = s₂.letters c := letters_congr rfl rfl c
    rw [hquote, hadvance] at hrest
    rw [spotted, hx, spelling_append, List.count_append, scannedText, List.count_append]
    dsimp only
    omega

theorem tree_noteTree (s : Scanner) (name : String) : (s.noteTree name).tree = s.tree := by
  rw [noteTree]
  split
  · exact tree_note _ _
  · rfl

/-- **No text is lost, overwritten or doubled.** Where a parse succeeds, a character that
is no blank occurs in the scanned text just as often as in the keywords that were
recognised and in the texts of the nodes below the root together. -/
theorem parse_conserves_text (s : Scanner) (name source : String) {s' : Scanner}
    (h : s.parse name (some source) = .ok s') {c : Char} (hc : Text.isBlank c = false) :
    (scannedText none source.toList).count c
      = (Keyword.spelling ((s.start name).spotted source.toList)).count c
        + s'.tree.chars.count c := by
  obtain ⟨s₁, s₂, hfeed, hfinish, rfl⟩ := parse_ok h
  have hnested := s.nested_start name
  have horderly := s.orderly_start name
  have hconserved := letters_feed hc hnested horderly hfeed hfinish
  rw [letters_finish hc (hnested.feed hfeed).1 (horderly.feed hnested hfeed) hfinish] at hconserved
  have hstart : (s.start name).letters c = 0 := rfl
  have hquote : (s.start name).quote = none := rfl
  rw [hstart, hquote, Nat.zero_add] at hconserved
  rw [tree_noteTree, ← hconserved, Nat.add_comm]

/-- In a header that becomes a call, one `c` is part of a keyword and the other one of a
quoted argument. -/
theorem parse_conserves_text_header :
    ∃ s' : Scanner, ({} : Scanner).parse "m" (some "function f(a, 'b c');") = .ok s' ∧
      Text.isBlank 'c' = false ∧
      (scannedText none "function f(a, 'b c');".toList).count 'c' = 2 ∧
      (Keyword.spelling ((({} : Scanner).start "m").spotted
        "function f(a, 'b c');".toList)).count 'c' = 1 ∧
      s'.tree.chars.count 'c' = 1 := by
  have hblank : Text.isBlank 'c' = false := by decide
  obtain ⟨s', hparse⟩ : ∃ s' : Scanner,
      ({} : Scanner).parse "m" (some "function f(a, 'b c');") = .ok s' := ⟨_, rfl⟩
  have hscanned : (scannedText none "function f(a, 'b c');".toList).count 'c' = 2 := by decide
  have hspotted : (Keyword.spelling ((({} : Scanner).start "m").spotted
      "function f(a, 'b c');".toList)).count 'c' = 1 := by decide
  have hconserved := parse_conserves_text {} "m" "function f(a, 'b c');" hparse hblank
  refine ⟨s', hparse, hblank, hscanned, hspotted, ?_⟩
  omega

end Scanner

end ScopeScript
