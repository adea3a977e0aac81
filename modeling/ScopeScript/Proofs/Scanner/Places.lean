import ScopeScript.Proofs.Scanner.Blanks
import ScopeScript.Proofs.Scanner.Growth

/-!
# Places are places of the source

A scanner writes down places all the time: the place it has reached, the place where the
word began, the place of every node, and the place that an error complains about. **Each
of them is the place of a character of the source**
(`ScopeScript.Scanner.places_of_source`), and what that place is can be told from the
characters before it alone (`ScopeScript.placeAfter`): the offset counts them, the line
counts the newlines among them that stand outside quotes, and the column counts what
comes after the last of these.

The proof is about any set `P` of places. A scanner that stands at a place of `P` and
remembers places of `P` only (`ScopeScript.Scanner.Located`) makes moves after which this
is so again, and if it fails it complains about a place of `P`
(`ScopeScript.Scanned.Located`). Two places of the end of a script are not covered by
this, since the end of a script is not a character of it: there a word that is left over
has begun before, and a scope that is left open has its node.
-/

namespace ScopeScript

/-! ### Lines and columns -/

/-- For every character of a text, whether it ends a line: a newline does so outside
quotes. The quote given is the one that is open before the text. -/
def lineEnds : Option Char → List Char → List Bool
  | _, [] => []
  | quote, c :: cs => (quote.isNone && c == '\n') :: lineEnds (quoteAfter quote c) cs

/-- **The place reached once the beginning of a script has been read.** -/
def placeAfter (name : String) (read : List Char) : Location where
  file := name
  offset := 1 + read.length
  line := 1 + (lineEnds none read).count true
  column := 1 + ((lineEnds none read).reverse.takeWhile (!·)).length

theorem lineEnds_concat (quote : Option Char) (cs : List Char) (c : Char) :
    lineEnds quote (cs ++ [c])
      = lineEnds quote cs ++ [(cs.foldl quoteAfter quote).isNone && c == '\n'] := by
  induction cs generalizing quote with
  | nil => rfl
  | cons b cs ih => rw [List.cons_append, lineEnds, ih, lineEnds, List.cons_append, List.foldl_cons]

/-- One more character leads to the next column, or to the next line. -/
theorem placeAfter_concat (name : String) (read : List Char) (c : Char) :
    placeAfter name (read ++ [c])
      = (if (read.foldl quoteAfter none).isNone && c == '\n' then (placeAfter name read).newline
          else placeAfter name read).advance := by
  rw [placeAfter, lineEnds_concat, List.length_append]
  cases (read.foldl quoteAfter none).isNone && c == '\n' with
  | true =>
    simp [placeAfter, Location.newline, Location.advance, Location.advanceBy]
    omega
  | false =>
    simp [placeAfter, Location.advance, Location.advanceBy]
    omega

/-! ### Trees -/

/-- The nodes of the tree have places of `P`. -/
def Tree.Within (P : Location → Prop) (t : Tree) : Prop :=
  ∀ i n, t.node? i = some n → P n.location

namespace Tree.Within

variable {P : Location → Prop} {t : Tree}

theorem modify (h : t.Within P) (i : Nat) {f : Node → Node}
    (hf : ∀ n, (f n).location = n.location) : (t.modify i f).Within P := by
  intro j n hn
  rw [node?_modify] at hn
  split at hn
  · obtain ⟨m, hm, rfl⟩ := Option.map_eq_some_iff.mp hn
    rw [hf m]
    exact h j m hm
  · exact h j n hn

theorem addChild (h : t.Within P) (p : Nat) (kind : NodeKind) {place : Location}
    (hplace : P place) : (t.addChild p kind place).1.Within P := by
  have hpush : Tree.Within P
      { t with nodes := t.nodes.push { kind, location := place, parent := some p } } := by
    intro j n hn
    rw [node?, Array.getElem?_push] at hn
    split at hn
    · cases hn
      exact hplace
    · exact h j n hn
  exact hpush.modify p fun _ => rfl

end Tree.Within

/-! ### Scanners that know places of `P` only -/

/-- If it is the fault of the script, the failure is at a place of `P`. -/
def Failure.IsAt (P : Location → Prop) : Failure → Prop
  | .script e => ∃ place, e.location = some place ∧ P place
  | .host _ => True

/-- **The scanner stands at `here`, and what it remembers are places of `P`.** A word
that has not begun is empty. -/
structure Scanner.Located (P : Location → Prop) (here : Location) (s : Scanner) : Prop where
  reached : s.location = here
  nodes : s.tree.Within P
  word : ∀ place, s.word.start = some place → P place
  begun : s.word.start = none → s.word.text = "" ∧ s.word.quoted = false

/-- The same of the outcome of a move: where the move failed, it left a tree with places of
`P`, and complained about one of them. -/
def Scanned.Located (P : Location → Prop) (here : Location) : Scanned → Prop
  | .ok s => s.Located P here
  | .failed s e => s.tree.Within P ∧ e.IsAt P

namespace Scanned.Located

variable {P : Location → Prop} {here there : Location} {r : Scanned}

theorem andThen {next : Scanner → Scanned} (hr : r.Located P here)
    (hn : ∀ s, r = .ok s → s.Located P here → (next s).Located P there) :
    (r.andThen next).Located P there := by
  rcases r with s | ⟨s, e⟩
  · exact hn s rfl hr
  · exact hr

theorem nodes (hr : r.Located P here) : r.state.tree.Within P := by
  rcases r with s | ⟨s, e⟩
  · exact Scanner.Located.nodes hr
  · exact hr.1

theorem failure {e : Failure} (hr : r.Located P here) (he : r.failure? = some e) : e.IsAt P := by
  rcases r with s | ⟨s, e'⟩
  · cases he
  · obtain rfl := Option.some.inj he
    exact hr.2

end Scanned.Located

namespace Scanner

variable {P : Location → Prop} {here : Location} {s : Scanner}

namespace Located

variable (h : s.Located P here)

include h

/-! ### The parts of a move -/

theorem fail (fault : Fault) {place : Location} (hplace : P place) :
    (s.fail fault place).Located P here :=
  ⟨h.nodes, place, rfl, hplace⟩

theorem note (line : String) : (s.note line).Located P here := by
  unfold Scanner.note
  split
  · exact ⟨h.reached, h.nodes, h.word, h.begun⟩
  · exact h

theorem clearWord : s.clearWord.Located P here :=
  ⟨h.reached, h.nodes, (fun _ hstart => nomatch hstart), fun _ => ⟨rfl, rfl⟩⟩

theorem modifyNode (i : Nat) {f : Node → Node} (hf : ∀ n, (f n).location = n.location) :
    (s.modifyNode i f).Located P here :=
  ⟨h.reached, h.nodes.modify i hf, h.word, h.begun⟩

/-- At a place of `P` the word has begun at a place of `P`, or begins there. -/
theorem wordLocation (hhere : P here) : P s.wordLocation := by
  rw [Scanner.wordLocation]
  cases hstart : s.word.start with
  | none =>
    rw [Option.getD_none, h.reached]
    exact hhere
  | some place => exact h.word place hstart

/-- A word that there is has begun at a place of `P`. -/
theorem wordLocation_of_word (hword : s.word.text = "" → s.word.quoted = true) :
    P s.wordLocation := by
  rw [Scanner.wordLocation]
  cases hstart : s.word.start with
  | none =>
    obtain ⟨htext, hquoted⟩ := h.begun hstart
    rw [hword htext] at hquoted
    cases hquoted
  | some place => exact h.word place hstart

theorem wordLocation_of_isPending (hpending : s.word.isPending = true) : P s.wordLocation := by
  refine h.wordLocation_of_word fun htext => ?_
  rw [Word.isPending, htext] at hpending
  simpa [Text.isAllBlank] using hpending

theorem addChild (kind : NodeKind) {place : Location} (hplace : P place) :
    (s.addChild kind place).1.Located P here :=
  ⟨h.reached, h.nodes.addChild s.cursor kind hplace, h.word, h.begun⟩

theorem pushScope (kind : NodeKind) {place : Location} (hplace : P place) :
    (s.pushScope kind place).Located P here := by
  have hchild := h.addChild kind hplace
  refine Located.note ?_ _
  exact ⟨hchild.reached, hchild.nodes, hchild.word, hchild.begun⟩

theorem nameCursorIfPending : s.nameCursorIfPending.Located P here := by
  unfold Scanner.nameCursorIfPending
  split
  · exact (h.modifyNode s.cursor fun _ => by rfl).clearWord
  · exact h

theorem fillLiteral (i : Nat) : (s.fillLiteral i).Located P here :=
  (h.modifyNode i fun _ => by rfl).clearWord

theorem flushIfPending : s.flushIfPending.Located P here := by
  unfold Scanner.flushIfPending
  split
  · rename_i hpending
    exact ((h.addChild .none (h.wordLocation_of_isPending hpending)).fillLiteral _).note _
  · exact h

theorem addParameter (hhere : P here) : s.addParameter.Located P here :=
  ((h.addChild .functionParam (h.wordLocation hhere)).modifyNode _ fun _ => by rfl).clearWord

theorem addArgument (hhere : P here) : s.addArgument.Located P here := by
  have hchild := h.addChild .functionParam (h.wordLocation hhere)
  unfold Scanner.addArgument
  dsimp only
  split
  · exact hchild.fillLiteral _
  · exact hchild.clearWord

theorem popScope (hhere : P here) : s.popScope.Located P here := by
  unfold Scanner.popScope
  split
  · exact h.fail _ (h.reached ▸ hhere)
  · split
    · exact h.fail _ (h.wordLocation hhere)
    · have hclear := h.clearWord
      refine Located.note (s := { s.clearWord with cursor := _ }) ?_ _
      exact ⟨hclear.reached, hclear.nodes, hclear.word, hclear.begun⟩

/-- A keyword has begun somewhere, so that this is so at the end of a script as well. -/
theorem takeKeyword : s.takeKeyword.Located P here := by
  rcases s.takeKeyword_cases with htake | ⟨k, line, -, hk, ⟨-, htake⟩ | ⟨kind, -, htake⟩⟩
  · rw [htake]
    exact h
  · have hclear := h.clearWord.note line
    rw [htake]
    exact ⟨hclear.reached, hclear.nodes, hclear.word, hclear.begun⟩
  · have hplace : P s.wordLocation := by
      refine h.wordLocation_of_word fun htext => ?_
      rw [htext] at hk
      cases hk
    have hpush := (h.clearWord.note line).pushScope kind hplace
    rw [htake]
    exact ⟨hpush.reached, hpush.nodes, hpush.word, hpush.begun⟩

theorem beginWord (hhere : P here) (w : Word) (hw : w.start = s.beginWord.start) :
    Located P here { s with word := w } := by
  have hstart : w.start = some s.wordLocation := hw
  refine ⟨h.reached, h.nodes, fun place hplace => ?_, fun hnone => ?_⟩
  · obtain rfl := Option.some.inj (hstart.symm.trans hplace)
    exact h.wordLocation hhere
  · rw [hstart] at hnone
    cases hnone

/-! ### Headers without a body -/

theorem adoptParameters (call : Nat) (ps : List Nat) :
    (s.adoptParameters call ps).Located P here := by
  induction ps generalizing s with
  | nil => exact h
  | cons p ps ih =>
    have hmoved := h.modifyNode p (f := fun n => { n with parent := some call }) fun _ => rfl
    rw [Scanner.adoptParameters]
    split
    · exact ⟨hmoved.nodes, trivial⟩
    · exact ih (hmoved.modifyNode p fun _ => rfl)

theorem hoistParameters (call : Nat) : (s.hoistParameters call).Located P here := by
  rw [Scanner.hoistParameters]
  split
  · exact h
  · refine (h.adoptParameters call _).andThen fun s₁ _ h₁ => ?_
    exact (h₁.modifyNode call fun _ => by rfl).modifyNode _ fun _ => by rfl

theorem nameHeader : s.nameHeader.Located P here := by
  rw [Scanner.nameHeader]
  split
  · exact h.nameCursorIfPending
  · exact h

theorem endStatement : s.endStatement.Located P here := ⟨h.reached, h.nodes, h.word, h.begun⟩

theorem retire (hhere : P here) : s.retire.Located P here := by
  have hcall : s.asCall.Located P here := h.modifyNode s.cursor fun _ => rfl
  refine (hcall.hoistParameters s.cursor).andThen fun s₁ _ h₁ => ?_
  exact ((h₁.note _).popScope hhere).andThen fun s₂ _ h₂ => h₂.endStatement

/-! ### Symbols -/

theorem pushNamed (hhere : P here) (kind : NodeKind) (name : Option String) :
    (s.pushNamed kind name).Located P here :=
  ((h.pushScope kind (h.wordLocation hhere)).modifyNode _ fun _ => by rfl).clearWord

theorem openParen (hhere : P here) : s.openParen.Located P here := by
  unfold Scanner.openParen
  split
  · have hname := h.nameCursorIfPending
    have hplace : P s.nameCursorIfPending.location := hname.reached ▸ hhere
    dsimp only
    split
    · exact hname.fail _ hplace
    · exact hname.pushScope .functionParams hplace
  · dsimp only
    split
    · exact h.fail _ (h.reached ▸ hhere)
    · exact h.pushNamed hhere .call _

theorem closeParen (hhere : P here) : s.closeParen.Located P here := by
  unfold Scanner.closeParen
  split
  · refine Located.popScope ?_ hhere
    split
    · exact h.addParameter hhere
    · exact h
  · refine Located.popScope ?_ hhere
    split
    · exact h.addArgument hhere
    · exact h
  · exact h.fail _ (h.reached ▸ hhere)

theorem comma (hhere : P here) : s.comma.Located P here := by
  have hplace : P s.location := h.reached ▸ hhere
  unfold Scanner.comma
  split
  · split
    · exact h.addParameter hhere
    · exact h.fail _ hplace
  · exact h.addArgument hhere
  · exact h.fail _ hplace

theorem openBrace (hhere : P here) : s.openBrace.Located P here := by
  have hname := h.nameCursorIfPending
  have hplace : P s.nameCursorIfPending.location := hname.reached ▸ hhere
  unfold Scanner.openBrace
  split
  · split
    · exact h.fail _ (h.wordLocation hhere)
    · exact (hname.pushScope .functionImpl hplace).endStatement
  · split
    · exact hname.pushScope .none hplace
    · exact h.pushNamed hhere .none _

theorem closeBrace (hhere : P here) : s.closeBrace.Located P here := by
  unfold Scanner.closeBrace
  dsimp only
  split
  · exact h.fail _ (h.reached ▸ hhere)
  · refine (h.flushIfPending.popScope hhere).andThen fun s₁ _ h₁ => ?_
    refine @Scanned.Located.andThen P here here _ _ ?_ fun s₂ _ h₂ => h₂.endStatement
    split
    · exact h₁.popScope hhere
    · exact h₁

theorem semicolon (hhere : P here) : s.semicolon.Located P here := by
  by_cases hlist : s.cursorKind = .call ∨ s.cursorKind = .functionParams
  · rw [semicolon_of_list hlist]
    exact h.fail _ (h.reached ▸ hhere)
  · obtain ⟨hcall, hlist⟩ := not_or.mp hlist
    by_cases hheader : s.IsHeader
    · rw [semicolon_of_header hheader]
      exact h.nameHeader.flushIfPending.retire hhere
    · rw [semicolon_of_not_header hcall hlist hheader]
      exact h.flushIfPending.endStatement

/-- **A symbol keeps to the places of `P`**, and only a newline moves on. -/
theorem symbol (hhere : P here) (sym : Symbol) :
    (s.symbol sym).Located P (if sym = .newline then here.newline else here) := by
  cases sym with
  | openParen => exact h.openParen hhere
  | closeParen => exact h.closeParen hhere
  | openBrace => exact h.openBrace hhere
  | closeBrace => exact h.closeBrace hhere
  | comma => exact h.comma hhere
  | semicolon => exact h.semicolon hhere
  | openBracket | closeBracket | tab | space => exact h
  | singleQuote | doubleQuote =>
    have hbegun := h.beginWord hhere { s.beginWord with quoted := true } rfl
    exact ⟨hbegun.reached, hbegun.nodes, hbegun.word, hbegun.begun⟩
  | newline => exact ⟨congrArg Location.newline h.reached, h.nodes, h.word, h.begun⟩

/-! ### Characters -/

/-- **A character keeps to the places of `P`**, and only a newline outside quotes moves
on. -/
theorem scan (hhere : P here) (c : Char) :
    (s.scan c).Located P
      (if s.quote.isNone && c == '\n' then here.newline else here) := by
  rw [Scanner.scan]
  cases hquote : s.quote with
  | some q =>
    rw [Option.isNone_some, Bool.false_and, if_neg Bool.false_ne_true]
    dsimp only
    split
    · exact ⟨h.reached, h.nodes, h.word, h.begun⟩
    · exact h.beginWord hhere { s.beginWord with text := s.beginWord.text.push c, quoted := true }
        rfl
  | none =>
    cases hc : Symbol.ofChar? c with
    | none =>
      have hne : c ≠ '\n' := by
        rintro rfl
        cases hc
      rw [if_neg (by simpa using hne)]
      exact h.beginWord hhere { s.beginWord with text := s.beginWord.text.push c } rfl
    | some sym =>
      obtain rfl := eq_char_of_ofChar? hc
      have hsymbol := h.takeKeyword.symbol hhere sym
      cases sym <;> exact hsymbol

theorem advance : s.advance.Located P here.advance :=
  ⟨congrArg Location.advance h.reached, h.nodes, h.word, h.begun⟩

/-- **A text keeps to the places of `P`** if its own places are in `P`, and leads to the
place behind it. -/
theorem feed {name : String} {read : List Char} (cs : List Char)
    (hread : here = placeAfter name read)
    (hquote : s.quote = read.foldl quoteAfter none)
    (hP : ∀ k < cs.length, P (placeAfter name (read ++ cs.take k))) :
    (s.feed cs).Located P (placeAfter name (read ++ cs)) := by
  induction cs generalizing s read here with
  | nil =>
    rw [List.append_nil, ← hread]
    exact h
  | cons c cs ih =>
    subst hread
    have hhere : P (placeAfter name read) := by simpa using hP 0 (Nat.succ_pos _)
    refine (h.scan hhere c).andThen fun s₁ hc h₁ => ?_
    rw [List.append_cons]
    refine ih h₁.advance ?_ ?_ fun k hk => ?_
    · rw [placeAfter_concat, hquote]
    · have hquote₁ : s₁.advance.quote = quoteAfter s.quote c := (quote_scan hc :)
      rw [hquote₁, hquote, List.foldl_append, List.foldl_cons, List.foldl_nil]
    · have hk' := hP (k + 1) (Nat.succ_lt_succ hk)
      rwa [List.take_succ_cons, List.append_cons] at hk'

/-! ### The end of a script -/

/-- **At the end of a script no place is needed but those remembered**: a quotation that is
open has begun, and so has the last word. -/
theorem finish (hs : s.Sound) (hquotes : s.Quotes) : s.finish.Located P here := by
  have hflush := h.takeKeyword.flushIfPending
  unfold Scanner.finish
  split
  · rename_i hquote
    refine h.fail _ (h.wordLocation_of_word fun _ => hquotes ?_)
    rintro hnone
    rw [hnone] at hquote
    cases hquote
  · dsimp only
    split
    · exact hflush
    · refine hflush.fail _ ?_
      have hend := (hs.reach s.reach_takeKeyword).reach s.takeKeyword.reach_flushIfPending
      obtain ⟨n, hn⟩ := Tree.exists_node? hend.isOpen.lt_size
      rw [cursorLocation, hn]
      exact hflush.nodes _ n hn

end Located

/-! ### Whole sources -/

theorem located_start (s : Scanner) (name : String) (hP : P (placeAfter name [])) :
    (s.start name).Located P (placeAfter name []) where
  reached := rfl
  nodes i n hn := by
    rw [eq_of_node?_start hn]
    exact hP
  word _ hstart := nomatch hstart
  begun _ := ⟨rfl, rfl⟩

/-- The places of the characters of a source. -/
def PlaceOf (name source : String) (place : Location) : Prop :=
  ∃ k < source.length, place = placeAfter name (source.toList.take k)

theorem located_parse (s : Scanner) (name : String) {source : String} (hne : source ≠ "") :
    (s.parse name (some source)).Located (PlaceOf name source) (placeAfter name source.toList) := by
  have hempty : source.isEmpty = false := by simpa using hne
  have hpos : 0 < source.length :=
    Nat.pos_of_ne_zero fun hzero => hne (String.length_eq_zero_iff.mp hzero)
  have hstart := s.located_start name (P := PlaceOf name source) ⟨0, hpos, rfl⟩
  have hfeed := hstart.feed source.toList rfl rfl fun k hk => ⟨k, hk, rfl⟩
  simp only [parse, hempty, Bool.false_eq_true, if_false]
  refine hfeed.andThen fun s₁ hs₁ h₁ => ?_
  have hquotes : (s.start name).Quotes := fun hquote => absurd rfl hquote
  refine (h₁.finish ((s.sound_start name).feed hs₁) (hquotes.feed hs₁)).andThen fun s₂ _ h₂ => ?_
  unfold noteTree
  split
  · exact h₂.note _
  · exact h₂

/-- **Every place is that of a character of the source.** As long as nothing fails, the
scanner is where the characters read so far have led it. Each node that there is when a
parse has ended, in success or failure, has the place of a character of the source, and so
has each error about a malformed script or a misused scope. An empty source has no
characters: it is refused before a tree is begun, with an error of another family. -/
theorem places_of_source (s : Scanner) (name source : String) :
    (∀ k s', k ≤ source.length → (s.start name).feed (source.toList.take k) = .ok s' →
        s'.location = placeAfter name (source.toList.take k)) ∧
      (∀ e, (s.parse name (some source)).failure? = some (.script e) →
        e.family = .malformed ∨ e.family = .unknown →
          ∃ k < source.length, e.location = some (placeAfter name (source.toList.take k))) ∧
      (source ≠ "" → ∀ i n, (s.parse name (some source)).state.tree.node? i = some n →
        ∃ k < source.length, n.location = placeAfter name (source.toList.take k)) ∧
      (source = "" →
        s.parse name (some source) = .failed s.reset (.script { fault := .noContent name })) := by
  have hrefused : source = "" →
      s.parse name (some source) = .failed s.reset (.script { fault := .noContent name }) := by
    rintro rfl
    rfl
  refine ⟨fun k s' _ hfeed => ?_, fun e he hfamily => ?_, fun hne i n hn => ?_, hrefused⟩
  · have hstart := s.located_start name (P := fun _ => True) trivial
    have hlocated := hstart.feed (source.toList.take k) rfl rfl fun _ _ => trivial
    rw [hfeed] at hlocated
    exact hlocated.reached
  · by_cases hempty : source = ""
    · rw [hrefused hempty] at he
      cases he
      rcases hfamily with hfamily | hfamily <;> cases hfamily
    · obtain ⟨place, hplace, k, hk, rfl⟩ := (s.located_parse name hempty).failure he
      exact ⟨k, hk, hplace⟩
  · exact (s.located_parse name hne).nodes i n hn

/-- The newline between quotes ends no line; the other one does, and the scope that is
left open begins behind it. -/
theorem places_of_source_newlines :
    (∃ s', (({} : Scanner).start "test").feed ("'a\nb';\nf(".toList.take 9) = .ok s' ∧
        s'.location = { file := "test", offset := 10, line := 2, column := 3 }) ∧
      ∃ e, (({} : Scanner).parse "test" (some "'a\nb';\nf(")).failure? = some (.script e) ∧
        ∃ k < 9, e.location = some (placeAfter "test" ("'a\nb';\nf(".toList.take k)) ∧
          placeAfter "test" ("'a\nb';\nf(".toList.take k)
            = { file := "test", offset := 8, line := 2, column := 1 } := by
  obtain ⟨hreached, hblamed, -⟩ := places_of_source {} "test" "'a\nb';\nf("
  obtain ⟨s', hfeed⟩ : ∃ s', (({} : Scanner).start "test").feed ("'a\nb';\nf(".toList.take 9)
      = .ok s' := ⟨_, rfl⟩
  obtain ⟨e, he, hfamily, hat⟩ : ∃ e, (({} : Scanner).parse "test" (some "'a\nb';\nf(")).failure?
      = some (.script e) ∧ e.family = .malformed ∧
        e.location = some { file := "test", offset := 8, line := 2, column := 1 } :=
    ⟨_, rfl, rfl, rfl⟩
  refine ⟨⟨s', hfeed, ?_⟩, e, he, ?_⟩
  · rw [hreached 9 s' (by decide) hfeed]
    decide
  · obtain ⟨k, hk, hplace⟩ := hblamed e he (Or.inl hfamily)
    exact ⟨k, hk, hplace, Option.some.inj (hplace.symm.trans hat)⟩

end Scanner

end ScopeScript
