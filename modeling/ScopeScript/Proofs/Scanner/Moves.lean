import Mathlib.Logic.Relation
import ScopeScript.Proofs.Scanner.Hoist

/-!
# What a scanner can do to its tree

Every character moves the scanner in one of a few ways, as far as its tree and
its cursor are concerned: it leaves both alone, labels a node, adds a leaf, opens
a scope, closes one, or turns a header into a call. `Scanner.Move` lists these,
with the conditions under which they happen, and `Scanner.scan_follows` shows
that a character of any sort, met in any state, amounts to a sequence of them –
also where it fails with a script error. What every move keeps is therefore kept
by a whole scan (`Scanner.Reach.keeps`).
-/

namespace ScopeScript

/-- **The value of the node is a text**, if it has one. -/
def Node.IsTextual (n : Node) : Prop := ∀ v, n.value = some v → ∃ text, v = .string text

/-- A change of a node that gives it no value but a text. -/
def KeepsTextual (f : Node → Node) : Prop := ∀ n, n.IsTextual → (f n).IsTextual

namespace Word

/-- The node with the word for its name. -/
def entitle (w : Word) (n : Node) : Node := { n with name := some w.literal }

/-- The node with the word for its value and, unless it was quoted, its name. -/
def fill (w : Word) (n : Node) : Node :=
  { n with
    value := some (.string w.literal)
    quoted := w.quoted
    name := if w.quoted then n.name else some w.literal }

/-- The node with the word for the name of a parameter. -/
def declare (w : Word) (n : Node) : Node :=
  { n with name := some w.literal, quoted := w.quoted }

theorem keepsLinks_entitle (w : Word) : KeepsLinks w.entitle := fun _ => ⟨rfl, rfl, rfl⟩

theorem keepsLinks_fill (w : Word) : KeepsLinks w.fill := fun _ => ⟨rfl, rfl, rfl⟩

theorem keepsLinks_declare (w : Word) : KeepsLinks w.declare := fun _ => ⟨rfl, rfl, rfl⟩

theorem keepsTextual_entitle (w : Word) : KeepsTextual w.entitle := fun _ => id

theorem keepsTextual_fill (w : Word) : KeepsTextual w.fill :=
  fun _ _ _ hv => ⟨w.literal, (Option.some.inj hv).symm⟩

theorem keepsTextual_declare (w : Word) : KeepsTextual w.declare := fun _ => id

end Word

namespace Scanner

variable {s s' s'' : Scanner}

/-! ### What the parts of a move leave alone -/

@[simp] theorem tree_note (s : Scanner) (line : String) : (s.note line).tree = s.tree := by
  unfold note
  split <;> rfl

@[simp] theorem cursor_note (s : Scanner) (line : String) : (s.note line).cursor = s.cursor := by
  unfold note
  split <;> rfl

@[simp] theorem word_note (s : Scanner) (line : String) : (s.note line).word = s.word := by
  unfold note
  split <;> rfl

@[simp] theorem quote_note (s : Scanner) (line : String) : (s.note line).quote = s.quote := by
  unfold note
  split <;> rfl

/-! ### Moves -/

/-- Whether a scope of some kind can be opened below the open one. -/
def CanOpen (s : Scanner) : NodeKind → Prop
  | .functionParams =>
    s.cursorKind = .function ∧ s.tree.childOfKind? s.cursor .functionParams = none
  | .functionImpl => s.cursorKind = .function
  | .global | .functionParam | .method => False
  | _ => True

/-- **One move of a scanner**, as far as its tree and its cursor are concerned. -/
inductive Move (s s' : Scanner) : Prop
  /-- Tree and cursor stay as they are. -/
  | quiet (ht : s'.tree = s.tree) (hc : s'.cursor = s.cursor)
  /-- A node is labelled. -/
  | label (i : Nat) (f : Node → Node) (hf : KeepsLinks f) (hv : KeepsTextual f)
      (ht : s'.tree = s.tree.modify i f) (hc : s'.cursor = s.cursor)
  /-- A leaf is added to the open scope. -/
  | leaf (kind : NodeKind) (place : Location) (hk : kind.isLeaf)
      (ht : s'.tree = (s.tree.addChild s.cursor kind place).1) (hc : s'.cursor = s.cursor)
  /-- A scope is opened. -/
  | push (kind : NodeKind) (place : Location) (hk : s.CanOpen kind)
      (ht : s'.tree = (s.tree.addChild s.cursor kind place).1) (hc : s'.cursor = s.tree.size)
  /-- The open scope is closed. -/
  | pop (ht : s'.tree = s.tree) (hc : s.tree.parent? s.cursor = some s'.cursor)
  /-- A header without a body becomes a call. -/
  | retire (hh : s.IsHeader) (h : s.asCall.hoistParameters s.cursor = .ok s')

/-- Any number of moves. -/
abbrev Reach : Scanner → Scanner → Prop := Relation.ReflTransGen Move

/-- What every move keeps, any number of moves keep. -/
theorem Reach.keeps {P : Scanner → Prop} (hP : ∀ s s', Move s s' → P s → P s')
    (h : Reach s s') (hs : P s) : P s' := by
  induction h with
  | refl => exact hs
  | tail _ hmove ih => exact hP _ _ hmove ih

theorem Move.treeName (h : Move s s') : s'.tree.name = s.tree.name := by
  cases h with
  | quiet ht _ | pop ht _ => rw [ht]
  | label i f hf _ ht hc =>
    rw [ht]
    rfl
  | leaf kind place hk ht hc | push kind place hk ht hc =>
    rw [ht]
    rfl
  | retire hh h => exact treeName_hoistParameters hh.1 h

theorem Move.reach (h : Move s s') : Reach s s' := Relation.ReflTransGen.single h

theorem Reach.quiet (h : Reach s s') (ht : s''.tree = s'.tree) (hc : s''.cursor = s'.cursor) :
    Reach s s'' :=
  h.tail (Move.quiet ht hc)

end Scanner

/-- The state that is left behind has some property, whether the moves were made
or stopped by a script error. Nothing is said of a host error. -/
def Scanned.Leaves (P : Scanner → Prop) : Scanned → Prop
  | .ok s => P s
  | .failed s (.script _) => P s
  | .failed _ (.host _) => True

/-- The state that is left behind was reached by moves. -/
def Scanned.Follows (s : Scanner) (r : Scanned) : Prop := r.Leaves (Scanner.Reach s)

namespace Scanned

variable {s s' : Scanner} {r : Scanned}

theorem Leaves.imp {P Q : Scanner → Prop} (hr : r.Leaves P) (h : ∀ s, P s → Q s) :
    r.Leaves Q := by
  rcases r with s | ⟨s, e | e⟩
  · exact h s hr
  · exact h s hr
  · trivial

theorem andThen_ok {next : Scanner → Scanned} :
    r.andThen next = .ok s' ↔ ∃ s₁, r = .ok s₁ ∧ next s₁ = .ok s' := by
  cases r <;> simp [Scanned.andThen]

theorem Follows.of_reach (h : Scanner.Reach s s') (hr : r.Follows s') : r.Follows s :=
  hr.imp fun _ => h.trans

theorem Follows.andThen {next : Scanner → Scanned} (hr : r.Follows s)
    (hn : ∀ s', r = .ok s' → (next s').Follows s') : (r.andThen next).Follows s := by
  rcases r with s' | ⟨s', e⟩
  · exact (hn s' rfl).of_reach hr
  · exact hr

end Scanned

namespace Scanner

variable {s s' : Scanner}

/-! ### The parts of a move -/

theorem reach_nameCursor (s : Scanner) : Reach s s.nameCursor :=
  Move.reach (.label s.cursor s.word.entitle s.word.keepsLinks_entitle
    s.word.keepsTextual_entitle rfl rfl)

theorem reach_nameCursorIfPending (s : Scanner) : Reach s s.nameCursorIfPending := by
  unfold nameCursorIfPending
  split
  · exact s.reach_nameCursor
  · exact Relation.ReflTransGen.refl

theorem reach_rename (s : Scanner) (i : Nat) (name : Option String) :
    Reach s (s.modifyNode i fun n => { n with name }).clearWord := by
  refine Move.reach (.label i (fun n => { n with name }) ?_ ?_ rfl rfl)
  · exact fun _ => ⟨rfl, rfl, rfl⟩
  · exact fun _ => id

theorem reach_fillLiteral (s : Scanner) (i : Nat) : Reach s (s.fillLiteral i) :=
  Move.reach (.label i s.word.fill s.word.keepsLinks_fill s.word.keepsTextual_fill rfl rfl)

theorem reach_addLeaf (s : Scanner) (kind : NodeKind) (hk : kind.isLeaf) (place : Location) :
    Reach s (s.addChild kind place).1 :=
  Move.reach (.leaf kind place hk rfl rfl)

theorem reach_flushWord (s : Scanner) : Reach s s.flushWord := by
  have hleaf := s.reach_addLeaf .none rfl s.wordLocation
  exact Reach.quiet (hleaf.trans (reach_fillLiteral _ _)) (tree_note _ _) (cursor_note _ _)

theorem reach_flushIfPending (s : Scanner) : Reach s s.flushIfPending := by
  unfold flushIfPending
  split
  · exact s.reach_flushWord
  · exact Relation.ReflTransGen.refl

theorem reach_addParameter (s : Scanner) : Reach s s.addParameter := by
  have hleaf := s.reach_addLeaf .functionParam rfl s.wordLocation
  exact hleaf.tail (.label s.tree.size s.word.declare s.word.keepsLinks_declare
    s.word.keepsTextual_declare rfl rfl)

theorem reach_addArgument (s : Scanner) : Reach s s.addArgument := by
  have hleaf := s.reach_addLeaf .functionParam rfl s.wordLocation
  unfold addArgument
  dsimp only
  split
  · exact hleaf.trans (reach_fillLiteral _ _)
  · exact Reach.quiet hleaf rfl rfl

theorem reach_pushScope (s : Scanner) (kind : NodeKind) (hk : s.CanOpen kind) (place : Location) :
    Reach s (s.pushScope kind place) := by
  refine (Move.push kind place hk ?_ ?_).reach
  · exact tree_note _ _
  · exact cursor_note _ _

theorem follows_fail (s : Scanner) (fault : Fault) (place : Location) :
    (s.fail fault place).Follows s :=
  Relation.ReflTransGen.refl

theorem follows_popScope (s : Scanner) : s.popScope.Follows s := by
  unfold popScope
  split
  · exact s.follows_fail _ _
  · rename_i p hp
    split
    · exact s.follows_fail _ _
    · refine (Move.pop ?_ ?_).reach
      · exact tree_note _ _
      · rw [hp, cursor_note]

theorem reach_takeKeyword (s : Scanner) : Reach s s.takeKeyword := by
  unfold takeKeyword
  split
  · exact Relation.ReflTransGen.refl
  · split
    · exact Relation.ReflTransGen.refl
    · rename_i k _
      have hclear : Reach s (s.clearWord.note ("keyword: " ++ k.text)) :=
        Move.reach (.quiet (tree_note _ _) (cursor_note _ _))
      cases hk : scopeOf? k with
      | none => exact Reach.quiet hclear rfl rfl
      | some kind =>
        have hcan : (s.clearWord.note ("keyword: " ++ k.text)).CanOpen kind := by
          cases k <;> cases hk <;> trivial
        exact Reach.quiet (hclear.trans (reach_pushScope _ _ hcan s.wordLocation)) rfl rfl

/-! ### Headers -/

theorem cursorKind_of_kind? {k : NodeKind} (h : s.tree.kind? s.cursor = some k) :
    s.cursorKind = k := by
  rw [cursorKind, h, Option.getD_some]

theorem sameLinks_nameCursorIfPending (s : Scanner) :
    Tree.SameLinks s.tree s.nameCursorIfPending.tree := by
  unfold nameCursorIfPending
  split
  · exact Tree.SameLinks.modify s.word.keepsLinks_entitle s.tree s.cursor
  · exact Tree.SameLinks.refl s.tree

@[simp] theorem cursor_nameCursorIfPending (s : Scanner) :
    s.nameCursorIfPending.cursor = s.cursor := by
  unfold nameCursorIfPending
  split <;> rfl

@[simp] theorem cursorKind_nameCursorIfPending (s : Scanner) :
    s.nameCursorIfPending.cursorKind = s.cursorKind := by
  rw [cursorKind, cursor_nameCursorIfPending, s.sameLinks_nameCursorIfPending.kind?, cursorKind]

theorem IsHeader.nameCursorIfPending (h : s.IsHeader) : s.nameCursorIfPending.IsHeader := by
  refine ⟨by rw [cursorKind_nameCursorIfPending, h.1], ?_⟩
  rw [cursor_nameCursorIfPending, s.sameLinks_nameCursorIfPending.childOfKind?, h.2]

/-- The tree once the word has become a leaf of the open scope. -/
theorem tree_flushWord (s : Scanner) :
    s.flushWord.tree
      = (s.tree.addChild s.cursor .none s.wordLocation).1.modify s.tree.size s.word.fill :=
  tree_note _ _

@[simp] theorem cursor_flushWord (s : Scanner) : s.flushWord.cursor = s.cursor :=
  cursor_note _ _

@[simp] theorem cursor_flushIfPending (s : Scanner) : s.flushIfPending.cursor = s.cursor := by
  unfold flushIfPending
  split
  · exact s.cursor_flushWord
  · rfl

theorem IsHeader.flushIfPending (h : s.IsHeader) : s.flushIfPending.IsHeader := by
  unfold Scanner.flushIfPending
  split
  · have hkind := kind?_cursor h.1 (by decide)
    have hlt := Tree.lt_size_of_kind? hkind
    have hlinks := Tree.SameLinks.modify s.word.keepsLinks_fill
      (s.tree.addChild s.cursor .none s.wordLocation).1 s.tree.size
    rw [← tree_flushWord, Tree.addChild_eq_sprout] at hlinks
    refine ⟨cursorKind_of_kind? ?_, ?_⟩
    · rw [hlinks.kind?, cursor_flushWord, Tree.kind?_sprout_of_lt hlt _ hlt, hkind]
    · rw [hlinks.childOfKind?, cursor_flushWord, Tree.childOfKind?_sprout hlt rfl (by simp), h.2]
  · exact h

/-! ### Symbols -/

theorem follows_openParen (s : Scanner) : s.openParen.Follows s := by
  unfold openParen
  split
  · rename_i hk
    dsimp only
    split
    · exact (follows_fail _ _ _).of_reach s.reach_nameCursorIfPending
    · rename_i hnone
      refine s.reach_nameCursorIfPending.trans (reach_pushScope _ .functionParams ?_ _)
      exact ⟨by rw [cursorKind_nameCursorIfPending, hk], by simpa using hnone⟩
  · dsimp only
    split
    · exact s.follows_fail _ _
    · have hpush := s.reach_pushScope .call trivial s.wordLocation
      exact hpush.trans (reach_rename _ _ _)

theorem follows_closeParen (s : Scanner) : s.closeParen.Follows s := by
  unfold closeParen
  split
  · refine (follows_popScope _).of_reach ?_
    split
    · exact s.reach_addParameter
    · exact Relation.ReflTransGen.refl
  · refine (follows_popScope _).of_reach ?_
    split
    · exact s.reach_addArgument
    · exact Relation.ReflTransGen.refl
  · exact s.follows_fail _ _

theorem follows_comma (s : Scanner) : s.comma.Follows s := by
  unfold comma
  split
  · split
    · exact s.reach_addParameter
    · exact s.follows_fail _ _
  · exact s.reach_addArgument
  · exact s.follows_fail _ _

theorem follows_openBrace (s : Scanner) : s.openBrace.Follows s := by
  unfold openBrace
  split
  · rename_i hk
    split
    · exact s.follows_fail _ _
    · have hcan : s.nameCursorIfPending.CanOpen .functionImpl := by
        rw [CanOpen, cursorKind_nameCursorIfPending, hk]
      exact Reach.quiet (s.reach_nameCursorIfPending.trans (reach_pushScope _ _ hcan _)) rfl rfl
  · split
    · exact s.reach_nameCursorIfPending.trans (reach_pushScope _ .none trivial _)
    · have hpush := s.reach_pushScope .none trivial s.wordLocation
      exact hpush.trans (reach_rename _ _ _)

theorem follows_closeBrace (s : Scanner) : s.closeBrace.Follows s := by
  unfold closeBrace
  dsimp only
  split
  · exact s.follows_fail _ _
  · refine (Scanned.Follows.andThen (follows_popScope _) fun s₁ _ => ?_).of_reach
      s.reach_flushIfPending
    refine Scanned.Follows.andThen ?_ fun s₂ _ => Move.reach (.quiet rfl rfl)
    split
    · exact s₁.follows_popScope
    · exact Relation.ReflTransGen.refl

theorem follows_retire (h : s.IsHeader) : (s.asCall.hoistParameters s.cursor).Follows s := by
  cases hr : s.asCall.hoistParameters s.cursor with
  | ok s' => exact Move.reach (.retire h hr)
  | failed s' e =>
    obtain rfl := hoistParameters_failed h.1 hr
    trivial

theorem follows_semicolon (s : Scanner) : s.semicolon.Follows s := by
  unfold semicolon
  extract_lets kind header s₁ s₂ call
  split
  · exact s.follows_fail _ _
  · have hname : Reach s s₁ := by
      dsimp only [s₁]
      split
      · exact s.reach_nameCursorIfPending
      · exact Relation.ReflTransGen.refl
    have hflush : Reach s s₂ := hname.trans s₁.reach_flushIfPending
    split
    · rename_i hheader
      have h : s.IsHeader := by simpa [header, kind, IsHeader] using hheader
      have h₂ : s₂.IsHeader := by
        refine IsHeader.flushIfPending ?_
        dsimp only [s₁]
        split
        · exact h.nameCursorIfPending
        · exact h
      refine (Scanned.Follows.andThen (follows_retire h₂) fun s₃ _ => ?_).of_reach hflush
      refine (Scanned.Follows.andThen (follows_popScope _) fun s₄ _ => ?_).of_reach
        (Move.reach (.quiet (tree_note _ _) (cursor_note _ _)))
      exact Move.reach (.quiet rfl rfl)
    · exact Reach.quiet hflush rfl rfl

theorem follows_symbol (s : Scanner) (sym : Symbol) : (s.symbol sym).Follows s := by
  cases sym with
  | openParen => exact s.follows_openParen
  | closeParen => exact s.follows_closeParen
  | openBrace => exact s.follows_openBrace
  | closeBrace => exact s.follows_closeBrace
  | comma => exact s.follows_comma
  | semicolon => exact s.follows_semicolon
  | openBracket | closeBracket | tab | space => exact Relation.ReflTransGen.refl
  | singleQuote | doubleQuote | newline => exact Move.reach (.quiet rfl rfl)

/-! ### Characters and texts -/

theorem eq_char_of_ofChar? {c : Char} {sym : Symbol} (h : Symbol.ofChar? c = some sym) :
    c = sym.char := by
  unfold Symbol.ofChar? at h
  split at h <;> cases h <;> rfl

/-- **A character amounts to moves**, whatever it is and in whatever state it is
met. -/
theorem scan_follows (s : Scanner) (c : Char) : (s.scan c).Follows s := by
  unfold scan
  split
  · split
    · exact Move.reach (.quiet rfl rfl)
    · exact Move.reach (.quiet rfl rfl)
  · split
    · exact Move.reach (.quiet rfl rfl)
    · exact (follows_symbol _ _).of_reach s.reach_takeKeyword

theorem feed_cons_ok {c : Char} {cs : List Char} :
    s.feed (c :: cs) = .ok s' ↔ ∃ s₁, s.scan c = .ok s₁ ∧ s₁.advance.feed cs = .ok s' := by
  rw [feed, Scanned.andThen_ok]

theorem feed_follows (s : Scanner) (cs : List Char) : (s.feed cs).Follows s := by
  induction cs generalizing s with
  | nil => exact Relation.ReflTransGen.refl
  | cons c cs ih =>
    refine (s.scan_follows c).andThen fun s' _ => ?_
    have hadvance : Reach s' s'.advance := Move.reach (.quiet rfl rfl)
    exact (ih s'.advance).of_reach hadvance

theorem finish_follows (s : Scanner) : s.finish.Follows s := by
  unfold finish
  split
  · exact s.follows_fail _ _
  · have hend := s.reach_takeKeyword.trans (reach_flushIfPending _)
    dsimp only
    split
    · exact hend
    · exact (follows_fail _ _ _).of_reach hend

/-- **A parse amounts to moves** from the state in which it starts. -/
theorem parse_follows (s : Scanner) (name : String) {text : String} (h : text ≠ "") :
    (s.parse name (some text)).Follows (s.start name) := by
  have hne : text.isEmpty = false := by simpa using h
  simp only [parse, hne, Bool.false_eq_true, if_false]
  refine (feed_follows _ _).andThen fun s₁ _ => ?_
  refine s₁.finish_follows.andThen fun s₂ _ => Move.reach (.quiet ?_ ?_)
  · unfold noteTree
    split
    · exact tree_note _ _
    · rfl
  · unfold noteTree
    split
    · exact cursor_note _ _
    · rfl

/-- A tree is named after the script it was read from. -/
theorem treeName_parse {name : String} {content : Option String}
    (h : s.parse name content = .ok s') : s'.tree.name = name := by
  cases content with
  | none => cases h
  | some text =>
    by_cases htext : text = ""
    · subst htext
      cases h
    · have hfollows := s.parse_follows name htext
      rw [h] at hfollows
      exact Reach.keeps (P := fun r => r.tree.name = name)
        (fun _ _ hmove hr => hmove.treeName.trans hr) hfollows rfl

end Scanner

end ScopeScript
