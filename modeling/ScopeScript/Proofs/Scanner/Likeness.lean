import Mathlib.Data.Option.Defs
import ScopeScript.Proofs.Scanner.Inversion
import ScopeScript.Proofs.Scanner.Standing

/-!
# Scanners that differ in texts and places only

A scanner does not look into most of the text that it collects. To say so, two of
them are run side by side: **likeness** lets the texts of nodes differ by a
relation of their own at each index, and the text of a quoted word by another one;
places and traces may be anything, and all else is the same
(`ScopeScript.Scanner.Like`). Like scanners do like things with every symbol
(`ScopeScript.Scanner.Like.symbol`): if one fails so does the other, and with the
same complaint (`ScopeScript.Scanned.Like`). The word goes to one node, the
*receiver* of the symbol (`ScopeScript.Scanner.receiver`), and only there does its
text turn up.

Once the words agree, likeness is kept by whole texts
(`ScopeScript.Scanner.Like.feed`) and up to the end
(`ScopeScript.Scanner.Like.finish`).
-/

namespace ScopeScript

/-! ### Likeness of nodes -/

/-- The values are the same, or texts that are related. -/
inductive Value.Like (R : String → String → Prop) : Value → Value → Prop
  | same (v : Value) : Like R v v
  | text {x y : String} (h : R x y) : Like R (.string x) (.string y)

/-- **The nodes agree but for their places, and their texts are related.** -/
structure Node.Like (R : String → String → Prop) (m n : Node) : Prop where
  kind : m.kind = n.kind
  parent : m.parent = n.parent
  children : m.children = n.children
  name : Option.Rel R m.name n.name
  value : Option.Rel (Value.Like R) m.value n.value
  quoted : m.quoted = n.quoted

theorem Value.Like.imp {R S : String → String → Prop} {v w : Value} (h : v.Like R w)
    (hRS : ∀ x y, R x y → S x y) : v.Like S w := by
  rcases h with v | h
  · exact .same v
  · exact .text (hRS _ _ h)

theorem rel_imp {α β : Type} {R S : α → β → Prop} {a : Option α} {b : Option β}
    (h : Option.Rel R a b) (hRS : ∀ x y, R x y → S x y) : Option.Rel S a b := by
  rcases h with h | -
  · exact .some (hRS _ _ h)
  · exact .none

theorem rel_refl {α : Type} {R : α → α → Prop} (hR : ∀ x, R x x) (a : Option α) :
    Option.Rel R a a := by
  rcases a with - | a
  · exact .none
  · exact .some (hR a)

theorem Node.Like.imp {R S : String → String → Prop} {m n : Node} (h : m.Like R n)
    (hRS : ∀ x y, R x y → S x y) : m.Like S n where
  kind := h.kind
  parent := h.parent
  children := h.children
  name := rel_imp h.name hRS
  value := rel_imp h.value fun _ _ hv => hv.imp hRS
  quoted := h.quoted

/-- Like parameters make like arguments. -/
theorem Node.Like.asArgument {R : String → String → Prop} {m n : Node} (h : m.Like R n)
    (call : Nat) : (m.asArgument call).Like R (n.asArgument call) where
  kind := h.kind
  parent := rfl
  children := h.children
  name := by
    simp only [Node.asArgument, ← h.quoted]
    split
    · exact .none
    · exact h.name
  value := by
    have hname := h.name
    simp only [Node.asArgument]
    generalize m.name = a at hname
    generalize n.name = b at hname
    rcases hname with hname | -
    · exact .some (.text hname)
    · exact .none
  quoted := h.quoted

theorem Node.Like.refl (n : Node) : n.Like Eq n :=
  ⟨rfl, rfl, rfl, rel_refl (fun _ => rfl) _, rel_refl .same _, rfl⟩

/-! ### Likeness of trees -/

/-- **The trees agree but for places, and the texts at each index are related.** -/
structure Tree.Like (R : Nat → String → String → Prop) (t t' : Tree) : Prop where
  name : t.name = t'.name
  node? : ∀ i, Option.Rel (Node.Like (R i)) (t.node? i) (t'.node? i)

namespace Tree

variable {R S : Nat → String → String → Prop} {t t' : Tree}

namespace Like

theorem imp (h : t.Like R t') (hRS : ∀ i x y, R i x y → S i x y) : t.Like S t' :=
  ⟨h.name, fun i => rel_imp (h.node? i) fun _ _ hn => hn.imp (hRS i)⟩

theorem refl (t : Tree) : t.Like (fun _ => Eq) t := ⟨rfl, fun _ => rel_refl Node.Like.refl _⟩

/-- At each index there are like nodes, or there is none. -/
theorem look (h : t.Like R t') (i : Nat) :
    (∃ m n, t.node? i = some m ∧ t'.node? i = some n ∧ m.Like (R i) n) ∨
      (t.node? i = none ∧ t'.node? i = none) := by
  have hnode := h.node? i
  generalize t.node? i = a at hnode
  generalize t'.node? i = b at hnode
  rcases hnode with hn | -
  · exact Or.inl ⟨_, _, rfl, rfl, hn⟩
  · exact Or.inr ⟨rfl, rfl⟩

theorem kind? (h : t.Like R t') (i : Nat) : t.kind? i = t'.kind? i := by
  rcases h.look i with ⟨m, n, hm, hn, hlike⟩ | ⟨hm, hn⟩
  · rw [kind?_of_node? hm, kind?_of_node? hn, hlike.kind]
  · rw [Tree.kind?, Tree.kind?, hm, hn]

theorem parent? (h : t.Like R t') (i : Nat) : t.parent? i = t'.parent? i := by
  rcases h.look i with ⟨m, n, hm, hn, hlike⟩ | ⟨hm, hn⟩
  · rw [parent?_of_node? hm, parent?_of_node? hn, hlike.parent]
  · rw [Tree.parent?, Tree.parent?, hm, hn]

theorem children (h : t.Like R t') (i : Nat) : t.children i = t'.children i := by
  rcases h.look i with ⟨m, n, hm, hn, hlike⟩ | ⟨hm, hn⟩
  · rw [children_of_node? hm, children_of_node? hn, hlike.children]
  · rw [Tree.children, Tree.children, hm, hn]

theorem childOfKind? (h : t.Like R t') (i : Nat) (k : NodeKind) :
    t.childOfKind? i k = t'.childOfKind? i k := by
  refine childOfKind?_congr (h.children i) fun j => ?_
  rw [h.kind?]

theorem name? (h : t.Like R t') (i : Nat) : Option.Rel (R i) (t.name? i) (t'.name? i) := by
  rw [Tree.name?, Tree.name?]
  rcases h.look i with ⟨m, n, hm, hn, hlike⟩ | ⟨hm, hn⟩
  · rw [hm, hn]
    exact hlike.name
  · rw [hm, hn]
    exact .none

theorem size (h : t.Like R t') : t.size = t'.size := by
  have hiff : ∀ i, i < t.size ↔ i < t'.size := by
    intro i
    rw [← node?_isSome, ← node?_isSome]
    rcases h.look i with ⟨m, n, hm, hn, -⟩ | ⟨hm, hn⟩ <;> simp [hm, hn]
  have h₁ := hiff t.size
  have h₂ := hiff t'.size
  omega

/-- Changing like nodes in like ways. -/
theorem modify (h : t.Like R t') {i : Nat} {f g : Node → Node}
    (hfg : ∀ m n, m.Like (R i) n → (f m).Like (R i) (g n)) :
    (t.modify i f).Like R (t'.modify i g) := by
  refine ⟨h.name, fun j => ?_⟩
  rw [node?_modify, node?_modify]
  split
  · rename_i hij
    subst hij
    rcases h.look i with ⟨m, n, hm, hn, hlike⟩ | ⟨hm, hn⟩
    · rw [hm, hn]
      exact .some (hfg m n hlike)
    · rw [hm, hn]
      exact .none
  · exact h.node? j

/-- Adding a node of some kind, wherever it begins. -/
theorem addChild (h : t.Like R t') (p : Nat) (kind : NodeKind) (place place' : Location) :
    (t.addChild p kind place).1.Like R (t'.addChild p kind place').1 := by
  -- first the new node, which is nobody's child yet, then its place among the children
  have hpush : Tree.Like R
      { t with nodes := t.nodes.push { kind, location := place, parent := some p } }
      { t' with nodes := t'.nodes.push { kind, location := place', parent := some p } } := by
    refine ⟨h.name, fun i => ?_⟩
    have hsize : t.nodes.size = t'.nodes.size := h.size
    rw [Tree.node?, Tree.node?, Array.getElem?_push, Array.getElem?_push, hsize]
    split
    · exact .some ⟨rfl, rfl, rfl, .none, .none, rfl⟩
    · exact h.node? i
  refine Tree.Like.modify (i := p) hpush fun m n hn => ?_
  have hsize : t.nodes.size = t'.nodes.size := h.size
  refine ⟨hn.kind, hn.parent, ?_, hn.name, hn.value, hn.quoted⟩
  rw [hn.children, hsize]

end Like

end Tree

/-! ### Likeness of scanners -/

/-- Whether the word before the symbol is used up by it. -/
def Symbol.usesWord : Symbol → Bool
  | openParen | closeParen | openBrace | closeBrace | comma | semicolon => true
  | _ => false

/-- The texts of two words are related; they are equal unless the words are
quoted. -/
structure Word.Like (V : String → String → Prop) (w w' : Word) : Prop where
  text : V w.text w'.text
  quoted : w.quoted = w'.quoted
  plain : w.quoted = false → w.text = w'.text

/-- **The scanners agree but for places and traces**, the texts of their nodes are
related at each index, and so are the texts of their words. -/
structure Scanner.Like (R : Nat → String → String → Prop) (V : String → String → Prop)
    (s s' : Scanner) : Prop where
  tree : s.tree.Like R s'.tree
  cursor : s.cursor = s'.cursor
  quote : s.quote = s'.quote
  keywords : s.keywords = s'.keywords
  word : s.word.Like V s'.word

/-- The failure without its place. -/
def Failure.unplaced : Failure → Failure
  | .script e => .script { fault := e.fault }
  | .host e => .host e

/-- **The outcomes agree**: both moves are made and lead to like scanners, or both
fail for the same cause and leave like trees behind. -/
inductive Scanned.Like (R : Nat → String → String → Prop) (V : String → String → Prop) :
    Scanned → Scanned → Prop
  | ok {s s' : Scanner} (h : s.Like R V s') : Like R V (.ok s) (.ok s')
  | failed {s s' : Scanner} {e e' : Failure} (h : s.tree.Like R s'.tree)
      (he : e.unplaced = e'.unplaced) : Like R V (.failed s e) (.failed s' e')

/-- The node at an index may take a word: its texts may differ as those of words
do, with or without the blanks around them. -/
structure Admits (R : Nat → String → String → Prop) (V : String → String → Prop) (i : Nat) :
    Prop where
  refl : ∀ x, R i x x
  text : ∀ x y, V x y → R i x y
  strip : ∀ x y, V x y → R i (Text.strip x) (Text.strip y)

variable {R S : Nat → String → String → Prop} {V W : String → String → Prop}

theorem admits_eq {i : Nat} (hR : ∀ x, R i x x) : Admits R Eq i where
  refl := hR
  text := by
    rintro x - rfl
    exact hR x
  strip := by
    rintro x - rfl
    exact hR _

namespace Word.Like

variable {w w' : Word}

theorem isPending (h : w.Like V w') : w.isPending = w'.isPending := by
  rw [Word.isPending, Word.isPending, ← h.quoted]
  cases hq : w.quoted with
  | true => rfl
  | false => rw [h.plain hq]

theorem literal {i : Nat} (h : w.Like V w') (hi : Admits R V i) : R i w.literal w'.literal := by
  rw [Word.literal, Word.literal, ← h.quoted]
  cases hq : w.quoted with
  | true => exact hi.text _ _ h.text
  | false =>
    rw [h.plain hq]
    exact hi.refl _

theorem strip_literal {i : Nat} (h : w.Like V w') (hi : Admits R V i) :
    R i (Text.strip w.literal) (Text.strip w'.literal) := by
  rw [Word.literal, Word.literal, ← h.quoted]
  cases hq : w.quoted with
  | true => exact hi.strip _ _ h.text
  | false =>
    rw [h.plain hq]
    exact hi.refl _

/-- A word that is not there cannot differ. -/
theorem of_not_isPending (h : w.Like V w') (hw : ¬w.isPending) : w.Like Eq w' := by
  have hq : w.quoted = false := by
    cases hq : w.quoted with
    | true => exact absurd (by rw [Word.isPending, hq, Bool.true_or]) hw
    | false => rfl
  exact ⟨h.plain hq, h.quoted, h.plain⟩

theorem fill {i : Nat} (h : w.Like V w') (hi : Admits R V i) {m n : Node} (hn : m.Like (R i) n) :
    (w.fill m).Like (R i) (w'.fill n) := by
  refine ⟨hn.kind, hn.parent, hn.children, ?_, .some (.text (h.literal hi)), h.quoted⟩
  simp only [Word.fill, ← h.quoted]
  split
  · exact hn.name
  · exact .some (h.literal hi)

theorem declare {i : Nat} (h : w.Like V w') (hi : Admits R V i) {m n : Node}
    (hn : m.Like (R i) n) : (w.declare m).Like (R i) (w'.declare n) :=
  ⟨hn.kind, hn.parent, hn.children, .some (h.literal hi), hn.value, h.quoted⟩

theorem entitle {i : Nat} (h : w.Like V w') (hi : Admits R V i) {m n : Node}
    (hn : m.Like (R i) n) : (w.entitle m).Like (R i) (w'.entitle n) :=
  ⟨hn.kind, hn.parent, hn.children, .some (h.literal hi), hn.value, hn.quoted⟩

end Word.Like

namespace Scanned.Like

variable {r r' : Scanned}

theorem andThen {next next' : Scanner → Scanned} (h : r.Like R V r')
    (hnext : ∀ s s', s.Like R V s' → (next s).Like R W (next' s')) :
    (r.andThen next).Like R W (r'.andThen next') := by
  rcases h with h | ⟨h, he⟩
  · exact hnext _ _ h
  · exact .failed h he

end Scanned.Like

namespace Scanner

variable {s s' : Scanner}

/-! ### The parts of a move -/

@[simp] theorem keywords_note (s : Scanner) (line : String) :
    (s.note line).keywords = s.keywords := by
  unfold note
  split <;> rfl

namespace Like

theorem imp (h : s.Like R V s') (hRS : ∀ i x y, R i x y → S i x y) : s.Like S V s' :=
  ⟨h.tree.imp hRS, h.cursor, h.quote, h.keywords, h.word⟩

theorem cursorKind (h : s.Like R V s') : s.cursorKind = s'.cursorKind := by
  rw [Scanner.cursorKind, Scanner.cursorKind, h.tree.kind?, h.cursor]

theorem isSome_cursorName (h : s.Like R V s') : s.cursorName.isSome = s'.cursorName.isSome := by
  have hname := h.tree.name? s.cursor
  rw [h.cursor] at hname
  change (s.tree.name? s.cursor).isSome = (s'.tree.name? s'.cursor).isSome
  rw [h.cursor]
  generalize s.tree.name? s'.cursor = a at hname
  generalize s'.tree.name? s'.cursor = b at hname
  rcases hname with - | - <;> rfl

theorem isNone_cursorName (h : s.Like R V s') : s.cursorName.isNone = s'.cursorName.isNone := by
  rw [← Option.not_isSome, h.isSome_cursorName, Option.not_isSome]

/-- What is noted makes no difference. -/
theorem note (h : s.Like R V s') (line line' : String) :
    (s.note line).Like R V (s'.note line') := by
  refine ⟨?_, ?_, ?_, ?_, ?_⟩
  · simpa using h.tree
  · simpa using h.cursor
  · simpa using h.quote
  · simpa using h.keywords
  · simpa using h.word

theorem modifyNode (h : s.Like R V s') {i : Nat} {f g : Node → Node}
    (hfg : ∀ m n, m.Like (R i) n → (f m).Like (R i) (g n)) :
    (s.modifyNode i f).Like R V (s'.modifyNode i g) :=
  ⟨h.tree.modify hfg, h.cursor, h.quote, h.keywords, h.word⟩

/-- Once the words are used up they agree. -/
theorem clearWord (h : s.Like R V s') : s.clearWord.Like R Eq s'.clearWord :=
  ⟨h.tree, h.cursor, h.quote, h.keywords, rfl, rfl, fun _ => rfl⟩

theorem addKeyword (h : s.Like R V s') (k : Keyword) :
    (s.addKeyword k).Like R V (s'.addKeyword k) :=
  ⟨h.tree, h.cursor, h.quote, congrArg (· ++ [k]) h.keywords, h.word⟩

theorem endStatement (h : s.Like R V s') : s.endStatement.Like R V s'.endStatement :=
  ⟨h.tree, h.cursor, h.quote, rfl, h.word⟩

theorem nameCursorIfPending (h : s.Like R V s') (hi : Admits R V s.cursor) :
    s.nameCursorIfPending.Like R Eq s'.nameCursorIfPending := by
  rw [Scanner.nameCursorIfPending, Scanner.nameCursorIfPending, ← h.word.isPending]
  split
  · rw [nameCursor, nameCursor, ← h.cursor]
    exact (h.modifyNode fun m n hn => h.word.entitle hi hn).clearWord
  · rename_i hw
    exact ⟨h.tree, h.cursor, h.quote, h.keywords, h.word.of_not_isPending hw⟩

theorem addChild (h : s.Like R V s') (kind : NodeKind) (place place' : Location) :
    (s.addChild kind place).1.Like R V (s'.addChild kind place').1 := by
  refine ⟨?_, h.cursor, h.quote, h.keywords, h.word⟩
  have htree := h.tree.addChild s.cursor kind place place'
  rw [Scanner.addChild, Scanner.addChild, ← h.cursor]
  exact htree

/-- Adding a leaf and labelling it, which uses the word up. -/
theorem addLeaf (h : s.Like R V s') (kind : NodeKind) {f g : Node → Node}
    (hfg : ∀ m n, m.Like (R s.tree.size) n → (f m).Like (R s.tree.size) (g n)) :
    (((s.addChild kind s.wordLocation).1.modifyNode s.tree.size f).clearWord).Like R Eq
      (((s'.addChild kind s'.wordLocation).1.modifyNode s'.tree.size g).clearWord) := by
  rw [← h.tree.size]
  exact ((h.addChild kind _ _).modifyNode hfg).clearWord

theorem flushIfPending (h : s.Like R V s') (hi : Admits R V s.tree.size) :
    s.flushIfPending.Like R Eq s'.flushIfPending := by
  rw [Scanner.flushIfPending, Scanner.flushIfPending, ← h.word.isPending]
  split
  · exact (h.addLeaf .none fun _ _ => h.word.fill hi).note _ _
  · rename_i hw
    exact ⟨h.tree, h.cursor, h.quote, h.keywords, h.word.of_not_isPending hw⟩

theorem addParameter (h : s.Like R V s') (hi : Admits R V s.tree.size) :
    s.addParameter.Like R Eq s'.addParameter :=
  h.addLeaf .functionParam fun _ _ => h.word.declare hi

theorem addArgument (h : s.Like R V s') (hi : Admits R V s.tree.size) :
    s.addArgument.Like R Eq s'.addArgument := by
  rw [Scanner.addArgument, Scanner.addArgument]
  dsimp only
  have hpending : (s.addChild .functionParam s.wordLocation).1.word.isPending
      = (s'.addChild .functionParam s'.wordLocation).1.word.isPending := h.word.isPending
  rw [← hpending]
  split
  · exact h.addLeaf .functionParam fun _ _ => h.word.fill hi
  · exact (h.addChild .functionParam _ _).clearWord

theorem pushScope (h : s.Like R V s') (kind : NodeKind) (place place' : Location) :
    (s.pushScope kind place).Like R V (s'.pushScope kind place') := by
  have hchild := h.addChild kind place place'
  rw [Scanner.pushScope, Scanner.pushScope]
  refine Like.note ?_ _ _
  exact ⟨hchild.tree, h.tree.size, h.quote, h.keywords, h.word⟩

theorem pushNamed (h : s.Like R V s') (kind : NodeKind) {name name' : Option String}
    (hname : Option.Rel (R s.tree.size) name name') :
    (s.pushNamed kind name).Like R Eq (s'.pushNamed kind name') := by
  have hpush := h.pushScope kind s.wordLocation s'.wordLocation
  rw [Scanner.pushNamed, Scanner.pushNamed, ← hpush.cursor]
  refine (hpush.modifyNode fun m n hn => ?_).clearWord
  rw [cursor_pushScope] at hn ⊢
  exact ⟨hn.kind, hn.parent, hn.children, hname, hn.value, hn.quoted⟩

theorem fail (h : s.Like R V s') (fault : Fault) (place place' : Location) :
    (s.fail fault place).Like R W (s'.fail fault place') :=
  .failed h.tree rfl

theorem popScope (h : s.Like R V s') : s.popScope.Like R Eq s'.popScope := by
  rw [Scanner.popScope, Scanner.popScope, ← h.cursor, ← h.tree.parent?]
  split
  · exact h.fail _ _ _
  · rename_i p _
    rw [← h.word.isPending]
    split
    · exact h.fail _ _ _
    · refine .ok (Like.note ?_ _ _)
      exact ⟨h.tree, rfl, h.quote, h.keywords, h.clearWord.word⟩

theorem takeKeyword (h : s.Like R Eq s') : s.takeKeyword.Like R Eq s'.takeKeyword := by
  rw [Scanner.takeKeyword, Scanner.takeKeyword, ← h.word.quoted, ← h.word.text]
  split
  · exact h
  · split
    · exact h
    · rename_i k _
      have hnote := h.clearWord.note ("keyword: " ++ k.text) ("keyword: " ++ k.text)
      dsimp only
      cases hk : scopeOf? k with
      | none => exact hnote.addKeyword k
      | some kind => exact (hnote.pushScope kind s.wordLocation s'.wordLocation).addKeyword k

theorem adoptParameters (h : s.Like R V s') (call : Nat) (ps : List Nat) :
    (s.adoptParameters call ps).Like R V (s'.adoptParameters call ps) := by
  induction ps generalizing s s' with
  | nil => exact .ok h
  | cons p ps ih =>
    -- a node has a name in both trees or in neither
    have hname := h.tree.name? p
    cases hp : s.tree.name? p with
    | none =>
      cases hp' : s'.tree.name? p with
      | none =>
        rw [adoptParameters_cons_none hp, adoptParameters_cons_none hp']
        refine .failed (h.modifyNode fun m n hn => ?_).tree rfl
        exact ⟨hn.kind, rfl, hn.children, hn.name, hn.value, hn.quoted⟩
      | some name' =>
        rw [hp, hp'] at hname
        cases hname
    | some name =>
      cases hp' : s'.tree.name? p with
      | none =>
        rw [hp, hp'] at hname
        cases hname
      | some name' =>
        rw [adoptParameters_cons_some hp, adoptParameters_cons_some hp']
        exact ih (h.modifyNode fun _ _ hn => hn.asArgument call)

theorem hoistParameters (h : s.Like R V s') (call : Nat) :
    (s.hoistParameters call).Like R V (s'.hoistParameters call) := by
  rw [Scanner.hoistParameters, Scanner.hoistParameters, ← h.tree.childOfKind?]
  split
  · exact .ok h
  · rename_i l _
    dsimp only
    rw [← h.tree.children]
    refine (h.adoptParameters call _).andThen fun s₁ s₁' h₁ => .ok ?_
    refine (h₁.modifyNode fun m n hn => ?_).modifyNode fun m n hn => ?_
    · exact ⟨hn.kind, hn.parent, by rw [hn.children], hn.name, hn.value, hn.quoted⟩
    · exact ⟨hn.kind, hn.parent, rfl, hn.name, hn.value, hn.quoted⟩

end Like

/-! ### Symbols -/

instance (s : Scanner) : Decidable s.IsHeader := instDecidableAnd

/-- **The node that takes the word at a symbol**, if the symbol is one that uses it
up. -/
def receiver (s : Scanner) : Symbol → Nat
  | .openParen => if s.cursorKind = .function then s.cursor else s.tree.size
  | .openBrace =>
    if s.cursorKind = .function ∨ s.cursorKind.isType then s.cursor else s.tree.size
  | .semicolon =>
    if s.IsHeader then if s.cursorName = none then s.cursor else s.tree.size else s.tree.size
  | _ => s.tree.size

namespace Like

theorem openParen (h : s.Like R V s') (hi : Admits R V (s.receiver .openParen))
    (hname : s.cursorKind ≠ .function →
      (Text.strip s.word.literal).isEmpty = (Text.strip s'.word.literal).isEmpty) :
    s.openParen.Like R Eq s'.openParen := by
  rw [Scanner.openParen, Scanner.openParen, ← h.cursorKind]
  rw [receiver] at hi
  split
  · rename_i hk
    rw [if_pos hk] at hi
    have hnamed := h.nameCursorIfPending hi
    dsimp only
    rw [← hnamed.cursor, ← hnamed.tree.childOfKind?]
    split
    · exact hnamed.fail _ _ _
    · exact .ok (hnamed.pushScope _ _ _)
  · rename_i hk
    rw [if_neg hk] at hi
    dsimp only
    rw [← hname hk]
    split
    · exact h.fail _ _ _
    · exact .ok (h.pushNamed .call (.some (h.word.strip_literal hi)))

theorem closeParen (h : s.Like R V s') (hi : Admits R V s.tree.size) :
    s.closeParen.Like R Eq s'.closeParen := by
  rw [Scanner.closeParen, Scanner.closeParen, ← h.cursorKind, ← h.word.isPending]
  split
  · split
    · exact (h.addParameter hi).popScope
    · exact h.popScope
  · split
    · exact (h.addArgument hi).popScope
    · exact h.popScope
  · exact h.fail _ _ _

theorem comma (h : s.Like R V s') (hi : Admits R V s.tree.size) :
    s.comma.Like R Eq s'.comma := by
  rw [Scanner.comma, Scanner.comma, ← h.cursorKind, ← h.word.isPending]
  split
  · split
    · exact .ok (h.addParameter hi)
    · exact h.fail _ _ _
  · exact .ok (h.addArgument hi)
  · exact h.fail _ _ _

theorem openBrace (h : s.Like R V s') (hi : Admits R V (s.receiver .openBrace)) :
    s.openBrace.Like R Eq s'.openBrace := by
  rw [Scanner.openBrace, Scanner.openBrace, ← h.cursorKind, ← h.word.isPending,
    ← h.isSome_cursorName]
  rw [receiver] at hi
  split
  · rename_i hk
    rw [if_pos (Or.inl hk)] at hi
    split
    · exact h.fail _ _ _
    · exact .ok ((h.nameCursorIfPending hi).pushScope _ _ _).endStatement
  · rename_i hk
    split
    · rename_i htype
      rw [if_pos (Or.inr htype)] at hi
      exact .ok ((h.nameCursorIfPending hi).pushScope _ _ _)
    · rename_i htype
      rw [if_neg (not_or.mpr ⟨hk, htype⟩)] at hi
      refine .ok (h.pushNamed .none ?_)
      split
      · exact .some (h.word.literal hi)
      · exact .none

theorem closeBrace (h : s.Like R V s') (hi : Admits R V s.tree.size) :
    s.closeBrace.Like R Eq s'.closeBrace := by
  rw [Scanner.closeBrace, Scanner.closeBrace, ← h.cursorKind]
  dsimp only
  split
  · exact h.fail _ _ _
  · have hflush := h.flushIfPending hi
    have hparent : (s.flushIfPending.tree.parent? s.flushIfPending.cursor).bind
          s.flushIfPending.tree.kind?
        = (s'.flushIfPending.tree.parent? s'.flushIfPending.cursor).bind
          s'.flushIfPending.tree.kind? := by
      rw [← hflush.cursor, ← hflush.tree.parent?, funext hflush.tree.kind?]
    rw [← hparent]
    refine hflush.popScope.andThen fun s₁ s₁' h₁ => ?_
    refine Scanned.Like.andThen (V := Eq) ?_ fun s₂ s₂' h₂ => .ok h₂.endStatement
    split
    · exact h₁.popScope
    · exact .ok h₁

theorem isHeader (h : s.Like R V s') : s.IsHeader ↔ s'.IsHeader := by
  rw [IsHeader, IsHeader, h.cursorKind, h.cursor, h.tree.childOfKind?]

/-- The word names a header without a name, and is a leaf otherwise. -/
theorem flushHeader (hR : ∀ i x, R i x x) (h : s.Like R V s')
    (hi : Admits R V (if s.cursorName = none then s.cursor else s.tree.size)) :
    s.nameHeader.flushIfPending.Like R Eq s'.nameHeader.flushIfPending := by
  rw [nameHeader, nameHeader, ← h.isNone_cursorName]
  split
  · rename_i hnone
    rw [if_pos (Option.isNone_iff_eq_none.mp hnone)] at hi
    exact (h.nameCursorIfPending hi).flushIfPending (admits_eq (hR _))
  · rename_i hsome
    rw [if_neg (mt Option.isNone_iff_eq_none.mpr hsome)] at hi
    exact h.flushIfPending hi

theorem retire (h : s.Like R V s') : s.retire.Like R Eq s'.retire := by
  rw [Scanner.retire, Scanner.retire, ← h.cursor]
  have hcall : s.asCall.Like R V s'.asCall := by
    rw [asCall, asCall, ← h.cursor]
    exact h.modifyNode fun m n hn => ⟨rfl, hn.parent, hn.children, hn.name, hn.value, hn.quoted⟩
  refine (hcall.hoistParameters s.cursor).andThen fun s₁ s₁' h₁ => ?_
  exact (h₁.note _ _).popScope.andThen fun s₂ s₂' h₂ => .ok h₂.endStatement

theorem semicolon (hR : ∀ i x, R i x x) (h : s.Like R V s')
    (hi : Admits R V (s.receiver .semicolon)) : s.semicolon.Like R Eq s'.semicolon := by
  rw [receiver] at hi
  by_cases hlist : s.cursorKind = .call ∨ s.cursorKind = .functionParams
  · rw [semicolon_of_list hlist, semicolon_of_list (h.cursorKind ▸ hlist)]
    exact h.fail _ _ _
  · obtain ⟨hcall, hlist⟩ := not_or.mp hlist
    by_cases hheader : s.IsHeader
    · rw [semicolon_of_header hheader, semicolon_of_header (h.isHeader.mp hheader)]
      rw [if_pos hheader] at hi
      exact (h.flushHeader hR hi).retire
    · rw [semicolon_of_not_header hcall hlist hheader,
        semicolon_of_not_header (h.cursorKind ▸ hcall) (h.cursorKind ▸ hlist)
          (mt h.isHeader.mpr hheader)]
      rw [if_neg hheader] at hi
      exact .ok (h.flushIfPending hi).endStatement

/-- **Like scanners do like things with a symbol that uses the word up.** -/
theorem symbol {sym : Symbol} (hR : ∀ i x, R i x x) (h : s.Like R V s') (hsym : sym.usesWord)
    (hi : Admits R V (s.receiver sym))
    (hname : sym = .openParen → s.cursorKind ≠ .function →
      (Text.strip s.word.literal).isEmpty = (Text.strip s'.word.literal).isEmpty) :
    (s.symbol sym).Like R Eq (s'.symbol sym) := by
  cases sym with
  | openParen => exact h.openParen hi (hname rfl)
  | closeParen => exact h.closeParen hi
  | openBrace => exact h.openBrace hi
  | closeBrace => exact h.closeBrace hi
  | comma => exact h.comma hi
  | semicolon => exact h.semicolon hR hi
  | _ => cases hsym

/-- The other symbols let likeness be. -/
theorem symbol_of_not_usesWord {sym : Symbol} (h : s.Like R V s') (hsym : sym.usesWord = false) :
    (s.symbol sym).Like R V (s'.symbol sym) := by
  cases sym with
  | singleQuote | doubleQuote =>
    exact .ok ⟨h.tree, h.cursor, rfl, h.keywords, h.word.text, rfl, fun hq => by cases hq⟩
  | openBracket | closeBracket | tab | space => exact .ok h
  | newline => exact .ok ⟨h.tree, h.cursor, h.quote, h.keywords, h.word⟩
  | _ => cases hsym

/-! ### Characters and texts -/

theorem advance (h : s.Like R V s') : s.advance.Like R V s'.advance :=
  ⟨h.tree, h.cursor, h.quote, h.keywords, h.word⟩

/-- **What is collected by one is collected by the other.** -/
theorem scan_of_collected {c : Char} (h : s.Like R V s')
    (hV : ∀ x y, V x y → V (x.push c) (y.push c))
    (hc : s.quote = none → Symbol.ofChar? c = none) : (s.scan c).Like R V (s'.scan c) := by
  have hpush := hV _ _ h.word.text
  rw [scan, scan, ← h.quote]
  cases hq : s.quote with
  | none =>
    dsimp only
    rw [hc hq]
    refine .ok ⟨h.tree, h.cursor, h.quote, h.keywords, hpush, h.word.quoted, fun hw => ?_⟩
    exact congrArg (·.push c) (h.word.plain hw)
  | some q =>
    dsimp only
    split
    · exact .ok ⟨h.tree, h.cursor, rfl, h.keywords, h.word⟩
    · exact .ok ⟨h.tree, h.cursor, h.quote, h.keywords, hpush, rfl, fun hw => by cases hw⟩

theorem scan {c : Char} (hR : ∀ i x, R i x x) (h : s.Like R Eq s') :
    (s.scan c).Like R Eq (s'.scan c) := by
  -- what is no symbol outside quotes is collected
  by_cases hsym : s.quote = none ∧ ∃ sym, Symbol.ofChar? c = some sym
  · obtain ⟨hq, sym, hsym⟩ := hsym
    have hkey := h.takeKeyword
    have hliteral : s.takeKeyword.word.literal = s'.takeKeyword.word.literal := by
      rw [Word.literal, Word.literal, hkey.word.quoted, hkey.word.text]
    rw [Scanner.scan, Scanner.scan, ← h.quote, hq, hsym]
    dsimp only
    cases huses : sym.usesWord with
    | true => exact hkey.symbol hR huses (admits_eq (hR _)) fun _ _ => by rw [hliteral]
    | false => exact hkey.symbol_of_not_usesWord huses
  · refine h.scan_of_collected (fun x y hxy => congrArg (·.push c) hxy) fun hq => ?_
    by_contra hsome
    exact hsym ⟨hq, Option.ne_none_iff_exists'.mp hsome⟩

/-- **Like scanners do like things with every text.** -/
theorem feed (hR : ∀ i x, R i x x) (h : s.Like R Eq s') (cs : List Char) :
    (s.feed cs).Like R Eq (s'.feed cs) := by
  induction cs generalizing s s' with
  | nil => exact .ok h
  | cons c cs ih =>
    rw [Scanner.feed, Scanner.feed]
    exact (h.scan hR).andThen fun s₁ s₁' h₁ => ih h₁.advance

/-- **Like scanners come to like ends.** -/
theorem finish (h : s.Like R V s') (hkey : s.takeKeyword.Like R V s'.takeKeyword)
    (hi : Admits R V s.takeKeyword.tree.size) : s.finish.Like R Eq s'.finish := by
  rw [Scanner.finish, Scanner.finish, ← h.quote]
  split
  · exact h.fail _ _ _
  · have hflush := hkey.flushIfPending hi
    dsimp only
    rw [atRoot, atRoot, ← hflush.cursor, ← hflush.tree.parent?, ← hflush.cursorKind]
    split
    · exact .ok hflush
    · exact hflush.fail _ _ _

theorem noteTree (h : s.Like R V s') (name : String) :
    (s.noteTree name).Like R V (s'.noteTree name) := by
  have heq : ∀ s : Scanner,
      s.noteTree name = s.note ("tree for '" ++ name ++ "':\n" ++ s.tree.dump 0 0) := by
    intro s
    rw [Scanner.noteTree]
    split
    · rfl
    · rename_i hdebug
      rw [Scanner.note, if_neg hdebug]
  rw [heq, heq]
  exact h.note _ _

end Like

end Scanner

end ScopeScript
