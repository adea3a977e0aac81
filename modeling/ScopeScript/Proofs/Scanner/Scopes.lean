import ScopeScript.Proofs.Scanner.Inversion
import ScopeScript.Proofs.Scanner.Standing
import ScopeScript.Proofs.Scanner.WellFormed

/-!
# The scopes that are open

The open scope stands in another one, that in another, and so on up to the script
itself. What a symbol does to a scanner is best seen on the list of their kinds,
innermost first (`ScopeScript.Scanner.scopes`): it opens a scope, closes one or
two, or leaves them as they are. `ScopeScript.Shifts` lists what can happen, and
`ScopeScript.Scanner.shifts_symbol` shows that nothing else does where a symbol is
read without a failure. A keyword can only open a scope of its own
(`ScopeScript.Scanner.Sound.scopes_takeKeyword`).

So the open scopes are **nested** in one way throughout
(`ScopeScript.Nesting`): parameters and a body are only ever open in a function,
and the script is the outermost scope and no other.
-/

namespace ScopeScript

/-- A pair of characters that encloses text. -/
inductive Bracket where
  | paren
  | brace
deriving DecidableEq, Repr

namespace NodeKind

/-- Whether a scope of this kind is opened by a keyword. -/
def isDeclaration : NodeKind → Bool
  | function | «class» | enum => true
  | _ => false

/-- The brackets that enclose a scope of this kind, if any. -/
def bracket? : NodeKind → Option Bracket
  | call | functionParams => some .paren
  | none | functionImpl => some .brace
  | _ => Option.none

theorem bracket?_of_isType {k : NodeKind} (h : k.isType) : k.bracket? = Option.none := by
  cases k <;> first | rfl | cases h

theorem bracket?_of_isDeclaration {k : NodeKind} (h : k.isDeclaration) :
    k.bracket? = Option.none := by
  cases k <;> first | rfl | cases h

end NodeKind

/-! ### Kinds along the way up -/

namespace Tree

variable {t t' : Tree} {i j p : Nat} {k : NodeKind}

/-- The kinds of a node and of all above it, from the inside out. -/
def lineage (t : Tree) (i : Nat) : List NodeKind := (i :: t.ancestors i).filterMap t.kind?

theorem lineage_of_parent? (hp : t.parent? i = some p) (hlt : p < i) (hk : t.kind? i = some k) :
    t.lineage i = k :: t.lineage p := by
  rw [lineage, ancestors, hp]
  simp [hlt, hk, lineage]

theorem lineage_of_orphan (hp : t.parent? i = none) (hk : t.kind? i = some k) :
    t.lineage i = [k] := by
  rw [lineage, ancestors, hp]
  simp [hk]

/-- The kinds along the way up only depend on the nodes up to this one. -/
theorem lineage_congr (hlt : ∀ j p, t.parent? j = some p → p < j)
    (hk : ∀ j ≤ i, t'.kind? j = t.kind? j) (hp : ∀ j ≤ i, t'.parent? j = t.parent? j) :
    t'.lineage i = t.lineage i := by
  induction i using Nat.strongRecOn with
  | ind i ih =>
    have hki := hk i (Nat.le_refl i)
    have hpi := hp i (Nat.le_refl i)
    cases hparent : t.parent? i with
    | none =>
      rw [hparent] at hpi
      rw [lineage, lineage, ancestors, ancestors, hpi, hparent]
      simp only [List.filterMap_cons, List.filterMap_nil, hki]
    | some p =>
      have hlt' := hlt i p hparent
      obtain ⟨n, hn⟩ := exists_node? (lt_size_of_parent? hparent)
      have hkind := kind?_of_node? hn
      rw [hparent] at hpi
      rw [hkind] at hki
      rw [lineage_of_parent? hpi hlt' hki, lineage_of_parent? hparent hlt' hkind]
      have hup := ih p hlt' (fun j hj => hk j (by omega)) (fun j hj => hp j (by omega))
      rw [hup]

theorem SameLinks.lineage (h : SameLinks t t') (hl : t.Laid) (i : Nat) :
    t'.lineage i = t.lineage i :=
  lineage_congr hl.parent_lt (fun j _ => h.kind? j) fun j _ => h.parent? j

theorem lineage_sprout (hl : t.Laid) (hp : p < t.size) (n : Node) (hj : j < t.size) :
    (t.sprout p n).lineage j = t.lineage j := by
  refine lineage_congr hl.parent_lt (fun i hi => ?_) fun i hi => ?_
  · exact kind?_sprout_of_lt hp n (by omega)
  · rw [parent?_sprout hp, if_neg (by omega)]

/-- What a parameter list holds stands after the function. -/
theorem Laid.not_mem_listed {f : Nat} (h : t.Laid) (hj : j ≤ f) : j ∉ t.listed f := by
  intro hm
  obtain ⟨l, hlist, hml⟩ := exists_of_mem_listed hm
  have h₁ := h.lt_of_mem (mem_of_childOfKind? hlist)
  have h₂ := h.lt_of_mem hml
  omega

/-- A header that becomes a call changes nothing above it. -/
theorem Hoists.lineage {f : Nat} (h : t.Hoists t' f) (hl : t.Laid) (hp : p < f) :
    t'.lineage p = t.lineage p := by
  refine lineage_congr hl.parent_lt (fun j hj => ?_) fun j hj => ?_
  · rw [h.kind?, if_neg (by omega)]
  · rw [h.parent?, if_neg (hl.not_mem_listed (by omega))]

end Tree

/-! ### What symbols do to the open scopes -/

/-- **What a symbol can do to the open scopes**, given by their kinds, innermost
first. -/
inductive Shifts : Symbol → List NodeKind → List NodeKind → Prop
  /-- A call begins. -/
  | call {ks : List NodeKind} : Shifts .openParen ks (.call :: ks)
  /-- The parameters of a function begin. -/
  | parameters {ks : List NodeKind} :
      Shifts .openParen (.function :: ks) (.functionParams :: .function :: ks)
  /-- A call or the parameters of a function end. -/
  | closeParen {k : NodeKind} {ks : List NodeKind} (hk : k.bracket? = some .paren) :
      Shifts .closeParen (k :: ks) ks
  /-- A block or the body of a type begins. -/
  | block {ks : List NodeKind} : Shifts .openBrace ks (.none :: ks)
  /-- The body of a function begins. -/
  | body {ks : List NodeKind} :
      Shifts .openBrace (.function :: ks) (.functionImpl :: .function :: ks)
  /-- A block ends. -/
  | endBlock {ks : List NodeKind} : Shifts .closeBrace (.none :: ks) ks
  /-- A type ends with its body. -/
  | endType {k : NodeKind} {ks : List NodeKind} (hk : k.isType) :
      Shifts .closeBrace (.none :: k :: ks) ks
  /-- A function ends with its body. -/
  | endFunction {k : NodeKind} {ks : List NodeKind} :
      Shifts .closeBrace (.functionImpl :: k :: ks) ks
  /-- A scope ends that no bracket had opened. -/
  | stray {k : NodeKind} {ks : List NodeKind} (hk : k.bracket? = none) :
      Shifts .closeBrace (k :: ks) ks
  /-- A header without a body ends. -/
  | header {ks : List NodeKind} : Shifts .semicolon (.function :: ks) ks
  /-- Nothing is opened or closed. -/
  | still {sym : Symbol} {ks : List NodeKind} (hp : sym ≠ .openParen ∧ sym ≠ .closeParen)
      (hb : sym ≠ .openBrace ∧ sym ≠ .closeBrace) : Shifts sym ks ks

namespace Scanner

variable {s s' : Scanner}

/-- The kinds of the open scope and of all that it stands in, innermost first. -/
def scopes (s : Scanner) : List NodeKind := s.tree.lineage s.cursor

theorem scopes_congr (ht : s'.tree = s.tree) (hc : s'.cursor = s.cursor) :
    s'.scopes = s.scopes := by
  rw [scopes, scopes, ht, hc]

theorem Sound.kind?_eq (hs : s.Sound) : s.tree.kind? s.cursor = some s.cursorKind := by
  obtain ⟨n, hn⟩ := Tree.exists_node? hs.isOpen.lt_size
  rw [cursorKind, Tree.kind?_of_node? hn, Option.getD_some]

theorem Sound.scopes_eq (hs : s.Sound) : ∃ ks, s.scopes = s.cursorKind :: ks := by
  cases hp : s.tree.parent? s.cursor with
  | none => exact ⟨[], Tree.lineage_of_orphan hp hs.kind?_eq⟩
  | some p =>
    have hlt := hs.laid.parent_lt _ _ hp
    exact ⟨s.tree.lineage p, Tree.lineage_of_parent? hp hlt hs.kind?_eq⟩

/-! ### The parts of a move -/

theorem Sound.scopes_modifyNode {f : Node → Node} (hs : s.Sound) (hf : KeepsLinks f) (i : Nat) :
    (s.modifyNode i f).scopes = s.scopes :=
  (Tree.SameLinks.modify hf s.tree i).lineage hs.laid s.cursor

theorem Sound.scopes_addChild (hs : s.Sound) (kind : NodeKind) (place : Location) :
    (s.addChild kind place).1.scopes = s.scopes := by
  have hlt := hs.isOpen.lt_size
  exact Tree.lineage_sprout hs.laid hlt _ hlt

theorem Sound.scopes_nameCursorIfPending (hs : s.Sound) :
    s.nameCursorIfPending.scopes = s.scopes := by
  rw [scopes, cursor_nameCursorIfPending, s.sameLinks_nameCursorIfPending.lineage hs.laid, scopes]

theorem Sound.scopes_flushIfPending (hs : s.Sound) : s.flushIfPending.scopes = s.scopes := by
  unfold flushIfPending
  split
  · have hleaf := hs.reach (s.reach_addLeaf .none rfl s.wordLocation)
    have hfill := hleaf.scopes_modifyNode s.word.keepsLinks_fill s.tree.size
    calc s.flushWord.scopes
        = ((s.addChild .none s.wordLocation).1.modifyNode s.tree.size s.word.fill).scopes :=
          scopes_congr (tree_note _ _) (cursor_note _ _)
      _ = s.scopes := hfill.trans (hs.scopes_addChild _ _)
  · rfl

theorem Sound.scopes_addParameter (hs : s.Sound) : s.addParameter.scopes = s.scopes := by
  have hleaf := hs.reach (s.reach_addLeaf .functionParam rfl s.wordLocation)
  have hdeclare := hleaf.scopes_modifyNode s.word.keepsLinks_declare s.tree.size
  exact hdeclare.trans (hs.scopes_addChild _ _)

theorem Sound.scopes_addArgument (hs : s.Sound) : s.addArgument.scopes = s.scopes := by
  have hleaf := hs.reach (s.reach_addLeaf .functionParam rfl s.wordLocation)
  have hfill := hleaf.scopes_modifyNode s.word.keepsLinks_fill s.tree.size
  have hadd := hs.scopes_addChild .functionParam s.wordLocation
  unfold addArgument
  dsimp only
  split
  · exact hfill.trans hadd
  · exact hadd

theorem Sound.scopes_pushScope (hs : s.Sound) (kind : NodeKind) (place : Location) :
    (s.pushScope kind place).scopes = kind :: s.scopes := by
  have hlt := hs.isOpen.lt_size
  set n : Node := { kind, location := place, parent := some s.cursor }
  have hpush : (s.pushScope kind place).scopes
      = (s.tree.sprout s.cursor n).lineage s.tree.size := by
    rw [scopes, tree_pushScope, cursor_pushScope]
  have hnew := Tree.node?_sprout_new hlt n
  rw [hpush, Tree.lineage_of_parent? (Tree.parent?_of_node? hnew) hlt (Tree.kind?_of_node? hnew),
    Tree.lineage_sprout hs.laid hlt n hlt, scopes]

theorem Sound.scopes_pushNamed (hs : s.Sound) (kind : NodeKind) (hk : s.CanOpen kind)
    (name : Option String) : (s.pushNamed kind name).scopes = kind :: s.scopes := by
  have hpush := hs.reach (s.reach_pushScope kind hk s.wordLocation)
  have hname : KeepsLinks fun n => { n with name } := fun _ => ⟨rfl, rfl, rfl⟩
  rw [← hs.scopes_pushScope kind s.wordLocation, ← hpush.scopes_modifyNode hname]
  rfl

theorem Sound.scopes_popScope (hs : s.Sound) (h : s.popScope = .ok s') :
    s.scopes = s.cursorKind :: s'.scopes := by
  have hp := parent?_of_popScope h
  have hlt := hs.laid.parent_lt _ _ hp
  rw [scopes, Tree.lineage_of_parent? hp hlt hs.kind?_eq, scopes, tree_popScope h]

theorem Sound.popScope (hs : s.Sound) (h : s.popScope = .ok s') : s'.Sound := by
  have hfollows := s.follows_popScope
  rw [h] at hfollows
  exact hs.reach hfollows

/-- **A keyword opens a scope of its own**, or none. -/
theorem Sound.scopes_takeKeyword (hs : s.Sound) :
    s.takeKeyword.scopes = s.scopes ∨
      ∃ k : NodeKind, k.isDeclaration ∧ s.takeKeyword.scopes = k :: s.scopes := by
  rcases s.takeKeyword_cases with htake | ⟨k, line, -, -, ⟨hk, htake⟩ | ⟨kind, hk, htake⟩⟩
  · rw [htake]
    exact Or.inl rfl
  · rw [htake]
    exact Or.inl (scopes_congr (tree_note _ _) (cursor_note _ _))
  · set s₁ := s.clearWord.note line
    have htree : s₁.tree = s.tree := tree_note _ _
    have hcursor : s₁.cursor = s.cursor := cursor_note _ _
    refine Or.inr ⟨kind, ?_, ?_⟩
    · cases k <;> cases hk <;> rfl
    · rw [htake, ← scopes_congr htree hcursor]
      exact (hs.congr htree hcursor).scopes_pushScope kind s.wordLocation

/-! ### Symbols -/

theorem shifts_openParen (hs : s.Sound) (h : s.openParen = .ok s') :
    Shifts .openParen s.scopes s'.scopes := by
  rcases openParen_ok h with ⟨hk, rfl⟩ | ⟨-, -, rfl⟩
  · obtain ⟨ks, hks⟩ := hs.scopes_eq
    have hnamed := hs.reach s.reach_nameCursorIfPending
    rw [hnamed.scopes_pushScope, hs.scopes_nameCursorIfPending, hks, hk]
    exact Shifts.parameters
  · rw [hs.scopes_pushNamed .call trivial]
    exact Shifts.call

theorem shifts_closeParen (hs : s.Sound) (h : s.closeParen = .ok s') :
    Shifts .closeParen s.scopes s'.scopes := by
  obtain ⟨s₁, hpop, hcases⟩ := closeParen_ok h
  obtain ⟨ks, hks⟩ := hs.scopes_eq
  -- the word becomes a leaf, or there is none, and the scope it stands in is closed
  obtain ⟨hs₁, hscopes, hk⟩ : s₁.Sound ∧ s₁.scopes = s.scopes ∧
      s.cursorKind.bracket? = some .paren := by
    rcases hcases with ⟨hk, -, rfl⟩ | ⟨hk, -, rfl⟩ | ⟨hk, -, rfl⟩
    · exact ⟨hs.reach s.reach_addParameter, hs.scopes_addParameter, by rw [hk]; rfl⟩
    · exact ⟨hs.reach s.reach_addArgument, hs.scopes_addArgument, by rw [hk]; rfl⟩
    · exact ⟨hs, rfl, by rcases hk with hk | hk <;> rw [hk] <;> rfl⟩
  have hclosed := hs₁.scopes_popScope hpop
  rw [hscopes, hks] at hclosed
  rw [hks, (List.cons.inj hclosed).2]
  exact Shifts.closeParen hk

theorem shifts_comma (hs : s.Sound) (h : s.comma = .ok s') :
    Shifts .comma s.scopes s'.scopes := by
  have hstill : s'.scopes = s.scopes := by
    rcases comma_ok h with ⟨-, -, rfl⟩ | ⟨-, rfl⟩
    · exact hs.scopes_addParameter
    · exact hs.scopes_addArgument
  rw [hstill]
  exact Shifts.still (by decide) (by decide)

theorem shifts_openBrace (hs : s.Sound) (h : s.openBrace = .ok s') :
    Shifts .openBrace s.scopes s'.scopes := by
  have hnamed := hs.reach s.reach_nameCursorIfPending
  rcases openBrace_ok h with ⟨hk, rfl⟩ | ⟨-, rfl⟩ | ⟨-, -, rfl⟩
  · obtain ⟨ks, hks⟩ := hs.scopes_eq
    have hpush := hnamed.scopes_pushScope .functionImpl s.nameCursorIfPending.location
    rw [hs.scopes_nameCursorIfPending, hks, hk] at hpush
    rw [hks, hk]
    exact hpush ▸ Shifts.body
  · rw [hnamed.scopes_pushScope, hs.scopes_nameCursorIfPending]
    exact Shifts.block
  · rw [hs.scopes_pushNamed .none trivial]
    exact Shifts.block

theorem shifts_closeBrace (hs : s.Sound) (h : s.closeBrace = .ok s') :
    Shifts .closeBrace s.scopes s'.scopes := by
  obtain ⟨hcall, hlist, s₁, s₂, hpop, rfl, hcases⟩ := closeBrace_ok h
  have hflush := hs.reach s.reach_flushIfPending
  have hs₁ := hflush.popScope hpop
  -- the word before the brace becomes a leaf of the scope that is closed
  have hclosed : s.scopes = s.cursorKind :: s₁.scopes := by
    obtain ⟨ks, hks⟩ := hs.scopes_eq
    have hpopped := hflush.scopes_popScope hpop
    rw [hs.scopes_flushIfPending, hks] at hpopped
    rw [hks, (List.cons.inj hpopped).2]
  rw [hclosed]
  rcases hcases with ⟨hbody, hpop'⟩ | ⟨himpl, hnone, rfl⟩
  · rw [hs₁.scopes_popScope hpop']
    rcases hbody with hk | ⟨hk, htype⟩
    · rw [hk]
      exact Shifts.endFunction
    · rw [hk]
      exact Shifts.endType htype
  · by_cases hk : s.cursorKind = .none
    · rw [hk]
      exact Shifts.endBlock
    · refine Shifts.stray ?_
      generalize s.cursorKind = k at hcall hlist himpl hk ⊢
      cases k <;> first | rfl | contradiction

theorem Sound.nameHeader (hs : s.Sound) : s.nameHeader.Sound := by
  rw [Scanner.nameHeader]
  split
  · exact hs.reach s.reach_nameCursorIfPending
  · exact hs

theorem Sound.scopes_nameHeader (hs : s.Sound) : s.nameHeader.scopes = s.scopes := by
  rw [Scanner.nameHeader]
  split
  · exact hs.scopes_nameCursorIfPending
  · rfl

theorem IsHeader.nameHeader (h : s.IsHeader) : s.nameHeader.IsHeader := by
  rw [Scanner.nameHeader]
  split
  · exact h.nameCursorIfPending
  · exact h

/-- A header that becomes a call is closed at once. -/
theorem Sound.scopes_retire (hs : s.Sound) (hh : s.IsHeader) (h : s.retire = .ok s') :
    s.scopes = .function :: s'.scopes := by
  obtain ⟨s₁, s₂, line, hhoist, hpop, rfl⟩ := retire_ok h
  obtain ⟨hcursor, hhoists⟩ := hoists_of_ok hh.1 hhoist
  have hparent := parent?_of_popScope hpop
  rw [tree_note, cursor_note, hcursor, hhoists.parent?,
    if_neg (hs.laid.not_mem_listed (Nat.le_refl _))] at hparent
  have hlt := hs.laid.parent_lt _ _ hparent
  have hend : s₂.endStatement.scopes = s₂.scopes := rfl
  rw [scopes, Tree.lineage_of_parent? hparent hlt hs.kind?_eq, hh.1, hend, scopes,
    tree_popScope hpop, tree_note, hhoists.lineage hs.laid hlt]

theorem shifts_semicolon (hs : s.Sound) (h : s.semicolon = .ok s') :
    Shifts .semicolon s.scopes s'.scopes := by
  rcases semicolon_ok h with ⟨hh, hretire⟩ | ⟨-, -, -, rfl⟩
  · have hnamed := hs.nameHeader
    have hflush := hnamed.reach s.nameHeader.reach_flushIfPending
    rw [← hs.scopes_nameHeader, ← hnamed.scopes_flushIfPending,
      hflush.scopes_retire hh.nameHeader.flushIfPending hretire]
    exact Shifts.header
  · have hstill : s.flushIfPending.endStatement.scopes = s.scopes := hs.scopes_flushIfPending
    rw [hstill]
    exact Shifts.still (by decide) (by decide)

/-- **What a symbol does to the open scopes**, where it is read without a
failure. -/
theorem shifts_symbol {sym : Symbol} (hs : s.Sound) (h : s.symbol sym = .ok s') :
    Shifts sym s.scopes s'.scopes := by
  cases sym with
  | openParen => exact shifts_openParen hs h
  | closeParen => exact shifts_closeParen hs h
  | openBrace => exact shifts_openBrace hs h
  | closeBrace => exact shifts_closeBrace hs h
  | comma => exact shifts_comma hs h
  | semicolon => exact shifts_semicolon hs h
  | openBracket | closeBracket | tab | space | singleQuote | doubleQuote | newline =>
    cases h
    exact Shifts.still (by decide) (by decide)

end Scanner

/-! ### How scopes are nested -/

/-- **How scopes can be nested**, given by their kinds, innermost first. -/
inductive Nesting : List NodeKind → Prop
  /-- The script itself. -/
  | script : Nesting [.global]
  /-- Calls, blocks and declarations stand anywhere. -/
  | scope {k : NodeKind} {ks : List NodeKind} (hk : k = .call ∨ k = .none ∨ k.isDeclaration)
      (h : Nesting ks) : Nesting (k :: ks)
  /-- Parameters and bodies stand in a function. -/
  | part {k : NodeKind} {ks : List NodeKind} (hk : k = .functionParams ∨ k = .functionImpl)
      (h : Nesting (.function :: ks)) : Nesting (k :: .function :: ks)

namespace Nesting

variable {k : NodeKind} {ks : List NodeKind}

theorem tail (h : Nesting (k :: ks)) (hk : k ≠ .global) : Nesting ks := by
  cases h with
  | script => exact absurd rfl hk
  | scope _ h => exact h
  | part _ h => exact h

/-- The outermost scope is the script itself. -/
theorem eq_global (h : Nesting [k]) : k = .global := by
  cases h with
  | script => rfl
  | scope _ h => cases h

/-- The body of a function stands in a function. -/
theorem tail_of_body {k' : NodeKind} (h : Nesting (.functionImpl :: k' :: ks)) :
    k' = .function := by
  cases h with
  | scope hk _ => rcases hk with hk | hk | hk <;> cases hk
  | part _ _ => rfl

/-- A scope that no bracket opened is a declaration, or the script itself. -/
theorem isDeclaration (h : Nesting (k :: ks)) (hk : k.bracket? = none) (hks : ks ≠ []) :
    k.isDeclaration := by
  cases h with
  | script => exact absurd rfl hks
  | scope hscope _ =>
    rcases hscope with rfl | rfl | hscope
    · cases hk
    · cases hk
    · exact hscope
  | part hpart _ => rcases hpart with rfl | rfl <;> cases hk

end Nesting

/-- **Symbols keep scopes nested**, as long as the script itself is not closed. -/
theorem Shifts.nesting {sym : Symbol} {ks ks' : List NodeKind} (h : Shifts sym ks ks')
    (hks : Nesting ks) (hks' : ks' ≠ []) : Nesting ks' := by
  cases h with
  | call => exact .scope (Or.inl rfl) hks
  | parameters => exact .part (Or.inl rfl) hks
  | closeParen hk =>
    refine hks.tail ?_
    rintro rfl
    cases hk
  | block => exact .scope (Or.inr (Or.inl rfl)) hks
  | body => exact .part (Or.inr rfl) hks
  | endBlock => exact hks.tail (by decide)
  | endType hk =>
    refine (hks.tail (by decide)).tail ?_
    rintro rfl
    cases hk
  | endFunction =>
    obtain rfl := hks.tail_of_body
    exact (hks.tail (by decide)).tail (by decide)
  | stray hk =>
    refine hks.tail ?_
    rintro rfl
    cases hks.isDeclaration hk hks'
  | header => exact hks.tail (by decide)
  | still _ _ => exact hks

namespace Scanner

variable {s s' : Scanner}

/-- **The invariant of the scanner, with its scopes nested.** -/
structure Nested (s : Scanner) : Prop extends s.Sound where
  nesting : Nesting s.scopes

theorem Nested.congr (hs : s.Nested) (ht : s'.tree = s.tree) (hc : s'.cursor = s.cursor) :
    s'.Nested := by
  refine ⟨hs.toSound.congr ht hc, ?_⟩
  rw [scopes_congr ht hc]
  exact hs.nesting

theorem Nested.advance (hs : s.Nested) : s.advance.Nested := hs.congr rfl rfl

theorem scopes_start (s : Scanner) (name : String) : (s.start name).scopes = [.global] :=
  Tree.lineage_of_orphan rfl rfl

theorem nested_start (s : Scanner) (name : String) : (s.start name).Nested := by
  refine ⟨s.sound_start name, ?_⟩
  rw [scopes_start]
  exact Nesting.script

theorem Nested.takeKeyword (hs : s.Nested) : s.takeKeyword.Nested := by
  refine ⟨hs.reach s.reach_takeKeyword, ?_⟩
  rcases hs.scopes_takeKeyword with hsame | ⟨k, hk, hopened⟩
  · rw [hsame]
    exact hs.nesting
  · rw [hopened]
    exact Nesting.scope (Or.inr (Or.inr hk)) hs.nesting

theorem Nested.symbol {sym : Symbol} (hs : s.Nested) (h : s.symbol sym = .ok s') : s'.Nested := by
  have hfollows := s.follows_symbol sym
  rw [h] at hfollows
  have hs' : s'.Sound := hs.reach hfollows
  obtain ⟨ks, hks⟩ := hs'.scopes_eq
  exact ⟨hs', (shifts_symbol hs.toSound h).nesting hs.nesting (by simp [hks])⟩

end Scanner

end ScopeScript
