import ScopeScript.Proofs.Scanner.Moves

/-!
# The tree of a scanner is well-formed at every moment

The scanner builds its tree link by link, and rewires it in place where a header
turns out to be a call. **At every moment of every parse the tree is well-formed,
and the open scope is found along last children from the root**
(`ScopeScript.Scanner.wellFormed_throughout`) – after every character, at the
end, and also where the parse is given up with a script error. A host error is
another matter: it strikes in the middle of the rewiring.

The invariant behind this is `ScopeScript.Scanner.Sound`: the tree is nested and
the cursor is open in it. Every move keeps it (`ScopeScript.Scanner.Move.sound`).
-/

namespace ScopeScript.Scanner

variable {s s' : Scanner}

/-- **The tree of the scanner is well-formed, and the open scope is found along
last children from the root.** -/
structure WellFormed (s : Scanner) : Prop where
  /-- The links of the tree are consistent. -/
  tree : s.tree.WellFormed
  /-- The open scope is the last child of the last child … of the root. -/
  cursor : s.tree.LastPath s.cursor

/-- **The invariant of the scanner**: the tree is nested, and the cursor is open
in it. -/
structure Sound (s : Scanner) : Prop where
  laid : s.tree.Laid
  isOpen : s.tree.IsOpen s.cursor

theorem Sound.wellFormed (h : s.Sound) : s.WellFormed where
  tree := h.laid.toWellFormed
  cursor := h.laid.lastPath h.isOpen

/-! ### What a move keeps -/

theorem Sound.congr (h : s.Sound) (ht : s'.tree = s.tree) (hc : s'.cursor = s.cursor) :
    s'.Sound := by
  refine ⟨?_, ?_⟩
  · rw [ht]
    exact h.laid
  · rw [ht, hc]
    exact h.isOpen

/-- A leaf fits below any scope. -/
theorem fits_leaf {kind : NodeKind} (hk : kind.isLeaf) (place : Location) (t : Tree) (c : Nat) :
    t.Fits c { kind := kind, location := place, parent := some c } where
  parent := rfl
  children := rfl
  ne_global := by
    rintro rfl
    exact absurd hk (by decide)
  list := by
    rintro rfl
    exact absurd hk (by decide)

/-- A scope fits where it can be opened. -/
theorem fits_scope {kind : NodeKind} (hk : s.CanOpen kind) (place : Location) :
    s.tree.Fits s.cursor { kind := kind, location := place, parent := some s.cursor } where
  parent := rfl
  children := rfl
  ne_global := by
    rintro rfl
    exact hk
  list := by
    rintro rfl
    exact ⟨kind?_cursor hk.1 (by decide), hk.2⟩

/-- **Every move keeps the invariant.** -/
theorem Move.sound (h : Move s s') (hs : s.Sound) : s'.Sound := by
  cases h with
  | quiet ht hc => exact hs.congr ht hc
  | label i f hf _ ht hc =>
    have hlinks := Tree.SameLinks.modify hf s.tree i
    rw [← ht] at hlinks
    refine ⟨hlinks.laid hs.laid, ?_⟩
    rw [hc]
    exact hlinks.isOpen hs.isOpen
  | leaf kind place hk ht hc =>
    have hfits := fits_leaf hk place s.tree s.cursor
    rw [Tree.addChild_eq_sprout] at ht
    refine ⟨?_, ?_⟩
    · rw [ht]
      exact hs.laid.sprout hs.isOpen hfits
    · rw [ht, hc]
      exact hs.laid.isOpen_sprout hs.isOpen hfits
  | push kind place hk ht hc =>
    have hfits := fits_scope hk place
    rw [Tree.addChild_eq_sprout] at ht
    refine ⟨?_, ?_⟩
    · rw [ht]
      exact hs.laid.sprout hs.isOpen hfits
    · rw [ht, hc]
      exact hs.laid.isOpen_sprout_new hs.isOpen hfits
  | pop ht hc =>
    refine ⟨?_, ?_⟩
    · rw [ht]
      exact hs.laid
    · rw [ht]
      exact hs.laid.isOpen_parent hs.isOpen hc
  | retire hh h =>
    obtain ⟨hc, hhoist⟩ := hoists_of_ok hh.1 h
    refine ⟨hhoist.laid hs.laid (kind?_cursor hh.1 (by decide)) hs.isOpen, ?_⟩
    rw [hc]
    exact hhoist.isOpen hs.isOpen

theorem Sound.reach (hs : s.Sound) (h : Reach s s') : s'.Sound :=
  Reach.keeps (fun _ _ => Move.sound) h hs

theorem Sound.leaves {r : Scanned} (hs : s.Sound) (h : r.Follows s) : r.Leaves Sound :=
  h.imp fun _ => hs.reach

/-! ### Where a parse starts -/

theorem node?_empty (name : String) (place : Location) (i : Nat) :
    (Tree.empty name place).node? i
      = if i = 0 then some { kind := .global, location := place } else none := by
  cases i <;> rfl

/-- A scanner starts with the root alone. -/
theorem eq_of_node?_start {name : String} {i : Nat} {n : Node}
    (hn : (s.start name).tree.node? i = some n) :
    n = { kind := .global, location := { file := name } } := by
  change (Tree.empty name { file := name }).node? i = some n at hn
  rw [node?_empty] at hn
  split at hn
  · exact (Option.some.inj hn).symm
  · cases hn

theorem parent?_empty (name : String) (place : Location) (i : Nat) :
    (Tree.empty name place).parent? i = none := by
  rw [Tree.parent?, node?_empty]
  split <;> rfl

theorem children_empty (name : String) (place : Location) (i : Nat) :
    (Tree.empty name place).children i = [] := by
  cases i <;> rfl

theorem kind?_empty (name : String) (place : Location) (i : Nat) :
    (Tree.empty name place).kind? i = if i = 0 then some .global else none := by
  rw [Tree.kind?, node?_empty]
  split <;> rfl

theorem not_isDetached_empty (name : String) (place : Location) (i : Nat) :
    ¬(Tree.empty name place).IsDetached i := by
  rintro ⟨-, p, hp, -⟩
  rw [parent?_empty] at hp
  cases hp

/-- A tree that consists of its root is well-formed and nested. -/
theorem laid_empty (name : String) (place : Location) : (Tree.empty name place).Laid where
  size_pos := Nat.one_pos
  global_iff i := by
    rw [kind?_empty]
    split <;> simp_all
  orphan_iff i hi := iff_of_true (parent?_empty name place i) (Nat.lt_one_iff.mp hi)
  parent_lt i p hp := by
    rw [parent?_empty] at hp
    cases hp
  increasing i := by
    rw [children_empty]
    exact List.Pairwise.nil
  parent_of_mem i j hj := by
    rw [children_empty] at hj
    cases hj
  mem_of_parent j p hp _ := by
    rw [parent?_empty] at hp
    cases hp
  childless j _ := children_empty name place j
  unlisted j hd := absurd hd (not_isDetached_empty name place j)
  nested i j p q hj := by
    rw [parent?_empty] at hj
    cases hj
  list_under j p _ hp := by
    rw [parent?_empty] at hp
    cases hp
  list_unique i j p _ _ hi := by
    rw [parent?_empty] at hi
    cases hi

theorem sound_empty {name : String} {place : Location} (ht : s.tree = Tree.empty name place)
    (hc : s.cursor = 0) : s.Sound := by
  refine ⟨?_, ?_⟩
  · rw [ht]
    exact laid_empty name place
  · rw [ht, hc]
    refine ⟨Nat.one_pos, not_isDetached_empty name place 0, fun i q _ hq => ?_⟩
    rw [parent?_empty] at hq
    cases hq

/-- A scanner that has read nothing is sound. -/
theorem sound_start (s : Scanner) (name : String) : (s.start name).Sound := sound_empty rfl rfl

/-! ### Whole parses -/

/-- **Every parse keeps the invariant**, as far as it gets. -/
theorem sound_parse (s : Scanner) (name source : String) :
    (s.parse name (some source)).Leaves Sound := by
  by_cases h : source = ""
  · subst h
    exact sound_empty (s := s.reset) rfl rfl
  · exact (s.sound_start name).leaves (s.parse_follows name h)

/-- **The tree is well-formed throughout**: after any number of characters of any
source, at its end, and where a script error puts an end to the parse. -/
theorem wellFormed_throughout (s : Scanner) (name source : String) :
    (∀ n, ((s.start name).feed (source.toList.take n)).Leaves WellFormed) ∧
      (s.parse name (some source)).Leaves WellFormed := by
  refine ⟨fun n => ?_, (s.sound_parse name source).imp fun _ => Sound.wellFormed⟩
  have hfeed := (s.start name).feed_follows (source.toList.take n)
  exact ((s.sound_start name).leaves hfeed).imp fun _ => Sound.wellFormed

end ScopeScript.Scanner
