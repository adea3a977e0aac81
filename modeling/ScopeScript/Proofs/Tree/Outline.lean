import ScopeScript.Proofs.Tree.Links

/-!
# Trees up to places

An **outline** is a tree without its bookkeeping: labelled nodes with their parts
in order, and neither indices nor places. `ScopeScript.Tree.outline` reads the
outline off the nodes of a tree.

A tree that **grows** some outlines under one of its nodes
(`ScopeScript.Tree.Grown`) keeps all that it had and gets the new nodes at its
end, each before its parts; nothing is left open but the places. Growing composes
in the two ways in which outlines do: side by side
(`ScopeScript.Tree.Grown.append`) and one inside the other
(`ScopeScript.Tree.Grown.inside`).
-/

namespace ScopeScript

/-- What a node holds besides its links and its place. -/
structure Label where
  /-- What it stands for. -/
  kind : NodeKind
  /-- Its name. -/
  name : Option String := none
  /-- Its value. -/
  value : Option Value := none
  /-- Whether its text was quoted. -/
  quoted : Bool := false

namespace Label

/-- The node of a label. -/
def toNode (l : Label) (place : Location) (parent : Option Nat) (children : List Nat) : Node :=
  { kind := l.kind, location := place, parent, children, name := l.name, value := l.value,
    quoted := l.quoted }

end Label

/-- The label of a node. -/
def Node.label (n : Node) : Label :=
  { kind := n.kind, name := n.name, value := n.value, quoted := n.quoted }

/-- A tree of labels. -/
inductive Outline where
  /-- A node with its parts, in order. -/
  | node (label : Label) (parts : List Outline)

namespace Outline

mutual

/-- How many nodes there are. -/
def size : Outline → Nat
  | node _ parts => 1 + sizes parts

/-- How many nodes there are in a list of outlines. -/
def sizes : List Outline → Nat
  | [] => 0
  | o :: os => o.size + sizes os

end

/-- The indices of some outlines that stand one after the other, the first at
`i`. -/
def indices : (i : Nat) → List Outline → List Nat
  | _, [] => []
  | i, o :: os => i :: indices (i + o.size) os

mutual

/-- **The outline stands in a tree at `i` below `p`**, each node before its
parts. -/
def StandsAt (t : Tree) (p : Option Nat) (i : Nat) : Outline → Prop
  | node l parts =>
    (∃ place, t.node? i = some (l.toNode place p (indices (i + 1) parts))) ∧
      StandAt t i (i + 1) parts

/-- Some outlines stand in a tree one after the other, below `p` and from `i`
on. -/
def StandAt (t : Tree) (p i : Nat) : List Outline → Prop
  | [] => True
  | o :: os => o.StandsAt t (some p) i ∧ StandAt t p (i + o.size) os

end

theorem sizes_append (os os' : List Outline) : sizes (os ++ os') = sizes os + sizes os' := by
  induction os with
  | nil => simp [sizes]
  | cons o os ih =>
    rw [List.cons_append, sizes, sizes, ih]
    omega

theorem indices_append (os os' : List Outline) (i : Nat) :
    indices i (os ++ os') = indices i os ++ indices (i + sizes os) os' := by
  induction os generalizing i with
  | nil => rfl
  | cons o os ih =>
    rw [List.cons_append, indices, indices, ih, sizes, List.cons_append, Nat.add_assoc]

theorem standAt_append {t : Tree} {p : Nat} (os os' : List Outline) (i : Nat) :
    StandAt t p i (os ++ os') ↔ StandAt t p i os ∧ StandAt t p (i + sizes os) os' := by
  induction os generalizing i with
  | nil => simp [StandAt, sizes]
  | cons o os ih => rw [List.cons_append, StandAt, StandAt, ih, sizes, Nat.add_assoc, and_assoc]

/-! ### Nothing else matters -/

-- An outline at `i` takes up the nodes from `i` to `i + o.size`, so that it stays
-- where it is as long as these do.
mutual

theorem StandsAt.congr {t t' : Tree} {p : Option Nat} {i : Nat} :
    ∀ {o : Outline}, (∀ j, i ≤ j → j < i + o.size → t'.node? j = t.node? j) →
      o.StandsAt t p i → o.StandsAt t' p i
  | node l parts, h, ⟨⟨place, hnode⟩, hparts⟩ => by
    have hsize := size.eq_1 l parts
    have hi : t'.node? i = t.node? i := h i (Nat.le_refl i) (by omega)
    refine ⟨⟨place, hi.trans hnode⟩, StandAt.congr (fun j hj hlt => ?_) hparts⟩
    exact h j (by omega) (by omega)

theorem StandAt.congr {t t' : Tree} {p i : Nat} :
    ∀ {os : List Outline}, (∀ j, i ≤ j → j < i + sizes os → t'.node? j = t.node? j) →
      StandAt t p i os → StandAt t' p i os
  | [], _, _ => trivial
  | o :: os, h, ⟨ho, hos⟩ => by
    have hsize := sizes.eq_2 o os
    refine ⟨StandsAt.congr (fun j hj hlt => h j hj (by omega)) ho,
      StandAt.congr (fun j hj hlt => h j ?_ ?_) hos⟩
    · omega
    · omega

end

end Outline

namespace Tree

variable {t t' t₁ t₂ : Tree} {p i j : Nat} {os os' : List Outline}

/-! ### The outline of a tree -/

/-- The label of a node. -/
def label (t : Tree) (i : Nat) : Label := ((t.node? i).map Node.label).getD { kind := .global }

/-- **The tree at and below a node without its bookkeeping.** -/
def outline (t : Tree) (i : Nat) : Outline :=
  .node (t.label i) ((t.below i).attach.map fun c => outline t c.1)
termination_by t.size - i
decreasing_by
  have := lt_of_mem_below c.2
  omega

theorem outline_eq (t : Tree) (i : Nat) :
    t.outline i = .node (t.label i) ((t.below i).map t.outline) := by
  rw [outline]
  simp

theorem mem_indices_of_standAt (h : Outline.StandAt t p i os) (hj : j ∈ Outline.indices i os) :
    i ≤ j ∧ j < t.size := by
  induction os generalizing i with
  | nil => simp [Outline.indices] at hj
  | cons o os ih =>
    obtain ⟨ho, hos⟩ := h
    rcases List.mem_cons.mp hj with rfl | hj
    · obtain ⟨l, parts⟩ := o
      obtain ⟨⟨place, hnode⟩, -⟩ := ho
      exact ⟨Nat.le_refl _, lt_size_of_node? hnode⟩
    · obtain ⟨hle, hlt⟩ := ih hos hj
      exact ⟨by omega, hlt⟩

-- The induction is on the outline: `Tree.outline` recurs on indices, but the
-- outline says which indices these are.
mutual

/-- **An outline that stands in a tree is what is read off there.** -/
theorem outline_of_standsAt {q : Option Nat} :
    ∀ {o : Outline} {i : Nat}, o.StandsAt t q i → t.outline i = o
  | .node l parts, i, ⟨⟨place, hnode⟩, hparts⟩ => by
    have hbelow : t.below i = Outline.indices (i + 1) parts := by
      rw [below, children_of_node? hnode]
      refine List.filter_eq_self.mpr fun j hj => ?_
      obtain ⟨hle, hlt⟩ := mem_indices_of_standAt hparts hj
      simp only [Bool.and_eq_true, decide_eq_true_eq]
      omega
    rw [outline_eq, hbelow, outlines_of_standAt hparts, label, hnode]
    rfl

theorem outlines_of_standAt :
    ∀ {os : List Outline} {p i : Nat}, Outline.StandAt t p i os →
      (Outline.indices i os).map t.outline = os
  | [], _, _, _ => rfl
  | o :: os, p, i, ⟨ho, hos⟩ => by
    rw [Outline.indices, List.map_cons, outline_of_standsAt ho, outlines_of_standAt hos]

end

/-! ### Growing -/

/-- The tree has grown some outlines under the node `p`. -/
structure Grown (t : Tree) (p : Nat) (os : List Outline) (t' : Tree) : Prop where
  /-- It is still the tree of the same script. -/
  name : t'.name = t.name
  /-- There are no nodes but those of before and those of the outlines. -/
  size : t'.size = t.size + Outline.sizes os
  /-- The node `p` has new children at the end of its list. -/
  root : t'.node? p
    = (t.node? p).map fun n => { n with children := n.children ++ Outline.indices t.size os }
  /-- Every other node is as it was. -/
  rest : ∀ j < t.size, j ≠ p → t'.node? j = t.node? j
  /-- The outlines stand at the end. -/
  fresh : Outline.StandAt t' p t.size os

theorem Grown.refl (t : Tree) (p : Nat) : t.Grown p [] t := by
  refine ⟨rfl, rfl, ?_, fun _ _ _ => rfl, trivial⟩
  simp [Outline.indices]

/-- What is written about the old nodes stays true, their children apart. -/
theorem Grown.kind? (h : t.Grown p os t') (hj : j < t.size) : t'.kind? j = t.kind? j := by
  rw [Tree.kind?, Tree.kind?]
  by_cases hjp : j = p
  · rw [hjp, h.root, Option.map_map]
    rfl
  · rw [h.rest j hj hjp]

theorem Grown.parent? (h : t.Grown p os t') (hj : j < t.size) : t'.parent? j = t.parent? j := by
  rw [Tree.parent?, Tree.parent?]
  by_cases hjp : j = p
  · rw [hjp, h.root]
    cases t.node? p <;> rfl
  · rw [h.rest j hj hjp]

theorem Grown.lt_size (h : t.Grown p os t') (hj : j < t.size) : j < t'.size := by
  rw [h.size]
  omega

/-- **Side by side.** -/
theorem Grown.append (hp : p < t.size) (h₁ : t.Grown p os t₁) (h₂ : t₁.Grown p os' t₂) :
    t.Grown p (os ++ os') t₂ := by
  refine ⟨h₂.name.trans h₁.name, ?_, ?_, fun j hj hjp => ?_, ?_⟩
  · rw [h₂.size, h₁.size, Outline.sizes_append, Nat.add_assoc]
  · rw [h₂.root, h₁.root, Option.map_map, Outline.indices_append, h₁.size]
    simp [Function.comp_def]
  · rw [h₂.rest j (h₁.lt_size hj) hjp, h₁.rest j hj hjp]
  · -- the first outlines stand between the old nodes and the second ones
    rw [Outline.standAt_append]
    refine ⟨h₁.fresh.congr fun j hj hlt => h₂.rest j ?_ (by omega), ?_⟩
    · rw [h₁.size]
      exact hlt
    · rw [← h₁.size]
      exact h₂.fresh

/-- **One inside the other**: a new node, under which outlines are grown, is a
grown outline with these for its parts. -/
theorem Grown.inside {l : Label} {place : Location} (hp : p < t.size)
    (h : (t.sprout p (l.toNode place (some p) [])).Grown t.size os t') :
    t.Grown p [.node l os] t' := by
  have hsize : Outline.sizes [.node l os] = 1 + Outline.sizes os := by
    simp [Outline.sizes, Outline.size]
  have hlt : t.size < (t.sprout p (l.toNode place (some p) [])).size := by simp
  refine ⟨h.name, ?_, ?_, fun j hj hjp => ?_, ⟨⟨place, ?_⟩, ?_⟩, trivial⟩
  · rw [h.size, size_sprout, hsize, Nat.add_assoc]
  · rw [h.rest p (by omega) (by omega), node?_sprout hp, if_neg (by omega), if_pos rfl]
    rfl
  · rw [h.rest j (by omega) (by omega), node?_sprout_of_ne hp _ hj hjp]
  · rw [h.root, node?_sprout_new hp, size_sprout]
    rfl
  · rw [← size_sprout t p (l.toNode place (some p) [])]
    exact h.fresh

theorem Grown.leaf (hp : p < t.size) (l : Label) (place : Location) :
    t.Grown p [.node l []] (t.sprout p (l.toNode place (some p) [])) :=
  Grown.inside hp (Grown.refl _ _)

/-- **A tree that has grown from an empty one** has the outline that it has
grown. -/
theorem Grown.outline_of_empty {name : String} {place : Location}
    (h : (Tree.empty name place).Grown 0 os t') :
    t'.outline 0 = .node { kind := .global } os := by
  refine outline_of_standsAt (q := none) ⟨⟨place, ?_⟩, h.fresh⟩
  rw [h.root]
  rfl

end Tree

end ScopeScript
