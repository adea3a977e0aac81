import ScopeScript.Fault
import ScopeScript.Tree.Basic

/-!
# Forests

Calls lead from one script to another, so what runs is not one tree but a
**forest** of them. A node of a forest is named by the position of its tree and
its index in that tree; two trees are the same if their positions are, whatever
they contain. A forest only grows.
-/

namespace ScopeScript

/-- A node of a forest: the position of its tree, and its index there. -/
structure NodeRef where
  /-- Position of the tree. -/
  tree : Nat
  /-- Index of the node in the tree. -/
  node : Nat
deriving DecidableEq, Repr

/-- A list of trees that only grows. -/
structure Forest where
  /-- The trees, by position. -/
  trees : Array Tree := #[]
deriving Repr

namespace Forest

/-- Adds a tree, and returns its position. -/
def plant (f : Forest) (t : Tree) : Forest × Nat :=
  ({ trees := f.trees.push t }, f.trees.size)

/-- The tree at a position. -/
def tree? (f : Forest) (i : Nat) : Option Tree := f.trees[i]?

/-- The node that is named. -/
def node? (f : Forest) (r : NodeRef) : Option Node := (f.tree? r.tree).bind (·.node? r.node)

/-- What the tree of a node says about that node. -/
def onTree {α : Type} (f : Forest) (r : NodeRef) (default : α) (g : Tree → Nat → α) : α :=
  match f.tree? r.tree with
  | some t => g t r.node
  | none => default

/-- Other nodes of the same tree. -/
def siblings (r : NodeRef) (is : List Nat) : List NodeRef := is.map fun i => ⟨r.tree, i⟩

/-- The children of a node. -/
def children (f : Forest) (r : NodeRef) : List NodeRef :=
  siblings r (f.onTree r [] Tree.children)

/-- The children of a node that stand after it. -/
def below (f : Forest) (r : NodeRef) : List NodeRef := siblings r (f.onTree r [] Tree.below)

/-- The nodes above a node. -/
def ancestors (f : Forest) (r : NodeRef) : List NodeRef :=
  siblings r (f.onTree r [] Tree.ancestors)

/-- The children of one kind. -/
def childrenOfKind (f : Forest) (r : NodeRef) (kind : NodeKind) : List NodeRef :=
  siblings r (f.onTree r [] fun t i => t.childrenOfKind i kind)

/-- The first child of one kind. -/
def childOfKind? (f : Forest) (r : NodeRef) (kind : NodeKind) : Option NodeRef :=
  (f.onTree r none fun t i => t.childOfKind? i kind).map fun i => ⟨r.tree, i⟩

/-- Adds a child to a node by way of a tree, which has to be the node's own. -/
def addChild (f : Forest) (via : Nat) (parent : NodeRef) (kind : NodeKind) (place : Location) :
    Except HostError (Forest × Nat) :=
  if via ≠ parent.tree then .error .foreignParent
  else
    match f.tree? parent.tree with
    | none => .error .outOfRange
    | some t =>
      let (t, i) := t.addChild parent.node kind place
      .ok ({ trees := f.trees.set! parent.tree t }, i)

/-- Changes a node. -/
def modify (f : Forest) (r : NodeRef) (g : Node → Node) : Forest :=
  { trees := f.trees.modify r.tree fun t => t.modify r.node g }

/-- How many nodes are met on the way down from a node. -/
def weight (f : Forest) (r : NodeRef) : Nat := f.onTree r 1 Tree.weight

/-- A bound for the weight of every node of the forest: all weights together. -/
def capacity (f : Forest) : Nat :=
  total (f.trees.toList.map fun t => total ((List.range t.size).map t.weight))

/-! ### Weights -/

/-- No node weighs more than the whole forest. -/
theorem weight_le_capacity {f : Forest} {r : NodeRef} {n : Node} (h : f.node? r = some n) :
    f.weight r ≤ f.capacity := by
  obtain ⟨t, ht, hn⟩ := Option.bind_eq_some_iff.1 h
  have hr : r.node < t.size := by
    simp only [Tree.node?] at hn
    exact (Array.getElem?_eq_some_iff.1 hn).1
  have hw : f.weight r = t.weight r.node := by simp [weight, onTree, ht]
  have hmem : t ∈ f.trees.toList := by
    simp only [tree?] at ht
    exact Array.mem_toList_iff.2 (Array.mem_of_getElem? ht)
  rw [hw]
  refine Nat.le_trans (le_total_of_mem (List.mem_map.2 ⟨r.node, List.mem_range.2 hr, rfl⟩)) ?_
  exact le_total_of_mem (List.mem_map.2 ⟨t, hmem, rfl⟩)

/-- The children of a node weigh one less than the node. -/
theorem total_weight_below (f : Forest) (r : NodeRef) :
    total ((f.below r).map f.weight) + 1 = f.weight r := by
  unfold below weight onTree siblings
  cases ht : f.tree? r.tree with
  | none => simp
  | some t =>
    simp only [List.map_map, t.weight_eq r.node, Function.comp_def, ht]
    exact Nat.add_comm _ _

end Forest

end ScopeScript
