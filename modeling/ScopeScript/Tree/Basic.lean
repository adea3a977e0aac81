import ScopeScript.Tree.Node

/-!
# Scope trees

A **tree** owns the nodes of one script, the root first. A node is only ever
added at the end, so that in a tree built by `Tree.addChild` every node stands
after the node it belongs to.

Walks go **downwards** only: `Tree.below` lists the children of a node that
stand after it. In a tree that was built as above these are all of its children,
and following them comes to an end in any tree whatever, which is what makes the
walks total. `Tree.weight` counts the nodes met on the way down.
-/

namespace ScopeScript

/-! ### Sums -/

/-- The sum of a list of numbers. -/
def total : List Nat → Nat
  | [] => 0
  | n :: ns => n + total ns

@[simp] theorem total_nil : total [] = 0 := rfl

@[simp] theorem total_cons (n : Nat) (ns : List Nat) : total (n :: ns) = n + total ns := rfl

@[simp] theorem total_append (ms ns : List Nat) : total (ms ++ ns) = total ms + total ns := by
  induction ms with
  | nil => simp
  | cons m ms ih =>
    simp only [List.cons_append, total_cons, ih]
    omega

theorem total_reverse (ns : List Nat) : total ns.reverse = total ns := by
  induction ns with
  | nil => rfl
  | cons n ns ih =>
    simp only [List.reverse_cons, total_append, total_cons, total_nil, ih]
    omega

/-- A member of a list of numbers is at most their sum. -/
theorem le_total_of_mem {n : Nat} {ns : List Nat} (h : n ∈ ns) : n ≤ total ns := by
  induction ns with
  | nil => simp at h
  | cons m ms ih =>
    rcases List.mem_cons.1 h with rfl | h
    · simp
    · have := ih h
      simp only [total_cons]
      omega

/-! ### Trees -/

/-- The nodes of one script, root first. -/
structure Tree where
  /-- Name of the script. -/
  name : String
  /-- All nodes, by index. -/
  nodes : Array Node
deriving Repr

namespace Tree

/-- The tree of an empty script, with its root at a given place. -/
def empty (name : String) (location : Location) : Tree :=
  { name, nodes := #[{ kind := .global, location }] }

/-- How many nodes there are, whether they can be reached or not. -/
def size (t : Tree) : Nat := t.nodes.size

/-- The node with a given index. -/
def node? (t : Tree) (i : Nat) : Option Node := t.nodes[i]?

/-- The index that an integer stands for: a negative one counts from the end. -/
def index? (t : Tree) (i : Int) : Option Nat :=
  let j := if i < 0 then i + t.size else i
  if 0 ≤ j && j < t.size then some j.toNat else none

/-- Changes the node with a given index. -/
def modify (t : Tree) (i : Nat) (f : Node → Node) : Tree :=
  { t with nodes := t.nodes.modify i f }

/-- Adds a new last child to a node, and returns its index. -/
def addChild (t : Tree) (parent : Nat) (kind : NodeKind) (location : Location) : Tree × Nat :=
  let index := t.nodes.size
  ({ t with
      nodes :=
        (t.nodes.push { kind, location, parent := some parent }).modify parent fun n =>
          { n with children := n.children ++ [index] } },
    index)

/-- The kind of a node. -/
def kind? (t : Tree) (i : Nat) : Option NodeKind := (t.node? i).map (·.kind)

/-- The indices of the children of a node. -/
def children (t : Tree) (i : Nat) : List Nat :=
  match t.node? i with
  | some n => n.children
  | none => []

/-- The index of the node that a node belongs to. -/
def parent? (t : Tree) (i : Nat) : Option Nat := (t.node? i).bind (·.parent)

/-- The children of one kind. -/
def childrenOfKind (t : Tree) (i : Nat) (kind : NodeKind) : List Nat :=
  (t.children i).filter fun c => t.kind? c == some kind

/-- The first child of one kind. -/
def childOfKind? (t : Tree) (i : Nat) (kind : NodeKind) : Option Nat :=
  (t.children i).find? fun c => t.kind? c == some kind

/-- The first child of one name. -/
def childNamed? (t : Tree) (i : Nat) (name : String) : Option Nat :=
  (t.children i).find? fun c => ((t.node? c).bind (·.name)) == some name

/-! ### Upwards -/

/-- The indices met on the way up from a node, excluding the node itself. Only
steps to a smaller index are followed. -/
def ancestors (t : Tree) (i : Nat) : List Nat :=
  match t.parent? i with
  | none => []
  | some p => if p < i then p :: ancestors t p else [p]
termination_by i

/-- The topmost node above a node, or the node itself if nothing is above it. -/
def top (t : Tree) (i : Nat) : Nat :=
  (t.ancestors i).getLast?.getD i

/-! ### Downwards -/

/-- The children of a node that stand after it in the list of nodes. -/
def below (t : Tree) (i : Nat) : List Nat :=
  (t.children i).filter fun c => i < c && c < t.size

/-- What is below a node stands after it, in the tree. -/
theorem lt_of_mem_below {t : Tree} {i c : Nat} (h : c ∈ t.below i) : i < c ∧ c < t.size := by
  simpa [below] using (List.mem_filter.1 h).2

/-- How many nodes are met on the way down from a node, itself included. -/
def weight (t : Tree) (i : Nat) : Nat :=
  1 + total ((t.below i).attach.map fun c => weight t c.1)
termination_by t.size - i
decreasing_by
  have := lt_of_mem_below c.2
  omega

/-- The weight of a node is one more than that of its children together. -/
theorem weight_eq (t : Tree) (i : Nat) :
    t.weight i = 1 + total ((t.below i).map t.weight) := by
  rw [weight]
  simp

/-- The weight of a list of nodes. -/
def weightOf (t : Tree) (is : List Nat) : Nat := total (is.map t.weight)

/-- The nodes met on the way down from those on the work list, each before its
children, and these left to right. -/
def walkFrom (t : Tree) : (work : List Nat) → List Nat
  | [] => []
  | i :: rest => i :: walkFrom t (t.below i ++ rest)
termination_by work => t.weightOf work
decreasing_by
  simp [weightOf, weight_eq t i]

/-- All nodes at and below a node, each before its children. -/
def walk (t : Tree) (i : Nat) : List Nat := t.walkFrom [i]

/-- A full description of the tree. -/
def summary (t : Tree) : String :=
  "<SyntaxTree name=" ++ Text.quoted t.name ++ " nodes=" ++ toString t.size ++ ">"

end Tree

end ScopeScript
