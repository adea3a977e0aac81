import Mathlib.Data.List.Basic
import ScopeScript.Tree.Basic

/-!
# Links between the nodes of a tree

What the two ways of changing a tree, `Tree.modify` and `Tree.addChild`, do to
its nodes, and to the three things that hold a tree together: the **kind** of a
node, its **parent** and its **children**. Everything else about a node is its
*label*: name, value and whether the text was quoted.

Adding a child is rephrased as `Tree.sprout`, which puts a finished node under
another one: a node that is added bare and labelled afterwards is the same as a
node that is added with its label on (`Tree.modify_sprout`).
-/

namespace ScopeScript

/-- A change of a node that only concerns its label. -/
def KeepsLinks (f : Node → Node) : Prop :=
  ∀ n, (f n).kind = n.kind ∧ (f n).parent = n.parent ∧ (f n).children = n.children

namespace Tree

variable {t t' : Tree} {i j p : Nat} {n : Node} {f : Node → Node}

theorem node?_isSome : (t.node? i).isSome ↔ i < t.size := by
  simp [node?, size]

theorem lt_size_of_node? (h : t.node? i = some n) : i < t.size :=
  node?_isSome.mp (by simp [h])

theorem exists_node? (h : i < t.size) : ∃ n, t.node? i = some n :=
  Option.isSome_iff_exists.mp (node?_isSome.mpr h)

theorem node?_eq_none (h : t.size ≤ i) : t.node? i = none := by
  simpa [node?, size] using h

theorem children_of_node? (h : t.node? i = some n) : t.children i = n.children := by
  rw [children, h]

theorem kind?_of_node? (h : t.node? i = some n) : t.kind? i = some n.kind := by
  rw [kind?, h, Option.map_some]

theorem parent?_of_node? (h : t.node? i = some n) : t.parent? i = n.parent := by
  rw [parent?, h, Option.bind_some]

theorem lt_size_of_kind? {k : NodeKind} (h : t.kind? i = some k) : i < t.size := by
  obtain ⟨n, hn, -⟩ := Option.map_eq_some_iff.mp h
  exact lt_size_of_node? hn

theorem lt_size_of_parent? (h : t.parent? i = some p) : i < t.size := by
  obtain ⟨n, hn, -⟩ := Option.bind_eq_some_iff.mp h
  exact lt_size_of_node? hn

/-- A tree is its name and its nodes. -/
theorem ext_node? (hname : t.name = t'.name) (h : ∀ i, t.node? i = t'.node? i) : t = t' := by
  obtain ⟨name, nodes⟩ := t
  obtain ⟨name', nodes'⟩ := t'
  obtain rfl : name = name' := hname
  obtain rfl : nodes = nodes' := Array.ext_getElem? h
  rfl

/-- Looking for a child of some kind only depends on which nodes are children and
on which of them are of that kind. -/
theorem childOfKind?_congr {k : NodeKind} (hc : t'.children i = t.children i)
    (hk : ∀ j, t'.kind? j = some k ↔ t.kind? j = some k) :
    t'.childOfKind? i k = t.childOfKind? i k := by
  rw [childOfKind?, childOfKind?, hc]
  congr 1
  funext j
  rw [Bool.eq_iff_iff, beq_iff_eq, beq_iff_eq]
  exact hk j

/-! ### Changing a node -/

@[simp] theorem size_modify (t : Tree) (i : Nat) (f : Node → Node) :
    (t.modify i f).size = t.size := by
  simp [modify, size]

theorem node?_modify (t : Tree) (i j : Nat) (f : Node → Node) :
    (t.modify i f).node? j = if i = j then (t.node? j).map f else t.node? j := by
  simp [modify, node?, Array.getElem?_modify]

theorem node?_modify_self (t : Tree) (i : Nat) (f : Node → Node) :
    (t.modify i f).node? i = (t.node? i).map f := by
  rw [node?_modify, if_pos rfl]

theorem node?_modify_of_ne (h : i ≠ j) : (t.modify i f).node? j = t.node? j := by
  rw [node?_modify, if_neg h]

theorem kind?_modify (h : ∀ n, (f n).kind = n.kind) (j : Nat) :
    (t.modify i f).kind? j = t.kind? j := by
  rw [kind?, kind?, node?_modify]
  split
  · simp [Option.map_map, Function.comp_def, h]
  · rfl

theorem parent?_modify (h : ∀ n, (f n).parent = n.parent) (j : Nat) :
    (t.modify i f).parent? j = t.parent? j := by
  rw [parent?, parent?, node?_modify]
  split
  · cases t.node? j <;> simp [h]
  · rfl

theorem children_modify (h : ∀ n, (f n).children = n.children) (j : Nat) :
    (t.modify i f).children j = t.children j := by
  rw [children, children, node?_modify]
  by_cases hij : i = j
  · rw [if_pos hij]
    cases t.node? j with
    | none => rfl
    | some n => exact h n
  · rw [if_neg hij]

/-- Changing the list of children of a node. -/
theorem children_relist (hi : i < t.size) (g : List Nat → List Nat) (j : Nat) :
    (t.modify i fun n => { n with children := g n.children }).children j
      = if j = i then g (t.children i) else t.children j := by
  obtain ⟨n, hn⟩ := exists_node? hi
  rw [children, node?_modify]
  by_cases hj : i = j
  · rw [if_pos hj, if_pos hj.symm, ← hj, hn, children_of_node? hn]
    rfl
  · rw [if_neg hj, if_neg (Ne.symm hj), children]

/-! ### Adding a node -/

/-- Puts a node under another one, as its last child. -/
def sprout (t : Tree) (p : Nat) (n : Node) : Tree :=
  { t with
    nodes := (t.nodes.push n).modify p fun m => { m with children := m.children ++ [t.size] } }

theorem addChild_eq_sprout (t : Tree) (p : Nat) (kind : NodeKind) (place : Location) :
    t.addChild p kind place
      = (t.sprout p { kind := kind, location := place, parent := some p }, t.size) := rfl

@[simp] theorem size_sprout (t : Tree) (p : Nat) (n : Node) :
    (t.sprout p n).size = t.size + 1 := by
  simp [sprout, size]

theorem node?_sprout (hp : p < t.size) (n : Node) (j : Nat) :
    (t.sprout p n).node? j
      = if j = t.size then some n
        else if j = p then (t.node? p).map fun m => { m with children := m.children ++ [t.size] }
        else t.node? j := by
  have hpush : ∀ k, (t.nodes.push n)[k]? = if k = t.size then some n else t.node? k :=
    fun k => Array.getElem?_push
  simp only [sprout]
  rw [node?, Array.getElem?_modify, hpush]
  by_cases hj : j = t.size
  · have hpj : p ≠ j := by omega
    rw [if_neg hpj, if_pos hj, if_pos hj]
  · rw [if_neg hj, if_neg hj]
    by_cases hpj : p = j
    · rw [if_pos hpj, if_pos hpj.symm, hpj]
    · rw [if_neg hpj, if_neg (Ne.symm hpj)]

theorem node?_sprout_new (hp : p < t.size) (n : Node) : (t.sprout p n).node? t.size = some n := by
  rw [node?_sprout hp, if_pos rfl]

theorem node?_sprout_of_ne (hp : p < t.size) (n : Node) (hj : j < t.size) (hjp : j ≠ p) :
    (t.sprout p n).node? j = t.node? j := by
  rw [node?_sprout hp, if_neg (by omega), if_neg hjp]

theorem kind?_sprout (hp : p < t.size) (n : Node) (j : Nat) :
    (t.sprout p n).kind? j = if j = t.size then some n.kind else t.kind? j := by
  rw [kind?, node?_sprout hp]
  split
  · rfl
  · split
    · rename_i hj
      simp [kind?, hj, Option.map_map, Function.comp_def]
    · rfl

theorem kind?_sprout_of_lt (hp : p < t.size) (n : Node) (hj : j < t.size) :
    (t.sprout p n).kind? j = t.kind? j := by
  rw [kind?_sprout hp, if_neg (by omega)]

theorem parent?_sprout (hp : p < t.size) (n : Node) (j : Nat) :
    (t.sprout p n).parent? j = if j = t.size then n.parent else t.parent? j := by
  rw [parent?, node?_sprout hp]
  split
  · rfl
  · split
    · rename_i hj
      subst hj
      cases h : t.node? j <;> simp [parent?, h]
    · rfl

theorem children_sprout (hp : p < t.size) (hn : n.children = []) (j : Nat) :
    (t.sprout p n).children j = if j = p then t.children p ++ [t.size] else t.children j := by
  rw [children, node?_sprout hp]
  by_cases hj : j = t.size
  · rw [if_pos hj, if_neg (by omega), children, node?_eq_none (by omega)]
    exact hn
  · rw [if_neg hj]
    by_cases hjp : j = p
    · obtain ⟨m, hm⟩ := exists_node? hp
      rw [if_pos hjp, if_pos hjp, hm, children_of_node? hm]
      rfl
    · rw [if_neg hjp, if_neg hjp]
      rfl

/-- A new node of another kind is not found. -/
theorem childOfKind?_sprout {k : NodeKind} (hp : p < t.size) (hn : n.children = [])
    (hk : n.kind ≠ k) (j : Nat) : (t.sprout p n).childOfKind? j k = t.childOfKind? j k := by
  have hkind : ∀ i, ((t.sprout p n).kind? i == some k) = (t.kind? i == some k) := by
    intro i
    rw [kind?_sprout hp]
    by_cases hi : i = t.size
    · rw [if_pos hi, kind?, node?_eq_none (by omega)]
      simp [hk]
    · rw [if_neg hi]
  rw [childOfKind?, childOfKind?, children_sprout hp hn]
  simp only [hkind]
  by_cases hj : j = p
  · have hnew : (t.kind? t.size == some k) = false := by
      simp [kind?, node?_eq_none]
    rw [if_pos hj, List.find?_append, List.find?_singleton, hnew, if_neg (by simp),
      Option.or_none, hj]
  · rw [if_neg hj]

/-- Labelling a new node is adding it with the label on. -/
theorem modify_sprout (hp : p < t.size) (n : Node) (f : Node → Node) :
    (t.sprout p n).modify t.size f = t.sprout p (f n) := by
  refine ext_node? rfl fun j => ?_
  rw [node?_modify, node?_sprout hp, node?_sprout hp]
  by_cases hj : j = t.size
  · rw [if_pos hj.symm, if_pos hj, if_pos hj, Option.map_some]
  · rw [if_neg (Ne.symm hj), if_neg hj, if_neg hj]

end Tree

end ScopeScript
