import ScopeScript.Proofs.Tree.Links

/-!
# Well-formed trees

A tree is a list of nodes that point at each other by position, so that it may
say contradictory things: a child that points at another parent, a node that
stands in two child lists, a cycle. A **well-formed** tree
(`ScopeScript.Tree.WellFormed`) does not. The one irregularity it has room for
are the **detached** nodes: the parameter list of a header that became a call
stays among the nodes, empty and out of every child list.

## What carries the proof

Well-formedness alone is not preserved when a header becomes a call: the moved
parameters have to fit, in order, in the place of the list they come from. What
makes them fit is that scopes are *nested*: a node that stands between a node
and its parent belongs to that parent or to something after it
(`ScopeScript.Tree.Laid.nested`). This is a statement about two parent links
only, and yet it rules out that the descendants of two siblings interleave.
Likewise a node is **open** (`ScopeScript.Tree.IsOpen`) if everything after it
belongs to it or to something after it; an open node is found by following last
children from the root (`ScopeScript.Tree.Laid.lastPath`).
-/

namespace ScopeScript.Tree

variable {t t' : Tree} {i j p q c f : Nat} {n : Node}

/-! ### Definitions -/

/-- A parameter list left behind by a header that became a call. -/
def IsDetached (t : Tree) (i : Nat) : Prop :=
  t.kind? i = some .functionParams ∧ ∃ p, t.parent? i = some p ∧ t.kind? p = some .call

/-- **The links of a tree are consistent.** The index of a node is its position,
so that there is nothing to say about it. -/
structure WellFormed (t : Tree) : Prop where
  /-- There is a root. -/
  size_pos : 0 < t.size
  /-- The root, and nothing else, stands for the whole script. -/
  global_iff : ∀ i, t.kind? i = some .global ↔ i = 0
  /-- The root, and no other node, belongs to nothing. -/
  orphan_iff : ∀ i < t.size, t.parent? i = none ↔ i = 0
  /-- A node stands after the node it belongs to. -/
  parent_lt : ∀ i p, t.parent? i = some p → p < i
  /-- Children are listed in the order of their indices, none of them twice. -/
  increasing : ∀ i, (t.children i).Pairwise (· < ·)
  /-- A node belongs to the node that lists it. -/
  parent_of_mem : ∀ i, ∀ j ∈ t.children i, t.parent? j = some i
  /-- A node is listed by the node it belongs to, unless it is detached. -/
  mem_of_parent : ∀ j p, t.parent? j = some p → ¬t.IsDetached j → j ∈ t.children p
  /-- A detached node has no children. -/
  childless : ∀ j, t.IsDetached j → t.children j = []
  /-- A detached node is listed nowhere. -/
  unlisted : ∀ j, t.IsDetached j → ∀ i, j ∉ t.children i

/-- The nodes found by following last children from the root. -/
inductive LastPath (t : Tree) : Nat → Prop
  /-- The root. -/
  | root : LastPath t 0
  /-- The last child of such a node. -/
  | last {i j : Nat} : LastPath t i → (t.children i).getLast? = some j → LastPath t j

/-- **A well-formed tree with nested scopes**, in which a header has at most one
list of parameters. -/
structure Laid (t : Tree) : Prop extends t.WellFormed where
  /-- What stands between a node and its parent belongs to the parent or to
  something after it. -/
  nested : ∀ i j p q, t.parent? j = some p → p < i → i < j → t.parent? i = some q → p ≤ q
  /-- A parameter list belongs to a header, or to what was one. -/
  list_under : ∀ j p, t.kind? j = some .functionParams → t.parent? j = some p →
    t.kind? p = some .function ∨ t.kind? p = some .call
  /-- There is one parameter list to a header. -/
  list_unique : ∀ i j p, t.kind? i = some .functionParams → t.kind? j = some .functionParams →
    t.parent? i = some p → t.parent? j = some p → i = j

/-- A node to which new nodes can be added: what stands after it belongs to it
or to something after it. -/
structure IsOpen (t : Tree) (c : Nat) : Prop where
  /-- It is a node of the tree. -/
  lt_size : c < t.size
  /-- It is not detached. -/
  attached : ¬t.IsDetached c
  /-- What stands after it belongs to it or to something after it. -/
  later : ∀ i q, c < i → t.parent? i = some q → c ≤ q

/-! ### Small consequences -/

namespace WellFormed

theorem lt_of_mem (h : t.WellFormed) (hj : j ∈ t.children i) : i < j :=
  h.parent_lt j i (h.parent_of_mem i j hj)

theorem lt_size_of_mem (h : t.WellFormed) (hj : j ∈ t.children i) : j < t.size :=
  lt_size_of_parent? (h.parent_of_mem i j hj)

theorem parent_unique (h : t.WellFormed) (hi : j ∈ t.children i) (hp : j ∈ t.children p) :
    i = p := by
  have h₁ := h.parent_of_mem i j hi
  have h₂ := h.parent_of_mem p j hp
  exact Option.some.inj (h₁.symm.trans h₂)

theorem exists_parent (h : t.WellFormed) (hi : 0 < i) (hs : i < t.size) :
    ∃ p, t.parent? i = some p := by
  cases hp : t.parent? i with
  | none =>
    have := (h.orphan_iff i hs).mp hp
    omega
  | some p => exact ⟨p, rfl⟩

/-- Following children goes to nodes of the tree only, and forwards. -/
theorem below_eq_children (h : t.WellFormed) (i : Nat) : t.below i = t.children i := by
  refine List.filter_eq_self.mpr fun j hj => ?_
  simp [h.lt_of_mem hj, h.lt_size_of_mem hj]

/-- Nothing belongs to a detached node. -/
theorem not_isDetached_of_parent (h : t.WellFormed) (hp : t.parent? j = some p) :
    ¬t.IsDetached p := by
  intro hd
  by_cases hj : t.IsDetached j
  · obtain ⟨-, p', hp', hk⟩ := hj
    obtain rfl : p = p' := Option.some.inj (hp.symm.trans hp')
    rw [hd.1] at hk
    exact absurd hk (by decide)
  · have hmem := h.mem_of_parent j p hp hj
    rw [h.childless p hd] at hmem
    exact absurd hmem (by simp)

end WellFormed

/-! ### Open nodes -/

/-- **Closing a scope**: the parent of an open node is open. -/
theorem Laid.isOpen_parent (h : t.Laid) (hc : t.IsOpen c) (hp : t.parent? c = some p) :
    t.IsOpen p where
  lt_size := Nat.lt_trans (h.parent_lt c p hp) hc.lt_size
  attached := h.not_isDetached_of_parent hp
  later := by
    intro i q hpi hq
    rcases Nat.lt_trichotomy i c with hlt | rfl | hgt
    · exact h.nested i c p q hp hpi hlt hq
    · exact Nat.le_of_eq (Option.some.inj (hp.symm.trans hq))
    · have := hc.later i q hgt hq
      have := h.parent_lt c p hp
      omega

theorem Laid.getLast?_of_isOpen (h : t.Laid) (hc : t.IsOpen c) (hp : t.parent? c = some p) :
    (t.children p).getLast? = some c := by
  have hmem := h.mem_of_parent c p hp hc.attached
  obtain ⟨front, back, hsplit⟩ := List.append_of_mem hmem
  have hinc := h.increasing p
  rw [hsplit, List.pairwise_append, List.pairwise_cons] at hinc
  -- a child listed after the open node would stand after it, and belong to an earlier node
  have hback : back = [] := by
    refine List.eq_nil_iff_forall_not_mem.mpr fun i hi => ?_
    have hci := hinc.2.1.1 i hi
    have hip := h.parent_of_mem p i (by rw [hsplit]; simp [hi])
    have := hc.later i p hci hip
    have := h.parent_lt c p hp
    omega
  rw [hsplit, hback]
  simp

/-- **The open node is reached along last children.** -/
theorem Laid.lastPath (h : t.Laid) (hc : t.IsOpen c) : t.LastPath c := by
  induction c using Nat.strongRecOn with
  | ind c ih =>
    rcases Nat.eq_zero_or_pos c with rfl | hpos
    · exact LastPath.root
    · obtain ⟨p, hp⟩ := h.exists_parent hpos hc.lt_size
      have hpath := ih p (h.parent_lt c p hp) (h.isOpen_parent hc hp)
      exact hpath.last (h.getLast?_of_isOpen hc hp)

/-! ### Trees with the same links -/

/-- Two trees that differ in the labels of their nodes only. -/
structure SameLinks (t t' : Tree) : Prop where
  size : t'.size = t.size
  kind? : ∀ i, t'.kind? i = t.kind? i
  parent? : ∀ i, t'.parent? i = t.parent? i
  children : ∀ i, t'.children i = t.children i

namespace SameLinks

theorem refl (t : Tree) : SameLinks t t := ⟨rfl, fun _ => rfl, fun _ => rfl, fun _ => rfl⟩

theorem modify {f : Node → Node} (hf : KeepsLinks f) (t : Tree) (i : Nat) :
    SameLinks t (t.modify i f) where
  size := size_modify t i f
  kind? := kind?_modify fun n => (hf n).1
  parent? := parent?_modify fun n => (hf n).2.1
  children := children_modify fun n => (hf n).2.2

theorem childOfKind? (h : SameLinks t t') (i : Nat) (k : NodeKind) :
    t'.childOfKind? i k = t.childOfKind? i k :=
  childOfKind?_congr (h.children i) fun j => by rw [h.kind?]

theorem isDetached (h : SameLinks t t') (i : Nat) : t'.IsDetached i ↔ t.IsDetached i := by
  simp only [IsDetached, h.kind?, h.parent?]

theorem laid (h : SameLinks t t') (hl : t.Laid) : t'.Laid where
  size_pos := by
    rw [h.size]
    exact hl.size_pos
  global_iff i := by
    rw [h.kind?]
    exact hl.global_iff i
  orphan_iff i hi := by
    rw [h.parent?]
    exact hl.orphan_iff i (h.size ▸ hi)
  parent_lt i p hp := hl.parent_lt i p (h.parent? i ▸ hp)
  increasing i := by
    rw [h.children]
    exact hl.increasing i
  parent_of_mem i j hj := by
    rw [h.parent?]
    exact hl.parent_of_mem i j (h.children i ▸ hj)
  mem_of_parent j p hp hd := by
    rw [h.children]
    exact hl.mem_of_parent j p (h.parent? j ▸ hp) (mt (h.isDetached j).mpr hd)
  childless j hd := by
    rw [h.children]
    exact hl.childless j ((h.isDetached j).mp hd)
  unlisted j hd i := by
    rw [h.children]
    exact hl.unlisted j ((h.isDetached j).mp hd) i
  nested i j p q hj hpi hij hi :=
    hl.nested i j p q (h.parent? j ▸ hj) hpi hij (h.parent? i ▸ hi)
  list_under j p hk hp := by
    rw [h.kind?]
    exact hl.list_under j p (h.kind? j ▸ hk) (h.parent? j ▸ hp)
  list_unique i j p hki hkj hi hj :=
    hl.list_unique i j p (h.kind? i ▸ hki) (h.kind? j ▸ hkj) (h.parent? i ▸ hi) (h.parent? j ▸ hj)

theorem isOpen (h : SameLinks t t') (hc : t.IsOpen c) : t'.IsOpen c where
  lt_size := by
    rw [h.size]
    exact hc.lt_size
  attached := mt (h.isDetached c).mp hc.attached
  later i q hi hq := hc.later i q hi (h.parent? i ▸ hq)

end SameLinks

/-! ### A new node -/

/-- What has to hold of a node that is put under an open one. -/
structure Fits (t : Tree) (c : Nat) (n : Node) : Prop where
  /-- It belongs to the open node. -/
  parent : n.parent = some c
  /-- It has no children yet. -/
  children : n.children = []
  /-- It is no second root. -/
  ne_global : n.kind ≠ .global
  /-- A parameter list goes to a header that has none. -/
  list : n.kind = .functionParams →
    t.kind? c = some .function ∧ t.childOfKind? c .functionParams = none

theorem Fits.parent_cases (hn : t.Fits c n) (hc : c < t.size)
    (hi : (t.sprout c n).parent? i = some p) :
    (i = t.size ∧ p = c) ∨ (i < t.size ∧ t.parent? i = some p) := by
  rw [parent?_sprout hc, hn.parent] at hi
  split at hi
  · rename_i hsize
    exact Or.inl ⟨hsize, (Option.some.inj hi).symm⟩
  · exact Or.inr ⟨lt_size_of_parent? hi, hi⟩

/-- A header that has no parameter list among its children has none at all. -/
theorem Laid.no_list (h : t.Laid) (hk : t.kind? c = some .function)
    (hnone : t.childOfKind? c .functionParams = none) (hp : t.parent? j = some c) :
    t.kind? j ≠ some .functionParams := by
  intro hkj
  have hd : ¬t.IsDetached j := by
    rintro ⟨-, p, hp', hcall⟩
    obtain rfl : c = p := Option.some.inj (hp.symm.trans hp')
    rw [hk] at hcall
    exact absurd hcall (by decide)
  have hfind := List.find?_eq_none.mp hnone j (h.mem_of_parent j c hp hd)
  simp [hkj] at hfind

section Sprout

variable (h : t.Laid) (hc : t.IsOpen c) (hn : t.Fits c n)

include h hc hn

theorem Laid.isDetached_sprout (i : Nat) : (t.sprout c n).IsDetached i ↔ t.IsDetached i := by
  have hkind := fun {j} (hj : j < t.size) => kind?_sprout_of_lt hc.lt_size n hj
  constructor
  · rintro ⟨hk, p, hp, hkp⟩
    rcases hn.parent_cases hc.lt_size hp with ⟨rfl, rfl⟩ | ⟨hi, hp⟩
    · -- the new node: a parameter list only goes to a header
      rw [kind?_sprout hc.lt_size, if_pos rfl] at hk
      rw [hkind hc.lt_size, (hn.list (Option.some.inj hk)).1] at hkp
      exact absurd hkp (by decide)
    · rw [hkind hi] at hk
      rw [hkind (Nat.lt_trans (h.parent_lt i p hp) hi)] at hkp
      exact ⟨hk, p, hp, hkp⟩
  · rintro ⟨hk, p, hp, hkp⟩
    have hi := lt_size_of_kind? hk
    refine ⟨by rw [hkind hi, hk], p, ?_, by rw [hkind (lt_size_of_kind? hkp), hkp]⟩
    rw [parent?_sprout hc.lt_size, if_neg (by omega), hp]

theorem Laid.wellFormed_sprout : (t.sprout c n).WellFormed where
  size_pos := by simp
  global_iff i := by
    rw [kind?_sprout hc.lt_size]
    split
    · rename_i hi
      have := h.size_pos
      exact iff_of_false (fun hk => hn.ne_global (Option.some.inj hk)) (by omega)
    · exact h.global_iff i
  orphan_iff i hi := by
    rw [parent?_sprout hc.lt_size]
    split
    · rename_i heq
      have := h.size_pos
      exact iff_of_false (by simp [hn.parent]) (by omega)
    · rw [size_sprout] at hi
      exact h.orphan_iff i (by omega)
  parent_lt i p hp := by
    rcases hn.parent_cases hc.lt_size hp with ⟨rfl, rfl⟩ | ⟨-, hp⟩
    · exact hc.lt_size
    · exact h.parent_lt i p hp
  increasing i := by
    rw [children_sprout hc.lt_size hn.children]
    split
    · refine List.pairwise_append.mpr ⟨h.increasing c, List.pairwise_singleton _ _, ?_⟩
      intro a ha b hb
      rw [List.mem_singleton.mp hb]
      exact h.lt_size_of_mem ha
    · exact h.increasing i
  parent_of_mem i j hj := by
    rw [children_sprout hc.lt_size hn.children] at hj
    rw [parent?_sprout hc.lt_size]
    have hold : ∀ k, j ∈ t.children k →
        (if j = t.size then n.parent else t.parent? j) = some k := by
      intro k hk
      have := h.lt_size_of_mem hk
      rw [if_neg (by omega)]
      exact h.parent_of_mem k j hk
    split at hj
    · rename_i hic
      rcases List.mem_append.mp hj with hj | hj
      · rw [hic]
        exact hold c hj
      · rw [if_pos (List.mem_singleton.mp hj), hn.parent, hic]
    · exact hold i hj
  mem_of_parent j p hp hd := by
    rw [children_sprout hc.lt_size hn.children]
    rcases hn.parent_cases hc.lt_size hp with ⟨rfl, rfl⟩ | ⟨-, hp⟩
    · simp
    · have hmem := h.mem_of_parent j p hp (mt (h.isDetached_sprout hc hn j).mpr hd)
      split
      · rename_i hpc
        exact List.mem_append_left _ (hpc ▸ hmem)
      · exact hmem
  childless j hd := by
    have hold := (h.isDetached_sprout hc hn j).mp hd
    have hjc : j ≠ c := fun hjc => hc.attached (hjc ▸ hold)
    rw [children_sprout hc.lt_size hn.children, if_neg hjc]
    exact h.childless j hold
  unlisted j hd i := by
    have hold := (h.isDetached_sprout hc hn j).mp hd
    have := lt_size_of_kind? hold.1
    rw [children_sprout hc.lt_size hn.children]
    split
    · simp only [List.mem_append, List.mem_singleton, not_or]
      exact ⟨h.unlisted j hold c, by omega⟩
    · exact h.unlisted j hold i

/-- **A new node under the open one** keeps the tree nested. -/
theorem Laid.sprout : (t.sprout c n).Laid where
  toWellFormed := h.wellFormed_sprout hc hn
  nested i j p q hj hpi hij hi := by
    have hsize := lt_size_of_parent? hj
    rw [size_sprout] at hsize
    -- the new node comes last, so that only `j` can be it
    rcases hn.parent_cases hc.lt_size hi with ⟨rfl, -⟩ | ⟨-, hi'⟩
    · omega
    rcases hn.parent_cases hc.lt_size hj with ⟨rfl, rfl⟩ | ⟨-, hj'⟩
    · exact hc.later i q hpi hi'
    · exact h.nested i j p q hj' hpi hij hi'
  list_under j p hk hp := by
    rcases hn.parent_cases hc.lt_size hp with ⟨rfl, rfl⟩ | ⟨hj, hp⟩
    · rw [kind?_sprout hc.lt_size, if_pos rfl] at hk
      rw [kind?_sprout_of_lt hc.lt_size n hc.lt_size]
      exact Or.inl (hn.list (Option.some.inj hk)).1
    · rw [kind?_sprout_of_lt hc.lt_size n hj] at hk
      rw [kind?_sprout_of_lt hc.lt_size n (Nat.lt_trans (h.parent_lt j p hp) hj)]
      exact h.list_under j p hk hp
  list_unique i j p hki hkj hi hj := by
    rw [kind?_sprout hc.lt_size] at hki hkj
    -- if one of the two is new, the header had no list before, so the other is new as well
    rcases hn.parent_cases hc.lt_size hi with ⟨rfl, rfl⟩ | ⟨hilt, hi'⟩
    · rcases hn.parent_cases hc.lt_size hj with ⟨rfl, -⟩ | ⟨hjlt, hj'⟩
      · rfl
      · rw [if_pos rfl] at hki
        rw [if_neg (by omega)] at hkj
        obtain ⟨hfun, hnone⟩ := hn.list (Option.some.inj hki)
        exact absurd hkj (h.no_list hfun hnone hj')
    · rw [if_neg (by omega)] at hki
      rcases hn.parent_cases hc.lt_size hj with ⟨rfl, rfl⟩ | ⟨hjlt, hj'⟩
      · rw [if_pos rfl] at hkj
        obtain ⟨hfun, hnone⟩ := hn.list (Option.some.inj hkj)
        exact absurd hki (h.no_list hfun hnone hi')
      · rw [if_neg (by omega)] at hkj
        exact h.list_unique i j p hki hkj hi' hj'

theorem Laid.isOpen_sprout : (t.sprout c n).IsOpen c where
  lt_size := by
    rw [size_sprout]
    exact Nat.lt_succ_of_lt hc.lt_size
  attached := mt (h.isDetached_sprout hc hn c).mp hc.attached
  later i q hi hq := by
    rcases hn.parent_cases hc.lt_size hq with ⟨rfl, rfl⟩ | ⟨-, hq⟩
    · exact Nat.le_refl _
    · exact hc.later i q hi hq

theorem Laid.isOpen_sprout_new : (t.sprout c n).IsOpen t.size where
  lt_size := by simp
  attached := by
    intro hd
    have := lt_size_of_kind? ((h.isDetached_sprout hc hn t.size).mp hd).1
    omega
  later i q hi hq := by
    have hlt := lt_size_of_parent? hq
    rw [size_sprout] at hlt
    omega

end Sprout

end ScopeScript.Tree
