import ScopeScript.Proofs.Tree.Walk

/-!
# Trees in which parents and children agree

A well-formed tree says something about the kinds of its nodes as well: only the root
stands for the whole script, and a detached parameter list holds nothing. A tree that is
put together by hand need not care. What is shown to a reader, be it a listing or plain
data, asks for less: **children stand behind the node that lists them, belong to it, and
are listed once** (`ScopeScript.Tree.Linked`). This holds of well-formed trees, and of
whatever is made from a root by adding children.

In such a tree the way up from a node is a single one. So the nodes below two siblings are
never the same (`ScopeScript.Tree.Linked.apart_children`), and **a walk from any node meets
what is at or below it once** (`ScopeScript.Tree.Linked.nodup_walk`).
-/

namespace ScopeScript.Tree

variable {t : Tree} {i j k p : Nat} {n : Node} {work : List Nat}

/-- **Parents and children agree.** -/
structure Linked (t : Tree) : Prop where
  /-- A child stands behind the node that lists it, in the tree. -/
  forward : ∀ i, ∀ j ∈ t.children i, i < j ∧ j < t.size
  /-- It belongs to the node that lists it. -/
  parent : ∀ i, ∀ j ∈ t.children i, t.parent? j = some i
  /-- No node is listed twice. -/
  nodup : ∀ i, (t.children i).Nodup

theorem WellFormed.linked (h : t.WellFormed) : t.Linked where
  forward _ _ hj := ⟨h.lt_of_mem hj, h.lt_size_of_mem hj⟩
  parent := h.parent_of_mem
  nodup i := (h.increasing i).imp Nat.ne_of_lt

/-! ### Trees made by hand -/

theorem linked_empty (name : String) (place : Location) : (Tree.empty name place).Linked := by
  have hnil : ∀ i, (Tree.empty name place).children i = [] := fun i => by cases i <;> rfl
  refine ⟨fun i j hj => ?_, fun i j hj => ?_, fun i => ?_⟩
  · rw [hnil] at hj
    cases hj
  · rw [hnil] at hj
    cases hj
  · rw [hnil]
    exact List.nodup_nil

/-- **A child can be added to any node**, of whatever kind. -/
theorem Linked.addChild (h : t.Linked) (hp : p < t.size) (kind : NodeKind) (place : Location) :
    (t.addChild p kind place).1.Linked := by
  rw [addChild_eq_sprout]
  -- the new node is listed by `p` alone, and every other node as before
  have hcases : ∀ i j, j ∈ (t.sprout p { kind, location := place, parent := some p }).children i →
      (i = p ∧ j = t.size) ∨ j ∈ t.children i := by
    intro i j hj
    rw [children_sprout hp rfl] at hj
    split at hj
    · rename_i hi
      rcases List.mem_append.mp hj with hj | hj
      · exact Or.inr (hi ▸ hj)
      · exact Or.inl ⟨hi, List.mem_singleton.mp hj⟩
    · exact Or.inr hj
  refine ⟨fun i j hj => ?_, fun i j hj => ?_, fun i => ?_⟩
  · rw [size_sprout]
    rcases hcases i j hj with ⟨rfl, rfl⟩ | hj
    · exact ⟨hp, Nat.lt_succ_self _⟩
    · obtain ⟨hlt, hsize⟩ := h.forward i j hj
      exact ⟨hlt, Nat.lt_succ_of_lt hsize⟩
  · rw [parent?_sprout hp]
    rcases hcases i j hj with ⟨rfl, rfl⟩ | hj
    · exact if_pos rfl
    · rw [if_neg (Nat.ne_of_lt (h.forward i j hj).2)]
      exact h.parent i j hj
  · rw [children_sprout hp rfl]
    split
    · refine List.nodup_append.mpr ⟨h.nodup p, List.nodup_singleton _, fun a ha b hb => ?_⟩
      rw [List.mem_singleton.mp hb]
      exact Nat.ne_of_lt (h.forward p a ha).2
    · exact h.nodup i

/-- What a node is called makes no difference. -/
theorem Linked.modify {f : Node → Node} (h : t.Linked) (hf : KeepsLinks f) (i : Nat) :
    (t.modify i f).Linked := by
  have hlinks := SameLinks.modify hf t i
  refine ⟨fun i j hj => ?_, fun i j hj => ?_, fun i => ?_⟩
  · rw [hlinks.children] at hj
    rw [hlinks.size]
    exact h.forward i j hj
  · rw [hlinks.children] at hj
    rw [hlinks.parent?]
    exact h.parent i j hj
  · rw [hlinks.children]
    exact h.nodup i

/-! ### Ways down -/

/-- No child is left out on the way down. -/
theorem Linked.below_eq_children (h : t.Linked) (i : Nat) : t.below i = t.children i := by
  refine List.filter_eq_self.mpr fun j hj => ?_
  obtain ⟨hlt, hsize⟩ := h.forward i j hj
  simp [hlt, hsize]

/-- **There is one way up**: of two nodes above the same one, one is above the other. -/
theorem Linked.descends_or (h : t.Linked) (hi : t.Descends i k) (hj : t.Descends j k) :
    t.Descends i j ∨ t.Descends j i := by
  have hunique : Relator.RightUnique (Function.swap fun p c => c ∈ t.below p) := by
    intro c p q hp hq
    have hp := h.parent p c (List.mem_of_mem_filter hp)
    have hq := h.parent q c (List.mem_of_mem_filter hq)
    exact Option.some.inj (hp.symm.trans hq)
  have hi := Relation.reflTransGen_swap.mpr hi
  have hj := Relation.reflTransGen_swap.mpr hj
  rcases Relation.ReflTransGen.total_of_right_unique hunique hi hj with hij | hji
  · exact Or.inr (Relation.reflTransGen_swap.mp hij)
  · exact Or.inl (Relation.reflTransGen_swap.mp hji)

/-- No node is at or below both. -/
def Apart (t : Tree) (i j : Nat) : Prop := ∀ k, t.Descends i k → ¬t.Descends j k

theorem Linked.apart_children (h : t.Linked) (hi : i ∈ t.children p) (hj : j ∈ t.children p)
    (hij : i ≠ j) : t.Apart i j := by
  -- a child that is below a sibling would be below its own parent's child
  have hnot : ∀ a b, a ∈ t.children p → b ∈ t.children p → a ≠ b → ¬t.Descends a b := by
    intro a b ha hb hab hdown
    rcases Relation.ReflTransGen.cases_tail hdown with heq | ⟨c, hc, hbc⟩
    · exact hab heq.symm
    · have hparent := h.parent c b (List.mem_of_mem_filter hbc)
      obtain rfl : c = p := Option.some.inj (hparent.symm.trans (h.parent p b hb))
      have := Descends.le hc
      have := (h.forward c a ha).1
      omega
  intro k hik hjk
  rcases h.descends_or hik hjk with hdown | hdown
  · exact hnot i j hi hj hij hdown
  · exact hnot j i hj hi hij.symm hdown

/-- Nodes on a list are taken apart, and stay so when one is replaced by its children. -/
theorem Linked.pairwise_apart (h : t.Linked) {rest : List Nat}
    (hw : (i :: rest).Pairwise t.Apart) : (t.below i ++ rest).Pairwise t.Apart := by
  obtain ⟨hfirst, hrest⟩ := List.pairwise_cons.mp hw
  refine List.pairwise_append.mpr ⟨?_, hrest, fun c hc j hj k hdown => ?_⟩
  · rw [h.below_eq_children]
    exact (h.nodup i).imp_of_mem fun ha hb hab => h.apart_children ha hb hab
  · exact hfirst j hj k (Relation.ReflTransGen.head hc hdown)

theorem Linked.nodup_walkFrom (h : t.Linked) (hw : work.Pairwise t.Apart) :
    (t.walkFrom work).Nodup := by
  induction work using walkFrom.induct t with
  | case1 =>
    rw [walkFrom]
    exact List.nodup_nil
  | case2 i rest ih =>
    rw [walkFrom]
    refine List.nodup_cons.mpr ⟨fun hmem => ?_, ih (h.pairwise_apart hw)⟩
    obtain ⟨k, hk, hdown⟩ := mem_walkFrom.mp hmem
    rcases List.mem_append.mp hk with hk | hk
    · have := Descends.le hdown
      have := (lt_of_mem_below hk).1
      omega
    · exact (List.pairwise_cons.mp hw).1 k hk i Relation.ReflTransGen.refl hdown

/-- **A walk meets what is at or below a node, once each.** -/
theorem Linked.nodup_walk (h : t.Linked) (i : Nat) :
    (t.walk i).Nodup ∧ ∀ j, j ∈ t.walk i ↔ t.Descends i j := by
  refine ⟨h.nodup_walkFrom (List.pairwise_singleton _ _), fun j => ?_⟩
  rw [walk, mem_walkFrom]
  simp

end ScopeScript.Tree
