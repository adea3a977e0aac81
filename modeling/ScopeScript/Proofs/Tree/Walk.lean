import Mathlib.Data.List.Sort
import Mathlib.Logic.Relation
import ScopeScript.Proofs.Tree.WellFormed

/-!
# What a walk meets

A walk of a tree keeps a list of nodes still to be visited, and puts the children of
a node in front of it. **From the root it meets every node that is not detached, once,
and in the order of the indices** (`ScopeScript.Tree.Laid.walk_eq`).

That the order is that of the indices is not obvious, since the walk follows children
and the indices follow the source. It rests on scopes being nested: all that stands
below a node comes before the next sibling of that node
(`ScopeScript.Tree.Laid.lt_sibling`). So whenever a node waits on the list behind
another one, everything below the first of the two comes before it.
-/

namespace ScopeScript.Tree

variable {t : Tree} {i j k p : Nat} {work : List Nat}

/-! ### Ways down -/

/-- A node stands at or below another one. -/
abbrev Descends (t : Tree) : Nat → Nat → Prop := Relation.ReflTransGen fun p c => c ∈ t.below p

theorem Descends.le (h : t.Descends i j) : i ≤ j := by
  induction h with
  | refl => exact Nat.le_refl i
  | tail _ hc ih => exact Nat.le_trans ih (Nat.le_of_lt (lt_of_mem_below hc).1)

/-- Nodes on the list of a walk are visited one after the other. -/
theorem walkFrom_append (work rest : List Nat) :
    t.walkFrom (work ++ rest) = t.walkFrom work ++ t.walkFrom rest := by
  induction work using walkFrom.induct t with
  | case1 =>
    rw [walkFrom, List.nil_append, List.nil_append]
  | case2 i work ih =>
    rw [List.append_assoc] at ih
    rw [List.cons_append, walkFrom, walkFrom, ih, List.cons_append]

theorem walkFrom_eq_flatMap (work : List Nat) : t.walkFrom work = work.flatMap t.walk := by
  induction work with
  | nil =>
    rw [walkFrom]
    rfl
  | cons i work ih => rw [List.flatMap_cons, ← ih, walk, ← walkFrom_append, List.singleton_append]

/-- **A walk by recursion**: a node, and then what is below it, child by child. -/
theorem walk_eq_cons (t : Tree) (i : Nat) : t.walk i = i :: (t.below i).flatMap t.walk := by
  rw [← walkFrom_eq_flatMap, walk, walkFrom, List.append_nil]

/-- **A walk meets what stands at or below the nodes on its list.** -/
theorem mem_walkFrom : j ∈ t.walkFrom work ↔ ∃ i ∈ work, t.Descends i j := by
  induction work using walkFrom.induct t with
  | case1 =>
    rw [walkFrom]
    simp
  | case2 i rest ih =>
    rw [walkFrom, List.mem_cons, ih]
    constructor
    · rintro (rfl | ⟨k, hk, hdown⟩)
      · exact ⟨j, List.mem_cons_self, Relation.ReflTransGen.refl⟩
      · rcases List.mem_append.mp hk with hk | hk
        · exact ⟨i, List.mem_cons_self, Relation.ReflTransGen.head hk hdown⟩
        · exact ⟨k, List.mem_cons_of_mem i hk, hdown⟩
    · rintro ⟨k, hk, hdown⟩
      rcases List.mem_cons.mp hk with rfl | hk
      · rcases Relation.ReflTransGen.cases_head hdown with rfl | ⟨c, hc, hdown⟩
        · exact Or.inl rfl
        · exact Or.inr ⟨c, List.mem_append_left rest hc, hdown⟩
      · exact Or.inr ⟨k, List.mem_append_right _ hk, hdown⟩

/-- **A walk from the root meets all nodes but the detached ones.** -/
theorem WellFormed.mem_walk (h : t.WellFormed) :
    i ∈ t.walk 0 ↔ i < t.size ∧ ¬t.IsDetached i := by
  rw [walk, mem_walkFrom]
  simp only [List.mem_singleton, exists_eq_left]
  constructor
  · intro hdown
    rcases Relation.ReflTransGen.cases_tail hdown with rfl | ⟨p, -, hi⟩
    · refine ⟨h.size_pos, ?_⟩
      rintro ⟨-, p, hp, -⟩
      exact Nat.not_lt_zero p (h.parent_lt 0 p hp)
    · have hmem : i ∈ t.children p := List.mem_of_mem_filter hi
      exact ⟨h.lt_size_of_mem hmem, fun hd => h.unlisted i hd p hmem⟩
  · rintro ⟨hsize, hd⟩
    induction i using Nat.strongRecOn with
    | ind i ih =>
      rcases Nat.eq_zero_or_pos i with rfl | hpos
      · exact Relation.ReflTransGen.refl
      · obtain ⟨p, hp⟩ := h.exists_parent hpos hsize
        have hlt := h.parent_lt i p hp
        have hup := ih p hlt (Nat.lt_trans hlt hsize) (h.not_isDetached_of_parent hp)
        refine hup.tail ?_
        rw [h.below_eq_children]
        exact h.mem_of_parent i p hp hd

/-! ### The order of a walk -/

/-- **All that stands below a node comes before the next sibling of that node.** -/
theorem Laid.lt_sibling (h : t.Laid) (hi : i ∈ t.children p) (hj : j ∈ t.children p)
    (hij : i < j) (hdown : t.Descends i k) : k < j := by
  have hp := h.lt_of_mem hi
  have hparent := h.parent_of_mem p j hj
  induction hdown with
  | refl => exact hij
  | @tail b c hb hc ih =>
    rw [h.below_eq_children] at hc
    have hbc := h.parent_of_mem b c hc
    have hle := Descends.le hb
    by_contra hge
    have hne : j ≠ c := by
      rintro rfl
      have := Option.some.inj (hparent.symm.trans hbc)
      omega
    -- the sibling would stand between a node and its parent, and belong to an earlier one
    have := h.nested j c b p hbc ih (by omega) hparent
    omega

/-- Nodes wait in order: all that stands below one of them comes before the next. -/
def Waiting (t : Tree) (work : List Nat) : Prop :=
  work.Pairwise fun i j => ∀ k, t.Descends i k → k < j

theorem Laid.waiting_below (h : t.Laid) {rest : List Nat} (hw : t.Waiting (i :: rest)) :
    t.Waiting (t.below i ++ rest) := by
  obtain ⟨hfirst, hrest⟩ := List.pairwise_cons.mp hw
  refine List.pairwise_append.mpr ⟨?_, hrest, ?_⟩
  · rw [h.below_eq_children]
    refine (h.increasing i).imp_of_mem fun ha hb hab k hdown => ?_
    exact h.lt_sibling ha hb hab hdown
  · intro c hc j hj k hdown
    exact hfirst j hj k (Relation.ReflTransGen.head hc hdown)

theorem Laid.walkFrom_increasing (h : t.Laid) (hw : t.Waiting work) :
    (t.walkFrom work).Pairwise (· < ·) := by
  induction work using walkFrom.induct t with
  | case1 =>
    rw [walkFrom]
    exact List.Pairwise.nil
  | case2 i rest ih =>
    rw [walkFrom]
    refine List.pairwise_cons.mpr ⟨fun j hj => ?_, ih (h.waiting_below hw)⟩
    obtain ⟨k, hk, hdown⟩ := mem_walkFrom.mp hj
    refine Nat.lt_of_lt_of_le ?_ (Descends.le hdown)
    rcases List.mem_append.mp hk with hk | hk
    · exact (lt_of_mem_below hk).1
    · exact (List.pairwise_cons.mp hw).1 k hk i Relation.ReflTransGen.refl

/-- **A walk meets the nodes in the order of their indices.** -/
theorem Laid.walk_increasing (h : t.Laid) : (t.walk 0).Pairwise (· < ·) :=
  h.walkFrom_increasing (List.pairwise_singleton _ _)

/-- Whether a node is detached can be read off its kind and that of its parent. -/
theorem isDetached_iff : t.IsDetached i ↔
    t.kind? i = some .functionParams ∧ (t.parent? i).bind t.kind? = some .call := by
  rw [IsDetached, Option.bind_eq_some_iff]

instance (t : Tree) : DecidablePred t.IsDetached := fun _ => decidable_of_iff _ isDetached_iff.symm

/-- **A walk from the root goes through the nodes by index**, and leaves out the
detached ones. -/
theorem Laid.walk_eq (h : t.Laid) :
    t.walk 0 = (List.range t.size).filter fun i => ¬t.IsDetached i := by
  have hrange : ((List.range t.size).filter fun i => ¬t.IsDetached i).Pairwise (· < ·) :=
    List.pairwise_lt_range.filter _
  refine List.Perm.eq_of_pairwise' h.walk_increasing hrange ?_
  refine (List.perm_ext_iff_of_nodup (h.walk_increasing.imp Nat.ne_of_lt)
    (hrange.imp Nat.ne_of_lt)).mpr fun i => ?_
  rw [h.mem_walk, List.mem_filter, List.mem_range, decide_eq_true_eq]

end ScopeScript.Tree
