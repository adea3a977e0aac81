import ScopeScript.Proofs.Tree.Linked
import ScopeScript.Tree.Export

/-!
# Exports by recursion

The mapping of a node is made in two steps, and between them other mappings are begun and
completed. This file shows that nothing of this can be seen in the end: **what is exported
is what one would write down by recursion** (`ScopeScript.Tree.mapping`,
`ScopeScript.Tree.exportNode_eq_mapping`).

The invariant is about the mappings that are still **incomplete**
(`ScopeScript.Tree.Awaits`): they are those at the positions on the work list, they are as
they were begun, and no position is on the list twice. So a mapping changes once only, when
the entry with its position is taken from the list, and then it is told which mappings are
those of its children (`ScopeScript.Tree.getElem?_fill_head`). These are still on the list,
and will be read as the mappings of the children because they are completed later on
(`ScopeScript.Tree.read_fill`).
-/

namespace ScopeScript.Tree

variable {t : Tree} {i j d e : Nat} {n : Node} {drafts : Array Draft} {work rest : List (Nat × Nat)}

/-- **A node and all below it as plain data**, by recursion. -/
def mapping (t : Tree) (i : Nat) : Datum :=
  Datum.withChildren (t.draft i).fields ((t.below i).attach.map fun c => mapping t c.1)
termination_by t.size - i
decreasing_by
  have := lt_of_mem_below c.2
  omega

theorem mapping_eq (t : Tree) (i : Nat) :
    t.mapping i = Datum.withChildren (t.draft i).fields ((t.below i).map t.mapping) := by
  rw [mapping]
  simp

/-- A mapping is read with those that it refers to, if these stand behind it. -/
theorem read_of_getElem? {draft : Draft} (h : drafts[d]? = some draft)
    (hchildren : ∀ c ∈ draft.children, d < c ∧ c < drafts.size) :
    Draft.read drafts d
      = Datum.withChildren draft.fields (draft.children.map (Draft.read drafts)) := by
  have hheld : Draft.held drafts d = draft.children := by
    rw [Draft.held, h]
    exact List.filter_eq_self.mpr fun c hc => by simp [hchildren c hc]
  rw [Draft.read, h, ← hheld]
  simp

/-! ### Mappings that are begun -/

theorem size_begin (t : Tree) (drafts : Array Draft) (d : Nat) (children : List Nat) :
    (t.begin drafts d children).size = drafts.size + children.length := by
  simp [begin]

/-- The mapping that refers to the new ones. -/
theorem getElem?_begin_self {draft : Draft} (h : drafts[d]? = some draft) (children : List Nat) :
    (t.begin drafts d children)[d]?
      = some { draft with children := List.range' drafts.size children.length } := by
  have hd : d < drafts.size := (Array.getElem?_eq_some_iff.mp h).1
  rw [begin, Array.getElem?_append_left (by simpa using hd), Array.getElem?_modify, if_pos rfl, h]
  rfl

/-- Any other mapping that is there already. -/
theorem getElem?_begin_of_ne (he : e < drafts.size) (hne : e ≠ d) (children : List Nat) :
    (t.begin drafts d children)[e]? = drafts[e]? := by
  rw [begin, Array.getElem?_append_left (by simpa using he), Array.getElem?_modify,
    if_neg hne.symm]

/-- **A new mapping is that of a child as it is begun.** -/
theorem getElem?_begin_of_mem {children : List Nat}
    (h : (i, e) ∈ children.zip (List.range' drafts.size children.length)) :
    (t.begin drafts d children)[e]? = some (t.draft i) := by
  obtain ⟨k, hk, hpair⟩ := List.mem_iff_getElem.mp h
  rw [List.getElem_zip, List.getElem_range', Nat.one_mul] at hpair
  obtain ⟨rfl, rfl⟩ := Prod.mk.inj hpair
  have hlt : k < children.length := by simpa using hk
  rw [begin, Array.getElem?_append_right (by simp)]
  simp [List.getElem?_eq_getElem hlt]

/-! ### The work list -/

/-- **What is still incomplete**: the mappings at the positions on the work list are as they
were begun, and no position is on the list twice. -/
structure Awaits (t : Tree) (work : List (Nat × Nat)) (drafts : Array Draft) : Prop where
  /-- No position is on the list twice. -/
  nodup : (work.map Prod.snd).Nodup
  /-- The mappings are as they were begun. -/
  begun : ∀ i d, (i, d) ∈ work → drafts[d]? = some (t.draft i)

/-- The entries for the children of a node. -/
abbrev entries (t : Tree) (i size : Nat) : List (Nat × Nat) :=
  (t.below i).zip (List.range' size (t.below i).length)

theorem map_fst_entries (t : Tree) (i size : Nat) : (t.entries i size).map Prod.fst = t.below i :=
  List.map_fst_zip (by simp)

theorem map_snd_entries (t : Tree) (i size : Nat) :
    (t.entries i size).map Prod.snd = List.range' size (t.below i).length :=
  List.map_snd_zip (by simp)

/-- What the positions of the children stand for. -/
theorem map_entries {α : Type} {f g : Nat → α} {size : Nat}
    (h : ∀ p ∈ t.entries i size, f p.2 = g p.1) :
    (List.range' size (t.below i).length).map f = (t.below i).map g := by
  rw [← map_snd_entries, ← map_fst_entries t i size, List.map_map, List.map_map]
  exact List.map_congr_left h

/-- The positions on the list once an entry has been replaced by those for the children. -/
theorem mem_positions :
    e ∈ ((t.entries i drafts.size).reverse ++ rest).map Prod.snd ↔
      (drafts.size ≤ e ∧ e < drafts.size + (t.below i).length) ∨ e ∈ rest.map Prod.snd := by
  rw [List.map_append, List.map_reverse, map_snd_entries, List.mem_append, List.mem_reverse,
    List.mem_range'_1]

/-- A position on the list is one of the store. -/
theorem Awaits.lt_size (h : t.Awaits work drafts) (he : e ∈ work.map Prod.snd) :
    e < drafts.size := by
  obtain ⟨⟨i, d⟩, hmem, rfl⟩ := List.mem_map.mp he
  exact (Array.getElem?_eq_some_iff.mp (h.begun i d hmem)).1

/-- **An entry is replaced by those for the children**, whose mappings are begun. -/
theorem Awaits.begin (h : t.Awaits ((i, d) :: rest) drafts) :
    t.Awaits ((t.entries i drafts.size).reverse ++ rest) (t.begin drafts d (t.below i)) := by
  obtain ⟨hd, hnodup⟩ := List.nodup_cons.mp h.nodup
  refine ⟨?_, fun j e hmem => ?_⟩
  · rw [List.map_append, List.map_reverse, map_snd_entries, List.nodup_append]
    refine ⟨List.nodup_reverse.mpr List.nodup_range', hnodup, ?_⟩
    rintro a ha b hb rfl
    have hlt := h.lt_size (List.mem_cons_of_mem d hb)
    have hle := (List.mem_range'_1.mp (List.mem_reverse.mp ha)).1
    omega
  · rcases List.mem_append.mp hmem with hnew | hold
    · exact getElem?_begin_of_mem (List.mem_reverse.mp hnew)
    · have hbegun := h.begun j e (List.mem_cons_of_mem _ hold)
      rw [getElem?_begin_of_ne (Array.getElem?_eq_some_iff.mp hbegun).1 ?_, hbegun]
      rintro rfl
      exact hd (List.mem_map.mpr ⟨_, hold, rfl⟩)

/-! ### The store once the work is done -/

theorem size_le_size_fill (t : Tree) (work : List (Nat × Nat)) (drafts : Array Draft) :
    drafts.size ≤ (t.fill work drafts).size := by
  induction work, drafts using fill.induct t with
  | case1 drafts => rw [fill]
  | case2 i d rest drafts children begun ih =>
    rw [fill]
    rw [size_begin] at ih
    exact Nat.le_of_add_right_le ih

/-- **A mapping that is not on the list stays as it is.** -/
theorem getElem?_fill_of_not_mem (he : e < drafts.size) (hnot : e ∉ work.map Prod.snd) :
    (t.fill work drafts)[e]? = drafts[e]? := by
  induction work, drafts using fill.induct t with
  | case1 drafts => rw [fill]
  | case2 i d rest drafts children begun ih =>
    obtain ⟨hne, hrest⟩ := not_or.mp (mt List.mem_cons.mpr hnot)
    rw [fill, ih, getElem?_begin_of_ne he hne]
    · rw [size_begin]
      omega
    · rw [mem_positions]
      rintro (⟨hle, -⟩ | hmem)
      · omega
      · exact hrest hmem

/-- **A mapping on the list is completed when its turn comes**, and not touched again. -/
theorem getElem?_fill_head (h : t.Awaits ((i, d) :: rest) drafts) :
    (t.fill ((i, d) :: rest) drafts)[d]?
      = some { t.draft i with children := List.range' drafts.size (t.below i).length } := by
  have hbegun := h.begun i d List.mem_cons_self
  have hlt := h.lt_size List.mem_cons_self
  rw [fill, getElem?_fill_of_not_mem, getElem?_begin_self hbegun]
  · rw [size_begin]
    omega
  · rw [mem_positions]
    rintro (⟨hle, -⟩ | hmem)
    · omega
    · exact (List.nodup_cons.mp h.nodup).1 hmem

/-- **What is on the list is read as the node says.** -/
theorem read_fill (h : t.Awaits work drafts) :
    ∀ p ∈ work, Draft.read (t.fill work drafts) p.2 = t.mapping p.1 := by
  induction work, drafts using fill.induct t with
  | case1 drafts =>
    intro p hp
    cases hp
  | case2 i d rest drafts children begun ih =>
    have hrest := ih h.begin
    have hsize := size_le_size_fill t (begun.reverse ++ rest) (t.begin drafts d children)
    rw [size_begin] at hsize
    have hhead := getElem?_fill_head h
    rw [fill] at hhead ⊢
    intro p hp
    rcases List.mem_cons.mp hp with rfl | hp
    · have hlt := h.lt_size List.mem_cons_self
      rw [read_of_getElem? hhead, mapping_eq]
      · -- the children are still on the list when the mapping is completed
        refine congrArg _ (map_entries fun p hp => ?_)
        exact hrest p (List.mem_append_left _ (List.mem_reverse.mpr hp))
      · intro c hc
        have hc := List.mem_range'_1.mp hc
        exact ⟨Nat.lt_of_lt_of_le hlt hc.1, Nat.lt_of_lt_of_le hc.2 hsize⟩
    · exact hrest p (List.mem_append_right _ hp)

/-- **What is exported is what one would write down by recursion.** -/
theorem exportNode_eq_mapping (t : Tree) (i : Nat) : t.exportNode i = t.mapping i := by
  have hstart : t.Awaits [(i, 0)] #[t.draft i] := by
    refine ⟨List.nodup_singleton 0, fun j d hmem => ?_⟩
    obtain ⟨rfl, rfl⟩ := Prod.mk.inj (List.mem_singleton.mp hmem)
    rfl
  exact read_fill hstart (i, 0) List.mem_cons_self

/-- **The recursion**, where parents and children agree. -/
theorem Linked.exportNode_eq (h : t.Linked) (hn : t.node? i = some n) :
    t.exportNode i = Datum.withChildren n.fields (n.children.map t.exportNode) := by
  have hmapping : t.exportNode = t.mapping := funext t.exportNode_eq_mapping
  rw [hmapping, mapping_eq, h.below_eq_children, children_of_node? hn, draft, hn]
  rfl

end ScopeScript.Tree
