import ScopeScript.Proofs.Tree.WellFormed

/-!
# Headers that become calls

A header that ends without a body becomes a call, and what its parameter list
holds is moved up to the call, into the place of the list. `Tree.Hoists` says
what becomes of the links then, and `Tree.Hoists.laid` that the tree stays
well-formed and nested. The list itself is detached from then on
(`Tree.Hoists.isDetached_iff`).
-/

namespace ScopeScript.Tree

variable {t t' : Tree} {f i j l m p : Nat}

/-- What the parameter list of a header holds. -/
def listed (t : Tree) (f : Nat) : List Nat :=
  match t.childOfKind? f .functionParams with
  | some l => t.children l
  | none => []

/-- **The header `f` of `t` is a call in `t'`**, with the parameters in the place
of the list that held them. -/
structure Hoists (t t' : Tree) (f : Nat) : Prop where
  size : t'.size = t.size
  kind? : ∀ j, t'.kind? j = if j = f then some .call else t.kind? j
  parent? : ∀ j, t'.parent? j = if j ∈ t.listed f then some f else t.parent? j
  children : ∀ j, t'.children j =
    if j = f then
      (t.children f).flatMap fun c =>
        if t.childOfKind? f .functionParams = some c then t.listed f else [c]
    else if t.childOfKind? f .functionParams = some j then [] else t.children j

/-! ### The list and what it holds -/

theorem kind?_of_childOfKind? {k : NodeKind} (h : t.childOfKind? f k = some l) :
    t.kind? l = some k := by
  simpa using List.find?_some h

theorem mem_of_childOfKind? {k : NodeKind} (h : t.childOfKind? f k = some l) :
    l ∈ t.children f :=
  List.mem_of_find?_eq_some h

theorem listed_eq (h : t.childOfKind? f .functionParams = some l) : t.listed f = t.children l := by
  rw [listed, h]

theorem exists_of_mem_listed (h : m ∈ t.listed f) :
    ∃ l, t.childOfKind? f .functionParams = some l ∧ m ∈ t.children l := by
  unfold listed at h
  split at h
  · rename_i l hl
    exact ⟨l, hl, h⟩
  · simp at h

theorem SameLinks.listed (h : SameLinks t t') (f : Nat) : t'.listed f = t.listed f := by
  unfold Tree.listed
  rw [h.childOfKind?]
  split
  · exact h.children _
  · rfl

/-- A node that is put elsewhere, and is no parameter list, changes nothing about
what a parameter list holds. -/
theorem listed_sprout {n : Node} (hp : p < t.size) (hk : t.kind? p ≠ some .functionParams)
    (hn : n.children = []) (hkn : n.kind ≠ .functionParams) (f : Nat) :
    (t.sprout p n).listed f = t.listed f := by
  unfold listed
  rw [childOfKind?_sprout hp hn hkn]
  cases hl : t.childOfKind? f .functionParams with
  | none => rfl
  | some l =>
    have hlp : l ≠ p := by
      rintro rfl
      exact hk (kind?_of_childOfKind? hl)
    exact (children_sprout hp hn l).trans (if_neg hlp)

/-- No parameter list stands in a parameter list. -/
theorem Laid.kind?_of_mem_listed (h : t.Laid) (hm : m ∈ t.listed f) :
    t.kind? m ≠ some .functionParams := by
  intro hk
  obtain ⟨l, hl, hml⟩ := exists_of_mem_listed hm
  rcases h.list_under m l hk (h.parent_of_mem l m hml) with hc | hc <;>
    rw [kind?_of_childOfKind? hl] at hc <;> exact absurd hc (by decide)

/-- What a parameter list holds stands between the list and what comes after it. -/
theorem Laid.lt_of_mem_listed (h : t.Laid) (hl : t.childOfKind? f .functionParams = some l)
    (hm : m ∈ t.listed f) (hj : j ∈ t.children f) (hlj : l < j) : m < j := by
  rw [listed_eq hl] at hm
  have hpm := h.parent_of_mem l m hm
  have hpj := h.parent_of_mem f j hj
  have hfl := h.lt_of_mem (mem_of_childOfKind? hl)
  by_contra hc
  have hne : j ≠ m := by
    rintro rfl
    have := Option.some.inj (hpm.symm.trans hpj)
    omega
  have := h.nested j m l f hpm hlj (by omega) hpj
  omega

/-! ### The links afterwards -/

section Hoist

variable (h : t.Laid) (ho : t.Hoists t' f) (hf : t.kind? f = some .function)

include h ho hf

omit hf in
/-- A parameter list was one before, and keeps its parent. -/
theorem Hoists.list_before (hk : t'.kind? j = some .functionParams) :
    t.kind? j = some .functionParams ∧ t'.parent? j = t.parent? j := by
  rw [ho.kind?] at hk
  split at hk
  · exact absurd hk (by decide)
  · exact ⟨hk, by rw [ho.parent?, if_neg fun hm => h.kind?_of_mem_listed hm hk]⟩

/-- **What is detached** afterwards was so before, or is the emptied list. -/
theorem Hoists.isDetached_iff (j : Nat) :
    t'.IsDetached j ↔ t.IsDetached j ∨ t.childOfKind? f .functionParams = some j := by
  constructor
  · rintro ⟨hk, p, hp, hkp⟩
    obtain ⟨hk, hsame⟩ := ho.list_before h hk
    rw [hsame] at hp
    rw [ho.kind?] at hkp
    by_cases hpf : p = f
    · -- a list of the header itself, of which there is only one
      subst hpf
      refine Or.inr ?_
      cases hl : t.childOfKind? p .functionParams with
      | none => exact absurd hk (h.no_list hf hl hp)
      | some l =>
        have hpl := h.parent_of_mem p l (mem_of_childOfKind? hl)
        rw [h.list_unique j l p hk (kind?_of_childOfKind? hl) hp hpl]
    · rw [if_neg hpf] at hkp
      exact Or.inl ⟨hk, p, hp, hkp⟩
  · rintro (⟨hk, p, hp, hkp⟩ | hl)
    · have hjf : j ≠ f := by
        rintro rfl
        rw [hf] at hk
        exact absurd hk (by decide)
      have hj : j ∉ t.listed f := fun hm => h.kind?_of_mem_listed hm hk
      refine ⟨by rw [ho.kind?, if_neg hjf, hk], p, by rw [ho.parent?, if_neg hj, hp], ?_⟩
      rw [ho.kind?]
      split
      · rfl
      · exact hkp
    · have hk := kind?_of_childOfKind? hl
      have hlt := h.lt_of_mem (mem_of_childOfKind? hl)
      have hj : j ∉ t.listed f := fun hm => h.kind?_of_mem_listed hm hk
      refine ⟨by rw [ho.kind?, if_neg (by omega), hk], f, ?_, by rw [ho.kind?, if_pos rfl]⟩
      rw [ho.parent?, if_neg hj]
      exact h.parent_of_mem f j (mem_of_childOfKind? hl)

omit h hf in
/-- Whoever lists a node afterwards, and where the node stood before. -/
theorem Hoists.mem_children_iff (i j : Nat) :
    j ∈ t'.children i ↔
      (i = f ∧ (j ∈ t.listed f ∨ (j ∈ t.children f ∧ t.childOfKind? f .functionParams ≠ some j))) ∨
      (i ≠ f ∧ t.childOfKind? f .functionParams ≠ some i ∧ j ∈ t.children i) := by
  rw [ho.children]
  by_cases hif : i = f
  · rw [if_pos hif]
    simp only [hif, true_and, ne_eq, not_true_eq_false, false_and, or_false, List.mem_flatMap]
    constructor
    · rintro ⟨c, hc, hj⟩
      split at hj
      · exact Or.inl hj
      · rename_i hne
        obtain rfl := List.mem_singleton.mp hj
        exact Or.inr ⟨hc, hne⟩
    · rintro (hj | ⟨hj, hne⟩)
      · obtain ⟨l, hl, -⟩ := exists_of_mem_listed hj
        exact ⟨l, mem_of_childOfKind? hl, by rwa [if_pos hl]⟩
      · exact ⟨j, hj, by rw [if_neg hne]; simp⟩
  · rw [if_neg hif]
    by_cases hl : t.childOfKind? f .functionParams = some i
    · simp [hif, hl]
    · simp [hif, hl]

omit hf in
theorem Hoists.increasing (i : Nat) : (t'.children i).Pairwise (· < ·) := by
  rw [ho.children]
  split
  · refine List.pairwise_flatMap.mpr ⟨fun c hc => ?_, ?_⟩
    · split
      · rename_i hl
        rw [listed_eq hl]
        exact h.increasing c
      · exact List.pairwise_singleton _ _
    · -- of two children of the header, one at most is the list, and it may be either
      refine (List.Pairwise.and_mem.mp (h.increasing f)).imp ?_
      rintro a b ⟨ha, hb, hab⟩ x hx y hy
      split at hx
      · rename_i hla
        rw [if_neg (by rw [hla]; simpa using Nat.ne_of_lt hab)] at hy
        rw [List.mem_singleton.mp hy]
        exact h.lt_of_mem_listed hla hx hb hab
      · rw [List.mem_singleton.mp hx]
        split at hy
        · rename_i hlb
          rw [listed_eq hlb] at hy
          exact Nat.lt_trans hab (h.lt_of_mem hy)
        · rw [List.mem_singleton.mp hy]
          exact hab
  · split
    · exact List.Pairwise.nil
    · exact h.increasing i

theorem Hoists.wellFormed : t'.WellFormed where
  size_pos := by
    rw [ho.size]
    exact h.size_pos
  global_iff i := by
    rw [ho.kind?]
    split
    · rename_i hif
      have hf0 : f ≠ 0 := by
        intro hf0
        rw [(h.global_iff f).mpr hf0] at hf
        exact absurd hf (by decide)
      exact iff_of_false (by decide) (by omega)
    · exact h.global_iff i
  orphan_iff i hi := by
    rw [ho.parent?]
    split
    · rename_i hm
      obtain ⟨l, -, hml⟩ := exists_of_mem_listed hm
      have := h.lt_of_mem hml
      exact iff_of_false (by simp) (by omega)
    · exact h.orphan_iff i (ho.size ▸ hi)
  parent_lt i p hp := by
    rw [ho.parent?] at hp
    split at hp
    · rename_i hm
      obtain ⟨l, hl, hml⟩ := exists_of_mem_listed hm
      have := h.lt_of_mem hml
      have := h.lt_of_mem (mem_of_childOfKind? hl)
      have := Option.some.inj hp
      omega
    · exact h.parent_lt i p hp
  increasing := ho.increasing h
  parent_of_mem i j hj := by
    rw [ho.parent?]
    rcases (ho.mem_children_iff i j).mp hj with ⟨rfl, hj | ⟨hj, -⟩⟩ | ⟨-, hil, hj⟩
    · rw [if_pos hj]
    · rw [h.parent_of_mem i j hj, ite_self]
    · -- what another node lists was not in the parameter list
      have hnot : j ∉ t.listed f := by
        intro hm
        obtain ⟨l, hl, hml⟩ := exists_of_mem_listed hm
        obtain rfl := h.parent_unique hml hj
        exact hil hl
      rw [if_neg hnot]
      exact h.parent_of_mem i j hj
  mem_of_parent j p hp hd := by
    rw [ho.isDetached_iff h hf, not_or] at hd
    rw [ho.parent?] at hp
    refine (ho.mem_children_iff p j).mpr ?_
    by_cases hm : j ∈ t.listed f
    · rw [if_pos hm] at hp
      exact Or.inl ⟨(Option.some.inj hp).symm, Or.inl hm⟩
    · rw [if_neg hm] at hp
      have hmem := h.mem_of_parent j p hp hd.1
      by_cases hpf : p = f
      · exact Or.inl ⟨hpf, Or.inr ⟨hpf ▸ hmem, hd.2⟩⟩
      · exact Or.inr ⟨hpf, fun hl => hm (by rwa [listed_eq hl]), hmem⟩
  childless j hd := by
    refine List.eq_nil_iff_forall_not_mem.mpr fun k hk => ?_
    rw [ho.isDetached_iff h hf] at hd
    rcases (ho.mem_children_iff j k).mp hk with ⟨rfl, -⟩ | ⟨-, hjl, hk⟩
    · rcases hd with hd | hd
      · rw [hd.1] at hf
        exact absurd hf (by decide)
      · exact absurd (h.lt_of_mem (mem_of_childOfKind? hd)) (Nat.lt_irrefl _)
    · rw [h.childless j (hd.resolve_right hjl)] at hk
      exact absurd hk (by simp)
  unlisted j hd i hj := by
    rw [ho.isDetached_iff h hf] at hd
    have hk : t.kind? j = some .functionParams := hd.elim And.left kind?_of_childOfKind?
    rcases (ho.mem_children_iff i j).mp hj with ⟨rfl, hj | ⟨hj, hjl⟩⟩ | ⟨hif, -, hj⟩
    · exact h.kind?_of_mem_listed hj hk
    · exact h.unlisted j (hd.resolve_right hjl) i hj
    · rcases hd with hd | hd
      · exact h.unlisted j hd i hj
      · exact hif (h.parent_unique hj (mem_of_childOfKind? hd))

/-- **A header that becomes a call** leaves the tree well-formed and nested. -/
theorem Hoists.laid (hopen : t.IsOpen f) : t'.Laid where
  toWellFormed := ho.wellFormed h hf
  nested i j p q hj hpi hij hi := by
    rw [ho.parent?] at hi hj
    by_cases hmj : j ∈ t.listed f
    · rw [if_pos hmj] at hj
      obtain rfl := Option.some.inj hj
      split at hi
      · exact Nat.le_of_eq (Option.some.inj hi)
      · exact hopen.later i q hpi hi
    · rw [if_neg hmj] at hj
      by_cases hmi : i ∈ t.listed f
      · -- `i` moves up from the list `l` to the header, and `p` stands before both
        rw [if_pos hmi] at hi
        obtain rfl := Option.some.inj hi
        obtain ⟨l, hl, hil⟩ := exists_of_mem_listed hmi
        have hkl := kind?_of_childOfKind? hl
        have hpl := h.nested i j p l hj hpi hij (h.parent_of_mem l i hil)
        have hne : p ≠ l := by
          rintro rfl
          refine hmj ?_
          rw [listed_eq hl]
          refine h.mem_of_parent j p hj ?_
          rintro ⟨-, p', hp', hcall⟩
          obtain rfl := Option.some.inj (hj.symm.trans hp')
          rw [hkl] at hcall
          exact absurd hcall (by decide)
        have hli := h.lt_of_mem hil
        exact h.nested l j p f hj (by omega) (by omega)
          (h.parent_of_mem f l (mem_of_childOfKind? hl))
      · rw [if_neg hmi] at hi
        exact h.nested i j p q hj hpi hij hi
  list_under j p hk hp := by
    obtain ⟨hk, hsame⟩ := ho.list_before h hk
    rw [ho.kind?]
    split
    · exact Or.inr rfl
    · exact h.list_under j p hk (hsame ▸ hp)
  list_unique i j p hki hkj hi hj := by
    obtain ⟨hki, hsi⟩ := ho.list_before h hki
    obtain ⟨hkj, hsj⟩ := ho.list_before h hkj
    exact h.list_unique i j p hki hkj (hsi ▸ hi) (hsj ▸ hj)

omit h hf in
theorem Hoists.isOpen (hopen : t.IsOpen f) : t'.IsOpen f where
  lt_size := by
    rw [ho.size]
    exact hopen.lt_size
  attached := by
    rintro ⟨hk, -⟩
    simp [ho.kind?] at hk
  later i q hi hq := by
    rw [ho.parent?] at hq
    split at hq
    · exact Nat.le_of_eq (Option.some.inj hq)
    · exact hopen.later i q hi hq

end Hoist

end ScopeScript.Tree
