import ScopeScript.Proofs.Scanner.CreationOrder

/-!
# The shape of functions

A function has a parameter list and a body, and each is looked for among its children by
kind, where the first that is found is taken. So it matters that there is one of each at
most, that they stand nowhere else, and that nothing comes after the body
(`ScopeScript.Tree.FunctionShape`). **This is so at every moment of every scan**
(`ScopeScript.Scanner.functionShape_throughout`), whatever declarations and blocks are put
into headers and whatever headers become calls.

What makes it so is a matter of the cursor: **a function that has its body is never the
open scope again.** As long as the body is open the cursor is in it, and the brace that
closes the body closes the function as well. So nothing is ever put behind a body, and no
function with a body becomes a call. Both are about parents only
(`ScopeScript.Tree.Formed`, `ScopeScript.Tree.Accepts`), and the shape of the child lists
follows since the tree is well-formed.
-/

namespace ScopeScript

namespace Tree

variable {t t' : Tree} {i j p q c f b : Nat} {n : Node}

/-! ### Bodies -/

/-- The function has a body. -/
def HasBody (t : Tree) (f : Nat) : Prop := ∃ b ∈ t.children f, t.kind? b = some .functionImpl

/-- **The shape of functions in a tree.** -/
structure FunctionShape (t : Tree) : Prop where
  /-- A function has one parameter list at most. -/
  one_list : ∀ f, t.kind? f = some .function → (t.childrenOfKind f .functionParams).length ≤ 1
  /-- A function has one body at most. -/
  one_body : ∀ f, t.kind? f = some .function → (t.childrenOfKind f .functionImpl).length ≤ 1
  /-- The body of a function is its last child. -/
  body_last : ∀ f, t.kind? f = some .function →
    ∀ b ∈ t.children f, t.kind? b = some .functionImpl → (t.children f).getLast? = some b
  /-- The body of a function comes after its parameter list. -/
  body_after_list : ∀ f, t.kind? f = some .function →
    ∀ l ∈ t.children f, t.kind? l = some .functionParams →
    ∀ b ∈ t.children f, t.kind? b = some .functionImpl → [l, b].Sublist (t.children f)
  /-- A body is that of a function. -/
  body_of_function : ∀ b, t.kind? b = some .functionImpl →
    ∃ f, t.kind? f = some .function ∧ t.parent? b = some f ∧ b ∈ t.children f
  /-- A parameter list that can be reached from the root is that of a function. -/
  list_of_function : ∀ l ∈ t.walk 0, t.kind? l = some .functionParams →
    ∃ f, t.kind? f = some .function ∧ t.parent? l = some f ∧ l ∈ t.children f
  /-- A call has neither. -/
  call_has_neither : ∀ c, t.kind? c = some .call → ∀ j ∈ t.children c,
    t.kind? j ≠ some .functionParams ∧ t.kind? j ≠ some .functionImpl
  /-- Nothing stands below a parameter or argument. -/
  param_leaf : ∀ p, t.kind? p = some .functionParam → t.children p = []

/-- **Where bodies stand, as far as parents tell**: below functions, and after all else that
belongs to the same function. -/
structure Formed (t : Tree) : Prop where
  body_under : ∀ b f, t.kind? b = some .functionImpl → t.parent? b = some f →
    t.kind? f = some .function
  body_last : ∀ b f j, t.kind? b = some .functionImpl → t.parent? b = some f →
    t.parent? j = some f → j ≤ b
  leaf : ∀ j p, t.parent? j = some p → t.kind? p ≠ some .functionParam

/-- **A node that may get more children**: it is no parameter, and has no body. -/
structure Accepts (t : Tree) (c : Nat) : Prop where
  ne_param : t.kind? c ≠ some .functionParam
  bodiless : ∀ b, t.parent? b = some c → t.kind? b ≠ some .functionImpl

theorem not_isDetached_of_kind? {k : NodeKind} (hk : t.kind? i = some k)
    (hne : k ≠ .functionParams) : ¬t.IsDetached i := by
  rintro ⟨hlist, -⟩
  exact hne (Option.some.inj (hk.symm.trans hlist))

theorem WellFormed.hasBody_iff (h : t.WellFormed) :
    t.HasBody f ↔ ∃ b, t.parent? b = some f ∧ t.kind? b = some .functionImpl := by
  constructor
  · rintro ⟨b, hb, hk⟩
    exact ⟨b, h.parent_of_mem f b hb, hk⟩
  · rintro ⟨b, hp, hk⟩
    exact ⟨b, h.mem_of_parent b f hp (not_isDetached_of_kind? hk (by decide)), hk⟩

theorem Accepts.not_hasBody (ha : t.Accepts f) (h : t.WellFormed) : ¬t.HasBody f := by
  rw [h.hasBody_iff]
  rintro ⟨b, hp, hk⟩
  exact ha.bodiless b hp hk

/-! ### What keeps bodies in their places -/

theorem SameLinks.formed (h : SameLinks t t') (hf : t.Formed) : t'.Formed where
  body_under b f hb hp := by
    rw [h.kind?] at hb ⊢
    rw [h.parent?] at hp
    exact hf.body_under b f hb hp
  body_last b f j hb hp hj := by
    rw [h.kind?] at hb
    rw [h.parent?] at hp hj
    exact hf.body_last b f j hb hp hj
  leaf j p hp := by
    rw [h.parent?] at hp
    rw [h.kind?]
    exact hf.leaf j p hp

theorem SameLinks.accepts (h : SameLinks t t') (ha : t.Accepts c) : t'.Accepts c where
  ne_param := by
    rw [h.kind?]
    exact ha.ne_param
  bodiless b hp := by
    rw [h.parent?] at hp
    rw [h.kind?]
    exact ha.bodiless b hp

section Sprout

variable (hl : t.Laid) (hc : c < t.size) (hn : t.Fits c n)

include hl hc hn

/-- **A node may be put below one that accepts it**, and a body below a function. -/
theorem Formed.sprout (h : t.Formed) (ha : t.Accepts c)
    (hbody : n.kind = .functionImpl → t.kind? c = some .function) : (t.sprout c n).Formed := by
  have hkind := fun {j} (hj : j < t.size) => kind?_sprout_of_lt hc n hj
  refine ⟨fun b f hb hp => ?_, fun b f j hb hp hj => ?_, fun j p hp => ?_⟩
  · rcases hn.parent_cases hc hp with ⟨rfl, rfl⟩ | ⟨hlt, hp⟩
    · rw [kind?_sprout hc, if_pos rfl] at hb
      rw [hkind hc]
      exact hbody (Option.some.inj hb)
    · rw [hkind hlt] at hb
      rw [hkind (Nat.lt_trans (hl.parent_lt b f hp) hlt)]
      exact h.body_under b f hb hp
  · rcases hn.parent_cases hc hj with ⟨rfl, rfl⟩ | ⟨hjlt, hj⟩
    · -- the new node is the body itself, or its parent would have had one
      rcases hn.parent_cases hc hp with ⟨rfl, -⟩ | ⟨hlt, hp⟩
      · exact Nat.le_refl _
      · rw [hkind hlt] at hb
        exact absurd hb (ha.bodiless b hp)
    · rcases hn.parent_cases hc hp with ⟨rfl, -⟩ | ⟨hlt, hp⟩
      · exact Nat.le_of_lt hjlt
      · rw [hkind hlt] at hb
        exact h.body_last b f j hb hp hj
  · rcases hn.parent_cases hc hp with ⟨rfl, rfl⟩ | ⟨hlt, hp⟩
    · rw [hkind hc]
      exact ha.ne_param
    · rw [hkind (Nat.lt_trans (hl.parent_lt j p hp) hlt)]
      exact h.leaf j p hp

omit hl in
theorem Accepts.sprout (ha : t.Accepts c) (hne : n.kind ≠ .functionImpl) :
    (t.sprout c n).Accepts c where
  ne_param := by
    rw [kind?_sprout_of_lt hc n hc]
    exact ha.ne_param
  bodiless b hp := by
    rcases hn.parent_cases hc hp with ⟨rfl, -⟩ | ⟨hlt, hp⟩
    · rw [kind?_sprout hc, if_pos rfl]
      exact fun hk => hne (Option.some.inj hk)
    · rw [kind?_sprout_of_lt hc n hlt]
      exact ha.bodiless b hp

/-- A new node accepts children, unless it is a parameter. -/
theorem accepts_sprout_new (hne : n.kind ≠ .functionParam) : (t.sprout c n).Accepts t.size where
  ne_param := by
    rw [kind?_sprout hc, if_pos rfl]
    exact fun hk => hne (Option.some.inj hk)
  bodiless b hp := by
    rcases hn.parent_cases hc hp with ⟨-, hsize⟩ | ⟨hlt, hp⟩
    · omega
    · have := hl.parent_lt b t.size hp
      omega

theorem HasBody.sprout (h : t.HasBody f) : (t.sprout c n).HasBody f := by
  obtain ⟨b, hb, hk⟩ := h
  refine ⟨b, ?_, ?_⟩
  · rw [children_sprout hc hn.children]
    split
    · rename_i hcf
      exact List.mem_append_left _ (hcf ▸ hb)
    · exact hb
  · rw [kind?_sprout_of_lt hc n (hl.lt_size_of_mem hb), hk]

end Sprout

section Hoist

variable (ho : t.Hoists t' f) (hl : t.Laid) (h : t.Formed)

include ho hl h

/-- A body was one before, and keeps its parent: no parameter list held it. -/
theorem Hoists.body_before (hk : t'.kind? b = some .functionImpl) :
    t.kind? b = some .functionImpl ∧ t'.parent? b = t.parent? b := by
  rw [ho.kind?] at hk
  split at hk
  · cases hk
  · refine ⟨hk, ?_⟩
    rw [ho.parent?, if_neg]
    intro hm
    obtain ⟨l, hlist, hml⟩ := exists_of_mem_listed hm
    have hunder := h.body_under b l hk (hl.parent_of_mem l b hml)
    rw [kind?_of_childOfKind? hlist] at hunder
    cases hunder

/-- **A header without a body may become a call.** -/
theorem Hoists.formed (ha : t.Accepts f) : t'.Formed where
  body_under b g hb hp := by
    obtain ⟨hk, hsame⟩ := ho.body_before hl h hb
    rw [hsame] at hp
    rw [ho.kind?, if_neg]
    · exact h.body_under b g hk hp
    · rintro rfl
      exact ha.bodiless b hp hk
  body_last b g j hb hp hj := by
    obtain ⟨hk, hsame⟩ := ho.body_before hl h hb
    rw [hsame] at hp
    rw [ho.parent?] at hj
    split at hj
    · obtain rfl := Option.some.inj hj
      exact absurd hk (ha.bodiless b hp)
    · exact h.body_last b g j hk hp hj
  leaf j p hp := by
    rw [ho.kind?]
    split
    · decide
    · rename_i hpf
      rw [ho.parent?] at hp
      split at hp
      · exact absurd (Option.some.inj hp).symm hpf
      · exact h.leaf j p hp

/-- Bodies stay where they are. -/
theorem HasBody.hoists (hf : t.kind? f = some .function) (hb : t.HasBody i) : t'.HasBody i := by
  obtain ⟨b, hp, hk⟩ := hl.hasBody_iff.mp hb
  have hk' : t'.kind? b = some .functionImpl := by
    rw [ho.kind?, if_neg]
    · exact hk
    · rintro rfl
      rw [hf] at hk
      cases hk
  refine (ho.wellFormed hl hf).hasBody_iff.mpr ⟨b, ?_, hk'⟩
  rw [(ho.body_before hl h hk').2, hp]

end Hoist

/-! ### The shape that follows -/

/-- What is not the whole script belongs to something. -/
theorem WellFormed.exists_parent_of_kind? {k : NodeKind} (h : t.WellFormed)
    (hk : t.kind? i = some k) (hne : k ≠ .global) : ∃ p, t.parent? i = some p := by
  refine h.exists_parent (Nat.pos_of_ne_zero ?_) (lt_size_of_kind? hk)
  rintro rfl
  exact hne (Option.some.inj (hk.symm.trans ((h.global_iff 0).mpr rfl)))

theorem WellFormed.length_childrenOfKind_le_one {k : NodeKind} (h : t.WellFormed)
    (hone : ∀ i j, t.kind? i = some k → t.kind? j = some k → t.parent? i = some f →
      t.parent? j = some f → i = j) : (t.childrenOfKind f k).length ≤ 1 := by
  have hmem : ∀ i ∈ t.childrenOfKind f k, t.parent? i = some f ∧ t.kind? i = some k := by
    intro i hi
    obtain ⟨hi, hk⟩ := List.mem_filter.mp hi
    exact ⟨h.parent_of_mem f i hi, by simpa using hk⟩
  have hinc : (t.childrenOfKind f k).Pairwise (· < ·) := (h.increasing f).filter _
  -- of two members, the first would stand before the second and be the same
  rcases hlist : t.childrenOfKind f k with - | ⟨i, - | ⟨j, rest⟩⟩
  · exact Nat.zero_le 1
  · exact Nat.le_refl 1
  · rw [hlist] at hmem hinc
    have hlt := (List.pairwise_cons.mp hinc).1 j (by simp)
    obtain ⟨hpi, hki⟩ := hmem i (by simp)
    obtain ⟨hpj, hkj⟩ := hmem j (by simp)
    exact absurd (hone i j hki hkj hpi hpj) (Nat.ne_of_lt hlt)

/-- Nothing is listed after the body of a function. -/
theorem Formed.exists_front (h : t.Formed) (hw : t.WellFormed) (hb : b ∈ t.children f)
    (hk : t.kind? b = some .functionImpl) : ∃ front, t.children f = front ++ [b] := by
  obtain ⟨front, back, hsplit⟩ := List.append_of_mem hb
  have hinc := hw.increasing f
  rw [hsplit, List.pairwise_append, List.pairwise_cons] at hinc
  have hback : back = [] := by
    refine List.eq_nil_iff_forall_not_mem.mpr fun i hi => ?_
    have hlt := hinc.2.1.1 i hi
    have hp := hw.parent_of_mem f i (by rw [hsplit]; simp [hi])
    have := h.body_last b f i hk (hw.parent_of_mem f b hb) hp
    omega
  exact ⟨front, by rw [hsplit, hback]⟩

/-- **Functions have their shape** where bodies are in their places. -/
theorem Formed.functionShape (h : t.Formed) (hl : t.Laid) : t.FunctionShape where
  one_list f _ := hl.length_childrenOfKind_le_one fun i j => hl.list_unique i j f
  one_body f _ := hl.length_childrenOfKind_le_one fun i j hi hj hpi hpj =>
    Nat.le_antisymm (h.body_last j f i hj hpj hpi) (h.body_last i f j hi hpi hpj)
  body_last f _ b hb hk := by
    obtain ⟨front, hfront⟩ := h.exists_front hl.toWellFormed hb hk
    rw [hfront, List.getLast?_concat]
  body_after_list f _ l hl' hkl b hb hkb := by
    obtain ⟨front, hfront⟩ := h.exists_front hl.toWellFormed hb hkb
    rw [hfront] at hl' ⊢
    have hmem : l ∈ front := by
      rcases List.mem_append.mp hl' with hmem | hlast
      · exact hmem
      · obtain rfl := List.mem_singleton.mp hlast
        rw [hkl] at hkb
        cases hkb
    exact (List.singleton_sublist.mpr hmem).append (List.Sublist.refl [b])
  body_of_function b hk := by
    have hd := not_isDetached_of_kind? hk (by decide)
    obtain ⟨f, hf⟩ := hl.exists_parent_of_kind? hk (by decide)
    exact ⟨f, h.body_under b f hk hf, hf, hl.mem_of_parent b f hf hd⟩
  list_of_function l hwalk hk := by
    have hd := (hl.mem_walk.mp hwalk).2
    obtain ⟨f, hf⟩ := hl.exists_parent_of_kind? hk (by decide)
    refine ⟨f, ?_, hf, hl.mem_of_parent l f hf hd⟩
    exact (hl.list_under l f hk hf).resolve_right fun hcall => hd ⟨hk, f, hf, hcall⟩
  call_has_neither c hc j hj := by
    have hp := hl.parent_of_mem c j hj
    refine ⟨fun hk => hl.unlisted j ⟨hk, c, hp, hc⟩ c hj, fun hk => ?_⟩
    have hunder := h.body_under j c hk hp
    rw [hc] at hunder
    cases hunder
  param_leaf p hk :=
    List.eq_nil_iff_forall_not_mem.mpr fun j hj => h.leaf j p (hl.parent_of_mem p j hj) hk

end Tree

theorem Node.Suits.function_of_body {n : Node} {k : NodeKind} {opens : Bool}
    (h : n.Suits k opens) (hn : n.kind = .functionImpl) : k = .function := by
  cases h with
  | body hk _ => exact hk
  | parameter _ hk | argument _ hk | word _ _ hk | call _ hk | list _ hk | block _ hk =>
    rw [hn] at hk
    cases hk
  | declaration hk =>
    rw [hn] at hk
    cases hk

theorem Node.Suits.ne_functionImpl {n : Node} {k : NodeKind} (h : n.Suits k false) :
    n.kind ≠ .functionImpl := by
  intro hn
  cases h with
  | parameter _ hk | argument _ hk | word _ _ hk =>
    rw [hn] at hk
    cases hk

namespace Scanner

variable {s s' : Scanner} {c : Char} {cs : List Char} {opens : Bool} {t' : Tree} {f : Nat}

/-! ### The open scope -/

/-- **The invariant**: bodies are in their places, and the open scope has none. -/
structure Shaped (s : Scanner) : Prop extends s.Sound where
  formed : s.tree.Formed
  accepts : s.tree.Accepts s.cursor

theorem Shaped.congr (hs : s.Shaped) (ht : s'.tree = s.tree) (hc : s'.cursor = s.cursor) :
    s'.Shaped := by
  refine ⟨hs.toSound.congr ht hc, ?_, ?_⟩
  · rw [ht]
    exact hs.formed
  · rw [ht, hc]
    exact hs.accepts

theorem Adds.formed (hs : s.Shaped) (h : s.Adds opens t') : t'.Formed := by
  cases h with
  | nothing hname => exact hname.sameLinks.formed hs.formed
  | child hname hfits hsuits =>
    have hlinks := hname.sameLinks
    refine (hlinks.formed hs.formed).sprout (hlinks.laid hs.laid)
      (hlinks.isOpen hs.isOpen).lt_size hfits (hlinks.accepts hs.accepts) fun hn => ?_
    rw [hlinks.kind?, hs.kind?_eq, hsuits.function_of_body hn]

theorem Adds.accepts (hs : s.Shaped) (h : s.Adds false t') : t'.Accepts s.cursor := by
  cases h with
  | nothing hname => exact hname.sameLinks.accepts hs.accepts
  | child hname hfits hsuits =>
    have hlinks := hname.sameLinks
    exact (hlinks.accepts hs.accepts).sprout (hlinks.isOpen hs.isOpen).lt_size hfits
      hsuits.ne_functionImpl

/-- A scope that has just been opened may get children. -/
theorem Adds.accepts_new (hs : s.Sound) (h : s.Adds true t') : t'.Accepts s.tree.size := by
  cases h with
  | child hname hfits hsuits =>
    have hlinks := hname.sameLinks
    rw [← hlinks.size]
    exact Tree.accepts_sprout_new (hlinks.laid hs.laid) (hlinks.isOpen hs.isOpen).lt_size hfits
      hsuits.ne_functionParam

theorem Adds.hasBody (hs : s.Sound) (h : s.Adds opens t') (hb : s.tree.HasBody f) :
    t'.HasBody f := by
  have hnamed : ∀ {t₁ : Tree}, s.tree.Names s.cursor t₁ → t₁.HasBody f := by
    intro t₁ hname
    obtain ⟨b, hmem, hk⟩ := hb
    have hlinks := hname.sameLinks
    exact ⟨b, by rwa [hlinks.children], by rwa [hlinks.kind?]⟩
  cases h with
  | nothing hname => exact hnamed hname
  | child hname hfits _ =>
    have hlinks := hname.sameLinks
    exact (hnamed hname).sprout (hlinks.laid hs.laid) (hlinks.isOpen hs.isOpen).lt_size hfits

/-- **A scope that is no body closes, and the one around it has no body**: the body would
stand after the scope that closes, which is the last. -/
theorem accepts_popScope (hs : s.Sound) (hf : s.tree.Formed) (hk : s.cursorKind ≠ .functionImpl)
    (h : s.popScope = .ok s') : s'.tree.Accepts s'.cursor := by
  have hp := parent?_of_popScope h
  rw [tree_popScope h]
  refine ⟨hf.leaf _ _ hp, fun b hpb hkb => ?_⟩
  have hle := hf.body_last b _ s.cursor hkb hpb hp
  have hlt := hs.laid.parent_lt _ _ hp
  rcases Nat.eq_or_lt_of_le hle with heq | hgt
  · rw [← heq, hs.kind?_eq] at hkb
    exact hk (Option.some.inj hkb)
  · have := hs.isOpen.later b _ hgt hpb
    omega

/-! ### Symbols -/

theorem cursor_of_opens {sym : Symbol} (h : s.symbol sym = .ok s') (hsym : sym.opens) :
    s'.cursor = s.tree.size := by
  have hsize := s.sameLinks_nameCursorIfPending.size
  cases sym with
  | openParen =>
    rcases openParen_ok h with ⟨-, rfl⟩ | ⟨-, -, rfl⟩
    · rw [cursor_pushScope, hsize]
    · exact s.cursor_pushNamed _ _
  | openBrace =>
    rcases openBrace_ok h with ⟨-, rfl⟩ | ⟨-, rfl⟩ | ⟨-, -, rfl⟩
    · exact (cursor_pushScope _ _ _).trans hsize
    · rw [cursor_pushScope, hsize]
    · exact s.cursor_pushNamed _ _
  | _ => cases hsym

theorem accepts_closeParen (hs : s.Sound) (hf : s'.tree.Formed) (h : s.closeParen = .ok s') :
    s'.tree.Accepts s'.cursor := by
  obtain ⟨s₁, hpop, hcases⟩ := closeParen_ok h
  rw [tree_popScope hpop] at hf
  obtain ⟨hs₁, hscopes, hk⟩ : s₁.Sound ∧ s₁.scopes = s.scopes ∧
      s.cursorKind ≠ .functionImpl := by
    rcases hcases with ⟨hk, -, rfl⟩ | ⟨hk, -, rfl⟩ | ⟨hk, -, rfl⟩
    · exact ⟨hs.reach s.reach_addParameter, hs.scopes_addParameter, by simp [hk]⟩
    · exact ⟨hs.reach s.reach_addArgument, hs.scopes_addArgument, by simp [hk]⟩
    · exact ⟨hs, rfl, by rcases hk with hk | hk <;> simp [hk]⟩
  exact accepts_popScope hs₁ hf (by rwa [hs.cursorKind_of_scopes hs₁ hscopes]) hpop

/-- **The brace that closes a body closes the function with it.** -/
theorem accepts_closeBrace (hs : s.Sound) (hf : s'.tree.Formed) (h : s.closeBrace = .ok s') :
    s'.tree.Accepts s'.cursor := by
  obtain ⟨-, -, s₁, s₂, hpop, rfl, hcases⟩ := closeBrace_ok h
  have hflush := hs.reach s.reach_flushIfPending
  have hs₁ := hflush.popScope hpop
  change s₂.tree.Formed at hf
  change s₂.tree.Accepts s₂.cursor
  rcases hcases with ⟨hbody, hpop'⟩ | ⟨himpl, -, rfl⟩
  · have hk : s₁.cursorKind ≠ .functionImpl := by
      rcases hbody with himpl | ⟨-, htype⟩
      · have hkind := hflush.kind?_eq
        rw [hs.cursorKind_flushIfPending, himpl] at hkind
        have hparent := parent?_of_popScope hpop
        rw [← tree_popScope hpop, ← tree_popScope hpop'] at hkind hparent
        have hfunction := hf.body_under _ _ hkind hparent
        rw [tree_popScope hpop'] at hfunction
        rw [cursorKind_of_kind? hfunction]
        decide
      · intro hk
        rw [hk] at htype
        cases htype
    rw [tree_popScope hpop'] at hf
    exact accepts_popScope hs₁ hf hk hpop'
  · rw [tree_popScope hpop] at hf
    exact accepts_popScope hflush hf (by rwa [hs.cursorKind_flushIfPending]) hpop

theorem accepts_semicolon (hs : s.Shaped) (hf : s'.tree.Formed) (h : s.semicolon = .ok s') :
    s'.tree.Accepts s'.cursor := by
  rcases semicolon_ok h with ⟨hheader, hretire⟩ | ⟨hcall, hlist, -, rfl⟩
  · obtain ⟨s₁, s₂, line, hhoist, hpop, rfl⟩ := retire_ok hretire
    have hheader' := hheader.nameHeader.flushIfPending
    have hs' := hs.toSound.nameHeader.reach s.nameHeader.reach_flushIfPending
    have hs₁ : s₁.Sound := (Move.retire hheader' hhoist).sound hs'
    obtain ⟨hcursor, hhoists⟩ := hoists_of_ok hheader'.1 hhoist
    have hk : s₁.cursorKind = .call := by
      refine cursorKind_of_kind? ?_
      rw [hhoists.kind?, hcursor, if_pos rfl]
    have hnote : (s₁.note line).cursorKind = s₁.cursorKind := by
      rw [cursorKind, tree_note, cursor_note, cursorKind]
    change s₂.tree.Formed at hf
    change s₂.tree.Accepts s₂.cursor
    rw [tree_popScope hpop] at hf
    exact accepts_popScope (hs₁.congr (tree_note _ _) (cursor_note _ _)) hf
      (by rw [hnote, hk]; decide) hpop
  · have haccepts := (adds_flushIfPending hs.toSound hcall hlist).accepts hs
    rw [← cursor_flushIfPending] at haccepts
    exact haccepts

/-- **After a symbol the open scope has no body.** -/
theorem accepts_symbol {sym : Symbol} (hs : s.Shaped) (hf : s'.tree.Formed)
    (h : s.symbol sym = .ok s') : s'.tree.Accepts s'.cursor := by
  cases sym with
  | openParen =>
    rw [cursor_of_opens h rfl]
    exact (adds_openParen hs.toSound h).accepts_new hs.toSound
  | openBrace =>
    rw [cursor_of_opens h rfl]
    exact (adds_openBrace hs.toSound h).accepts_new hs.toSound
  | closeParen => exact accepts_closeParen hs.toSound hf h
  | closeBrace => exact accepts_closeBrace hs.toSound hf h
  | comma =>
    have hcursor : s'.cursor = s.cursor := by
      rcases comma_ok h with ⟨-, -, rfl⟩ | ⟨-, rfl⟩
      · rfl
      · exact s.cursor_addArgument
    rw [hcursor]
    exact (adds_comma hs.toSound h).accepts hs
  | semicolon => exact accepts_semicolon hs hf h
  | openBracket | closeBracket | tab | space | singleQuote | doubleQuote | newline =>
    cases h
    exact hs.accepts

theorem Shaped.takeKeyword (hs : s.Shaped) : s.takeKeyword.Shaped := by
  have hadds := s.adds_takeKeyword
  refine ⟨hs.toSound.reach s.reach_takeKeyword, hadds.formed hs, ?_⟩
  cases h : s.declares with
  | false =>
    obtain ⟨htree, hcursor⟩ := takeKeyword_of_not_declares h
    rw [htree, hcursor]
    exact hs.accepts
  | true =>
    rw [h] at hadds
    obtain ⟨k, kind, line, -, htake⟩ := takeKeyword_of_declares h
    have hcursor : s.takeKeyword.cursor = s.tree.size := by
      rw [htake]
      refine (cursor_pushScope _ _ _).trans ?_
      rw [tree_note]
      rfl
    rw [hcursor]
    exact hadds.accepts_new hs.toSound

/-! ### Characters and texts -/

/-- A header that becomes a call has no body, and what is put below it before is none. -/
theorem Retires.formed (hs : s.Shaped) (h : s.Retires t') : t'.Formed := by
  obtain ⟨-, s₁, s₂, hadds, hcursor, hs₁, hheader₁, hhoist, rfl⟩ := h
  have haccepts := hadds.accepts hs
  rw [← hcursor] at haccepts
  exact (hoists_of_ok hheader₁.1 hhoist).2.formed hs₁.laid (hadds.formed hs) haccepts

theorem Retires.hasBody (hs : s.Shaped) (h : s.Retires t') (hb : s.tree.HasBody f) :
    t'.HasBody f := by
  obtain ⟨-, s₁, s₂, hadds, hcursor, hs₁, hheader₁, hhoist, rfl⟩ := h
  exact (hadds.hasBody hs.toSound hb).hoists (hoists_of_ok hheader₁.1 hhoist).2 hs₁.laid
    (hadds.formed hs) (kind?_cursor hheader₁.1 (by decide))

/-- **A character leaves bodies in their places, and those that there are remain.** -/
theorem Builds.formed (hs : s.Shaped) (h : s.Builds c t') :
    t'.Formed ∧ ∀ f, s.tree.HasBody f → t'.HasBody f := by
  have hkey := hs.takeKeyword
  have hbody := fun f hb => s.adds_takeKeyword.hasBody (f := f) hs.toSound hb
  cases h with
  | text _ => exact ⟨hs.formed, fun f hb => hb⟩
  | symbol _ _ _ hadds =>
    exact ⟨hadds.formed hkey, fun f hb => hadds.hasBody hkey.toSound (hbody f hb)⟩
  | header _ _ hretires =>
    exact ⟨hretires.formed hkey, fun f hb => hretires.hasBody hkey (hbody f hb)⟩

theorem Shaped.scan (hs : s.Shaped) (h : s.scan c = .ok s') : s'.advance.Shaped := by
  have hs' := hs.toSound.scan h
  have hf : s'.tree.Formed := ((builds_of_scan hs.toSound h).formed hs).1
  refine ⟨hs', hf, ?_⟩
  change s'.tree.Accepts s'.cursor
  rw [Scanner.scan] at h
  cases hquote : s.quote with
  | some q =>
    rw [hquote] at h
    dsimp only at h
    split at h <;> cases h <;> exact hs.accepts
  | none =>
    rw [hquote] at h
    cases hc : Symbol.ofChar? c with
    | none =>
      rw [hc] at h
      cases h
      exact hs.accepts
    | some sym =>
      rw [hc] at h
      exact accepts_symbol hs.takeKeyword hf h

/-- **A text leaves bodies in their places, and those that there are remain.** -/
theorem Shaped.feed (hs : s.Shaped) (h : s.feed cs = .ok s') :
    s'.Shaped ∧ ∀ f, s.tree.HasBody f → s'.tree.HasBody f := by
  induction cs generalizing s with
  | nil =>
    cases h
    exact ⟨hs, fun f hb => hb⟩
  | cons c cs ih =>
    obtain ⟨s₁, hc, h⟩ := feed_cons_ok.mp h
    obtain ⟨hs', hrest⟩ := ih (hs.scan hc) h
    have hstep := ((builds_of_scan hs.toSound hc).formed hs).2
    exact ⟨hs', fun f hb => hrest f (hstep f hb)⟩

theorem shaped_start (s : Scanner) (name : String) : (s.start name).Shaped := by
  have hparent : ∀ i, (s.start name).tree.parent? i = none := parent?_empty name _
  have hno : ∀ {i p}, (s.start name).tree.parent? i ≠ some p := by
    intro i p hp
    rw [hparent] at hp
    cases hp
  refine ⟨s.sound_start name, ⟨?_, ?_, ?_⟩, ?_, ?_⟩
  · exact fun b f _ hp => absurd hp hno
  · exact fun b f j _ hp _ => absurd hp hno
  · exact fun j p hp => absurd hp hno
  · exact (by decide : some NodeKind.global ≠ some NodeKind.functionParam)
  · exact fun b hp => absurd hp hno

/-- **The shape of functions at every moment.** After any text that is read without a
failure, functions have their shape, and so they have when the script may end there. A
function with a body is not the open scope, and whatever is read after that, it is a
function with a body still and never the open scope again. -/
theorem functionShape_throughout (s : Scanner) (name : String) (cs : List Char) {s' : Scanner}
    (h : (s.start name).feed cs = .ok s') :
    s'.tree.FunctionShape ∧ (∀ s'', s'.finish = .ok s'' → s''.tree.FunctionShape) ∧
      ∀ f, s'.tree.kind? f = some .function → s'.tree.HasBody f →
        s'.cursor ≠ f ∧ ∀ more s'', (s.start name).feed (cs ++ more) = .ok s'' →
          s''.tree.kind? f = some .function ∧ s''.tree.HasBody f ∧ s''.cursor ≠ f := by
  have hs' := ((s.shaped_start name).feed h).1
  have hcursor : ∀ {x : Scanner} {f : Nat}, x.Shaped → x.tree.HasBody f → x.cursor ≠ f := by
    rintro x f hx hb rfl
    exact hx.accepts.not_hasBody hx.laid.toWellFormed hb
  refine ⟨hs'.formed.functionShape hs'.laid, fun s'' hfinish => ?_, fun f _ hb => ?_⟩
  · have hlaid : s''.tree.Laid := by
      have hfollows := s'.finish_follows
      rw [hfinish] at hfollows
      exact (hs'.toSound.reach hfollows).laid
    exact ((adds_finish hs'.toSound hfinish).formed hs').functionShape hlaid
  · refine ⟨hcursor hs' hb, fun more s'' hmore => ?_⟩
    rw [feed_append, h] at hmore
    obtain ⟨hs'', hkept⟩ := hs'.feed hmore
    have hb'' := hkept f hb
    obtain ⟨b, hp, hk⟩ := hs''.laid.hasBody_iff.mp hb''
    exact ⟨hs''.formed.body_under b f hk hp, hb'', hcursor hs'' hb''⟩

/-- The function with the body, and a header after it that becomes a call. -/
theorem functionShape_throughout_header :
    ∃ s' s'', (({} : Scanner).start "test").feed "function f(a)\x7bx\x7d".toList = .ok s' ∧
      (({} : Scanner).start "test").feed
        ("function f(a)\x7bx\x7d".toList ++ "function g(b);".toList) = .ok s'' ∧
      s'.tree.FunctionShape ∧ s'.tree.HasBody 1 ∧ s'.cursor ≠ 1 ∧
      s''.tree.kind? 1 = some .function ∧ s''.tree.HasBody 1 ∧ s''.cursor ≠ 1 := by
  obtain ⟨s', hfeed, hkind, hbody⟩ : ∃ s', (({} : Scanner).start "test").feed
      "function f(a)\x7bx\x7d".toList = .ok s' ∧ s'.tree.kind? 1 = some .function ∧
        s'.tree.HasBody 1 := ⟨_, rfl, rfl, 4, by decide, rfl⟩
  obtain ⟨s'', hmore⟩ : ∃ s'', (({} : Scanner).start "test").feed
      ("function f(a)\x7bx\x7d".toList ++ "function g(b);".toList) = .ok s'' := ⟨_, rfl⟩
  obtain ⟨hshape, -, hafter⟩ := functionShape_throughout {} "test" _ hfeed
  obtain ⟨hcursor, hlater⟩ := hafter 1 hkind hbody
  exact ⟨s', s'', hfeed, hmore, hshape, hbody, hcursor, hlater _ s'' hmore⟩

end Scanner

end ScopeScript
