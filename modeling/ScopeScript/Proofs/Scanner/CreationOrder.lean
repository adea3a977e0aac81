import ScopeScript.Proofs.Scanner.Growth
import ScopeScript.Proofs.Tree.Walk

/-!
# Nodes are met in the order in which they were made

A node gets its index when it is made, and a walk finds it by way of its parent. The two
go together: **a walk of a parsed tree meets the nodes in the order of their indices,
each of them once** (`ScopeScript.Scanner.walk_in_creation_order`). Left out are the
parameter lists of headers that became calls, and nothing else. For these the theorem
does not look at the tree, where one can tell them by their parents; it looks at the
source, for the semicolon that ended the header (`ScopeScript.Scanner.Empties`).

That the order is right is a matter of the tree alone (`ScopeScript.Tree.Laid.walk_eq`).
Which nodes are left out is followed through the scan: with every character the detached
nodes stay the same, or a list is emptied and joins them
(`ScopeScript.Scanner.isDetached_scan`).
-/

namespace ScopeScript

namespace Tree

variable {t : Tree} {i p : Nat}

/-! ### The way up -/

theorem WellFormed.ancestors_of_parent? (h : t.WellFormed) (hp : t.parent? i = some p) :
    t.ancestors i = p :: t.ancestors p := by
  rw [ancestors, hp]
  exact if_pos (h.parent_lt i p hp)

theorem ancestors_of_orphan (hp : t.parent? i = none) : t.ancestors i = [] := by
  rw [ancestors, hp]

/-- **On the way up indices get smaller.** -/
theorem WellFormed.ancestors_decreasing (h : t.WellFormed) (i : Nat) :
    (i :: t.ancestors i).Pairwise (· > ·) := by
  induction i using Nat.strongRecOn with
  | ind i ih =>
    cases hp : t.parent? i with
    | none =>
      rw [ancestors_of_orphan hp]
      exact List.pairwise_singleton _ _
    | some p =>
      have hlt := h.parent_lt i p hp
      have hup := ih p hlt
      rw [h.ancestors_of_parent? hp]
      refine List.pairwise_cons.mpr ⟨fun j hj => ?_, hup⟩
      rcases List.mem_cons.mp hj with rfl | hj
      · exact hlt
      · exact Nat.lt_trans ((List.pairwise_cons.mp hup).1 j hj) hlt

/-- **The way up ends at the root.** -/
theorem WellFormed.ancestors_end (h : t.WellFormed) (hi : i < t.size) :
    (i :: t.ancestors i).getLast? = some 0 := by
  induction i using Nat.strongRecOn with
  | ind i ih =>
    cases hp : t.parent? i with
    | none =>
      obtain rfl := (h.orphan_iff i hi).mp hp
      rw [ancestors_of_orphan hp]
      rfl
    | some p =>
      have hlt := h.parent_lt i p hp
      rw [h.ancestors_of_parent? hp, List.getLast?_cons_cons]
      exact ih p hlt (Nat.lt_trans hlt hi)

end Tree

namespace Scanner

variable {s s' : Scanner} {c : Char} {cs : List Char} {i : Nat}

/-! ### Lists that are emptied -/

/-- **A semicolon empties the parameter list `i`**: outside quotes it ends a header with
that list, which becomes a call. -/
structure Empties (i : Nat) (s : Scanner) (c : Char) : Prop where
  /-- It is a semicolon. -/
  semicolon : c = ';'
  /-- It stands outside quotes. -/
  unquoted : s.quote = none
  /-- The open scope is a function header without a body. -/
  header : s.takeKeyword.IsHeader
  /-- The list is that of the header. -/
  list : s.takeKeyword.tree.childOfKind? s.takeKeyword.cursor .functionParams = some i

/-- A character that is collected, or ends a quotation, empties no list. -/
theorem not_empties_of_text (hplain : s.quote.isSome ∨ Symbol.ofChar? c = none) :
    ¬Empties i s c := by
  rintro ⟨hc, hquote, -, -⟩
  exact not_semicolon_of_text hplain ⟨hc, hquote⟩

/-- Nor does a symbol that ends no header. -/
theorem not_empties_of_symbol {sym : Symbol} (hc : Symbol.ofChar? c = some sym)
    (hheader : ¬(sym = .semicolon ∧ s.takeKeyword.IsHeader)) : ¬Empties i s c := by
  rintro ⟨hsemicolon, -, hyes, -⟩
  exact not_header_of_symbol hc hheader ⟨hsemicolon, hyes⟩

theorem empties_iff_of_header (hquote : s.quote = none) (hc : c = ';')
    (hheader : s.takeKeyword.IsHeader) :
    Empties i s c ↔
      s.takeKeyword.tree.childOfKind? s.takeKeyword.cursor .functionParams = some i :=
  ⟨fun h => h.list, fun hlist => ⟨hc, hquote, hheader, hlist⟩⟩

/-- **A list that is emptied is detached from then on**, and nothing else ever is. -/
theorem isDetached_scan (hs : s.Sound) (h : s.scan c = .ok s') :
    s'.tree.IsDetached i ↔ s.tree.IsDetached i ∨ Empties i s c := by
  have hkey := hs.reach s.reach_takeKeyword
  have hbefore : s.takeKeyword.tree.IsDetached i ↔ s.tree.IsDetached i :=
    s.adds_takeKeyword.isDetached hs i
  have hbuilds := builds_of_scan hs h
  generalize s'.tree = t' at hbuilds
  cases hbuilds with
  | text hplain => simp [not_empties_of_text hplain]
  | symbol hquote hc hheader hadds =>
    rw [hadds.isDetached hkey, hbefore]
    simp [not_empties_of_symbol hc hheader]
  | header hquote hc hretires =>
    obtain ⟨hheader, s₁, s₂, hadds, hcursor, hs₁, hheader₁, hhoist, rfl⟩ := hretires
    have hhoists := (hoists_of_ok hheader₁.1 hhoist).2
    rw [hhoists.isDetached_iff hs₁.laid (kind?_cursor hheader₁.1 (by decide)), hcursor,
      hadds.list hkey, hadds.isDetached hkey, hbefore, empties_iff_of_header hquote hc hheader]

/-- **The detached nodes are the lists that were emptied on the way.** -/
theorem isDetached_feed (hs : s.Sound) (h : s.feed cs = .ok s') :
    s'.tree.IsDetached i ↔ s.tree.IsDetached i ∨ s.Meets (Empties i) cs :=
  (iff_meets (P := fun t => t.IsDetached i)
    (fun hs hc => ⟨hs.scan hc, isDetached_scan hs hc⟩) hs h).2

/-! ### Whole sources -/

theorem isDetached_parse {name source : String} (h : s.parse name (some source) = .ok s') :
    s'.tree.IsDetached i ↔ (s.start name).Meets (Empties i) source.toList := by
  obtain ⟨s₁, s₂, hfeed, hfinish, rfl⟩ := parse_ok h
  have hstart := s.sound_start name
  have hs₁ := hstart.feed hfeed
  have hnone : ¬(s.start name).tree.IsDetached i := not_isDetached_empty _ _ i
  rw [tree_noteTree, (adds_finish hs₁ hfinish).isDetached hs₁, isDetached_feed hstart hfeed]
  simp [hnone]

/-- **Creation order is pre-order.** Where a parse succeeds, a walk of the tree meets the
nodes in the order of their indices, each of them once. It leaves out the parameter lists
that were emptied where a header became a call, which have no children, and no other node.
From every node that it meets, the way up leads to the root along smaller and smaller
indices. -/
theorem walk_in_creation_order (s : Scanner) (name source : String) {s' : Scanner}
    (h : s.parse name (some source) = .ok s') :
    ((s'.tree.walk 0).Pairwise (· < ·) ∧ (s'.tree.walk 0).Nodup ∧
        ∀ i, i ∈ s'.tree.walk 0 ↔
          i < s'.tree.size ∧ ¬(s.start name).Meets (Empties i) source.toList) ∧
      (∀ i, (s.start name).Meets (Empties i) source.toList →
        i < s'.tree.size ∧ s'.tree.kind? i = some .functionParams ∧ s'.tree.children i = []) ∧
      ∀ i ∈ s'.tree.walk 0,
        (i ≠ 0 → (s'.tree.ancestors i).getLast? = some 0) ∧ (s'.tree.ancestors i).Nodup ∧
          (i :: s'.tree.ancestors i).Pairwise (· > ·) := by
  have hsound := s.sound_parse name source
  rw [h] at hsound
  have hlaid : s'.tree.Laid := hsound.laid
  have hwell := hlaid.toWellFormed
  refine ⟨⟨hlaid.walk_increasing, hlaid.walk_increasing.imp Nat.ne_of_lt, fun i => ?_⟩,
    fun i hmeets => ?_, fun i hi => ⟨fun hne => ?_, ?_, ?_⟩⟩
  · rw [hwell.mem_walk, isDetached_parse h]
  · have hdetached := (isDetached_parse h).mpr hmeets
    exact ⟨Tree.lt_size_of_kind? hdetached.1, hdetached.1, hwell.childless i hdetached⟩
  · have hsize := (hwell.mem_walk.mp hi).1
    obtain ⟨p, hp⟩ := hwell.exists_parent (Nat.pos_of_ne_zero hne) hsize
    rw [hwell.ancestors_of_parent? hp]
    exact hwell.ancestors_end (Nat.lt_trans (hwell.parent_lt i p hp) hsize)
  · exact (List.pairwise_cons.mp (hwell.ancestors_decreasing i)).2.imp Nat.ne_of_gt
  · exact hwell.ancestors_decreasing i

/-- Of the two lists, that of the header which becomes a call is left out. -/
theorem walk_in_creation_order_header :
    ∃ s', ({} : Scanner).parse "test" (some "function f(a)\x7b\x7dfunction g('b', c);") = .ok s' ∧
      s'.tree.walk 0 = [0, 1, 2, 3, 4, 5, 7, 8] ∧
      (({} : Scanner).start "test").Meets (Empties 6)
        "function f(a)\x7b\x7dfunction g('b', c);".toList ∧
      ¬(({} : Scanner).start "test").Meets (Empties 2)
        "function f(a)\x7b\x7dfunction g('b', c);".toList ∧
      (s'.tree.ancestors 8).getLast? = some 0 := by
  obtain ⟨s', hparse, hsize, hwalk⟩ : ∃ s', ({} : Scanner).parse "test"
      (some "function f(a)\x7b\x7dfunction g('b', c);") = .ok s' ∧ s'.tree.size = 9 ∧
        s'.tree.walk 0 = [0, 1, 2, 3, 4, 5, 7, 8] := ⟨_, rfl, rfl, by decide +kernel⟩
  obtain ⟨⟨-, -, hmem⟩, -, hup⟩ := walk_in_creation_order {} "test" _ hparse
  rw [hwalk] at hmem hup
  refine ⟨s', hparse, hwalk, ?_, ((hmem 2).mp (by decide)).2, (hup 8 (by decide)).1 (by decide)⟩
  by_contra hnever
  have hsix := (hmem 6).mpr ⟨by rw [hsize]; decide, hnever⟩
  revert hsix
  decide

end Scanner

end ScopeScript
