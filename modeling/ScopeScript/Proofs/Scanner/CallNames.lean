import ScopeScript.Proofs.Scanner.Parameters

/-!
# The names of calls

A call is made in one of two ways. An opening parenthesis makes one of the word before
it, and fails if that is blank or empty, so that such a call always has a name. A
semicolon makes one of a function header without a body, whatever its name may be: the
name that it was given before its parameters, or else the word before the semicolon, or
else none at all.

So a parsed tree may hold calls without a name
(`ScopeScript.Scanner.not_forall_callsNamed`). **These are the headers that had no name
where a semicolon ended them, and no others**: for every node it can be told from the
source whether it is such a call (`ScopeScript.Scanner.unnamed_parse`).

That a call keeps the name it was made with needs an invariant of its own. Where a header
becomes a call, all that its list holds become arguments, also the calls among them; and
an argument that was quoted loses its name. Calls and declarations are never quoted, even
where the words that name them are (`ScopeScript.Tree.Unquoted`).
-/

namespace ScopeScript

namespace Tree

/-- **A call without a name**: it has none, or an empty one. -/
def Unnamed (t : Tree) (i : Nat) : Prop :=
  ∃ n, t.node? i = some n ∧ n.kind = .call ∧ n.name.getD "" = ""

/-- **Calls and declarations are not quoted.** -/
def Unquoted (t : Tree) : Prop :=
  ∀ i n, t.node? i = some n → n.kind = .call ∨ n.kind.isDeclaration → n.quoted = false

end Tree

theorem Node.Suits.unquoted {n : Node} {k : NodeKind} {opens : Bool} (h : n.Suits k opens)
    (hk : n.kind = .call ∨ n.kind.isDeclaration) : n.quoted = false := by
  cases h with
  | call _ _ _ hquoted => exact hquoted
  | declaration _ hquoted => exact hquoted
  | parameter _ hn | argument _ hn | word _ _ hn | list _ hn | body _ hn | block _ hn =>
    rw [hn] at hk
    rcases hk with hk | hk <;> cases hk

/-- A call that is put into a tree has a name. -/
theorem Node.Suits.named {n : Node} {k : NodeKind} {opens : Bool} (h : n.Suits k opens)
    (hk : n.kind = .call) : n.name.getD "" ≠ "" := by
  cases h with
  | call _ _ hname =>
    obtain ⟨text, hne, htext⟩ := hname
    rwa [htext, Option.getD_some]
  | declaration hn =>
    rw [hk] at hn
    cases hn
  | parameter _ hn | argument _ hn | word _ _ hn | list _ hn | body _ hn | block _ hn =>
    rw [hk] at hn
    cases hn

namespace Scanner

variable {s s' : Scanner} {c : Char} {cs : List Char} {opens : Bool} {t' : Tree} {i : Nat}

/-! ### What is added to a tree -/

theorem unquoted_of_adds (hs : s.Sound) (h : s.Adds opens t') (hq : s.tree.Unquoted) :
    t'.Unquoted := by
  intro i n hn hk
  rcases h.node_cases hs hn with ⟨m, hm, hsame, -⟩ | ⟨-, -, hsuits⟩
  · rw [hsame] at hk ⊢
    exact hq i m hm hk
  · exact hsuits.unquoted hk

/-- **Nothing that is added is a call without a name**, and no call is given another
name. -/
theorem unnamed_of_adds (hs : s.Sound) (h : s.Adds opens t') (i : Nat) :
    t'.Unnamed i ↔ s.tree.Unnamed i := by
  constructor
  · rintro ⟨n, hn, hk, hname⟩
    rcases h.node_cases hs hn with ⟨m, hm, hsame, hold | hdeclares⟩ | ⟨-, -, hsuits⟩
    · rw [hsame] at hk
      rw [hold] at hname
      exact ⟨m, hm, hk, hname⟩
    · rw [hsame] at hk
      rw [hk] at hdeclares
      cases hdeclares
    · exact absurd hname (hsuits.named hk)
  · rintro ⟨m, hm, hk, hname⟩
    have hlt := Tree.lt_size_of_node? hm
    have hkind := h.kind? hs hlt
    rw [Tree.kind?_of_node? hm, hk] at hkind
    obtain ⟨n, hn, hkn⟩ := Option.map_eq_some_iff.mp hkind
    refine ⟨n, hn, hkn, ?_⟩
    rcases h.node_cases hs hn with ⟨m', hm', -, hold | hdeclares⟩ | ⟨hnew, -⟩
    · obtain rfl := Option.some.inj (hm.symm.trans hm')
      rwa [hold]
    · obtain rfl := Option.some.inj (hm.symm.trans hm')
      rw [hk] at hdeclares
      cases hdeclares
    · omega

/-! ### Headers that become calls -/

/-- **Where a header becomes a call, any other node keeps its kind**, and its name unless
it was quoted. -/
theorem Sound.hoisted_cases (hs : s.Sound) (hk : s.cursorKind = .function)
    (h : s.asCall.hoistParameters s.cursor = .ok s') {n : Node} (hn : s'.tree.node? i = some n)
    (hi : i ≠ s.cursor) (hlist : n.kind ≠ .functionParams) :
    ∃ m, s.tree.node? i = some m ∧ n.kind = m.kind ∧ n.quoted = m.quoted ∧
      (m.quoted = false → n.name = m.name) := by
  have hother : s.tree.childOfKind? s.cursor .functionParams ≠ some i := by
    intro hl
    have hkind := (hoists_of_ok hk h).2.kind? i
    rw [if_neg hi, Tree.kind?_of_childOfKind? hl, Tree.kind?_of_node? hn] at hkind
    exact hlist (Option.some.inj hkind)
  rw [hs.node?_hoisted hk h hi hother] at hn
  split at hn
  · obtain ⟨m, hm, rfl⟩ := Option.map_eq_some_iff.mp hn
    exact ⟨m, hm, rfl, rfl, fun hquoted => by simp [Node.asArgument, hquoted]⟩
  · exact ⟨n, hn, rfl, rfl, fun _ => rfl⟩

/-- The header is a function until then. -/
theorem Sound.exists_header (hs : s.Sound) (hk : s.cursorKind = .function) :
    ∃ m, s.tree.node? s.cursor = some m ∧ m.kind = .function := by
  have hkind := hs.kind?_eq
  rw [hk] at hkind
  exact Option.map_eq_some_iff.mp hkind

theorem unquoted_of_hoisted (hs : s.Sound) (hk : s.cursorKind = .function)
    (h : s.asCall.hoistParameters s.cursor = .ok s') (hq : s.tree.Unquoted) :
    s'.tree.Unquoted := by
  intro i n hn hkn
  by_cases hi : i = s.cursor
  · obtain ⟨m, hm, hkm⟩ := hs.exists_header hk
    rw [hi, hs.node?_header hk h, hm] at hn
    cases hn
    exact hq s.cursor m hm (Or.inr (by rw [hkm]; rfl))
  · have hlist : n.kind ≠ .functionParams := by
      intro hl
      rw [hl] at hkn
      rcases hkn with hkn | hkn <;> cases hkn
    obtain ⟨m, hm, hkind, hquoted, -⟩ := hs.hoisted_cases hk h hn hi hlist
    rw [hkind] at hkn
    rw [hquoted]
    exact hq i m hm hkn

/-- **A header that becomes a call has a name just if it had one before**, and the calls
in its list keep theirs. -/
theorem unnamed_of_hoisted (hs : s.Sound) (hk : s.cursorKind = .function)
    (h : s.asCall.hoistParameters s.cursor = .ok s') (hq : s.tree.Unquoted) (i : Nat) :
    s'.tree.Unnamed i ↔ s.tree.Unnamed i ∨ i = s.cursor ∧ s.cursorName.getD "" = "" := by
  obtain ⟨f, hf, hkf⟩ := hs.exists_header hk
  have hname : s.cursorName = f.name := by rw [cursorName, hf, Option.bind_some]
  by_cases hi : i = s.cursor
  · have hnot : ¬s.tree.Unnamed i := by
      rintro ⟨m, hm, hkm, -⟩
      rw [hi, hf] at hm
      cases hm
      rw [hkf] at hkm
      cases hkm
    have hcall := hs.node?_header hk h
    rw [hf, Option.map_some] at hcall
    rw [hname]
    constructor
    · rintro ⟨n, hn, -, hempty⟩
      rw [hi, hcall] at hn
      cases hn
      exact Or.inr ⟨hi, hempty⟩
    · rintro (hbefore | ⟨-, hempty⟩)
      · exact absurd hbefore hnot
      · rw [← hi] at hcall
        exact ⟨_, hcall, rfl, hempty⟩
  · constructor
    · rintro ⟨n, hn, hkn, hempty⟩
      obtain ⟨m, hm, hkind, -, hsame⟩ := hs.hoisted_cases hk h hn hi (by simp [hkn])
      rw [hkind] at hkn
      rw [hsame (hq i m hm (Or.inl hkn))] at hempty
      exact Or.inl ⟨m, hm, hkn, hempty⟩
    · rintro (⟨m, hm, hkm, hempty⟩ | ⟨heq, -⟩)
      · have hkind := (hoists_of_ok hk h).2.kind? i
        rw [if_neg hi, Tree.kind?_of_node? hm, hkm] at hkind
        obtain ⟨n, hn, hkn⟩ := Option.map_eq_some_iff.mp hkind
        obtain ⟨m', hm', -, -, hsame⟩ := hs.hoisted_cases hk h hn hi (by simp [hkn])
        obtain rfl := Option.some.inj (hm.symm.trans hm')
        rw [← hsame (hq i m hm (Or.inl hkm))] at hempty
        exact ⟨n, hn, hkn, hempty⟩
      · exact absurd heq hi

/-! ### The name of a header -/

/-- **The name of a header where a semicolon ends it**: its own, or else the word before
the semicolon. -/
def headerName (s : Scanner) : Option String :=
  s.cursorName.or (if s.word.isPending then some s.word.literal else none)

theorem Sound.cursorName_nameHeader (hs : s.Sound) : s.nameHeader.cursorName = s.headerName := by
  obtain ⟨n, hn⟩ := Tree.exists_node? hs.isOpen.lt_size
  rw [Scanner.nameHeader, headerName]
  cases hname : s.cursorName with
  | some name => exact hname
  | none =>
    rw [Option.isNone_none, if_pos rfl, nameCursorIfPending, Option.none_or]
    split
    · change ((s.tree.modify s.cursor s.word.entitle).node? s.cursor).bind (·.name) = _
      rw [Tree.node?_modify_self, hn]
      rfl
    · exact hname

theorem Sound.cursorName_flushIfPending (hs : s.Sound) :
    s.flushIfPending.cursorName = s.cursorName := by
  have hlt := hs.isOpen.lt_size
  obtain ⟨n, hn⟩ := Tree.exists_node? hlt
  rw [flushIfPending]
  split
  · rw [cursorName, cursorName, tree_flushWord_eq hs, cursor_flushWord, Tree.node?_sprout hlt,
      if_neg (Nat.ne_of_lt hlt), if_pos rfl, hn]
    rfl
  · rfl

/-- **A semicolon that ends a header** makes a call without a name just if the header has
none. -/
theorem unnamed_semicolon (hs : s.Sound) (hq : s.tree.Unquoted) (hheader : s.IsHeader)
    (h : s.semicolon = .ok s') (i : Nat) :
    s'.tree.Unnamed i ↔ s.tree.Unnamed i ∨ i = s.cursor ∧ s.headerName.getD "" = "" := by
  have hnamed := hs.nameHeader
  have hadds := adds_flushHeader hs hheader.1
  have hflushed := hnamed.reach s.nameHeader.reach_flushIfPending
  rw [semicolon_of_header hheader] at h
  obtain ⟨s₁, s₂, line, hhoist, hpop, rfl⟩ := retire_ok h
  have htree : s₂.endStatement.tree = s₁.tree := (tree_popScope hpop).trans (tree_note _ _)
  rw [htree, unnamed_of_hoisted hflushed hheader.nameHeader.flushIfPending.1 hhoist
    (unquoted_of_adds hs hadds hq), unnamed_of_adds hs hadds, cursor_flushIfPending,
    cursor_nameHeader, hnamed.cursorName_flushIfPending, hs.cursorName_nameHeader]

/-! ### Characters and sources -/

/-- **A semicolon ends the header `i`, which has no name**: outside quotes, where the
header was given none before its parameters and no word stands before the semicolon, or
only an empty one. -/
structure EndsUnnamed (i : Nat) (s : Scanner) (c : Char) : Prop where
  /-- It is a semicolon. -/
  semicolon : c = ';'
  /-- It stands outside quotes. -/
  unquoted : s.quote = none
  /-- The open scope is a function header without a body. -/
  header : s.takeKeyword.IsHeader
  /-- It is the node of that index. -/
  cursor : s.takeKeyword.cursor = i
  /-- It has no name, or an empty one. -/
  unnamed : s.takeKeyword.headerName.getD "" = ""

/-- Every character leaves calls and declarations unquoted. -/
theorem unquoted_scan (hs : s.Sound) (h : s.scan c = .ok s') (hq : s.tree.Unquoted) :
    s'.tree.Unquoted := by
  have hkey := hs.reach s.reach_takeKeyword
  have hbefore := unquoted_of_adds hs s.adds_takeKeyword hq
  have hbuilds := builds_of_scan hs h
  generalize s'.tree = t' at hbuilds
  cases hbuilds with
  | text hplain => exact hq
  | symbol hquote hc hheader hadds => exact unquoted_of_adds hkey hadds hbefore
  | header hquote hc hretires =>
    obtain ⟨hheader, s₁, s₂, hadds, hcursor, hs₁, hheader₁, hhoist, rfl⟩ := hretires
    exact unquoted_of_hoisted hs₁ hheader₁.1 hhoist (unquoted_of_adds hkey hadds hbefore)

/-- **A character makes a call without a name just if it ends a header without a name.** -/
theorem unnamed_scan (hs : s.Sound) (hq : s.tree.Unquoted) (h : s.scan c = .ok s') :
    s'.tree.Unnamed i ↔ s.tree.Unnamed i ∨ EndsUnnamed i s c := by
  have hkey := hs.reach s.reach_takeKeyword
  have hbefore : s.takeKeyword.tree.Unnamed i ↔ s.tree.Unnamed i :=
    unnamed_of_adds hs s.adds_takeKeyword i
  have hbuilds := builds_of_scan hs h
  generalize htree : s'.tree = t' at hbuilds
  cases hbuilds with
  | text hplain =>
    have hnot : ¬EndsUnnamed i s c :=
      fun hends => not_semicolon_of_text hplain ⟨hends.semicolon, hends.unquoted⟩
    simp [hnot]
  | symbol hquote hc hheader hadds =>
    have hnot : ¬EndsUnnamed i s c :=
      fun hends => not_header_of_symbol hc hheader ⟨hends.semicolon, hends.header⟩
    rw [unnamed_of_adds hkey hadds, hbefore]
    simp [hnot]
  | header hquote hc hretires =>
    have hheader := hretires.header
    have hsemicolon : s.takeKeyword.semicolon = .ok s' := by
      rw [scan, hquote, hc] at h
      exact h
    rw [← htree, unnamed_semicolon hkey (unquoted_of_adds hs s.adds_takeKeyword hq) hheader
      hsemicolon, hbefore]
    refine or_congr_right ⟨?_, ?_⟩
    · rintro ⟨hi, hempty⟩
      exact ⟨hc, hquote, hheader, hi.symm, hempty⟩
    · rintro ⟨-, -, -, hi, hempty⟩
      exact ⟨hi.symm, hempty⟩

theorem unquoted_start (s : Scanner) (name : String) : (s.start name).tree.Unquoted := by
  intro i n hn hk
  rw [eq_of_node?_start hn] at hk
  rcases hk with hk | hk <;> cases hk

/-- **The calls without a name in a parsed tree are the headers without a name** that a
semicolon has ended. -/
theorem unnamed_parse {name source : String} (h : s.parse name (some source) = .ok s') :
    s'.tree.Unnamed i ↔ (s.start name).Meets (EndsUnnamed i) source.toList := by
  obtain ⟨s₁, s₂, hfeed, hfinish, rfl⟩ := parse_ok h
  have hnone : ¬(s.start name).tree.Unnamed i := by
    rintro ⟨n, hn, hk, -⟩
    rw [eq_of_node?_start hn] at hk
    cases hk
  have hstep : ∀ {s : Scanner} {c s'}, s.Sound ∧ s.tree.Unquoted → s.scan c = .ok s' →
      (s'.advance.Sound ∧ s'.advance.tree.Unquoted) ∧
        (s'.tree.Unnamed i ↔ s.tree.Unnamed i ∨ EndsUnnamed i s c) := by
    rintro s c s' ⟨hs, hq⟩ hc
    have hnext : s'.tree.Unquoted := unquoted_scan hs hc hq
    exact ⟨⟨hs.scan hc, hnext⟩, unnamed_scan hs hq hc⟩
  obtain ⟨⟨hs₁, -⟩, hiff⟩ :=
    iff_meets (P := fun t => t.Unnamed i) hstep ⟨s.sound_start name, s.unquoted_start name⟩ hfeed
  rw [tree_noteTree, unnamed_of_adds hs₁ (adds_finish hs₁ hfinish), hiff]
  simp [hnone]

/-- **Not every call in a parsed tree has a name.** -/
theorem not_forall_callsNamed :
    ¬∀ (name source : String) (s' : Scanner), ({} : Scanner).parse name (some source) = .ok s' →
      ∀ i, ¬s'.tree.Unnamed i := by
  intro h
  exact h "test" "function;" _ rfl 1 ⟨_, rfl, rfl, rfl⟩

end Scanner

end ScopeScript
