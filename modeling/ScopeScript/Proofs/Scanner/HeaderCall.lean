import ScopeScript.Proofs.Scanner.Parameters
import ScopeScript.Proofs.Scanner.ReadBack

/-!
# Headers are another way to write calls

`f(a, 'b');` is a call, and so is `function f(a, 'b');`, a header that ends without a body.
The two are built in different ways. In the first an argument gets its value where it is
read; in the second it is a parameter with a name and no value, in a list of its own, until
the semicolon turns the header into a call, moves the parameters up to it and makes their
names their values. **What comes out is the same** (`ScopeScript.Scanner.headerCall_eq_call`):
the same outline of the tree, with the same scopes open and no keyword pending.

The arena of the second tree has one node more, the emptied list, which nothing leads to.
So trees are compared by what can be seen from an old node: two trees in which the same
outlines were put below one node have the same outline
(`ScopeScript.Tree.Extends.outline_eq`), wherever the new nodes are.
-/

namespace ScopeScript

namespace Tree

variable {t t' t₁ t₂ : Tree} {p i j : Nat} {cs cs₁ cs₂ : List Nat} {os : List Outline}

/-! ### Trees in which nodes were put below a node -/

/-- **The nodes `cs` were put below `p`**, after the children that it had, and no other node
of before has changed. There may be more new nodes than can be reached. -/
structure Extends (t : Tree) (p : Nat) (cs : List Nat) (t' : Tree) : Prop where
  size_le : t.size ≤ t'.size
  root : t'.node? p = (t.node? p).map fun n => { n with children := n.children ++ cs }
  rest : ∀ j < t.size, j ≠ p → t'.node? j = t.node? j
  fresh : ∀ c ∈ cs, t.size ≤ c ∧ c < t'.size

namespace Extends

theorem label (h : t.Extends p cs t') (hj : j < t.size) : t'.label j = t.label j := by
  rw [Tree.label, Tree.label]
  by_cases hjp : j = p
  · rw [hjp, h.root, Option.map_map]
    rfl
  · rw [h.rest j hj hjp]

theorem kind? (h : t.Extends p cs t') (hj : j < t.size) : t'.kind? j = t.kind? j := by
  rw [Tree.kind?, Tree.kind?]
  by_cases hjp : j = p
  · rw [hjp, h.root, Option.map_map]
    rfl
  · rw [h.rest j hj hjp]

theorem parent? (h : t.Extends p cs t') (hj : j < t.size) : t'.parent? j = t.parent? j := by
  rw [Tree.parent?, Tree.parent?]
  by_cases hjp : j = p
  · rw [hjp, h.root]
    cases t.node? p <;> rfl
  · rw [h.rest j hj hjp]

theorem children (h : t.Extends p cs t') (hj : j < t.size) :
    t'.children j = t.children j ++ if j = p then cs else [] := by
  obtain ⟨n, hn⟩ := exists_node? hj
  by_cases hjp : j = p
  · subst hjp
    have hroot := h.root
    rw [hn] at hroot
    rw [if_pos rfl, children_of_node? hroot, children_of_node? hn]
  · rw [if_neg hjp, List.append_nil, Tree.children, h.rest j hj hjp, hn, children_of_node? hn]

/-- The new children stand after the old nodes, so that a walk meets them. -/
theorem below (h : t.Extends p cs t') (hw : t.WellFormed) (hj : j < t.size) :
    t'.below j = t.children j ++ if j = p then cs else [] := by
  rw [Tree.below, h.children hj]
  refine List.filter_eq_self.mpr fun c hc => ?_
  have hsize := h.size_le
  have hlt : j < c ∧ c < t'.size := by
    rcases List.mem_append.mp hc with hold | hnew
    · have := hw.lt_of_mem hold
      have := hw.lt_size_of_mem hold
      omega
    · split at hnew
      · have := h.fresh c hnew
        omega
      · cases hnew
  simpa using hlt

/-- The kinds along the way up from an old node stay as they are. -/
theorem lineage (h : t.Extends p cs t') (hw : t.WellFormed) (hj : j < t.size) :
    t'.lineage j = t.lineage j :=
  lineage_congr hw.parent_lt (fun _ hi => h.kind? (Nat.lt_of_le_of_lt hi hj)) fun _ hi =>
    h.parent? (Nat.lt_of_le_of_lt hi hj)

/-- **Where the same outlines were put below one node, the trees have the same outline.** -/
theorem outline_eq (hw : t.WellFormed) (h₁ : t.Extends p cs₁ t₁) (h₂ : t.Extends p cs₂ t₂)
    (hcs : cs₁.map t₁.outline = cs₂.map t₂.outline) (hi : i < t.size) :
    t₁.outline i = t₂.outline i := by
  -- by induction on how many nodes stand after `i`
  induction hn : t.size - i using Nat.strongRecOn generalizing i with
  | ind n ih =>
    have hold : (t.children i).map t₁.outline = (t.children i).map t₂.outline := by
      refine List.map_congr_left fun c hc => ?_
      have hlt := hw.lt_of_mem hc
      have hsize := hw.lt_size_of_mem hc
      exact ih (t.size - c) (by omega) hsize rfl
    rw [Tree.outline_eq, Tree.outline_eq, h₁.label hi, h₂.label hi, h₁.below hw hi, h₂.below hw hi,
      List.map_append, List.map_append, hold]
    split
    · rw [hcs]
    · rfl

end Extends

/-- A tree that has grown outlines has their nodes below the node where they grew. -/
theorem Grown.extends (h : t.Grown p os t') : t.Extends p (Outline.indices t.size os) t' where
  size_le := by
    rw [h.size]
    omega
  root := h.root
  rest := h.rest
  fresh _ hc := mem_indices_of_standAt h.fresh hc

end Tree

/-! ### Parameters that become arguments -/

namespace Atom

theorem asArgument_parameter (a : Atom) (place : Location) (p : Option Nat) (call : Nat) :
    Node.asArgument call
        (Label.toNode { kind := .functionParam, name := some a.text, quoted := a.quoted }
          place p [])
      = (a.label .functionParam).toNode place (some call) [] :=
  rfl

/-- Parameters stand where nodes with names are. -/
theorem exists_name_of_standAt {t : Tree} {l i j : Nat} {args : List Atom}
    (h : Outline.StandAt t l i (args.map parameter))
    (hj : j ∈ Outline.indices i (args.map parameter)) : (t.name? j).isSome := by
  induction args generalizing i with
  | nil => cases hj
  | cons a args ih =>
    obtain ⟨⟨⟨place, hnode⟩, -⟩, hrest⟩ := h
    rcases List.mem_cons.mp hj with rfl | hj
    · rw [Tree.name?, hnode]
      rfl
    · exact ih hrest hj

/-- **Parameters that are made arguments stand there as arguments**, in the same nodes. -/
theorem standAt_asArgument {t t' : Tree} {l f i : Nat} {args : List Atom}
    (h : Outline.StandAt t l i (args.map parameter))
    (hnode : ∀ j ∈ Outline.indices i (args.map parameter),
      t'.node? j = (t.node? j).map (Node.asArgument f)) :
    Outline.StandAt t' f i (args.map (·.outline .functionParam)) ∧
      Outline.indices i (args.map (·.outline .functionParam))
        = Outline.indices i (args.map parameter) := by
  induction args generalizing i with
  | nil => exact ⟨trivial, rfl⟩
  | cons a args ih =>
    obtain ⟨⟨⟨place, ha⟩, -⟩, hrest⟩ := h
    obtain ⟨hstand, hindices⟩ := ih hrest fun j hj => hnode j (List.mem_cons_of_mem i hj)
    refine ⟨⟨⟨⟨place, ?_⟩, trivial⟩, hstand⟩, congrArg (i :: ·) hindices⟩
    rw [hnode i List.mem_cons_self, ha]
    exact congrArg some (a.asArgument_parameter place (some l) f)

end Atom

namespace Argument

theorem renderEach_atoms (args : List Atom) :
    renderEach (args.map atom) = args.map Atom.render := by
  induction args with
  | nil => rfl
  | cons a args ih => rw [List.map_cons, renderEach, ih, render, List.map_cons]

theorem outlines_atoms (args : List Atom) :
    outlines (args.map atom) = args.map (·.outline .functionParam) := by
  induction args with
  | nil => rfl
  | cons a args ih => simp [outlines, outline, isCall, ih]

end Argument

namespace Scanner

open Standing

variable {s s' : Scanner} {x y : Standing}

/-- **An outline was put below the open scope**, which is still the open one, and the
statement has ended. -/
structure HasPut (x : Standing) (o : Outline) (s : Scanner) : Prop where
  /-- The same scope is open. -/
  cursor : s.cursor = x.cursor
  /-- The first new node was put below it. -/
  tree : x.tree.Extends x.cursor [x.tree.size] s.tree
  /-- What begins there is the outline. -/
  outline : s.tree.outline x.tree.size = o
  /-- No keyword is pending. -/
  keywords : s.keywords = []

/-! ### The semicolon behind a header -/

theorem keywords_semicolon (h : s.semicolon = .ok s') : s'.keywords = [] := by
  rcases semicolon_ok h with ⟨-, hretire⟩ | ⟨-, -, -, rfl⟩
  · obtain ⟨s₁, s₂, line, -, -, rfl⟩ := retire_ok hretire
    rfl
  · rfl

/-- A semicolon behind a word or quoted text, or behind none. -/
theorem feed_semicolon (hs : s.StandsIn x) :
    s.feed ";".toList = s.semicolon.andThen fun s' => .ok s'.advance := by
  have hscan : s.scan ';' = s.semicolon := by
    rw [scan, hs.quote]
    exact congrArg semicolon hs.takeKeyword
  change (s.scan ';').andThen (fun s' => s'.advance.feed []) = _
  rw [hscan]
  rfl

theorem keywords_feed_semicolon (hs : s.StandsIn x) (h : s.feed ";".toList = .ok s') :
    s'.keywords = [] := by
  rw [feed_semicolon hs] at h
  obtain ⟨s₁, hsemi, h⟩ := Scanned.andThen_ok.mp h
  cases h
  exact (keywords_semicolon hsemi :)

section Header

variable {name : BareWord} {args : List Atom} {place : Location}

/-- A header `f` with a list of parameters, and nothing else: the node of the header, that of
the list, and the parameters in it. -/
structure HeaderAt (t : Tree) (p f : Nat) (name : BareWord) (args : List Atom) : Prop where
  header : ∃ place, t.node? f = some
    (Label.toNode { kind := .function, name := some name.text } place (some p) [f + 1])
  list : ∃ place, t.node? (f + 1) = some
    (Label.toNode { kind := .functionParams } place (some f)
      (Outline.indices (f + 1 + 1) (args.map Atom.parameter)))
  parameters : Outline.StandAt t (f + 1) (f + 1 + 1) (args.map Atom.parameter)

theorem headerAt_of_grows (hx : x.cursor < x.tree.size)
    (hy : (x.opened { kind := .function, name := some name.text } place).Grows
      [.node { kind := .functionParams } (args.map Atom.parameter)] x.tree.size y) :
    HeaderAt y.tree x.cursor x.tree.size name args := by
  have hsize : (x.opened { kind := .function, name := some name.text } place).tree.size
      = x.tree.size + 1 := Tree.size_sprout _ _ _
  have hroot := hy.grown.root
  have hfresh := hy.grown.fresh
  rw [hsize] at hroot hfresh
  obtain ⟨⟨⟨place', hlist⟩, hparams⟩, -⟩ := hfresh
  refine ⟨⟨place, ?_⟩, ⟨place', hlist⟩, hparams⟩
  refine hroot.trans ?_
  rw [opened, Tree.node?_sprout_new hx]
  rfl

namespace HeaderAt

variable {t : Tree} {p f : Nat} (h : HeaderAt t p f name args)

include h

theorem kind? : t.kind? f = some .function := by
  obtain ⟨place, hnode⟩ := h.header
  exact Tree.kind?_of_node? hnode

theorem children : t.children f = [f + 1] := by
  obtain ⟨place, hnode⟩ := h.header
  exact Tree.children_of_node? hnode

theorem kind?_list : t.kind? (f + 1) = some .functionParams := by
  obtain ⟨place, hnode⟩ := h.list
  exact Tree.kind?_of_node? hnode

theorem childOfKind?_list : t.childOfKind? f .functionParams = some (f + 1) := by
  rw [Tree.childOfKind?, h.children]
  simp [h.kind?_list]

theorem childOfKind?_body : t.childOfKind? f .functionImpl = none := by
  rw [Tree.childOfKind?, h.children]
  simp [h.kind?_list]

theorem listed : t.listed f = Outline.indices (f + 1 + 1) (args.map Atom.parameter) := by
  obtain ⟨place, hnode⟩ := h.list
  rw [Tree.listed_eq h.childOfKind?_list]
  exact Tree.children_of_node? hnode

end HeaderAt

/-- **A header with a list of parameters becomes a call with these arguments.** -/
theorem outline_of_hoisted {f : Nat} {p : Nat} (hs : s.Sound) (hcursor : s.cursor = f)
    (h : HeaderAt s.tree p f name args) (hhoist : s.asCall.hoistParameters f = .ok s') :
    s'.tree.outline f = name.callOf (args.map (·.outline .functionParam)) := by
  subst hcursor
  have hk : s.cursorKind = .function := cursorKind_of_kind? h.kind?
  have hhoists := (hoists_of_ok hk hhoist).2
  have hs' := hhoists.wellFormed hs.laid h.kind?
  obtain ⟨place, hnode⟩ := h.header
  have hchildren : s'.tree.children s.cursor = s.tree.listed s.cursor := by
    rw [hhoists.children, if_pos rfl, h.children, h.childOfKind?_list]
    simp
  have hlabel : s'.tree.label s.cursor = { kind := .call, name := some name.text } := by
    rw [Tree.label, hs.node?_header hk hhoist, hnode]
    rfl
  -- the parameters are in their nodes still, as arguments
  have hmoved : ∀ j ∈ Outline.indices (s.cursor + 1 + 1) (args.map Atom.parameter),
      s'.tree.node? j = (s.tree.node? j).map (Node.asArgument s.cursor) := by
    intro j hj
    rw [← h.listed] at hj
    have hlist : s.tree.childOfKind? s.cursor .functionParams ≠ some j := by
      intro hlist
      exact hs.laid.kind?_of_mem_listed hj (Tree.kind?_of_childOfKind? hlist)
    rw [hs.node?_hoisted hk hhoist (Nat.ne_of_gt (hs.lt_of_mem_listed hj).1) hlist, if_pos hj]
  obtain ⟨hstand, hindices⟩ := Atom.standAt_asArgument h.parameters hmoved
  rw [Tree.outline_eq, hlabel, hs'.below_eq_children, hchildren, h.listed, ← hindices,
    Tree.outlines_of_standAt hstand]
  rfl

/-- **The semicolon behind a header makes it a call**, which is put where the header was. -/
theorem feed_semicolon_of_header (hs : s.Sound) (hstands : s.StandsIn y)
    (hx : x.cursor < x.tree.size)
    (hy : (x.opened { kind := .function, name := some name.text } place).Grows
      [.node { kind := .functionParams } (args.map Atom.parameter)] x.tree.size y) :
    ∃ s', s.feed ";".toList = .ok s' ∧
      HasPut x (name.callOf (args.map (·.outline .functionParam))) s' := by
  have hcursor : s.cursor = x.tree.size := hstands.cursor.trans hy.cursor
  have hat : HeaderAt s.tree x.cursor x.tree.size name args := by
    rw [hstands.tree]
    exact headerAt_of_grows hx hy
  rw [← hcursor] at hat
  have hheader : s.IsHeader := ⟨cursorKind_of_kind? hat.kind?, hat.childOfKind?_body⟩
  -- the header has its name, and no word is left over
  have hnamed : s.nameHeader.flushIfPending = s := by
    obtain ⟨place', hnode⟩ := hat.header
    rw [nameHeader, cursorName, hnode, if_neg (by simp [Label.toNode]),
      hstands.flushIfPending_none hy.word]
  obtain ⟨s₁, hhoist⟩ := (hoistParameters_ok_iff hheader.1 (hs.nodup_listed s.cursor)).mpr
    fun j hj => Atom.exists_name_of_standAt hat.parameters (hat.listed ▸ hj)
  obtain ⟨hcursor₁, hhoists⟩ := hoists_of_ok hheader.1 hhoist
  have hparent : s₁.tree.parent? s.cursor = some x.cursor := by
    obtain ⟨place', hnode⟩ := hat.header
    rw [hhoists.parent?, if_neg (hs.laid.not_mem_listed (Nat.le_refl _)),
      Tree.parent?_of_node? hnode]
    rfl
  have hstands₁ : ∀ line, (s₁.note line).StandsIn { tree := s₁.tree, cursor := s.cursor } := by
    intro line
    refine ⟨tree_note _ _, (cursor_note _ _).trans hcursor₁, ?_, ?_⟩
    · rw [quote_note, quote_hoistParameters hhoist]
      exact hstands.quote
    · rw [word_note, word_hoistParameters hhoist]
      exact hstands.word_is hy.word
  obtain ⟨s₂, hpop, hs₂⟩ := (hstands₁ _).popScope rfl hparent
  refine ⟨s₂.endStatement.advance, ?_, hs₂.cursor, ?_, ?_, rfl⟩
  · rw [feed_semicolon hstands, semicolon_of_header hheader, hnamed, retire, hhoist,
      Scanned.andThen, hpop]
    rfl
  · -- what stands before the header has not changed since it was opened, but for its parent
    change x.tree.Extends x.cursor [x.tree.size] s₂.tree
    rw [hs₂.tree]
    have hbefore : ∀ j < x.tree.size, s₁.tree.node? j
        = (x.opened { kind := .function, name := some name.text } place).tree.node? j := by
      intro j hj
      have hlt : j < (x.opened { kind := .function, name := some name.text } place).tree.size :=
        lt_size_opened hj _ place
      have hne : j ≠ (x.opened { kind := .function, name := some name.text } place).cursor :=
        Nat.ne_of_lt hj
      rw [hs.node?_hoistParameters hheader.1 hhoist (hcursor ▸ hj), hstands.tree,
        hy.grown.rest j hlt hne]
    have hsize : x.tree.size < s₁.tree.size := by
      rw [hhoists.size, ← hcursor]
      exact hs.isOpen.lt_size
    refine ⟨Nat.le_of_lt hsize, ?_, fun j hj hne => ?_, fun c hc => ?_⟩
    · rw [hbefore _ hx, opened, Tree.node?_sprout hx, if_neg (Nat.ne_of_lt hx), if_pos rfl]
    · rw [hbefore j hj, opened, Tree.node?_sprout_of_ne hx _ hj hne]
    · obtain rfl := List.mem_singleton.mp hc
      exact ⟨Nat.le_refl _, hsize⟩
  · change s₂.tree.outline x.tree.size = _
    rw [hs₂.tree, ← hcursor]
    exact outline_of_hoisted hs rfl hat hhoist

end Header

/-! ### The two ways to write a call -/

section Call

variable (name : BareWord) (args : List Atom) (hstands : s.StandsIn x) (hword : x.word = none)
  {k : NodeKind} (hk : x.tree.kind? x.cursor = some k) (hst : k.holdsStatements)

include hstands hword hk hst

theorem hasPut_of_call :
    ∃ s', s.feed (name.text ++ "(" ++ ",".intercalate (args.map Atom.render) ++ ")" ++ ";").toList
        = .ok s' ∧
      HasPut x (name.callOf (args.map (·.outline .functionParam))) s' := by
  have hfun := NodeKind.ne_function_of_holdsStatements hst
  have hcall := leads_call (w := name) hword hk hfun fun y hy hky hpy =>
    leads_arguments (args.map .atom) hy hky hpy
  rw [Argument.renderEach_atoms, Argument.outlines_atoms] at hcall
  obtain ⟨s₁, y, hfeed, hs₁, hy⟩ := hcall s hstands
  obtain ⟨s₂, z, hsemi, hs₂, hz⟩ := leads_semicolon (hy.kind? hk) hst s₁ hs₁
  -- the parenthesis has used up everything, and the semicolon adds nothing
  rw [hy.word, hy.cursor] at hz
  have hgrown := (hy.andThen (Tree.lt_size_of_kind? hk) hz).grown
  refine ⟨s₂, ?_, hs₂.cursor.trans hz.cursor, ?_, ?_, keywords_feed_semicolon hs₁ hsemi⟩
  · rw [String.toList_append, feed_append, hfeed]
    exact hsemi
  · rw [hs₂.tree]
    exact hgrown.extends
  · rw [hs₂.tree]
    exact (List.cons.inj (Tree.outlines_of_standAt hgrown.fresh)).1

omit hst in
theorem hasPut_of_header (hs : s.Sound) :
    ∃ s', s.feed ("function " ++ name.text ++ "(" ++
        ",".intercalate (args.map Atom.render) ++ ")" ++ ";").toList = .ok s' ∧
      HasPut x (name.callOf (args.map (·.outline .functionParam))) s' := by
  have hlt := Tree.lt_size_of_kind? hk
  obtain ⟨s₁, y, hfeed, hs₁, place, hy⟩ := leads_header name args hword hlt s hstands
  obtain ⟨s₂, hsemi, hput⟩ := feed_semicolon_of_header (hs.feed hfeed) hs₁ hlt hy
  refine ⟨s₂, ?_, hput⟩
  rw [String.toList_append, feed_append, hfeed]
  exact hsemi

end Call

/-- What was put below the open scope is its last child. -/
theorem HasPut.last {o : Outline} (h : HasPut x o s) (hx : x.cursor < x.tree.size) :
    ∃ c, (s.tree.children s.cursor).getLast? = some c ∧ s.tree.outline c = o := by
  refine ⟨x.tree.size, ?_, h.outline⟩
  rw [h.cursor, h.tree.children hx, if_pos rfl, List.getLast?_concat]

/-- **A header call is a plain call.** Where statements can stand, no quote is open and no
word has been begun, a call may be written with `function` in front of it: the tree has the
same outline, with the call as the last child of the open scope, the same scopes are open,
and no keyword is pending in either case. -/
theorem headerCall_eq_call (s : Scanner) (script context : String) (name : BareWord)
    (args : List Atom) {s₀ : Scanner} (hread : (s.start script).feed context.toList = .ok s₀)
    (hquote : s₀.quote = none) (hword : s₀.word.text = "" ∧ s₀.word.quoted = false)
    (hkind : s₀.cursorKind.holdsStatements) :
    ∃ s₁ s₂,
      (s.start script).feed (context ++ (name.text ++ "(" ++
        ",".intercalate (args.map Atom.render) ++ ")" ++ ";")).toList = .ok s₁ ∧
      (s.start script).feed (context ++ ("function " ++ name.text ++ "(" ++
        ",".intercalate (args.map Atom.render) ++ ")" ++ ";")).toList = .ok s₂ ∧
      s₁.tree.outline 0 = s₂.tree.outline 0 ∧
      (∀ r ∈ [s₁, s₂], ∃ c, (r.tree.children r.cursor).getLast? = some c ∧
        r.tree.outline c = name.callOf (args.map (·.outline .functionParam))) ∧
      ∀ r ∈ [s₁, s₂],
        r.cursorKind = s₀.cursorKind ∧ r.scopes = s₀.scopes ∧ r.keywords = [] := by
  have hs₀ := (s.sound_start script).feed hread
  set x : Standing := { tree := s₀.tree, cursor := s₀.cursor }
  have hstands : s₀.StandsIn x := ⟨rfl, rfl, hquote, hword⟩
  have hlt : x.cursor < x.tree.size := hs₀.isOpen.lt_size
  obtain ⟨s₁, hcall, hput₁⟩ := hasPut_of_call name args hstands rfl hs₀.kind?_eq hkind
  obtain ⟨s₂, hheader, hput₂⟩ := hasPut_of_header name args hstands rfl hs₀.kind?_eq hs₀
  have hscopes : ∀ {r : Scanner} {o : Outline}, HasPut x o r →
      r.cursorKind = s₀.cursorKind ∧ r.scopes = s₀.scopes ∧ r.keywords = [] := by
    intro r o hput
    refine ⟨?_, ?_, hput.keywords⟩
    · rw [cursorKind, hput.cursor, hput.tree.kind? hlt, cursorKind]
    · rw [scopes, hput.cursor, hput.tree.lineage hs₀.laid.toWellFormed hlt, scopes]
  refine ⟨s₁, s₂, ?_, ?_, ?_, ?_, ?_⟩
  · rw [String.toList_append, feed_append, hread]
    exact hcall
  · rw [String.toList_append, feed_append, hread]
    exact hheader
  · refine hput₁.tree.outline_eq hs₀.laid.toWellFormed hput₂.tree ?_ hs₀.laid.size_pos
    rw [List.map_singleton, List.map_singleton, hput₁.outline, hput₂.outline]
  · simpa using ⟨hput₁.last hlt, hput₂.last hlt⟩
  · simpa using ⟨hscopes hput₁, hscopes hput₂⟩

/-- With a bare word and an empty text between quotes, in a block. The header leaves its list
behind, so that the trees differ in size. -/
theorem headerCall_eq_call_quoted :
    ∃ s₁ s₂, (({} : Scanner).start "test").feed "\x7bf(a,'');".toList = .ok s₁ ∧
      (({} : Scanner).start "test").feed "\x7bfunction f(a,'');".toList = .ok s₂ ∧
      s₁.tree.outline 0 = s₂.tree.outline 0 ∧ s₁.scopes = [.none, .global] ∧
      s₂.scopes = [.none, .global] ∧ s₁.tree.size = 5 ∧ s₂.tree.size = 6 := by
  have hfree : ∀ k : Keyword, k.text ≠ "f" ∧ k.text ≠ "a" := by
    intro k
    cases k <;> decide
  let f : BareWord := ⟨"f", by decide, plain_of_all rfl, by decide, fun k => (hfree k).1⟩
  let a : BareWord := ⟨"a", by decide, plain_of_all rfl, by decide, fun k => (hfree k).2⟩
  let q : Quotation := ⟨.singleQuote, rfl, "", by decide⟩
  obtain ⟨s₀, hread, hquote, hword, hkind, hscopes⟩ : ∃ s₀,
      (({} : Scanner).start "test").feed "\x7b".toList = .ok s₀ ∧ s₀.quote = none ∧
        (s₀.word.text = "" ∧ s₀.word.quoted = false) ∧ s₀.cursorKind.holdsStatements ∧
        s₀.scopes = [.none, .global] := ⟨_, rfl, rfl, ⟨rfl, rfl⟩, rfl, by decide +kernel⟩
  obtain ⟨s₁, s₂, h₁, h₂, houtline, -, hend⟩ :=
    headerCall_eq_call {} "test" "\x7b" f [.word a, .quotation q] hread hquote hword hkind
  obtain ⟨r₁, hr₁, hsize₁⟩ : ∃ r, (({} : Scanner).start "test").feed "\x7bf(a,'');".toList
      = .ok r ∧ r.tree.size = 5 := ⟨_, rfl, rfl⟩
  obtain ⟨r₂, hr₂, hsize₂⟩ : ∃ r, (({} : Scanner).start "test").feed
      "\x7bfunction f(a,'');".toList = .ok r ∧ r.tree.size = 6 := ⟨_, rfl, rfl⟩
  obtain rfl : s₁ = r₁ := Scanned.ok.inj (h₁.symm.trans hr₁)
  obtain rfl : s₂ = r₂ := Scanned.ok.inj (h₂.symm.trans hr₂)
  refine ⟨s₁, s₂, h₁, h₂, houtline, ?_, ?_, hsize₁, hsize₂⟩
  · exact (hend s₁ (by simp)).2.1.trans hscopes
  · exact (hend s₂ (by simp)).2.1.trans hscopes

end Scanner

end ScopeScript
