import ScopeScript.Proofs.Scanner.CreationOrder

/-!
# Parameters and arguments

The same kind of node stands for a parameter of a function and for an argument of a call.
A parameter has a name and stands in a parameter list; an argument has its text for its
value and stands in a call. **Nothing else is ever made of such a node**
(`ScopeScript.Tree.Placed`), also where a header becomes a call and its parameters become
arguments.

The converse is another matter. One would expect a parameter list to hold parameters and
nothing else, and `ScopeScript.Scanner.not_forall_listsHoldParameters` shows that it does
not: while a list is open, brackets and keywords still open scopes, and these end up in
the list. **This is the only way in which a list can go wrong, and it goes wrong unless
the list is emptied later** (`ScopeScript.Scanner.listsHoldParameters_iff`).
-/

namespace ScopeScript

/-- What is put in a list is a scope just if it is no parameter. -/
theorem Node.Suits.opens_iff {n : Node} {k : NodeKind} {opens : Bool} (h : n.Suits k opens)
    (hk : k = .functionParams) : opens = true ↔ n.kind ≠ .functionParam := by
  cases opens with
  | true => exact iff_of_true rfl h.ne_functionParam
  | false =>
    refine iff_of_false Bool.false_ne_true fun hn => ?_
    cases h with
    | parameter _ hkind | argument _ hkind => exact hn hkind
    | word _ hlist => exact hlist hk

namespace Tree

variable {t t' : Tree} {f i j l p : Nat} {n : Node}

/-- **Every parameter list holds parameters only**, and each has a name. -/
def ListsHoldParameters (t : Tree) : Prop :=
  ∀ l j, t.kind? l = some .functionParams → j ∈ t.children l →
    t.kind? j = some .functionParam ∧ (t.name? j).isSome

/-- A parameter list holds something that is no parameter. -/
def HoldsScope (t : Tree) (l : Nat) : Prop :=
  t.kind? l = some .functionParams ∧ ∃ j ∈ t.children l, t.kind? j ≠ some .functionParam

/-- **Parameters stand in lists, and arguments in calls.** -/
def Placed (t : Tree) : Prop :=
  ∀ i n, t.node? i = some n → n.kind = .functionParam → ∃ p, n.parent = some p ∧
    (t.kind? p = some .functionParams ∧ n.name.isSome ∨ t.kind? p = some .call ∧ n.IsArgument)

/-! ### Scopes in lists -/

theorem SameLinks.holdsScope (h : SameLinks t t') (l : Nat) :
    t'.HoldsScope l ↔ t.HoldsScope l := by
  simp only [HoldsScope, h.kind?, h.children]

/-- A new node makes a difference to the list it is put in only. -/
theorem holdsScope_sprout (h : t.WellFormed) (hp : p < t.size) (hn : n.children = []) (l : Nat) :
    (t.sprout p n).HoldsScope l ↔
      t.HoldsScope l ∨ p = l ∧ t.kind? p = some .functionParams ∧ n.kind ≠ .functionParam := by
  have hold : ∀ i < t.size, (t.sprout p n).kind? i = t.kind? i :=
    fun i hi => kind?_sprout_of_lt hp n hi
  have hnew : (t.sprout p n).kind? t.size = some n.kind := by rw [kind?_sprout hp, if_pos rfl]
  constructor
  · rintro ⟨hk, j, hj, hkj⟩
    rw [children_sprout hp hn] at hj
    split at hj
    · rename_i hlp
      rw [hlp, hold p hp] at hk
      rcases List.mem_append.mp hj with hj | hj
      · rw [hold j (h.lt_size_of_mem hj)] at hkj
        exact Or.inl (hlp ▸ ⟨hk, j, hj, hkj⟩)
      · rw [List.mem_singleton.mp hj, hnew] at hkj
        exact Or.inr ⟨hlp.symm, hk, fun hkind => hkj (congrArg some hkind)⟩
    · have hsize := h.lt_size_of_mem hj
      rw [hold l (Nat.lt_trans (h.lt_of_mem hj) hsize)] at hk
      rw [hold j hsize] at hkj
      exact Or.inl ⟨hk, j, hj, hkj⟩
  · rintro (⟨hk, j, hj, hkj⟩ | ⟨rfl, hk, hkind⟩)
    · refine ⟨by rw [hold l (lt_size_of_kind? hk), hk], j, ?_, ?_⟩
      · rw [children_sprout hp hn]
        split
        · rename_i hlp
          exact List.mem_append_left _ (hlp ▸ hj)
        · exact hj
      · rwa [hold j (h.lt_size_of_mem hj)]
    · refine ⟨by rw [hold p hp, hk], t.size, ?_, ?_⟩
      · rw [children_sprout hp hn, if_pos rfl]
        exact List.mem_append_right _ (List.mem_singleton.mpr rfl)
      · rw [hnew]
        exact fun hsome => hkind (Option.some.inj hsome)

/-- A header that becomes a call takes what its list held, and no other list changes. -/
theorem Hoists.holdsScope (h : t.Hoists t' f) (hf : t.kind? f = some .function) (l : Nat) :
    t'.HoldsScope l ↔ t.HoldsScope l ∧ t.childOfKind? f .functionParams ≠ some l := by
  have hkind : ∀ j, t'.kind? j ≠ some .functionParam ↔ t.kind? j ≠ some .functionParam := by
    intro j
    rw [h.kind?]
    split
    · rename_i hj
      rw [hj, hf]
      simp
    · rfl
  by_cases hlf : l = f
  · refine iff_of_false ?_ ?_
    · rintro ⟨hk, -⟩
      rw [h.kind?, if_pos hlf] at hk
      cases hk
    · rintro ⟨⟨hk, -⟩, -⟩
      rw [hlf, hf] at hk
      cases hk
  · simp only [HoldsScope, hkind]
    rw [h.kind?, if_neg hlf, h.children, if_neg hlf]
    by_cases hlist : t.childOfKind? f .functionParams = some l
    · simp [hlist]
    · simp [hlist]

end Tree

namespace Scanner

variable {s s' : Scanner} {c : Char} {cs : List Char} {opens : Bool} {t' : Tree} {l : Nat}

/-- **A scope is opened in the parameter list `l`**: outside quotes, by a bracket or by a
keyword. -/
structure OpensIn (l : Nat) (s : Scanner) (c : Char) : Prop where
  /-- The character stands outside quotes. -/
  unquoted : s.quote = none
  /-- The list is the open scope. -/
  cursor : s.cursor = l
  /-- It is a list. -/
  list : s.cursorKind = .functionParams
  /-- A symbol ends a keyword that opens a scope, or is a bracket that does. -/
  opened : (Symbol.ofChar? c).isSome ∧ s.declares ∨ c = '(' ∨ c = '{'

/-- **A list holds more than parameters once a scope is opened in it**, and not before. -/
theorem Adds.holdsScope (hs : s.Sound) (h : s.Adds opens t') (l : Nat) :
    t'.HoldsScope l ↔
      s.tree.HoldsScope l ∨ opens = true ∧ s.cursor = l ∧ s.cursorKind = .functionParams := by
  cases h with
  | nothing hname => simp [hname.sameLinks.holdsScope l]
  | @child t₁ n _ hname hfits hsuits =>
    have hlinks := hname.sameLinks
    have hkind : t₁.kind? s.cursor = some s.cursorKind := by rw [hlinks.kind?, hs.kind?_eq]
    rw [Tree.holdsScope_sprout (hlinks.laid hs.laid).toWellFormed
      (hlinks.isOpen hs.isOpen).lt_size hfits.children, hlinks.holdsScope, hkind,
      Option.some.injEq]
    refine or_congr_right ⟨?_, ?_⟩
    · rintro ⟨hl, hlist, hn⟩
      exact ⟨(hsuits.opens_iff hlist).mpr hn, hl, hlist⟩
    · rintro ⟨hopens, hl, hlist⟩
      exact ⟨hl, hlist, (hsuits.opens_iff hlist).mp hopens⟩

theorem holdsScope_takeKeyword (hs : s.Sound) (l : Nat) :
    s.takeKeyword.tree.HoldsScope l ↔
      s.tree.HoldsScope l ∨
        s.declares = true ∧ s.cursor = l ∧ s.cursorKind = .functionParams :=
  s.adds_takeKeyword.holdsScope hs l

/-- A scope that a keyword has opened is no list. -/
theorem cursorKind_takeKeyword_iff (hs : s.Sound) :
    s.takeKeyword.cursor = l ∧ s.takeKeyword.cursorKind = .functionParams ↔
      s.declares = false ∧ s.cursor = l ∧ s.cursorKind = .functionParams := by
  cases hdeclares : s.declares with
  | true =>
    refine iff_of_false ?_ (by simp)
    rintro ⟨-, hlist⟩
    have hkind := isDeclaration_of_declares hs hdeclares
    rw [hlist] at hkind
    cases hkind
  | false =>
    obtain ⟨htree, hcursor⟩ := takeKeyword_of_not_declares hdeclares
    simp [cursorKind, htree, hcursor]

/-- Of a symbol outside quotes it is easily said whether it opens a scope in a list. -/
theorem opensIn_iff {sym : Symbol} (hquote : s.quote = none) (hc : Symbol.ofChar? c = some sym) :
    OpensIn l s c ↔ (s.declares = true ∨ sym.opens = true) ∧ s.cursor = l ∧
      s.cursorKind = .functionParams := by
  constructor
  · rintro ⟨-, hcursor, hlist, ⟨-, hdeclares⟩ | rfl | rfl⟩
    · exact ⟨Or.inl hdeclares, hcursor, hlist⟩
    · obtain rfl := Option.some.inj hc
      exact ⟨Or.inr rfl, hcursor, hlist⟩
    · obtain rfl := Option.some.inj hc
      exact ⟨Or.inr rfl, hcursor, hlist⟩
  · rintro ⟨hdeclares | hopens, hcursor, hlist⟩
    · exact ⟨hquote, hcursor, hlist, Or.inl ⟨by rw [hc]; rfl, hdeclares⟩⟩
    · have hchar := eq_char_of_ofChar? hc
      refine ⟨hquote, hcursor, hlist, Or.inr ?_⟩
      cases sym with
      | openParen => exact Or.inl hchar
      | openBrace => exact Or.inr hchar
      | _ => cases hopens

/-- A character that is collected, or ends a quotation, opens no scope. -/
theorem not_opensIn_of_text (hplain : s.quote.isSome ∨ Symbol.ofChar? c = none) :
    ¬OpensIn l s c := by
  rintro ⟨hquote, -, -, hopened⟩
  rcases hplain with hsome | hnone
  · rw [hquote] at hsome
    cases hsome
  · rcases hopened with ⟨hsome, -⟩ | rfl | rfl
    · rw [hnone] at hsome
      cases hsome
    · cases hnone
    · cases hnone

/-- **What a character does to the lists**: a scope that is opened in a list stands there
until the list is emptied. -/
theorem holdsScope_scan (hs : s.Sound) (h : s.scan c = .ok s') :
    s'.tree.HoldsScope l ↔ (s.tree.HoldsScope l ∨ OpensIn l s c) ∧ ¬Empties l s c := by
  have hkey := hs.reach s.reach_takeKeyword
  have hbuilds := builds_of_scan hs h
  generalize s'.tree = t' at hbuilds
  cases hbuilds with
  | text hplain => simp [not_opensIn_of_text hplain, not_empties_of_text hplain]
  | symbol hquote hc hheader hadds =>
    rw [hadds.holdsScope hkey, cursorKind_takeKeyword_iff hs, holdsScope_takeKeyword hs,
      opensIn_iff hquote hc]
    cases s.declares <;> simp [not_empties_of_symbol hc hheader]
  | header hquote hc hretires =>
    obtain ⟨hheader, s₁, s₂, hadds, hcursor, hs₁, hheader₁, hhoist, rfl⟩ := hretires
    have hhoists := (hoists_of_ok hheader₁.1 hhoist).2
    have hopens : OpensIn l s c ↔
        s.declares = true ∧ s.cursor = l ∧ s.cursorKind = .functionParams := by
      rw [hc, opensIn_iff hquote rfl]
      simp [Symbol.opens]
    rw [hhoists.holdsScope (kind?_cursor hheader₁.1 (by decide)), hcursor, hadds.list hkey,
      hadds.holdsScope hkey, holdsScope_takeKeyword hs, empties_iff_of_header hquote hc hheader,
      hopens]
    simp

/-- **What a text does to the lists.** A list that holds a scope held it before or has had
it opened on the way, and what was opened in a list still stands there, unless the list
was emptied. -/
theorem holdsScope_feed (hs : s.Sound) (h : s.feed cs = .ok s') :
    (s'.tree.HoldsScope l → s.tree.HoldsScope l ∨ s.Meets (OpensIn l) cs) ∧
      (s.tree.HoldsScope l ∨ s.Meets (OpensIn l) cs →
        s'.tree.HoldsScope l ∨ s'.tree.IsDetached l) := by
  induction cs generalizing s with
  | nil =>
    cases h
    simp only [not_meets_nil, or_false]
    exact ⟨id, Or.inl⟩
  | cons c cs ih =>
    obtain ⟨s₁, hc, h⟩ := feed_cons_ok.mp h
    have hs₁ := hs.scan hc
    have htree : s₁.advance.tree = s₁.tree := rfl
    obtain ⟨hback, hforth⟩ := ih hs₁ h
    rw [htree, holdsScope_scan hs hc] at hback hforth
    rw [meets_cons hc]
    constructor
    · intro hholds
      rcases hback hholds with ⟨hbefore | hopens, -⟩ | hmeets
      · exact Or.inl hbefore
      · exact Or.inr (Or.inl hopens)
      · exact Or.inr (Or.inr hmeets)
    · rw [← or_assoc]
      rintro (hnow | hmeets)
      · -- a list that is emptied stays detached, whatever follows
        by_cases hempties : Empties l s c
        · have hdetached := (isDetached_scan hs hc).mpr (Or.inr hempties)
          exact Or.inr ((isDetached_feed hs₁ h).mpr (Or.inl hdetached))
        · exact hforth (Or.inl ⟨hnow, hempties⟩)
      · exact hforth (Or.inr hmeets)

/-! ### Parameters in lists, and arguments in calls -/

theorem Adds.kind? (hs : s.Sound) (h : s.Adds opens t') {i : Nat} (hi : i < s.tree.size) :
    t'.kind? i = s.tree.kind? i := by
  cases h with
  | nothing hname => exact hname.sameLinks.kind? i
  | child hname hfits _ =>
    have hlinks := hname.sameLinks
    rw [Tree.kind?_sprout_of_lt (hlinks.isOpen hs.isOpen).lt_size _ (hlinks.size ▸ hi)]
    exact hlinks.kind? i

/-- **A node is new, or was there before** and has changed in nothing but what stands below
it, and in its name if it is a declaration. -/
theorem Adds.node_cases (hs : s.Sound) (h : s.Adds opens t') {i : Nat} {n : Node}
    (hn : t'.node? i = some n) :
    (∃ m, s.tree.node? i = some m ∧ n = { m with name := n.name, children := n.children } ∧
        (n.name = m.name ∨ m.kind.isDeclaration)) ∨
      i = s.tree.size ∧ n.parent = some s.cursor ∧ n.Suits s.cursorKind opens := by
  -- only the open scope is named, and only if it is a declaration
  have hnames : ∀ {t₁ : Tree} {m : Node}, s.tree.Names s.cursor t₁ → t₁.node? i = some m →
      ∃ m₀, s.tree.node? i = some m₀ ∧ m = { m₀ with name := m.name } ∧
        (m.name = m₀.name ∨ m₀.kind.isDeclaration) := by
    intro t₁ m hname hm
    cases hname with
    | still => exact ⟨m, hm, rfl, Or.inl rfl⟩
    | named w hkind =>
      rw [Tree.node?_modify] at hm
      split at hm
      · rename_i hi
        obtain ⟨m₀, hm₀, rfl⟩ := Option.map_eq_some_iff.mp hm
        exact ⟨m₀, hm₀, rfl, Or.inr (hkind m₀.kind (Tree.kind?_of_node? (hi ▸ hm₀)))⟩
      · exact ⟨m, hm, rfl, Or.inl rfl⟩
  cases h with
  | nothing hname =>
    obtain ⟨m, hm, hsame, hor⟩ := hnames hname hn
    exact Or.inl ⟨m, hm, by rw [hsame], hor⟩
  | @child t₁ m _ hname hfits hsuits =>
    have hlinks := hname.sameLinks
    rw [Tree.node?_sprout (hlinks.isOpen hs.isOpen).lt_size] at hn
    split at hn
    · rename_i hi
      cases hn
      exact Or.inr ⟨hi.trans hlinks.size, hfits.parent, hsuits⟩
    · split at hn
      · rename_i hi
        obtain ⟨m₁, hm₁, rfl⟩ := Option.map_eq_some_iff.mp hn
        obtain ⟨m₀, hm₀, hsame, hor⟩ := hnames hname (hi ▸ hm₁)
        exact Or.inl ⟨m₀, hm₀, by rw [hsame], hor⟩
      · obtain ⟨m₀, hm₀, hsame, hor⟩ := hnames hname hn
        exact Or.inl ⟨m₀, hm₀, by rw [hsame], hor⟩

/-- **A parameter or argument is new, or was there before** and has changed in nothing but
what stands below it. -/
theorem Adds.functionParam (hs : s.Sound) (h : s.Adds opens t') {i : Nat} {n : Node}
    (hn : t'.node? i = some n) (hk : n.kind = .functionParam) :
    (∃ m, s.tree.node? i = some m ∧ n = { m with children := n.children }) ∨
      n.parent = some s.cursor ∧ n.Suits s.cursorKind opens := by
  rcases h.node_cases hs hn with ⟨m, hm, hsame, hname | hdeclares⟩ | ⟨-, hnew⟩
  · exact Or.inl ⟨m, hm, by rw [hsame, hname]⟩
  · -- a parameter is no declaration
    have hkind : n.kind = m.kind := by rw [hsame]
    rw [← hkind, hk] at hdeclares
    cases hdeclares
  · exact Or.inr hnew

/-- **What is added to a tree is put in its place.** -/
theorem placed_of_adds (hs : s.Sound) (h : s.Adds opens t') (hplaced : s.tree.Placed) :
    t'.Placed := by
  intro i n hn hk
  rcases h.functionParam hs hn hk with ⟨m, hm, hsame⟩ | ⟨hparent, hsuits⟩
  · -- the parent is older still, and keeps its kind
    rw [hsame] at hk ⊢
    obtain ⟨p, hparent, hplace⟩ := hplaced i m hm hk
    have hlt : p < s.tree.size := by
      rcases hplace with ⟨hkp, -⟩ | ⟨hkp, -⟩
      · exact Tree.lt_size_of_kind? hkp
      · exact Tree.lt_size_of_kind? hkp
    rw [← h.kind? hs hlt] at hplace
    exact ⟨p, hparent, hplace⟩
  · refine ⟨s.cursor, hparent, ?_⟩
    rw [h.kind? hs hs.isOpen.lt_size, hs.kind?_eq]
    cases opens with
    | true => exact absurd hk hsuits.ne_functionParam
    | false =>
      cases hsuits with
      | parameter hlist _ hname => exact Or.inl ⟨congrArg some hlist, hname⟩
      | argument hcall _ hargument => exact Or.inr ⟨congrArg some hcall, hargument⟩
      | word _ _ hnone =>
        rw [hk] at hnone
        cases hnone

/-! ### Headers that become calls -/

/-- Every parameter that is adopted becomes an argument. -/
theorem node?_adoptParameters_of_mem {call j : Nat} {ps : List Nat} (hnd : ps.Nodup)
    (h : s.adoptParameters call ps = .ok s') (hj : j ∈ ps) :
    s'.tree.node? j = (s.tree.node? j).map (Node.asArgument call) := by
  induction ps generalizing s with
  | nil => cases hj
  | cons p ps ih =>
    obtain ⟨hp, hnd⟩ := List.nodup_cons.mp hnd
    cases hname : s.tree.name? p with
    | none =>
      rw [adoptParameters_cons_none hname] at h
      cases h
    | some name =>
      rw [adoptParameters_cons_some hname] at h
      by_cases hjp : j = p
      · subst hjp
        rw [node?_adoptParameters h hp]
        exact Tree.node?_modify_self s.tree j _
      · rw [ih hnd h ((List.mem_cons.mp hj).resolve_left hjp)]
        exact congrArg _ (Tree.node?_modify_of_ne (Ne.symm hjp))

/-- **What the list of a header holds becomes the arguments of a call**, and any other node
stays as it is, but for the header and the list. -/
theorem Sound.node?_hoisted (hs : s.Sound) (hk : s.cursorKind = .function)
    (h : s.asCall.hoistParameters s.cursor = .ok s') {j : Nat} (hj : j ≠ s.cursor)
    (hl : s.tree.childOfKind? s.cursor .functionParams ≠ some j) :
    s'.tree.node? j
      = if j ∈ s.tree.listed s.cursor then (s.tree.node? j).map (Node.asArgument s.cursor)
        else s.tree.node? j := by
  have hcall : s.asCall.tree.node? j = s.tree.node? j := Tree.node?_modify_of_ne (Ne.symm hj)
  cases hlist : s.tree.childOfKind? s.cursor .functionParams with
  | none =>
    rw [hoistParameters_none hk hlist] at h
    cases h
    simp [Tree.listed, hlist, hcall]
  | some l =>
    rw [hlist] at hl
    have hlj : l ≠ j := fun heq => hl (congrArg some heq)
    rw [hoistParameters_some hk hlist] at h
    obtain ⟨s₁, hadopt, h⟩ := Scanned.andThen_ok.mp h
    cases h
    simp only [relist, modifyNode]
    rw [Tree.node?_modify_of_ne hlj, Tree.node?_modify_of_ne (Ne.symm hj),
      Tree.listed_eq hlist]
    split
    · rename_i hmem
      have hnd := (hs.laid.increasing l).imp Nat.ne_of_lt
      rw [node?_adoptParameters_of_mem hnd hadopt hmem, hcall]
    · rename_i hmem
      rw [node?_adoptParameters hadopt hmem, hcall]

/-- **The header itself becomes the call**, and keeps its label but for the kind. -/
theorem Sound.node?_header (hs : s.Sound) (hk : s.cursorKind = .function)
    (h : s.asCall.hoistParameters s.cursor = .ok s') :
    s'.tree.node? s.cursor
      = (s.tree.node? s.cursor).map fun n =>
          { n with kind := .call, children := s'.tree.children s.cursor } := by
  obtain ⟨n, hn⟩ := Tree.exists_node? hs.isOpen.lt_size
  have hcall : s.asCall.tree.node? s.cursor = some { n with kind := .call } := by
    rw [asCall, modifyNode, Tree.node?_modify_self, hn]
    rfl
  obtain ⟨children, hnode⟩ : ∃ children,
      s'.tree.node? s.cursor = some { n with kind := .call, children } := by
    cases hlist : s.tree.childOfKind? s.cursor .functionParams with
    | none =>
      rw [hoistParameters_none hk hlist] at h
      cases h
      exact ⟨n.children, hcall⟩
    | some l =>
      have hlt := hs.laid.lt_of_mem (Tree.mem_of_childOfKind? hlist)
      have hnot := hs.laid.not_mem_listed (Nat.le_refl s.cursor)
      rw [Tree.listed_eq hlist] at hnot
      rw [hoistParameters_some hk hlist] at h
      obtain ⟨s₁, hadopt, h⟩ := Scanned.andThen_ok.mp h
      cases h
      simp only [relist, modifyNode]
      rw [Tree.node?_modify_of_ne (Nat.ne_of_gt hlt), Tree.node?_modify_self,
        node?_adoptParameters hadopt hnot, hcall]
      exact ⟨_, rfl⟩
  rw [hn, hnode, Tree.children_of_node? hnode]
  rfl

/-- A parameter with a name makes an argument. -/
theorem isArgument_asArgument {n : Node} (hname : n.name.isSome) (call : Nat) :
    (n.asArgument call).IsArgument := by
  obtain ⟨text, htext⟩ := Option.isSome_iff_exists.mp hname
  exact Or.inr ⟨text, by simp [Node.asArgument, htext], by simp [Node.asArgument, htext]⟩

/-- **Where a header becomes a call, its parameters become arguments.** -/
theorem placed_of_hoisted (hs : s.Sound) (hk : s.cursorKind = .function)
    (h : s.asCall.hoistParameters s.cursor = .ok s') (hplaced : s.tree.Placed) :
    s'.tree.Placed := by
  have hhoists := (hoists_of_ok hk h).2
  have hfunction := kind?_cursor hk (by decide)
  intro i n hn hkn
  have hkind := Tree.kind?_of_node? hn
  rw [hkn, hhoists.kind?] at hkind
  have hi : i ≠ s.cursor := by
    rintro rfl
    rw [if_pos rfl] at hkind
    cases hkind
  rw [if_neg hi] at hkind
  have hlist : s.tree.childOfKind? s.cursor .functionParams ≠ some i := by
    intro hlist
    rw [Tree.kind?_of_childOfKind? hlist] at hkind
    cases hkind
  rw [hs.node?_hoisted hk h hi hlist] at hn
  split at hn
  · rename_i hmem
    obtain ⟨m, hm, rfl⟩ := Option.map_eq_some_iff.mp hn
    obtain ⟨l, hl, hil⟩ := Tree.exists_of_mem_listed hmem
    refine ⟨s.cursor, rfl, Or.inr ⟨by rw [hhoists.kind?, if_pos rfl], ?_⟩⟩
    -- it stood in the list, and so it had a name
    have hparent := hs.laid.parent_of_mem l i hil
    rw [Tree.parent?_of_node? hm] at hparent
    obtain ⟨p, hp, ⟨-, hname⟩ | ⟨hcall, -⟩⟩ := hplaced i m hm hkn
    · exact isArgument_asArgument hname s.cursor
    · obtain rfl := Option.some.inj (hp.symm.trans hparent)
      rw [Tree.kind?_of_childOfKind? hl] at hcall
      cases hcall
  · -- the header is the only node that changes its kind
    obtain ⟨p, hp, hplace⟩ := hplaced i n hn hkn
    have hne : p ≠ s.cursor := by
      rintro rfl
      rw [hfunction] at hplace
      simp at hplace
    refine ⟨p, hp, ?_⟩
    rw [hhoists.kind?, if_neg hne]
    exact hplace

/-! ### Whole sources -/

/-- **Every character leaves parameters and arguments in their places.** -/
theorem placed_scan (hs : s.Sound) (h : s.scan c = .ok s') (hplaced : s.tree.Placed) :
    s'.tree.Placed := by
  have hkey := hs.reach s.reach_takeKeyword
  have hbefore := placed_of_adds hs s.adds_takeKeyword hplaced
  have hbuilds := builds_of_scan hs h
  generalize s'.tree = t' at hbuilds
  cases hbuilds with
  | text hplain => exact hplaced
  | symbol hquote hc hheader hadds => exact placed_of_adds hkey hadds hbefore
  | header hquote hc hretires =>
    obtain ⟨hheader, s₁, s₂, hadds, hcursor, hs₁, hheader₁, hhoist, rfl⟩ := hretires
    exact placed_of_hoisted hs₁ hheader₁.1 hhoist (placed_of_adds hkey hadds hbefore)

theorem placed_feed (hs : s.Sound) (h : s.feed cs = .ok s') (hplaced : s.tree.Placed) :
    s'.tree.Placed := by
  induction cs generalizing s with
  | nil =>
    cases h
    exact hplaced
  | cons c cs ih =>
    obtain ⟨s₁, hc, h⟩ := feed_cons_ok.mp h
    have hnext : s₁.tree.Placed := placed_scan hs hc hplaced
    exact ih (hs.scan hc) h hnext

theorem placed_start (s : Scanner) (name : String) : (s.start name).tree.Placed := by
  intro i n hn hk
  rw [eq_of_node?_start hn] at hk
  cases hk

/-- **In a parsed tree parameters stand in lists and have names, and arguments stand in
calls.** -/
theorem placed_parse {name source : String} (h : s.parse name (some source) = .ok s') :
    s'.tree.Placed := by
  obtain ⟨s₁, s₂, hfeed, hfinish, rfl⟩ := parse_ok h
  have hstart := s.sound_start name
  have hs₁ := hstart.feed hfeed
  rw [tree_noteTree]
  exact placed_of_adds hs₁ (adds_finish hs₁ hfinish)
    (placed_feed hstart hfeed (s.placed_start name))

theorem holdsScope_parse {name source : String} (h : s.parse name (some source) = .ok s') :
    (s'.tree.HoldsScope l → (s.start name).Meets (OpensIn l) source.toList) ∧
      ((s.start name).Meets (OpensIn l) source.toList →
        s'.tree.HoldsScope l ∨ s'.tree.IsDetached l) := by
  obtain ⟨s₁, s₂, hfeed, hfinish, rfl⟩ := parse_ok h
  have hstart := s.sound_start name
  have hs₁ := hstart.feed hfeed
  have hadds := adds_finish hs₁ hfinish
  have hnone : ¬(s.start name).tree.HoldsScope l := by
    rintro ⟨-, j, hj, -⟩
    change j ∈ (Tree.empty name { file := name }).children l at hj
    rw [children_empty] at hj
    cases hj
  obtain ⟨hback, hforth⟩ := holdsScope_feed (l := l) hstart hfeed
  rw [tree_noteTree, hadds.holdsScope hs₁, hadds.isDetached hs₁]
  refine ⟨fun hholds => ?_, fun hmeets => ?_⟩
  · rcases hholds with hholds | ⟨hopens, -⟩
    · exact (hback hholds).resolve_left hnone
    · cases hopens
  · exact (hforth (Or.inr hmeets)).imp Or.inl id

/-- **When parameter lists hold parameters only.** Where a parse succeeds, every parameter
that stands in a list has a name. All that stands in lists are parameters just if every
list in which a bracket or a keyword opens a scope is emptied later, its header having
become a call. -/
theorem listsHoldParameters_iff (s : Scanner) (name source : String) {s' : Scanner}
    (h : s.parse name (some source) = .ok s') :
    (∀ l j, s'.tree.kind? l = some .functionParams → j ∈ s'.tree.children l →
        s'.tree.kind? j = some .functionParam → (s'.tree.name? j).isSome) ∧
      (s'.tree.ListsHoldParameters ↔
        ∀ l, (s.start name).Meets (OpensIn l) source.toList →
          (s.start name).Meets (Empties l) source.toList) := by
  have hsound := s.sound_parse name source
  rw [h] at hsound
  have hwell : s'.tree.WellFormed := hsound.laid.toWellFormed
  have hnamed : ∀ l j, s'.tree.kind? l = some .functionParams → j ∈ s'.tree.children l →
      s'.tree.kind? j = some .functionParam → (s'.tree.name? j).isSome := by
    intro l j hl hj hkj
    obtain ⟨n, hn, hkn⟩ := Option.map_eq_some_iff.mp hkj
    have hparent := hwell.parent_of_mem l j hj
    rw [Tree.parent?_of_node? hn] at hparent
    obtain ⟨p, hp, ⟨-, hname⟩ | ⟨hcall, -⟩⟩ := placed_parse h j n hn hkn
    · rwa [Tree.name?, hn, Option.bind_some]
    · obtain rfl := Option.some.inj (hp.symm.trans hparent)
      rw [hl] at hcall
      cases hcall
  refine ⟨hnamed, fun hlists l hmeets => ?_, fun hemptied l j hl hj => ?_⟩
  · rcases (holdsScope_parse h).2 hmeets with ⟨hl, j, hj, hkj⟩ | hdetached
    · exact absurd (hlists l j hl hj).1 hkj
    · exact (isDetached_parse h).mp hdetached
  · have hkj : s'.tree.kind? j = some .functionParam := by
      by_contra hne
      have hmeets := (holdsScope_parse h).1 ⟨hl, j, hj, hne⟩
      -- an emptied list holds nothing
      have hdetached := (isDetached_parse h).mpr (hemptied l hmeets)
      rw [hwell.childless l hdetached] at hj
      cases hj
    exact ⟨hkj, hnamed l j hl hj hkj⟩

/-- A block is opened in the list of a function that has a body, and stays there. -/
theorem listsHoldParameters_iff_block :
    ∃ s', ({} : Scanner).parse "test" (some "function f(\x7b\x7d)\x7b\x7d") = .ok s' ∧
      ¬s'.tree.ListsHoldParameters ∧
      ∃ l, (({} : Scanner).start "test").Meets (OpensIn l) "function f(\x7b\x7d)\x7b\x7d".toList ∧
        ¬(({} : Scanner).start "test").Meets (Empties l)
          "function f(\x7b\x7d)\x7b\x7d".toList := by
  obtain ⟨s', hparse, hl, hj, hkj⟩ : ∃ s', ({} : Scanner).parse "test"
      (some "function f(\x7b\x7d)\x7b\x7d") = .ok s' ∧
        s'.tree.kind? 2 = some .functionParams ∧ 3 ∈ s'.tree.children 2 ∧
        s'.tree.kind? 3 ≠ some .functionParam := ⟨_, rfl, rfl, by decide, by decide⟩
  have hnot : ¬s'.tree.ListsHoldParameters := fun h => hkj (h 2 3 hl hj).1
  refine ⟨s', hparse, hnot, ?_⟩
  rw [(listsHoldParameters_iff {} "test" _ hparse).2] at hnot
  simpa using hnot

/-- **Not every parsed tree has lists that hold parameters only.** -/
theorem not_forall_listsHoldParameters :
    ¬∀ (name source : String) (s' : Scanner), ({} : Scanner).parse name (some source) = .ok s' →
      s'.tree.ListsHoldParameters := by
  intro h
  have hlists := h "test" "function f(\x7b\x7d)\x7b\x7d" _ rfl 2 3 rfl (by decide)
  exact absurd hlists.1 (by decide)

end Scanner

end ScopeScript
