import ScopeScript.Proofs.Scanner.Failure
import ScopeScript.Proofs.Scanner.Scopes

/-!
# No name is given twice

A word that stands before a bracket may name the scope that is open. If the scope had
a name already, that would be lost. **This never happens**: where a scope is named it
has neither a name nor a value (`ScopeScript.Scanner.Orderly.unnamed_of_openParen`,
`ScopeScript.Scanner.Orderly.unnamed_of_openBrace`).

For one symbol it is easily seen, but scopes are left and come back to. A function has
its name once its parameters begin, and they begin once
(`ScopeScript.Tree.Nameable`). A type, and a function without parameters, has its name
once its body begins, and is never come back to then, since it is closed together with
the body. So of all scopes that are open, each can be named when it is come back to, or
is only open as long as its body is (`ScopeScript.Tree.Returns`).

The same goes for values: where a header becomes a call, each parameter takes its name
for its value, and had none before (`ScopeScript.Tree.PlainLists`).
-/

namespace ScopeScript

namespace Tree

variable {t t' : Tree} {i j l p : Nat} {n m : Node} {f : Node → Node}

/-! ### Scopes that can be named -/

/-- A node has a parameter list. -/
def HasList (t : Tree) (i : Nat) : Prop := ∃ l ∈ t.children i, t.kind? l = some .functionParams

/-- **A scope that can be named**, as far as it ever is: it has no value, and it has no
name, unless it is a function whose parameters have begun. -/
structure Nameable (t : Tree) (i : Nat) : Prop where
  /-- It has no value. -/
  value : ∀ n, t.node? i = some n → n.value = none
  /-- A function has its name once its parameters begin. -/
  header : ∀ n, t.node? i = some n → n.kind = .function → n.name = none ∨ t.HasList i
  /-- A type has its name once its body begins. -/
  type : ∀ n, t.node? i = some n → n.kind.isType → n.name = none

/-- A scope is the body of the one it stands in, and is closed together with it. -/
def IsBody (t : Tree) (i p : Nat) : Prop :=
  t.kind? i = some .functionImpl ∨
    t.kind? i = some .none ∧ ∃ k, t.kind? p = some k ∧ k.isType

/-- **Whatever scope is come back to can be named then.** -/
inductive Returns (t : Tree) : Nat → Prop
  /-- There is nothing to come back to. -/
  | root {i : Nat} (hp : t.parent? i = none) : Returns t i
  /-- The next scope can be named, or is closed at the same time. -/
  | scope {i p : Nat} (hp : t.parent? i = some p) (hnext : t.Nameable p ∨ t.IsBody i p)
      (hup : Returns t p) : Returns t i

/-- **Parameter lists have no text, and what they hold has no value.** -/
structure PlainLists (t : Tree) : Prop where
  /-- A list has neither a name nor a value. -/
  label : ∀ l n, t.node? l = some n → n.kind = .functionParams → n.name = none ∧ n.value = none
  /-- What it holds has no value. -/
  held : ∀ l j n, t.kind? l = some .functionParams → j ∈ t.children l → t.node? j = some n →
    n.value = none

/-- Two nodes with the same kind, name and value. -/
structure SameLabel (n m : Node) : Prop where
  kind : m.kind = n.kind
  name : m.name = n.name
  value : m.value = n.value

theorem Nameable.congr (h : t.Nameable i)
    (hlabel : ∀ m, t'.node? i = some m → ∃ n, t.node? i = some n ∧ SameLabel n m)
    (hlist : t.HasList i → t'.HasList i) : t'.Nameable i where
  value m hm := by
    obtain ⟨n, hn, hsame⟩ := hlabel m hm
    rw [hsame.value, h.value n hn]
  header m hm hk := by
    obtain ⟨n, hn, hsame⟩ := hlabel m hm
    rw [hsame.name]
    exact (h.header n hn (hsame.kind ▸ hk)).imp id hlist
  type m hm hk := by
    obtain ⟨n, hn, hsame⟩ := hlabel m hm
    rw [hsame.name]
    exact h.type n hn (hsame.kind ▸ hk)

/-- A scope that stays as it is can still be named, as long as parameter lists stay what
they are. -/
theorem Nameable.of_node? (h : t.Nameable i) (hnode : t'.node? i = t.node? i)
    (hlist : ∀ l, t.kind? l = some .functionParams → t'.kind? l = some .functionParams) :
    t'.Nameable i := by
  refine h.congr (fun m hm => ⟨m, hnode ▸ hm, rfl, rfl, rfl⟩) ?_
  rintro ⟨l, hl, hk⟩
  refine ⟨l, ?_, hlist l hk⟩
  rwa [children, hnode]

/-- What can be come back to only depends on the nodes before, as long as parameter
lists stay what they are. -/
theorem Returns.congr (h : t.Returns i) (hlt : ∀ j p, t.parent? j = some p → p < j)
    (hnode : ∀ j < i, t'.node? j = t.node? j)
    (hlist : ∀ l, t.kind? l = some .functionParams → t'.kind? l = some .functionParams)
    (hkind : t'.kind? i = t.kind? i) (hparent : t'.parent? i = t.parent? i) : t'.Returns i := by
  induction h with
  | root hp => exact .root (hparent.trans hp)
  | @scope i p hp hnext hup ih =>
    have hpi := hlt i p hp
    have hsame := hnode p hpi
    have hkindp : t'.kind? p = t.kind? p := by rw [kind?, hsame, kind?]
    refine .scope (hparent.trans hp) ?_ ?_
    · rcases hnext with hn | hb
      · exact Or.inl (hn.of_node? hsame hlist)
      · refine Or.inr ?_
        rw [IsBody, hkind, hkindp]
        exact hb
    · refine ih (fun j hj => hnode j (by omega)) hkindp ?_
      rw [parent?, hsame, parent?]

/-! ### A new node -/

theorem sameLabel_sprout (hp : p < t.size) (hi : i < t.size)
    (h : (t.sprout p n).node? i = some m) : ∃ m₀, t.node? i = some m₀ ∧ SameLabel m₀ m := by
  rw [node?_sprout hp, if_neg (by omega)] at h
  split at h
  · rename_i hip
    obtain ⟨m₀, hm₀, rfl⟩ := Option.map_eq_some_iff.mp h
    exact ⟨m₀, hip ▸ hm₀, rfl, rfl, rfl⟩
  · exact ⟨m, h, rfl, rfl, rfl⟩

theorem HasList.sprout (h : t.HasList i) (hp : p < t.size) (hn : n.children = []) :
    (t.sprout p n).HasList i := by
  obtain ⟨l, hl, hk⟩ := h
  refine ⟨l, ?_, ?_⟩
  · rw [children_sprout hp hn]
    split
    · rename_i hip
      exact List.mem_append_left _ (hip ▸ hl)
    · exact hl
  · rw [kind?_sprout_of_lt hp n (lt_size_of_kind? hk), hk]

theorem Nameable.sprout (h : t.Nameable i) (hp : p < t.size) (hi : i < t.size)
    (hn : n.children = []) : (t.sprout p n).Nameable i :=
  h.congr (fun _ hm => sameLabel_sprout hp hi hm) fun hlist => hlist.sprout hp hn

theorem Returns.sprout (h : t.Returns p) (hl : t.Laid) (hp : p < t.size) (n : Node) :
    (t.sprout p n).Returns p := by
  refine h.congr hl.parent_lt (fun j hj => ?_) (fun l hk => ?_) ?_ ?_
  · exact node?_sprout_of_ne hp n (by omega) (Nat.ne_of_lt hj)
  · rw [kind?_sprout_of_lt hp n (lt_size_of_kind? hk), hk]
  · exact kind?_sprout_of_lt hp n hp
  · rw [parent?_sprout hp, if_neg (Nat.ne_of_lt hp)]

/-- From a new scope one comes back to the one it was opened in. -/
theorem Returns.sprout_new (h : t.Returns p) (hl : t.Laid) (hp : p < t.size)
    (hn : n.parent = some p)
    (hnext : (t.sprout p n).Nameable p ∨ (t.sprout p n).IsBody t.size p) :
    (t.sprout p n).Returns t.size := by
  refine .scope ?_ hnext (h.sprout hl hp n)
  rw [parent?_sprout hp, if_pos rfl, hn]

theorem nameable_sprout_new (hp : p < t.size) (hvalue : n.value = none)
    (hname : n.kind.isDeclaration → n.name = none) : (t.sprout p n).Nameable t.size := by
  have hnew : ∀ m, (t.sprout p n).node? t.size = some m → m = n := by
    intro m hm
    rw [node?_sprout_new hp] at hm
    exact (Option.some.inj hm).symm
  refine ⟨fun m hm => ?_, fun m hm hk => ?_, fun m hm hk => ?_⟩
  · rw [hnew m hm, hvalue]
  · obtain rfl := hnew m hm
    exact Or.inl (hname (by rw [hk]; rfl))
  · obtain rfl := hnew m hm
    refine hname ?_
    generalize m.kind = k at hk
    cases k <;> first | rfl | cases hk

theorem PlainLists.sprout (h : t.PlainLists) (hl : t.Laid) (hp : p < t.size)
    (hchildren : n.children = [])
    (hlabel : n.kind = .functionParams → n.name = none ∧ n.value = none)
    (hheld : t.kind? p = some .functionParams → n.value = none) : (t.sprout p n).PlainLists where
  label l m hm hk := by
    rcases Nat.lt_or_ge l t.size with hlt | hge
    · obtain ⟨m₀, hm₀, hsame⟩ := sameLabel_sprout hp hlt hm
      rw [hsame.name, hsame.value]
      exact h.label l m₀ hm₀ (hsame.kind ▸ hk)
    · have hlast := lt_size_of_node? hm
      rw [size_sprout] at hlast
      obtain rfl : l = t.size := by omega
      rw [node?_sprout_new hp] at hm
      cases hm
      exact hlabel hk
  held l j m hk hj hm := by
    rw [children_sprout hp hchildren] at hj
    have hold : ∀ l', t.kind? l' = some .functionParams → j ∈ t.children l' → m.value = none := by
      intro l' hk' hj'
      obtain ⟨m₀, hm₀, hsame⟩ := sameLabel_sprout hp (hl.lt_size_of_mem hj') hm
      rw [hsame.value]
      exact h.held l' j m₀ hk' hj' hm₀
    split at hj
    · rename_i hlp
      subst hlp
      rw [kind?_sprout_of_lt hp n hp] at hk
      rcases List.mem_append.mp hj with hj | hj
      · exact hold l hk hj
      · rw [List.mem_singleton.mp hj, node?_sprout_new hp] at hm
        cases hm
        exact hheld hk
    · have hlt : l < t.size := by
        by_contra hge
        rw [children, node?_eq_none (by omega)] at hj
        cases hj
      rw [kind?_sprout_of_lt hp n hlt] at hk
      exact hold l hk hj

/-! ### A new name -/

/-- A change of a node that only concerns its name. -/
def KeepsValue (f : Node → Node) : Prop := KeepsLinks f ∧ ∀ n, (f n).value = n.value

theorem Returns.modify (h : t.Returns i) (hl : t.Laid) (hf : KeepsLinks f) :
    (t.modify i f).Returns i := by
  have hlinks := SameLinks.modify hf t i
  refine h.congr hl.parent_lt (fun j hj => ?_) (fun l hk => ?_) (hlinks.kind? i) (hlinks.parent? i)
  · exact node?_modify_of_ne (Nat.ne_of_gt hj)
  · rw [hlinks.kind?, hk]

theorem PlainLists.modify (h : t.PlainLists) (hf : KeepsValue f)
    (hk : t.kind? i ≠ some .functionParams) : (t.modify i f).PlainLists where
  label l m hm hkm := by
    rw [node?_modify] at hm
    split at hm
    · rename_i hil
      subst hil
      obtain ⟨m₀, hm₀, rfl⟩ := Option.map_eq_some_iff.mp hm
      rw [(hf.1 m₀).1] at hkm
      exact absurd (hkm ▸ kind?_of_node? hm₀) hk
    · exact h.label l m hm hkm
  held l j m hkl hj hm := by
    have hlinks := SameLinks.modify hf.1 t i
    rw [hlinks.kind?] at hkl
    rw [hlinks.children] at hj
    rw [node?_modify] at hm
    split at hm
    · obtain ⟨m₀, hm₀, rfl⟩ := Option.map_eq_some_iff.mp hm
      rw [hf.2]
      exact h.held l j m₀ hkl hj hm₀
    · exact h.held l j m hkl hj hm

/-- A change of a node that leaves name and value alone. -/
def KeepsText (f : Node → Node) : Prop := ∀ n, (f n).name = n.name ∧ (f n).value = n.value

theorem KeepsText.modify (hf : KeepsText f) (h : (t.modify i f).node? j = some m) :
    ∃ n, t.node? j = some n ∧ m.name = n.name ∧ m.value = n.value := by
  rw [node?_modify] at h
  split at h
  · obtain ⟨n, hn, rfl⟩ := Option.map_eq_some_iff.mp h
    exact ⟨n, hn, hf n⟩
  · exact ⟨m, h, rfl, rfl⟩

end Tree

namespace Scanner

variable {s s' : Scanner} {call j : Nat} {ps : List Nat} {m n : Node}

/-! ### A header that becomes a call -/

/-- Adopting parameters leaves all other nodes alone. -/
theorem node?_adoptParameters (h : s.adoptParameters call ps = .ok s') (hj : j ∉ ps) :
    s'.tree.node? j = s.tree.node? j := by
  induction ps generalizing s with
  | nil =>
    cases h
    rfl
  | cons p ps ih =>
    obtain ⟨hjp, hj⟩ := not_or.mp (mt List.mem_cons.mpr hj)
    cases hp : s.tree.name? p with
    | none =>
      rw [adoptParameters_cons_none hp] at h
      cases h
    | some name =>
      rw [adoptParameters_cons_some hp] at h
      rw [ih h hj]
      exact Tree.node?_modify_of_ne (Ne.symm hjp)

theorem keepsText_asCall : Tree.KeepsText fun n => { n with kind := .call } :=
  fun _ => ⟨rfl, rfl⟩

theorem keepsText_relist (g : List Nat → List Nat) :
    Tree.KeepsText fun n => { n with children := g n.children } :=
  fun _ => ⟨rfl, rfl⟩

/-- Only the parameters get another text. -/
theorem text_hoistParameters (hk : s.cursorKind = .function)
    (h : s.asCall.hoistParameters s.cursor = .ok s') (hj : j ∉ s.tree.listed s.cursor)
    (hm : s'.tree.node? j = some m) :
    ∃ n, s.tree.node? j = some n ∧ m.name = n.name ∧ m.value = n.value := by
  cases hl : s.tree.childOfKind? s.cursor .functionParams with
  | none =>
    rw [hoistParameters_none hk hl] at h
    cases h
    exact keepsText_asCall.modify hm
  | some l =>
    rw [hoistParameters_some hk hl] at h
    obtain ⟨s₁, hadopt, h⟩ := Scanned.andThen_ok.mp h
    cases h
    rw [Tree.listed_eq hl] at hj
    obtain ⟨m₁, hm₁, hname₁, hvalue₁⟩ := (keepsText_relist fun _ => []).modify hm
    obtain ⟨m₂, hm₂, hname₂, hvalue₂⟩ := (keepsText_relist fun cs =>
      cs.flatMap fun c => if c = l then s.tree.children l else [c]).modify hm₁
    rw [node?_adoptParameters hadopt hj] at hm₂
    obtain ⟨n, hn, hname₃, hvalue₃⟩ := keepsText_asCall.modify hm₂
    exact ⟨n, hn, by rw [hname₁, hname₂, hname₃], by rw [hvalue₁, hvalue₂, hvalue₃]⟩

/-- Nothing before the header changes. -/
theorem Sound.node?_hoistParameters (hs : s.Sound) (hk : s.cursorKind = .function)
    (h : s.asCall.hoistParameters s.cursor = .ok s') (hj : j < s.cursor) :
    s'.tree.node? j = s.tree.node? j := by
  have hcall : s.asCall.tree.node? j = s.tree.node? j :=
    Tree.node?_modify_of_ne (Nat.ne_of_gt hj)
  cases hl : s.tree.childOfKind? s.cursor .functionParams with
  | none =>
    rw [hoistParameters_none hk hl] at h
    cases h
    exact hcall
  | some l =>
    have hlt := hs.laid.lt_of_mem (Tree.mem_of_childOfKind? hl)
    have hnot := hs.laid.not_mem_listed (f := s.cursor) (Nat.le_of_lt hj)
    rw [Tree.listed_eq hl] at hnot
    rw [hoistParameters_some hk hl] at h
    obtain ⟨s₁, hadopt, h⟩ := Scanned.andThen_ok.mp h
    cases h
    simp only [relist, modifyNode]
    rw [Tree.node?_modify_of_ne (by omega), Tree.node?_modify_of_ne (by omega),
      node?_adoptParameters hadopt hnot, hcall]

/-- **Parameter lists keep without text**, and the one whose parameters are arguments
now holds nothing. -/
theorem Sound.plainLists_hoistParameters (hs : s.Sound) (hk : s.cursorKind = .function)
    (hlists : s.tree.PlainLists) (h : s.asCall.hoistParameters s.cursor = .ok s') :
    s'.tree.PlainLists := by
  have hhoist := (hoists_of_ok hk h).2
  refine ⟨fun l m hm hkm => ?_, fun l j m hkl hj hm => ?_⟩
  · have hkl : s'.tree.kind? l = some .functionParams := by rw [Tree.kind?_of_node? hm, hkm]
    have hold := (hhoist.list_before hs.laid hkl).1
    have hnot : l ∉ s.tree.listed s.cursor := fun hmem => hs.laid.kind?_of_mem_listed hmem hold
    obtain ⟨n, hn, hname, hvalue⟩ := text_hoistParameters hk h hnot hm
    rw [Tree.kind?_of_node? hn] at hold
    rw [hname, hvalue]
    exact hlists.label l n hn (Option.some.inj hold)
  · have hold := (hhoist.list_before hs.laid hkl).1
    have hne : l ≠ s.cursor := by
      rintro rfl
      rw [kind?_cursor hk (by decide)] at hold
      cases hold
    rw [hhoist.children, if_neg hne] at hj
    split at hj
    · cases hj
    · rename_i hother
      have hnot : j ∉ s.tree.listed s.cursor := by
        intro hmem
        obtain ⟨l', hl', hj'⟩ := Tree.exists_of_mem_listed hmem
        exact hother (hs.laid.parent_unique hj' hj ▸ hl')
      obtain ⟨n, hn, -, hvalue⟩ := text_hoistParameters hk h hnot hm
      rw [hvalue]
      exact hlists.held l j n hold hj hn

/-! ### The invariant -/

/-- **The open scope can be named, and so can all that will be come back to.** -/
structure Orderly (s : Scanner) : Prop where
  /-- The open scope can be named. -/
  nameable : s.tree.Nameable s.cursor
  /-- So can all that will be come back to. -/
  returns : s.tree.Returns s.cursor
  /-- Parameter lists have no text, and what they hold has no value. -/
  lists : s.tree.PlainLists

theorem Orderly.congr (h : s.Orderly) (ht : s'.tree = s.tree) (hc : s'.cursor = s.cursor) :
    s'.Orderly := by
  refine ⟨?_, ?_, ?_⟩
  · rw [ht, hc]
    exact h.nameable
  · rw [ht, hc]
    exact h.returns
  · rw [ht]
    exact h.lists

theorem kind?_ne_of_cursorKind {k : NodeKind} (hk : s.cursorKind ≠ k) :
    s.tree.kind? s.cursor ≠ some k :=
  fun h => hk (cursorKind_of_kind? h)

theorem Sound.cursorKind_of_scopes (hs : s.Sound) (hs' : s'.Sound)
    (h : s'.scopes = s.scopes) : s'.cursorKind = s.cursorKind := by
  obtain ⟨ks, hks⟩ := hs.scopes_eq
  obtain ⟨ks', hks'⟩ := hs'.scopes_eq
  rw [hks, hks'] at h
  exact (List.cons.inj h).1

theorem Sound.cursorKind_flushIfPending (hs : s.Sound) :
    s.flushIfPending.cursorKind = s.cursorKind :=
  hs.cursorKind_of_scopes (hs.reach s.reach_flushIfPending) hs.scopes_flushIfPending

/-! ### Leaves -/

theorem Orderly.leaf (hs : s.Sound) (h : s.Orderly)
    (ht : s'.tree = s.tree.sprout s.cursor n) (hc : s'.cursor = s.cursor)
    (hchildren : n.children = []) (hkind : n.kind ≠ .functionParams)
    (hheld : s.cursorKind = .functionParams → n.value = none) : s'.Orderly := by
  have hlt := hs.isOpen.lt_size
  refine ⟨?_, ?_, ?_⟩
  · rw [ht, hc]
    exact h.nameable.sprout hlt hlt hchildren
  · rw [ht, hc]
    exact h.returns.sprout hs.laid hlt n
  · rw [ht]
    refine h.lists.sprout hs.laid hlt hchildren (fun hk => absurd hk hkind) fun hk => ?_
    exact hheld (cursorKind_of_kind? hk)

theorem tree_flushWord_eq (hs : s.Sound) :
    s.flushWord.tree = s.tree.sprout s.cursor
      (s.word.fill { kind := .none, location := s.wordLocation, parent := some s.cursor }) := by
  rw [tree_flushWord, Tree.addChild_eq_sprout]
  exact Tree.modify_sprout hs.isOpen.lt_size _ _

theorem tree_addParameter (hs : s.Sound) :
    s.addParameter.tree = s.tree.sprout s.cursor
      (s.word.declare
        { kind := .functionParam, location := s.wordLocation, parent := some s.cursor }) :=
  Tree.modify_sprout hs.isOpen.lt_size _ _

theorem tree_addArgument (hs : s.Sound) :
    s.addArgument.tree = s.tree.sprout s.cursor
      (if s.word.isPending then
        s.word.fill
          { kind := .functionParam, location := s.wordLocation, parent := some s.cursor }
      else { kind := .functionParam, location := s.wordLocation, parent := some s.cursor }) := by
  rw [addArgument]
  dsimp only
  split
  · rename_i hw
    have hw : s.word.isPending := hw
    rw [if_pos hw]
    exact Tree.modify_sprout hs.isOpen.lt_size _ _
  · rename_i hw
    have hw : ¬s.word.isPending := hw
    rw [if_neg hw]
    rfl

theorem returns_flushIfPending (hs : s.Sound) (h : s.tree.Returns s.cursor) :
    s.flushIfPending.tree.Returns s.flushIfPending.cursor := by
  rw [cursor_flushIfPending, flushIfPending]
  split
  · rw [tree_flushWord_eq hs]
    exact h.sprout hs.laid hs.isOpen.lt_size _
  · exact h

theorem plainLists_flushIfPending (hs : s.Sound) (h : s.tree.PlainLists)
    (hk : s.cursorKind ≠ .functionParams) : s.flushIfPending.tree.PlainLists := by
  rw [flushIfPending]
  split
  · rw [tree_flushWord_eq hs]
    exact h.sprout hs.laid hs.isOpen.lt_size rfl (fun hnew => by cases hnew)
      fun hlist => absurd hlist (kind?_ne_of_cursorKind hk)
  · exact h

theorem Orderly.flushIfPending (hs : s.Sound) (h : s.Orderly)
    (hk : s.cursorKind ≠ .functionParams) : s.flushIfPending.Orderly := by
  refine ⟨?_, returns_flushIfPending hs h.returns, plainLists_flushIfPending hs h.lists hk⟩
  have hlt := hs.isOpen.lt_size
  rw [cursor_flushIfPending, Scanner.flushIfPending]
  split
  · rw [tree_flushWord_eq hs]
    exact h.nameable.sprout hlt hlt rfl
  · exact h.nameable

theorem Orderly.addParameter (hs : s.Sound) (h : s.Orderly) : s.addParameter.Orderly :=
  h.leaf hs (tree_addParameter hs) rfl rfl (by simp [Word.declare]) fun _ => rfl

theorem cursor_addArgument (s : Scanner) : s.addArgument.cursor = s.cursor := by
  rw [addArgument]
  dsimp only
  split <;> rfl

theorem Orderly.addArgument (hs : s.Sound) (h : s.Orderly) (hk : s.cursorKind = .call) :
    s.addArgument.Orderly := by
  refine h.leaf hs (tree_addArgument hs) s.cursor_addArgument ?_ ?_ fun hlist => ?_
  · split <;> rfl
  · split <;> simp [Word.fill]
  · rw [hk] at hlist
    cases hlist

/-! ### Opening a scope -/

/-- A scope is opened where the one around it can be named, or is closed together with
it. -/
theorem orderly_push (hs : s.Sound) (hreturns : s.tree.Returns s.cursor)
    (hlists : s.tree.PlainLists) (ht : s'.tree = s.tree.sprout s.cursor n)
    (hc : s'.cursor = s.tree.size) (hparent : n.parent = some s.cursor)
    (hchildren : n.children = []) (hvalue : n.value = none)
    (hname : n.kind.isDeclaration ∨ n.kind = .functionParams → n.name = none)
    (hnext : (s.tree.sprout s.cursor n).Nameable s.cursor ∨
      (s.tree.sprout s.cursor n).IsBody s.tree.size s.cursor) : s'.Orderly := by
  have hlt := hs.isOpen.lt_size
  refine ⟨?_, ?_, ?_⟩
  · rw [ht, hc]
    exact Tree.nameable_sprout_new hlt hvalue fun hk => hname (Or.inl hk)
  · rw [ht, hc]
    exact hreturns.sprout_new hs.laid hlt hparent hnext
  · rw [ht]
    refine hlists.sprout hs.laid hlt hchildren (fun hk => ⟨hname (Or.inr hk), hvalue⟩) ?_
    exact fun _ => hvalue

theorem Orderly.pushScope (hs : s.Sound) (h : s.Orderly) (kind : NodeKind) (place : Location) :
    (s.pushScope kind place).Orderly := by
  have hlt := hs.isOpen.lt_size
  refine orderly_push hs h.returns h.lists (s.tree_pushScope kind place)
    (s.cursor_pushScope kind place) rfl rfl rfl (fun _ => rfl) ?_
  exact Or.inl (h.nameable.sprout hlt hlt rfl)

theorem tree_pushNamed (hs : s.Sound) (kind : NodeKind) (name : Option String) :
    (s.pushNamed kind name).tree = s.tree.sprout s.cursor
      { kind, location := s.wordLocation, parent := some s.cursor, name } := by
  have htree : (s.pushNamed kind name).tree
      = (s.pushScope kind s.wordLocation).tree.modify (s.pushScope kind s.wordLocation).cursor
          fun n => { n with name } := rfl
  rw [htree, tree_pushScope, cursor_pushScope]
  exact Tree.modify_sprout hs.isOpen.lt_size _ _

theorem cursor_pushNamed (s : Scanner) (kind : NodeKind) (name : Option String) :
    (s.pushNamed kind name).cursor = s.tree.size :=
  s.cursor_pushScope kind s.wordLocation

theorem Orderly.pushNamed (hs : s.Sound) (h : s.Orderly) {kind : NodeKind}
    (hk : kind = .call ∨ kind = .none) (name : Option String) :
    (s.pushNamed kind name).Orderly := by
  have hlt := hs.isOpen.lt_size
  refine orderly_push hs h.returns h.lists (tree_pushNamed hs kind name)
    (s.cursor_pushNamed kind name) rfl rfl rfl ?_ (Or.inl (h.nameable.sprout hlt hlt rfl))
  rcases hk with rfl | rfl <;> rintro (hk | hk) <;> cases hk

theorem Orderly.takeKeyword (hs : s.Sound) (h : s.Orderly) : s.takeKeyword.Orderly := by
  rcases s.takeKeyword_cases with htake | ⟨k, line, -, -, ⟨-, htake⟩ | ⟨kind, -, htake⟩⟩
  · rw [htake]
    exact h
  · rw [htake]
    exact h.congr (tree_note _ _) (cursor_note _ _)
  · rw [htake]
    have hclear : (s.clearWord.note line).Orderly := h.congr (tree_note _ _) (cursor_note _ _)
    have hsound : (s.clearWord.note line).Sound := hs.congr (tree_note _ _) (cursor_note _ _)
    exact (hclear.pushScope hsound kind s.wordLocation).congr rfl rfl

/-! ### Naming the open scope -/

theorem returns_nameCursorIfPending (hs : s.Sound) (h : s.tree.Returns s.cursor) :
    s.nameCursorIfPending.tree.Returns s.nameCursorIfPending.cursor := by
  rw [cursor_nameCursorIfPending, nameCursorIfPending]
  split
  · exact h.modify hs.laid s.word.keepsLinks_entitle
  · exact h

theorem plainLists_nameCursorIfPending (h : s.tree.PlainLists)
    (hk : s.cursorKind ≠ .functionParams) : s.nameCursorIfPending.tree.PlainLists := by
  rw [nameCursorIfPending]
  split
  · exact h.modify (f := s.word.entitle) ⟨s.word.keepsLinks_entitle, fun _ => rfl⟩
      (kind?_ne_of_cursorKind hk)
  · exact h

/-- Naming the open scope gives it no value. -/
theorem value_nameCursorIfPending (h : s.Orderly)
    (hn : s.nameCursorIfPending.tree.node? s.cursor = some n) : n.value = none := by
  rw [nameCursorIfPending] at hn
  split at hn
  · have hn : (s.tree.modify s.cursor s.word.entitle).node? s.cursor = some n := hn
    rw [Tree.node?_modify_self] at hn
    obtain ⟨m, hm, rfl⟩ := Option.map_eq_some_iff.mp hn
    exact h.nameable.value m hm
  · exact h.nameable.value n hn

/-- A function that has a parameter list can be named, as it will not be named. -/
theorem nameable_of_list (hs : s.Sound) (h : s.Orderly) (hk : s.cursorKind = .function)
    (place : Location) :
    (s.nameCursorIfPending.tree.sprout s.nameCursorIfPending.cursor
      { kind := .functionParams, location := place,
        parent := some s.nameCursorIfPending.cursor }).Nameable s.nameCursorIfPending.cursor := by
  have hnamed := hs.reach s.reach_nameCursorIfPending
  have hlt := hnamed.isOpen.lt_size
  have hkind : s.nameCursorIfPending.tree.kind? s.nameCursorIfPending.cursor = some .function := by
    rw [hnamed.kind?_eq, cursorKind_nameCursorIfPending, hk]
  refine ⟨fun m hm => ?_, fun m hm _ => Or.inr ?_, fun m hm htype => ?_⟩
  · obtain ⟨m₀, hm₀, hsame⟩ := Tree.sameLabel_sprout hlt hlt hm
    rw [hsame.value]
    exact value_nameCursorIfPending h (s.cursor_nameCursorIfPending ▸ hm₀)
  · refine ⟨s.nameCursorIfPending.tree.size, ?_, ?_⟩
    · rw [Tree.children_sprout hlt rfl, if_pos rfl]
      exact List.mem_append_right _ (List.mem_singleton.mpr rfl)
    · rw [Tree.kind?_sprout hlt, if_pos rfl]
  · rw [← Tree.kind?_sprout_of_lt hlt _ hlt, Tree.kind?_of_node? hm] at hkind
    rw [Option.some.inj hkind] at htype
    cases htype

/-! ### Closing a scope -/

theorem returns_popScope (h : s.tree.Returns s.cursor) (hpop : s.popScope = .ok s') :
    (s'.tree.Nameable s'.cursor ∨ s.tree.IsBody s.cursor s'.cursor) ∧
      s'.tree.Returns s'.cursor := by
  have hparent := parent?_of_popScope hpop
  rw [tree_popScope hpop]
  cases h with
  | root hp =>
    rw [hp] at hparent
    cases hparent
  | scope hp hnext hup =>
    obtain rfl := Option.some.inj (hp.symm.trans hparent)
    exact ⟨hnext, hup⟩

theorem orderly_popScope (hreturns : s.tree.Returns s.cursor) (hlists : s.tree.PlainLists)
    (hpop : s.popScope = .ok s') (hbody : ¬s.tree.IsBody s.cursor s'.cursor) : s'.Orderly := by
  obtain ⟨hnext, hup⟩ := returns_popScope hreturns hpop
  refine ⟨hnext.resolve_right hbody, hup, ?_⟩
  rw [tree_popScope hpop]
  exact hlists

/-- A scope that is neither the body of a function nor a block is no body. -/
theorem not_isBody {p : Nat} (himpl : s.cursorKind ≠ .functionImpl)
    (hnone : s.cursorKind ≠ .none) : ¬s.tree.IsBody s.cursor p := by
  rintro (hk | ⟨hk, -⟩)
  · exact himpl (cursorKind_of_kind? hk)
  · exact hnone (cursorKind_of_kind? hk)

/-- **A header that becomes a call is left for a scope that can be named.** -/
theorem orderly_retire (hs : s.Sound) (hreturns : s.tree.Returns s.cursor)
    (hlists : s.tree.PlainLists) (hk : s.cursorKind = .function) (h : s.retire = .ok s') :
    s'.Orderly := by
  obtain ⟨s₁, s₂, line, hhoist, hpop, rfl⟩ := retire_ok h
  obtain ⟨hcursor, hhoists⟩ := hoists_of_ok hk hhoist
  have hparent := parent?_of_popScope hpop
  rw [tree_note, cursor_note, hcursor, hhoists.parent?,
    if_neg (hs.laid.not_mem_listed (Nat.le_refl _))] at hparent
  have hlt := hs.laid.parent_lt _ _ hparent
  have hnode : ∀ i < s.cursor, s₁.tree.node? i = s.tree.node? i :=
    fun i hi => hs.node?_hoistParameters hk hhoist hi
  have hlist : ∀ l, s.tree.kind? l = some .functionParams →
      s₁.tree.kind? l = some .functionParams := by
    intro l hl
    rw [hhoists.kind?, if_neg, hl]
    rintro rfl
    rw [kind?_cursor hk (by decide)] at hl
    cases hl
  have htree : s₂.tree = s₁.tree := (tree_popScope hpop).trans (tree_note _ _)
  have hsame := hnode s₂.cursor hlt
  cases hreturns with
  | root hp =>
    rw [hp] at hparent
    cases hparent
  | @scope _ p hp hnext hup =>
    obtain rfl := Option.some.inj (hp.symm.trans hparent)
    have hbefore := hnext.resolve_right (not_isBody (by simp [hk]) (by simp [hk]))
    have horderly : s₂.Orderly := by
      refine ⟨?_, ?_, ?_⟩
      · rw [htree]
        exact hbefore.of_node? hsame hlist
      · rw [htree]
        refine hup.congr hs.laid.parent_lt (fun i hi => hnode i (by omega)) hlist ?_ ?_
        · rw [Tree.kind?, hsame, Tree.kind?]
        · rw [Tree.parent?, hsame, Tree.parent?]
      · rw [htree]
        exact hs.plainLists_hoistParameters hk hlists hhoist
    exact horderly.congr rfl rfl

/-! ### Symbols -/

theorem Orderly.openParen (hs : s.Sound) (h : s.Orderly) (hread : s.openParen = .ok s') :
    s'.Orderly := by
  rcases openParen_ok hread with ⟨hk, rfl⟩ | ⟨-, -, rfl⟩
  · refine orderly_push (hs.reach s.reach_nameCursorIfPending)
      (returns_nameCursorIfPending hs h.returns)
      (plainLists_nameCursorIfPending h.lists (by simp [hk])) (tree_pushScope _ _ _)
      (cursor_pushScope _ _ _) rfl rfl rfl (fun _ => rfl) ?_
    exact Or.inl (nameable_of_list hs h hk _)
  · exact h.pushNamed hs (Or.inl rfl) _

theorem Orderly.closeParen (hs : s.Sound) (h : s.Orderly) (hread : s.closeParen = .ok s') :
    s'.Orderly := by
  obtain ⟨s₁, hpop, hcases⟩ := closeParen_ok hread
  -- a list and a call are no bodies, whatever becomes of the word before
  obtain ⟨h₁, himpl, hnone⟩ : s₁.Orderly ∧ s₁.cursorKind ≠ .functionImpl ∧
      s₁.cursorKind ≠ .none := by
    rcases hcases with ⟨hk, -, rfl⟩ | ⟨hk, -, rfl⟩ | ⟨hk, -, rfl⟩
    · have hsame :=
        hs.cursorKind_of_scopes (hs.reach s.reach_addParameter) hs.scopes_addParameter
      exact ⟨h.addParameter hs, by simp [hsame, hk], by simp [hsame, hk]⟩
    · have hsame :=
        hs.cursorKind_of_scopes (hs.reach s.reach_addArgument) hs.scopes_addArgument
      exact ⟨h.addArgument hs hk, by simp [hsame, hk], by simp [hsame, hk]⟩
    · refine ⟨h, ?_, ?_⟩ <;> rcases hk with hk | hk <;> simp [hk]
  exact orderly_popScope h₁.returns h₁.lists hpop (not_isBody himpl hnone)

theorem Orderly.comma (hs : s.Sound) (h : s.Orderly) (hread : s.comma = .ok s') :
    s'.Orderly := by
  rcases comma_ok hread with ⟨-, -, rfl⟩ | ⟨hk, rfl⟩
  · exact h.addParameter hs
  · exact h.addArgument hs hk

theorem Orderly.openBrace (hs : s.Sound) (h : s.Orderly) (hread : s.openBrace = .ok s') :
    s'.Orderly := by
  have hnamed := hs.reach s.reach_nameCursorIfPending
  have hlt := hnamed.isOpen.lt_size
  have hreturns := returns_nameCursorIfPending hs h.returns
  rcases openBrace_ok hread with ⟨hk, rfl⟩ | ⟨htype, rfl⟩ | ⟨-, -, rfl⟩
  · have hlists := plainLists_nameCursorIfPending h.lists (s := s) (by simp [hk])
    have hpush := orderly_push hnamed hreturns hlists
      (tree_pushScope _ .functionImpl s.nameCursorIfPending.location) (cursor_pushScope _ _ _)
      rfl rfl rfl (fun _ => rfl) (Or.inr (Or.inl ?_))
    · exact hpush.congr rfl rfl
    · rw [Tree.kind?_sprout hlt, if_pos rfl]
  · have hlists := plainLists_nameCursorIfPending h.lists (s := s)
      (by rintro hk; simp [hk, NodeKind.isType] at htype)
    refine orderly_push hnamed hreturns hlists (tree_pushScope _ _ _) (cursor_pushScope _ _ _)
      rfl rfl rfl (fun _ => rfl) (Or.inr (Or.inr ⟨?_, s.cursorKind, ?_, htype⟩))
    · rw [Tree.kind?_sprout hlt, if_pos rfl]
    · rw [Tree.kind?_sprout_of_lt hlt _ hlt, hnamed.kind?_eq, cursorKind_nameCursorIfPending]
  · exact h.pushNamed hs (Or.inr rfl) _

theorem Orderly.closeBrace (hs : s.Nested) (h : s.Orderly) (hread : s.closeBrace = .ok s') :
    s'.Orderly := by
  obtain ⟨-, hlist, s₁, s₂, hpop, rfl, hcases⟩ := closeBrace_ok hread
  have hflush := h.flushIfPending hs.toSound hlist
  have hsound := hs.reach s.reach_flushIfPending
  have hkind := hs.cursorKind_flushIfPending
  have hs₁ := hsound.popScope hpop
  rcases hcases with ⟨hbody, hpop'⟩ | ⟨himpl, hnone, rfl⟩
  · -- what is closed together with its body is a function or a type, and no body itself
    obtain ⟨-, hreturns⟩ := returns_popScope hflush.returns hpop
    have hlists : s₁.tree.PlainLists := by
      rw [tree_popScope hpop]
      exact hflush.lists
    have howner : s₁.cursorKind ≠ .functionImpl ∧ s₁.cursorKind ≠ .none := by
      rcases hbody with hk | ⟨-, htype⟩
      · have hnesting := hs.nesting
        have hscopes := hsound.scopes_popScope hpop
        obtain ⟨ks, hks⟩ := hs₁.scopes_eq
        rw [hs.scopes_flushIfPending, hkind, hk, hks] at hscopes
        rw [hscopes] at hnesting
        rw [hnesting.tail_of_body]
        decide
      · generalize s₁.cursorKind = k at htype
        cases k <;> first | decide | cases htype
    have hend := orderly_popScope hreturns hlists hpop' (not_isBody howner.1 howner.2)
    exact hend.congr rfl rfl
  · refine (orderly_popScope hflush.returns hflush.lists hpop ?_).congr rfl rfl
    rintro (hk | ⟨hk, k, hk', htype⟩)
    · rw [hsound.kind?_eq, hkind] at hk
      exact himpl (Option.some.inj hk)
    · rw [hsound.kind?_eq, hkind] at hk
      rw [← tree_popScope hpop, hs₁.kind?_eq] at hk'
      exact hnone ⟨Option.some.inj hk, Option.some.inj hk' ▸ htype⟩

theorem returns_nameHeader (hs : s.Sound) (h : s.Orderly) :
    s.nameHeader.tree.Returns s.nameHeader.cursor := by
  rw [nameHeader]
  split
  · exact returns_nameCursorIfPending hs h.returns
  · exact h.returns

theorem plainLists_nameHeader (h : s.Orderly) (hk : s.cursorKind ≠ .functionParams) :
    s.nameHeader.tree.PlainLists := by
  rw [nameHeader]
  split
  · exact plainLists_nameCursorIfPending h.lists hk
  · exact h.lists

theorem Orderly.semicolon (hs : s.Sound) (h : s.Orderly) (hread : s.semicolon = .ok s') :
    s'.Orderly := by
  rcases semicolon_ok hread with ⟨hheader, hretire⟩ | ⟨-, hlist, -, rfl⟩
  · have hnamed := hs.nameHeader
    have hkind := hheader.nameHeader.1
    refine orderly_retire (hnamed.reach s.nameHeader.reach_flushIfPending)
      (returns_flushIfPending hnamed (returns_nameHeader hs h))
      (plainLists_flushIfPending hnamed (plainLists_nameHeader h (by simp [hheader.1])) ?_)
      hheader.nameHeader.flushIfPending.1 hretire
    rw [hkind]
    decide
  · exact (h.flushIfPending hs hlist).congr rfl rfl

/-- **Every symbol keeps the open scope and those around it in order.** -/
theorem Orderly.symbol {sym : Symbol} (hs : s.Nested) (h : s.Orderly)
    (hread : s.symbol sym = .ok s') : s'.Orderly := by
  cases sym with
  | openParen => exact h.openParen hs.toSound hread
  | closeParen => exact h.closeParen hs.toSound hread
  | openBrace => exact h.openBrace hs.toSound hread
  | closeBrace => exact h.closeBrace hs hread
  | comma => exact h.comma hs.toSound hread
  | semicolon => exact h.semicolon hs.toSound hread
  | openBracket | closeBracket | tab | space | singleQuote | doubleQuote | newline =>
    cases hread
    exact h.congr rfl rfl

theorem Orderly.scan {c : Char} (hs : s.Nested) (h : s.Orderly) (hread : s.scan c = .ok s') :
    s'.Orderly := by
  rw [Scanner.scan] at hread
  split at hread
  · split at hread <;> cases hread <;> exact h.congr rfl rfl
  · split at hread
    · cases hread
      exact h.congr rfl rfl
    · exact (h.takeKeyword hs.toSound).symbol hs.takeKeyword hread

theorem orderly_start (s : Scanner) (name : String) : (s.start name).Orderly := by
  refine ⟨⟨fun n hn => ?_, fun n hn _ => Or.inl ?_, fun n hn _ => ?_⟩, .root rfl,
    fun l n hn hk => ?_, fun l j n hk hj => ?_⟩
  · rw [eq_of_node?_start hn]
  · rw [eq_of_node?_start hn]
  · rw [eq_of_node?_start hn]
  · rw [eq_of_node?_start hn] at hk
    cases hk
  · change j ∈ (Tree.empty name { file := name }).children l at hj
    rw [children_empty] at hj
    cases hj

/-! ### What is named has no text -/

theorem openParen_unlisted (h : s.openParen = .ok s') (hk : s.cursorKind = .function) :
    s.tree.childOfKind? s.cursor .functionParams = none := by
  rw [openParen, if_pos hk] at h
  dsimp only at h
  split at h
  · cases h
  · rename_i hnone
    rw [cursor_nameCursorIfPending, s.sameLinks_nameCursorIfPending.childOfKind?] at hnone
    simpa using hnone

theorem openBrace_unnamed (h : s.openBrace = .ok s') (hk : s.cursorKind = .function)
    (hw : s.word.isPending) : s.cursorName = none := by
  rw [openBrace, if_pos hk] at h
  split at h
  · cases h
  · rename_i hnot
    simpa [hw] using hnot

/-- **A function has no text when its parameters begin.** -/
theorem Orderly.unnamed_of_openParen (h : s.Orderly) (hread : s.openParen = .ok s')
    (hk : s.cursorKind = .function) (hn : s.tree.node? s.cursor = some n) :
    n.name = none ∧ n.value = none := by
  refine ⟨?_, h.nameable.value n hn⟩
  have hkind := kind?_cursor hk (by decide)
  rw [Tree.kind?_of_node? hn] at hkind
  rcases h.nameable.header n hn (Option.some.inj hkind) with hname | ⟨l, hl, hkl⟩
  · exact hname
  · have hnone := List.find?_eq_none.mp (openParen_unlisted hread hk) l hl
    simp [hkl] at hnone

/-- **A function or a type has no text when its body begins**, if a word is there to
name it. -/
theorem Orderly.unnamed_of_openBrace (h : s.Orderly) (hread : s.openBrace = .ok s')
    (hk : s.cursorKind = .function ∨ s.cursorKind.isType) (hw : s.word.isPending)
    (hn : s.tree.node? s.cursor = some n) : n.name = none ∧ n.value = none := by
  refine ⟨?_, h.nameable.value n hn⟩
  rcases hk with hk | hk
  · have hname := openBrace_unnamed hread hk hw
    rwa [cursorName, hn] at hname
  · refine h.nameable.type n hn ?_
    rwa [cursorKind, Tree.kind?_of_node? hn] at hk

/-- A header that is named where it ends has no text either. -/
theorem Orderly.unnamed_of_nameHeader (h : s.Orderly) (hname : s.cursorName = none)
    (hn : s.tree.node? s.cursor = some n) : n.name = none ∧ n.value = none := by
  refine ⟨?_, h.nameable.value n hn⟩
  rwa [cursorName, hn] at hname

end Scanner

end ScopeScript
