import ScopeScript.Proofs.Tree.Hoist
import ScopeScript.Scanner.Step

/-!
# Headers that become calls, in the scanner

When a header ends without a body, the scanner makes it a call and moves what
its parameter list holds up to it, one node after the other; each node takes its
name for its value on the way (`ScopeScript.Node.asArgument`). A node without a
name has nothing to take, and that is the one thing that can go wrong
(`ScopeScript.Scanner.adoptParameters_ok_iff`). Where nothing goes wrong the
links change as `ScopeScript.Tree.Hoists` says (`ScopeScript.Scanner.hoists_of_ok`).
-/

namespace ScopeScript

/-- A parameter made an argument of a call: the name becomes the value, and stays
the name only if it was not quoted. -/
def Node.asArgument (call : Nat) (n : Node) : Node :=
  { n with
    parent := some call
    value := n.name.map .string
    name := if n.quoted then none else n.name }

/-- The name of a node. -/
def Tree.name? (t : Tree) (i : Nat) : Option String := (t.node? i).bind (·.name)

namespace Scanner

variable {s s' : Scanner} {call p : Nat} {ps : List Nat}

/-- The open scope is a function header that has no body yet. -/
def IsHeader (s : Scanner) : Prop :=
  s.cursorKind = .function ∧ s.tree.childOfKind? s.cursor .functionImpl = none

/-- The scanner in which the open scope is a call, whatever it was. -/
def asCall (s : Scanner) : Scanner := s.modifyNode s.cursor fun n => { n with kind := .call }

/-- What goes wrong with a node that has no name: there is no text to make its
value of. -/
def namelessError : HostError := .conversion (.wrongPayload .string Datum.null.typeName)

/-- The failure of a header that cannot become a call. -/
def nameless : Failure := .host namelessError

/-! ### One parameter after the other -/

theorem adoptParameters_nil (s : Scanner) (call : Nat) : s.adoptParameters call [] = .ok s := rfl

theorem adoptParameters_cons_some {name : String} (h : s.tree.name? p = some name) :
    s.adoptParameters call (p :: ps)
      = (s.modifyNode p (Node.asArgument call)).adoptParameters call ps := by
  obtain ⟨n, hn, hname⟩ := Option.bind_eq_some_iff.mp h
  rw [adoptParameters]
  have hlook : ((s.modifyNode p fun n => { n with parent := some call }).tree.node? p).bind
      (·.name) = some name := by
    simp [modifyNode, Tree.node?_modify_self, hn, hname]
  simp only [hlook]
  congr 1
  simp only [modifyNode]
  congr 1
  refine Tree.ext_node? rfl fun j => ?_
  rw [Tree.node?_modify, Tree.node?_modify, Tree.node?_modify]
  by_cases hj : p = j
  · subst hj
    simp [hn, Node.asArgument, hname]
  · rw [if_neg hj, if_neg hj, if_neg hj]

theorem adoptParameters_cons_none (h : s.tree.name? p = none) :
    s.adoptParameters call (p :: ps)
      = .failed (s.modifyNode p fun n => { n with parent := some call }) nameless := by
  rw [adoptParameters]
  have hlook : ((s.modifyNode p fun n => { n with parent := some call }).tree.node? p).bind
      (·.name) = none := by
    rw [modifyNode, Tree.node?_modify_self]
    rw [Tree.name?] at h
    cases hn : s.tree.node? p with
    | none => rfl
    | some n =>
      rw [hn] at h
      exact h
  simp only [hlook]
  rfl

/-- Only a node without a name stops the adoption. -/
theorem adoptParameters_failed {e : Failure} (h : s.adoptParameters call ps = .failed s' e) :
    e = nameless := by
  induction ps generalizing s with
  | nil => cases h
  | cons p ps ih =>
    cases hp : s.tree.name? p with
    | none =>
      rw [adoptParameters_cons_none hp] at h
      cases h
      rfl
    | some name =>
      rw [adoptParameters_cons_some hp] at h
      exact ih h

theorem name?_modifyNode_of_ne {f : Node → Node} {i j : Nat} (h : i ≠ j) :
    (s.modifyNode i f).tree.name? j = s.tree.name? j := by
  rw [Tree.name?, modifyNode, Tree.node?_modify_of_ne h, Tree.name?]

/-- **Parameters can be adopted exactly if each of them has a name.** None of them
may be listed twice, since one that was quoted loses its name. -/
theorem adoptParameters_ok_iff (hnd : ps.Nodup) :
    (∃ s', s.adoptParameters call ps = .ok s') ↔ ∀ p ∈ ps, (s.tree.name? p).isSome := by
  induction ps generalizing s with
  | nil => simp [adoptParameters_nil]
  | cons p ps ih =>
    obtain ⟨hp, hnd⟩ := List.nodup_cons.mp hnd
    rw [List.forall_mem_cons]
    cases hname : s.tree.name? p with
    | none =>
      rw [adoptParameters_cons_none hname]
      simp
    | some name =>
      rw [adoptParameters_cons_some hname, ih hnd]
      have hsame : ∀ q ∈ ps,
          (s.modifyNode p (Node.asArgument call)).tree.name? q = s.tree.name? q :=
        fun q hq => name?_modifyNode_of_ne fun hpq => hp (hpq ▸ hq)
      refine ⟨fun h => ⟨rfl, fun q hq => ?_⟩, fun h q hq => ?_⟩
      · rw [← hsame q hq]
        exact h q hq
      · rw [hsame q hq]
        exact h.2 q hq

/-- Adopting parameters changes where they belong, and no other link. -/
structure Adopts (s s' : Scanner) (call : Nat) (ps : List Nat) : Prop where
  cursor : s'.cursor = s.cursor
  size : s'.tree.size = s.tree.size
  kind? : ∀ j, s'.tree.kind? j = s.tree.kind? j
  children : ∀ j, s'.tree.children j = s.tree.children j
  parent? : ∀ j, s'.tree.parent? j = if j ∈ ps then some call else s.tree.parent? j

theorem parent?_asArgument (hp : p < s.tree.size) (j : Nat) :
    (s.modifyNode p (Node.asArgument call)).tree.parent? j
      = if j = p then some call else s.tree.parent? j := by
  obtain ⟨n, hn⟩ := Tree.exists_node? hp
  rw [Tree.parent?, modifyNode, Tree.node?_modify]
  by_cases hj : p = j
  · subst hj
    rw [if_pos rfl, if_pos rfl, hn]
    rfl
  · rw [if_neg hj, if_neg (Ne.symm hj), Tree.parent?]

theorem adopts_of_ok (h : s.adoptParameters call ps = .ok s') : Adopts s s' call ps := by
  induction ps generalizing s with
  | nil =>
    cases h
    exact ⟨rfl, rfl, fun _ => rfl, fun _ => rfl, fun _ => by simp⟩
  | cons p ps ih =>
    cases hp : s.tree.name? p with
    | none =>
      rw [adoptParameters_cons_none hp] at h
      cases h
    | some name =>
      rw [adoptParameters_cons_some hp] at h
      obtain ⟨n, hn, -⟩ := Option.bind_eq_some_iff.mp hp
      have hrest := ih h
      refine ⟨hrest.cursor, ?_, fun j => ?_, fun j => ?_, fun j => ?_⟩
      · rw [hrest.size, modifyNode, Tree.size_modify]
      · rw [hrest.kind?]
        exact Tree.kind?_modify (f := Node.asArgument call) (fun _ => rfl) j
      · rw [hrest.children]
        exact Tree.children_modify (f := Node.asArgument call) (fun _ => rfl) j
      · rw [hrest.parent?, parent?_asArgument (Tree.lt_size_of_node? hn)]
        by_cases hj : j = p
        · simp [hj]
        · simp [hj]

/-- Whatever becomes of parameters, the tree keeps its name. -/
theorem treeName_adoptParameters (s : Scanner) (call : Nat) (ps : List Nat) :
    (s.adoptParameters call ps).state.tree.name = s.tree.name := by
  induction ps generalizing s with
  | nil => rfl
  | cons p ps ih =>
    cases hp : s.tree.name? p with
    | none =>
      rw [adoptParameters_cons_none hp]
      rfl
    | some name =>
      rw [adoptParameters_cons_some hp, ih]
      rfl

/-! ### The whole list -/

theorem kind?_cursor {k : NodeKind} (h : s.cursorKind = k) (hk : k ≠ .global) :
    s.tree.kind? s.cursor = some k := by
  unfold cursorKind at h
  cases hc : s.tree.kind? s.cursor with
  | none =>
    rw [hc] at h
    exact absurd h.symm hk
  | some k' =>
    rw [hc] at h
    exact congrArg some h

theorem kind?_asCall (h : s.cursorKind = .function) (j : Nat) :
    s.asCall.tree.kind? j = if j = s.cursor then some .call else s.tree.kind? j := by
  obtain ⟨n, hn⟩ := Tree.exists_node? (Tree.lt_size_of_kind? (kind?_cursor h (by decide)))
  rw [Tree.kind?, asCall, modifyNode, Tree.node?_modify]
  by_cases hj : s.cursor = j
  · rw [if_pos hj, if_pos hj.symm, ← hj, hn]
    rfl
  · rw [if_neg hj, if_neg (Ne.symm hj), Tree.kind?]

theorem children_asCall (s : Scanner) (j : Nat) :
    s.asCall.tree.children j = s.tree.children j :=
  Tree.children_modify (f := fun n => { n with kind := .call }) (fun _ => rfl) j

theorem parent?_asCall (s : Scanner) (j : Nat) : s.asCall.tree.parent? j = s.tree.parent? j :=
  Tree.parent?_modify (f := fun n => { n with kind := .call }) (fun _ => rfl) j

/-- A header is no parameter list, and neither is a call. -/
theorem childOfKind?_asCall (h : s.cursorKind = .function) (i : Nat) :
    s.asCall.tree.childOfKind? i .functionParams = s.tree.childOfKind? i .functionParams := by
  refine Tree.childOfKind?_congr (s.children_asCall i) fun j => ?_
  rw [kind?_asCall h]
  split
  · rename_i hj
    rw [hj, kind?_cursor h (by decide)]
    simp
  · rfl

theorem name?_asCall (s : Scanner) (j : Nat) : s.asCall.tree.name? j = s.tree.name? j := by
  rw [Tree.name?, asCall, modifyNode, Tree.node?_modify]
  split
  · rw [Tree.name?]
    cases s.tree.node? j <;> rfl
  · rfl

theorem hoistParameters_none (hk : s.cursorKind = .function)
    (hl : s.tree.childOfKind? s.cursor .functionParams = none) :
    s.asCall.hoistParameters s.cursor = .ok s.asCall := by
  unfold hoistParameters
  rw [childOfKind?_asCall hk, hl]

/-- The links of a call and its emptied list, once the parameters are adopted. -/
def relist (s : Scanner) (call l : Nat) (moved : List Nat) : Scanner :=
  (s.modifyNode call fun n =>
    { n with children := n.children.flatMap fun c => if c = l then moved else [c] })
  |>.modifyNode l fun n => { n with children := [] }

/-- Hoisting is adopting what the list holds, and putting it in the place of the
list. -/
theorem hoistParameters_some {l : Nat} (hk : s.cursorKind = .function)
    (hl : s.tree.childOfKind? s.cursor .functionParams = some l) :
    s.asCall.hoistParameters s.cursor
      = (s.asCall.adoptParameters s.cursor (s.tree.children l)).andThen fun s₁ =>
          .ok (s₁.relist s.cursor l (s.tree.children l)) := by
  unfold hoistParameters
  rw [childOfKind?_asCall hk, hl]
  simp only [children_asCall]
  rfl

theorem treeName_hoistParameters (hk : s.cursorKind = .function)
    (h : s.asCall.hoistParameters s.cursor = .ok s') : s'.tree.name = s.tree.name := by
  cases hl : s.tree.childOfKind? s.cursor .functionParams with
  | none =>
    rw [hoistParameters_none hk hl] at h
    cases h
    rfl
  | some l =>
    rw [hoistParameters_some hk hl] at h
    have hname := s.asCall.treeName_adoptParameters s.cursor (s.tree.children l)
    cases ha : s.asCall.adoptParameters s.cursor (s.tree.children l) with
    | failed s₁ e =>
      rw [ha] at h
      cases h
    | ok s₁ =>
      rw [ha] at h hname
      cases h
      exact hname

theorem hoistParameters_failed {e : Failure} (hk : s.cursorKind = .function)
    (h : s.asCall.hoistParameters s.cursor = .failed s' e) : e = nameless := by
  cases hl : s.tree.childOfKind? s.cursor .functionParams with
  | none =>
    rw [hoistParameters_none hk hl] at h
    cases h
  | some l =>
    rw [hoistParameters_some hk hl] at h
    cases ha : s.asCall.adoptParameters s.cursor (s.tree.children l) with
    | ok s₁ =>
      rw [ha] at h
      cases h
    | failed s₁ e₁ =>
      rw [ha] at h
      cases h
      exact adoptParameters_failed ha

/-- **A header can become a call exactly if its list holds no node without a
name.** -/
theorem hoistParameters_ok_iff (hk : s.cursorKind = .function)
    (hnd : (s.tree.listed s.cursor).Nodup) :
    (∃ s', s.asCall.hoistParameters s.cursor = .ok s') ↔
      ∀ p ∈ s.tree.listed s.cursor, (s.tree.name? p).isSome := by
  cases hl : s.tree.childOfKind? s.cursor .functionParams with
  | none => simp [hoistParameters_none hk hl, Tree.listed, hl]
  | some l =>
    rw [Tree.listed_eq hl] at hnd ⊢
    have hiff : (∃ s', s.asCall.adoptParameters s.cursor (s.tree.children l) = .ok s') ↔
        ∀ p ∈ s.tree.children l, (s.asCall.tree.name? p).isSome := adoptParameters_ok_iff hnd
    simp only [name?_asCall] at hiff
    rw [← hiff, hoistParameters_some hk hl]
    cases s.asCall.adoptParameters s.cursor (s.tree.children l) <;> simp [Scanned.andThen]

/-- **A header that becomes a call** has the links that `Tree.Hoists` says. -/
theorem hoists_of_ok (hk : s.cursorKind = .function)
    (h : s.asCall.hoistParameters s.cursor = .ok s') :
    s'.cursor = s.cursor ∧ s.tree.Hoists s'.tree s.cursor := by
  cases hl : s.tree.childOfKind? s.cursor .functionParams with
  | none =>
    rw [hoistParameters_none hk hl] at h
    cases h
    have hlisted : s.tree.listed s.cursor = [] := by rw [Tree.listed, hl]
    refine ⟨rfl, Tree.size_modify _ _ _, kind?_asCall hk, fun j => ?_, fun j => ?_⟩
    · rw [hlisted, parent?_asCall]
      simp
    · rw [children_asCall]
      simp only [hl, reduceCtorEq, if_false, List.flatMap_singleton']
      split
      · rename_i hj
        rw [hj]
      · rfl
  | some l =>
    rw [hoistParameters_some hk hl] at h
    cases ha : s.asCall.adoptParameters s.cursor (s.tree.children l) with
    | failed s₁ e =>
      rw [ha] at h
      cases h
    | ok s₁ =>
      rw [ha] at h
      cases h
      have hadopt := adopts_of_ok ha
      have hlisted := Tree.listed_eq hl
      have hcursor := kind?_cursor hk (by decide)
      have hlist := Tree.kind?_of_childOfKind? hl
      have hne : l ≠ s.cursor := by
        rintro rfl
        rw [hcursor] at hlist
        exact absurd hlist (by decide)
      have hsize : s₁.tree.size = s.tree.size :=
        hadopt.size.trans (Tree.size_modify _ _ _)
      refine ⟨hadopt.cursor, ?_, fun j => ?_, fun j => ?_, fun j => ?_⟩
      · simpa [relist, modifyNode] using hsize
      · rw [← kind?_asCall hk, ← hadopt.kind?]
        simp only [relist, modifyNode]
        rw [Tree.kind?_modify, Tree.kind?_modify]
        · exact fun _ => rfl
        · exact fun _ => rfl
      · rw [hlisted, ← s.parent?_asCall, ← hadopt.parent?]
        simp only [relist, modifyNode]
        rw [Tree.parent?_modify, Tree.parent?_modify]
        · exact fun _ => rfl
        · exact fun _ => rfl
      · have hcs : s.cursor < s₁.tree.size := hsize ▸ Tree.lt_size_of_kind? hcursor
        have hls : l < s₁.tree.size := hsize ▸ Tree.lt_size_of_kind? hlist
        simp only [relist, modifyNode, hl, hlisted, Option.some.injEq]
        rw [Tree.children_relist (by simpa using hls) fun _ => [],
          Tree.children_relist hcs, hadopt.children, hadopt.children, children_asCall,
          children_asCall]
        by_cases hj : j = l
        · simp [hj, hne]
        · simp [hj, Ne.symm hj, @eq_comm _ l]

end Scanner

end ScopeScript
