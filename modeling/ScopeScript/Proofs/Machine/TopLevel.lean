import ScopeScript.Proofs.Machine.Phases

/-!
# Only functions at the top level are ever run

A call looks for its function among those that it stands in and among those at the
top level of all scripts. One might expect that the first of these lets a function
declare others for its own use. **It does not**: where functions can be called, a
function that is declared inside of anything, be it another function, a block, a
class or a list of arguments, is never run (`ScopeScript.Machine.visits_topLevel`).

The reason is that a run passes over declarations. So the only way into a function is
a call that finds it, and a call can only find what it stands in or what is at the top
level. A node that is visited therefore stands in no function, or in a single one that
is at the top level (`ScopeScript.Code.Shallow`), and whatever its call finds is at the
top level as well (`ScopeScript.Code.Shallow.topLevel`).

This is an invariant of the list of tasks: one task keeps it
(`ScopeScript.Code.Shallows.step`), and so does a run. That all trees are well-formed,
after any history, is what makes the ways up and down a tree agree
(`ScopeScript.Code.Regular`).
-/

namespace ScopeScript

/-! ### Ways up and down a tree -/

namespace Forest

variable {f : Forest} {r q func : NodeRef} {kind : NodeKind}

theorem tree_of_mem_children (h : q ∈ f.children r) : q.tree = r.tree := by
  obtain ⟨i, -, rfl⟩ := List.mem_map.mp h
  rfl

theorem mem_children_of_childOfKind? (h : f.childOfKind? r kind = some q) :
    q ∈ f.children r ∧ (f.node? q).map (·.kind) = some kind := by
  obtain ⟨i, hi, rfl⟩ := Option.map_eq_some_iff.mp h
  rw [onTree] at hi
  cases ht : f.tree? r.tree with
  | none => simp [ht] at hi
  | some t =>
    rw [ht] at hi
    refine ⟨List.mem_map.mpr ⟨i, ?_, rfl⟩, ?_⟩
    · rw [onTree, ht]
      exact List.mem_of_find?_eq_some hi
    · simpa [node?, ht, Tree.kind?] using List.find?_some hi

/-- **Above a child stand its parent and what is above that.** -/
theorem ancestors_of_mem_children (hw : f.WellFormed) (h : q ∈ f.children r) :
    f.ancestors q = r :: f.ancestors r := by
  obtain ⟨i, hi, rfl⟩ := List.mem_map.mp h
  cases ht : f.tree? r.tree with
  | none => simp [onTree, ht] at hi
  | some t =>
    have hi : i ∈ t.children r.node := by simpa [onTree, ht] using hi
    have hwell := hw t (Array.mem_of_getElem? ht)
    have hup : t.ancestors i = r.node :: t.ancestors r.node := by
      rw [Tree.ancestors, hwell.parent_of_mem r.node i hi]
      exact if_pos (hwell.lt_of_mem hi)
    simp [ancestors, onTree, ht, hup, siblings]

/-- Nothing stands above the root of a tree. -/
theorem ancestors_root (hw : f.WellFormed) (i : Nat) : f.ancestors ⟨i, 0⟩ = [] := by
  cases ht : f.tree? i with
  | none => simp [ancestors, onTree, ht, siblings]
  | some t =>
    have hwell := hw t (Array.mem_of_getElem? ht)
    have hup : t.ancestors 0 = [] := by
      rw [Tree.ancestors, (hwell.orphan_iff 0 hwell.size_pos).mpr rfl]
    simp [ancestors, onTree, ht, hup, siblings]

/-- The root of a tree stands for the whole script. -/
theorem kind_root (hw : f.WellFormed) {i : Nat} {n : Node} (h : f.node? ⟨i, 0⟩ = some n) :
    n.kind = .global := by
  obtain ⟨t, ht, hn⟩ := Option.bind_eq_some_iff.mp h
  have hkind := ((hw t (Array.mem_of_getElem? ht)).global_iff 0).mpr rfl
  rw [Tree.kind?_of_node? hn] at hkind
  exact Option.some.inj hkind

end Forest

namespace Code

variable {c : Code} {r q func : NodeRef} {n : Node} {s s' : Store} {task : Task}
  {tasks rest : List Task}

/-! ### The functions around a node -/

/-- Whether a node is the declaration of a function. -/
def isFunction (c : Code) (r : NodeRef) : Bool :=
  (c.forest.node? r).map (·.kind) == some .function

/-- The functions that a node stands in, innermost first. -/
def enclosing (c : Code) (r : NodeRef) : List NodeRef := (c.forest.ancestors r).filter c.isFunction

/-- **A node stands in one function at most, which is at the top level of its tree.** -/
structure Shallow (c : Code) (r : NodeRef) : Prop where
  /-- There is one function at most. -/
  length_le : (c.enclosing r).length ≤ 1
  /-- It is a child of the root. -/
  topLevel : ∀ func ∈ c.enclosing r, func ∈ c.forest.children ⟨r.tree, 0⟩

theorem isFunction_of_node? (h : c.forest.node? r = some n) :
    c.isFunction r = true ↔ n.kind = .function := by
  simp [isFunction, h]

theorem shallow_root (hw : c.forest.WellFormed) (i : Nat) : c.Shallow ⟨i, 0⟩ := by
  have hnone : c.enclosing ⟨i, 0⟩ = [] := by
    rw [enclosing, Forest.ancestors_root hw, List.filter_nil]
  constructor
  · rw [hnone]
    exact Nat.zero_le 1
  · rw [hnone]
    exact fun func hfunc => nomatch hfunc

/-- **What stands in a node that is no function stands in no more functions.** -/
theorem Shallow.child (hw : c.forest.WellFormed) (h : c.Shallow r) (hr : ¬c.isFunction r)
    (hq : q ∈ c.forest.children r) : c.Shallow q := by
  have hsame : c.enclosing q = c.enclosing r := by
    rw [enclosing, Forest.ancestors_of_mem_children hw hq, List.filter_cons_of_neg hr, enclosing]
  constructor
  · rw [hsame]
    exact h.length_le
  · rw [hsame, Forest.tree_of_mem_children hq]
    exact h.topLevel

/-- **What stands in the body of a function at the top level stands in that one
only.** -/
theorem shallow_body (hw : c.forest.WellFormed) {i : Nat}
    (hfunc : func ∈ c.forest.children ⟨i, 0⟩) (hq : q ∈ c.body func) : c.Shallow q := by
  rw [body] at hq
  split at hq
  · cases hq
  · rename_i impl himpl
    obtain ⟨hmem, hkind⟩ := Forest.mem_children_of_childOfKind? himpl
    rw [Forest.below_eq_children hw] at hq
    have himplNot : ¬c.isFunction impl := by simp [isFunction, hkind]
    have hrootNot : ¬c.isFunction ⟨i, 0⟩ := by
      intro hroot
      rw [isFunction, beq_iff_eq, Option.map_eq_some_iff] at hroot
      obtain ⟨n, hn, hk⟩ := hroot
      rw [Forest.kind_root hw hn] at hk
      cases hk
    have hup : c.forest.ancestors q = [impl, func, ⟨i, 0⟩] := by
      rw [Forest.ancestors_of_mem_children hw hq, Forest.ancestors_of_mem_children hw hmem,
        Forest.ancestors_of_mem_children hw hfunc, Forest.ancestors_root hw]
    have htree : q.tree = i := by
      rw [Forest.tree_of_mem_children hq, Forest.tree_of_mem_children hmem,
        Forest.tree_of_mem_children hfunc]
    have honly : c.enclosing q = [func].filter c.isFunction := by
      simp [enclosing, hup, List.filter_cons, himplNot, hrootNot]
    constructor
    · rw [honly]
      exact List.length_filter_le _ _
    · rw [honly, htree]
      intro g hg
      obtain rfl : g = func := List.mem_singleton.mp (List.mem_of_mem_filter hg)
      exact hfunc

/-- **What a call finds is at the top level**, of its own tree or of another. -/
theorem Shallow.findFunction (h : c.Shallow r) (hf : c.findFunction r = some func) :
    ∃ i, func ∈ c.forest.children ⟨i, 0⟩ := by
  rw [Code.findFunction] at hf
  split at hf
  · cases hf
  · rename_i name hname
    have hfunction : c.isFunction func := by
      have hnamed := List.find?_some hf
      rw [isFunctionNamed] at hnamed
      split at hnamed
      · rename_i n hn
        rw [isFunction_of_node? hn]
        simpa using (Bool.and_eq_true_iff.mp hnamed).1
      · cases hnamed
    rcases List.mem_append.mp (List.mem_of_find?_eq_some hf) with habove | hprogram
    · exact ⟨r.tree, h.topLevel func (List.mem_filter.mpr ⟨habove, hfunction⟩)⟩
    · obtain ⟨i, -, hmem⟩ := List.mem_flatMap.mp hprogram
      exact ⟨i, hmem⟩

/-! ### Every turn of a run -/

/-- All nodes that are still to be visited stand in one function at most. -/
def Shallows (c : Code) (tasks : List Task) : Prop := ∀ r, .visit r ∈ tasks → c.Shallow r

theorem shallows_append {visits : List NodeRef} (h : ∀ r ∈ visits, c.Shallow r)
    (hrest : c.Shallows rest) : c.Shallows (visits.map .visit ++ rest) := by
  intro r hr
  rcases List.mem_append.mp hr with hr | hr
  · exact h r (by simpa using hr)
  · exact hrest r hr

/-- **A task that is done keeps all nodes on the list in one function at most.** -/
theorem Shallows.step (hw : c.forest.WellFormed) (hinvoke : c.options.invokeFunctions = true)
    (h : c.Shallows (task :: rest)) (hstep : c.step task rest s = (.ok tasks, s')) :
    c.Shallows tasks := by
  have hrest : c.Shallows rest := fun r hr => h r (List.mem_cons_of_mem task hr)
  -- the children of a node that is no function
  have hbelow : ∀ r n, task = .visit r → c.forest.node? r = some n → n.kind ≠ .function →
      c.Shallows ((c.forest.below r).map .visit ++ rest) := by
    intro r n htask hn hk
    refine shallows_append (fun q hq => ?_) hrest
    rw [Forest.below_eq_children hw] at hq
    have hr : c.Shallow r := h r (htask ▸ List.mem_cons_self)
    exact hr.child hw (mt (isFunction_of_node? hn).mp hk) hq
  have hsteps := steps_of_step hstep
  generalize hout : (Except.ok tasks : Except Failure (List Task)) = out at hsteps
  cases hsteps with
  | leave | missing | declaration =>
    cases hout
    exact hrest
  | inner hn hk hi =>
    cases hout
    exact hbelow _ _ rfl hn fun hfunction => hi ⟨hfunction, hinvoke⟩
  | @direct r n _ result hn hk hi hcall =>
    cases result with
    | error e => cases hout
    | ok v =>
      cases hout
      exact hbelow r n rfl hn (by simp [hk])
  | refused => cases hout
  | @entered r func n _ hn hk hi hf he =>
    cases hout
    obtain ⟨i, hfunc⟩ := (h r List.mem_cons_self).findFunction hf
    refine shallows_append (fun q hq => shallow_body hw hfunc hq) fun q hq => ?_
    rcases List.mem_cons.mp hq with hleave | hq
    · cases hleave
    · exact hbelow r n rfl hn (by simp [hk]) q hq

/-- **The same at every turn.** -/
theorem Shallows.reaches {x y : List Task × Store} (hw : c.forest.WellFormed)
    (hinvoke : c.options.invokeFunctions = true) (h : c.Shallows x.1) (hreach : c.Reaches x y) :
    c.Shallows y.1 := by
  induction hreach with
  | refl => exact h
  | tail _ hnext ih =>
    obtain ⟨hstep⟩ := hnext
    exact ih.step hw hinvoke hstep

theorem mem_ancestors_of_mem_body (hw : c.forest.WellFormed) (hq : q ∈ c.body func) :
    func ∈ c.forest.ancestors q := by
  rw [body] at hq
  split at hq
  · cases hq
  · rename_i impl himpl
    obtain ⟨hmem, -⟩ := Forest.mem_children_of_childOfKind? himpl
    rw [Forest.below_eq_children hw] at hq
    rw [Forest.ancestors_of_mem_children hw hq, Forest.ancestors_of_mem_children hw hmem]
    exact List.mem_cons_of_mem impl List.mem_cons_self

/-- **The code of a machine that was made with some options**: they are still the same,
and all trees are well-formed. -/
structure Regular (options : Options) (c : Code) : Prop where
  /-- The options are the same. -/
  options_eq : c.options = options
  /-- All trees are well-formed. -/
  wellFormed : c.forest.WellFormed

end Code

/-! ### The code of a machine through a history -/

theorem Script.HasTree.laid {s : Script} {t : Tree} (h : s.HasTree t) : t.Laid := by
  obtain ⟨source, x, -, hx, rfl⟩ := h.exists_source
  have hsound := ({} : Scanner).sound_parse s.name source
  rw [hx] at hsound
  exact hsound.laid

theorem Script.HasTree.wellFormed {s : Script} {t : Tree} (h : s.HasTree t) : t.WellFormed :=
  h.laid.toWellFormed

namespace Machine

variable {m m₁ : Machine} {s s' : Script} {fs : FileStore} {out : Except Failure Unit}
  {options : Options}

theorem regular_addTree {t : Tree} (h : m.code.Regular options) (ht : t.WellFormed) :
    (m.addTree t).code.Regular options := by
  refine ⟨h.options_eq, fun u hu => ?_⟩
  rcases Array.mem_push.mp hu with hu | rfl
  · exact h.wellFormed u hu
  · exact ht

theorem Deals.regular (hd : Deals m fs s out s' m₁) (h : m.code.Regular options) :
    m₁.code.Regular options := by
  rcases hd with ⟨-, hcode⟩ | ⟨-, hcode⟩ | ⟨-, -, htree, hcode⟩
  · rwa [hcode]
  · rwa [hcode]
  · rw [hcode]
    exact regular_addTree h htree.wellFormed

theorem regular_prepareFrom (h : m.code.Regular options) (files : Nat → FileStore)
    (done rest : List Script) : (m.prepareFrom files done rest).2.code.Regular options := by
  induction rest generalizing m done with
  | nil => exact h
  | cons s rest ih =>
    obtain ⟨out, s', m₁, hdeals, -, heq⟩ := m.prepareFrom_cons files done s rest
    have h₁ := hdeals.regular h
    rw [heq]
    cases out with
    | error e => exact h₁
    | ok => exact ih h₁ (done ++ [s'])

theorem regular_runAmid (h : m.code.Regular options) (files : Nat → FileStore) :
    (m.runAmid files).2.code.Regular options := by
  have hprepare : (m.prepare files).2.code.Regular options :=
    regular_prepareFrom h files [] m.scripts
  rw [runAmid]
  split
  · rename_i e m₁ hr
    rwa [hr] at hprepare
  · rename_i m₁ hr
    rw [hr] at hprepare
    rwa [code_executeTrees]

theorem regular_perform (h : m.code.Regular options) (op : Operation) :
    (m.perform op).code.Regular options := by
  cases op with
  | addScript path name content =>
    rw [perform]
    split
    · exact h
    · split
      · exact h
      · rename_i m₁ hadd
        obtain ⟨-, rfl⟩ := addScript_ok hadd
        exact h
  | load fs path name base =>
    rw [perform]
    split
    · exact h
    · rename_i m₁ s hload
      obtain ⟨-, rfl⟩ := addScript_ok (load_ok hload).2
      exact h
  | addNative name native =>
    rw [perform]
    split
    · exact h
    · rename_i m₁ hadd
      obtain ⟨f, -, rfl⟩ := addNative_ok hadd
      exact ⟨h.options_eq, h.wellFormed⟩
  | run files => exact regular_runAmid h files
  | reset => exact ⟨h.options_eq, h.wellFormed⟩

/-- **After any history the options are the same, and all trees are well-formed.** -/
theorem regular_performAll (h : m.code.Regular options) (ops : List Operation) :
    (m.performAll ops).code.Regular options := by
  induction ops generalizing m with
  | nil => exact h
  | cons op ops ih => exact ih (regular_perform h op)

theorem regular_new (options : Options) : (new options).code.Regular options :=
  ⟨rfl, fun t ht => by simp [new] at ht⟩

/-! ### What a run visits -/

/-- The store that the execution of a tree starts from. -/
def storeFor (m : Machine) (tree : Nat) : Store :=
  (m.note ("Execute AST: " ++ ((m.code.forest.tree? tree).map (·.name)).getD "")).store

/-- Executing a tree is running its root from that store. -/
theorem fst_executeTree (m : Machine) (tree : Nat) :
    (m.executeTree tree).1 = (m.code.run [.visit ⟨tree, 0⟩] (m.storeFor tree)).1 := by
  have hcode : ∀ line, (m.note line).code = m.code := fun line => rfl
  rw [executeTree, storeFor]
  dsimp only [Code.executeNode, advanceScript]
  rw [hcode]
  split
  · rename_i e hrun
    exact hrun.symm
  · rename_i hrun
    exact hrun.symm

/-- **A run visits a node.** -/
inductive Visits (m : Machine) (files : Nat → FileStore) : NodeRef → Prop
  /-- All scripts have been parsed, some trees have been executed, and the execution of
  the next one comes to the node. -/
  | turn {m₁ m₂ : Machine} {ran todo : List Nat} {t : Nat} {r : NodeRef} {rest : List Task}
      {s : Store} (prepared : m.prepare files = (.ok (), m₁))
      (program : m₁.code.program = ran ++ t :: todo)
      (executed : m₁.executeTrees ran = (.ok (), m₂))
      (reached : m₂.code.Reaches ([.visit ⟨t, 0⟩], m₂.storeFor t) (.visit r :: rest, s)) :
      Visits m files r

theorem Visits.shallow {files : Nat → FileStore} {r : NodeRef} (h : m.Visits files r)
    (hregular : m.code.Regular options) (hinvoke : options.invokeFunctions = true) :
    (m.prepare files).2.code.Shallow r := by
  obtain @⟨m₁, m₂, ran, todo, t, _, rest, s, prepared, -, executed, reached⟩ := h
  have h₁ : m₁.code.Regular options := by
    have hprepare := regular_prepareFrom hregular files [] m.scripts
    rwa [← prepare, prepared] at hprepare
  have hcode := code_of_executeTrees executed
  rw [hcode] at reached
  have hstart : m₁.code.Shallows [.visit ⟨t, 0⟩] := by
    intro q hq
    obtain rfl : q = ⟨t, 0⟩ := by simpa using hq
    exact Code.shallow_root h₁.wellFormed t
  have hon : m₁.code.options.invokeFunctions = true := by rw [h₁.options_eq, hinvoke]
  rw [prepared]
  exact Code.Shallows.reaches h₁.wellFormed hon hstart reached r List.mem_cons_self

/-- **Only functions at the top level are ever run.** Where functions can be called, a
node that a run visits, a call in particular, stands in one function at most, which is
a child of the root of its tree; the function that a visited call finds is a child of
the root of its tree too; and nothing in a function that is declared anywhere else is
ever visited. -/
theorem visits_topLevel (options : Options) (hinvoke : options.invokeFunctions = true)
    (history : List Operation) (files : Nat → FileStore) :
    let m := (new options).performAll history
    let c := (m.prepare files).2.code
    (∀ r, m.Visits files r →
        (c.enclosing r).length ≤ 1 ∧
          (∀ func ∈ c.enclosing r, func ∈ c.forest.children ⟨r.tree, 0⟩) ∧
          ∀ func, c.findFunction r = some func → func ∈ c.forest.children ⟨func.tree, 0⟩) ∧
      ∀ func, c.isFunction func → func ∉ c.forest.children ⟨func.tree, 0⟩ →
        ∀ r, r ∈ c.body func ∨ func ∈ c.forest.ancestors r → ¬m.Visits files r := by
  intro m c
  have hregular : m.code.Regular options := regular_performAll (regular_new options) history
  have hw : c.forest.WellFormed := (regular_prepareFrom hregular files [] m.scripts).wellFormed
  constructor
  · intro r hr
    have hshallow : c.Shallow r := hr.shallow hregular hinvoke
    refine ⟨hshallow.length_le, hshallow.topLevel, fun func hf => ?_⟩
    obtain ⟨i, hi⟩ := hshallow.findFunction hf
    have htree := Forest.tree_of_mem_children hi
    rwa [htree]
  · intro func hfunction hnot r hr hvisits
    have habove : func ∈ c.forest.ancestors r :=
      hr.elim (Code.mem_ancestors_of_mem_body hw) id
    have htree : func.tree = r.tree := by
      obtain ⟨i, -, rfl⟩ := List.mem_map.mp habove
      rfl
    have hshallow : c.Shallow r := hvisits.shallow hregular hinvoke
    rw [htree] at hnot
    exact hnot (hshallow.topLevel func (List.mem_filter.mpr ⟨habove, hfunction⟩))

/-- A script in which a function declares another one. -/
def localHistory : List Operation :=
  [.addScript "virtual://m" none
    (some "function f()\x7bfunction g()\x7bx;\x7dprint();\x7df();")]

/-- A place on the only line of that script. -/
def column (i : Int) : Location := { file := "m", offset := i, column := i }

/-- The tree of that script. -/
def localTree : Tree :=
  { name := "m"
    nodes :=
      #[{ kind := .global, location := column 1, children := [1, 9] },
        { kind := .function, location := column 1, parent := some 0, children := [2, 3]
          name := some "f" },
        { kind := .functionParams, location := column 11, parent := some 1 },
        { kind := .functionImpl, location := column 13, parent := some 1, children := [4, 8] },
        { kind := .function, location := column 14, parent := some 3, children := [5, 6]
          name := some "g" },
        { kind := .functionParams, location := column 24, parent := some 4 },
        { kind := .functionImpl, location := column 26, parent := some 4, children := [7] },
        { kind := .none, location := column 27, parent := some 6, name := some "x"
          value := some (.string "x") },
        { kind := .call, location := column 30, parent := some 3, name := some "print" },
        { kind := .call, location := column 39, parent := some 0, name := some "f" }] }

/-- The code of that script, where functions can be called. -/
def localCode : Code :=
  { options := { invokeFunctions := true }, forest := { trees := #[localTree] }, program := [0] }

theorem prepare_local :
    ((new { invokeFunctions := true }).performAll localHistory).prepare (fun _ => {})
      = (.ok (), { code := localCode, scripts :=
          [{ path := "virtual://m", name := "m",
             content := some "function f()\x7bfunction g()\x7bx;\x7dprint();\x7df();",
             state := .parsed }] }) := rfl

/-- The call of `f` comes to its body, and passes over the declaration of `g`. -/
theorem reaches_local (s : Store) (hs : s.frames = []) :
    localCode.Reaches ([.visit ⟨0, 0⟩], s)
      ([.visit ⟨0, 8⟩, .leave], { s with frames := [[]] }) := by
  have hroot : localCode.step (.visit ⟨0, 0⟩) [] s
      = (.ok [.visit ⟨0, 1⟩, .visit ⟨0, 9⟩], s) := rfl
  have hdeclare : localCode.step (.visit ⟨0, 1⟩) [.visit ⟨0, 9⟩] s
      = (.ok [.visit ⟨0, 9⟩], s) := rfl
  have hfind : localCode.findFunction ⟨0, 9⟩ = some ⟨0, 1⟩ := by
    have hup : localTree.ancestors 9 = [0] := by
      simp [Tree.ancestors, Tree.parent?, Tree.node?, localTree]
    have habove : localCode.forest.ancestors ⟨0, 9⟩
        = Forest.siblings ⟨0, 9⟩ (localTree.ancestors 9) := rfl
    rw [Code.findFunction, Code.reachable, habove, hup]
    rfl
  have hcall : localCode.step (.visit ⟨0, 9⟩) [] s
      = (.ok [.visit ⟨0, 4⟩, .visit ⟨0, 8⟩, .leave], { s with frames := [[]] }) := by
    obtain ⟨frames, console, trace⟩ := s
    obtain rfl : frames = [] := hs
    simp only [Code.step, hfind]
    rfl
  have hlocal : localCode.step (.visit ⟨0, 4⟩) [.visit ⟨0, 8⟩, .leave] { s with frames := [[]] }
      = (.ok [.visit ⟨0, 8⟩, .leave], { s with frames := [[]] }) := rfl
  exact (((Relation.ReflTransGen.single (.done hroot)).tail (.done hdeclare)).tail
    (.done hcall)).tail (.done hlocal)

/-- A run visits the call in the body of `f`, which stands in one function, and it does
not visit the body of `g`, which is declared in `f`. -/
theorem visits_topLevel_local :
    let m := (new { invokeFunctions := true }).performAll localHistory
    m.Visits (fun _ => {}) ⟨0, 8⟩ ∧ (localCode.enclosing ⟨0, 8⟩).length ≤ 1 ∧
      ⟨0, 7⟩ ∈ localCode.body ⟨0, 4⟩ ∧ ¬m.Visits (fun _ => {}) ⟨0, 7⟩ := by
  intro m
  have hprogram : localCode.program = [] ++ 0 :: [] := rfl
  have hvisits : m.Visits (fun _ => {}) ⟨0, 8⟩ :=
    .turn prepare_local hprogram rfl (reaches_local _ rfl)
  obtain ⟨hvisited, hnever⟩ :=
    visits_topLevel { invokeFunctions := true } rfl localHistory fun _ => {}
  rw [prepare_local] at hvisited hnever
  refine ⟨hvisits, (hvisited _ hvisits).1, by decide, ?_⟩
  exact hnever ⟨0, 4⟩ rfl (by decide) ⟨0, 7⟩ (Or.inl (by decide))

end Machine

end ScopeScript
