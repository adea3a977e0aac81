import ScopeScript.Proofs.Machine.Preorder
import ScopeScript.Proofs.Scanner.Parameters
import ScopeScript.Proofs.Value.Entries

/-!
# Where the values of a run come from

Values travel far in a run: an argument is bound to a parameter, the parameter is named
as an argument of a call in the body, and so on through any number of frames. Still
**a run makes up no value**: what is bound in a frame, and what is passed to a native
function, is either none or the text of an argument that is written in one of the trees
(`ScopeScript.Code.Sourced`, `ScopeScript.Machine.values_come_from_program`). An argument
in quotes is not looked up at all, so that it always stands for its own text.

Two things have to come together. In a parsed tree, an argument has a text for its value
or none at all, also where its call was written as the header of a function
(`ScopeScript.Tree.Placed`). And at every turn of a run, whatever stands in the frames
has been an argument before. The first is a property of the code
(`ScopeScript.Code.Parsed`); the second is an invariant of the tasks and the frames
(`ScopeScript.Code.Traceable`).
-/

namespace ScopeScript

namespace Code

variable {c : Code} {r p q func : NodeRef} {n : Node} {s s' : Store} {task : Task}
  {tasks rest : List Task} {frame : Frame} {v : Value} {call : NativeCall}

/-- **What is bound is an argument**, or fills the place of one that is missing. -/
theorem mem_bind {names : List (Option String)} {args : List Value} {b : Option String × Value}
    (h : b ∈ bind names args) : b.2 ∈ args ∨ b.2 = .none := by
  obtain ⟨entry, hentry, heq⟩ := mem_enterAll h
  have hmem := (List.of_mem_zip hentry).2
  rw [heq] at hmem
  exact (List.mem_append.mp hmem).imp id List.eq_of_mem_replicate

/-! ### Arguments -/

/-- **An argument is none, what is written there, or a value of the innermost frame.** -/
theorem argument_cases (hn : c.forest.node? p = some n) (s : Store) :
    c.argument s p = .none ∨ n.value = some (c.argument s p) ∨
      ∃ frame ∈ s.frames, ∃ b ∈ frame, b.2 = c.argument s p := by
  rw [argument, hn]
  dsimp only
  cases hv : n.value with
  | none => exact Or.inl rfl
  | some v =>
    cases hs : s.frames with
    | nil => exact Or.inr (Or.inl rfl)
    | cons frame frames =>
      dsimp only
      split
      · exact Or.inr (Or.inl rfl)
      · cases hlookup : frame.lookup n.name with
        | none => exact Or.inr (Or.inl rfl)
        | some w =>
          obtain ⟨before, after, heq, -⟩ := List.lookup_eq_some_iff.mp hlookup
          exact Or.inr (Or.inr ⟨frame, List.mem_cons_self, (n.name, w), by simp [heq], rfl⟩)

/-- **What is written in quotes is not looked up.** -/
theorem argument_of_quoted (hn : c.forest.node? p = some n) (hv : n.value = some v)
    (hquoted : n.quoted = true) (s : Store) : c.argument s p = v := by
  rw [argument, hn]
  dsimp only
  rw [hv]
  cases s.frames with
  | nil => rfl
  | cons frame frames => exact if_pos hquoted

/-! ### The program -/

/-- **A value comes from the program**: it is none, or the text that is written as an
argument of a call in one of the trees that run. -/
def Sourced (c : Code) (v : Value) : Prop :=
  v = .none ∨ ∃ r p n text, r.tree ∈ c.program ∧ c.isCall r = true ∧
    p ∈ c.forest.childrenOfKind r .functionParam ∧ c.forest.node? p = some n ∧
    n.value = some (.string text) ∧ v = .string text

/-- **The trees that run have been parsed**: they are well-formed, and parameters and
arguments are in their places. -/
structure Parsed (c : Code) : Prop where
  /-- All trees are well-formed. -/
  wellFormed : c.forest.WellFormed
  /-- Parameters stand in lists, and arguments in calls. -/
  placed : ∀ i ∈ c.program, ∀ t, c.forest.tree? i = some t → t.Placed

theorem exists_node?_of_mem_childrenOfKind {kind : NodeKind}
    (hp : p ∈ c.forest.childrenOfKind r kind) :
    ∃ t i n, c.forest.tree? r.tree = some t ∧ i ∈ t.children r.node ∧ p = ⟨r.tree, i⟩ ∧
      t.node? i = some n ∧ n.kind = kind ∧ c.forest.node? p = some n := by
  obtain ⟨i, hi, rfl⟩ := List.mem_map.mp hp
  rw [Forest.onTree] at hi
  cases ht : c.forest.tree? r.tree with
  | none => simp [ht] at hi
  | some t =>
    rw [ht] at hi
    obtain ⟨hmem, hkind⟩ := List.mem_filter.mp hi
    obtain ⟨n, hn, hk⟩ := Option.map_eq_some_iff.mp (beq_iff_eq.mp hkind)
    exact ⟨t, i, n, rfl, hmem, rfl, hn, hk, by simp [Forest.node?, ht, hn]⟩

/-- **What stands in a call has a text for its value, or none.** -/
theorem Parsed.isArgument (h : c.Parsed) (hr : r.tree ∈ c.program) (hcall : c.isCall r = true)
    (hp : p ∈ c.forest.childrenOfKind r .functionParam) (hn : c.forest.node? p = some n) :
    n.IsArgument := by
  obtain ⟨t, i, n', ht, hi, rfl, hn', hk, hsame⟩ := exists_node?_of_mem_childrenOfKind hp
  obtain rfl := Option.some.inj (hsame.symm.trans hn)
  have hparent := (h.wellFormed t (Array.mem_of_getElem? ht)).parent_of_mem r.node i hi
  rw [Tree.parent?_of_node? hn'] at hparent
  have hkind : t.kind? r.node = some .call := by
    rw [isCall, beq_iff_eq, Forest.node?, ht] at hcall
    exact hcall
  obtain ⟨q, hq, ⟨hlist, -⟩ | ⟨-, hargument⟩⟩ := h.placed r.tree hr t ht i n' hn' hk
  · obtain rfl := Option.some.inj (hq.symm.trans hparent)
    rw [hkind] at hlist
    cases hlist
  · exact hargument

/-- **The arguments of a call come from the program if all that is bound does.** -/
theorem Parsed.sourced_arguments (h : c.Parsed) (hr : r.tree ∈ c.program)
    (hcall : c.isCall r = true) (hs : ∀ frame ∈ s.frames, ∀ b ∈ frame, c.Sourced b.2)
    (hv : v ∈ c.arguments s r) : c.Sourced v := by
  obtain ⟨p, hp, rfl⟩ := List.mem_map.mp hv
  obtain ⟨-, -, n, -, -, -, -, -, hn⟩ := exists_node?_of_mem_childrenOfKind hp
  rcases argument_cases hn s with hnone | hown | ⟨frame, hframe, b, hb, heq⟩
  · exact Or.inl hnone
  · rcases h.isArgument hr hcall hp hn with ⟨hnone, -⟩ | ⟨text, htext, -⟩
    · rw [hnone] at hown
      cases hown
    · exact Or.inr ⟨r, p, n, text, hr, hcall, hp, hn, htext,
        Option.some.inj (hown.symm.trans htext)⟩
  · rw [← heq]
    exact hs frame hframe b hb

/-- **A quoted argument is passed as its own text**, whatever is bound. -/
theorem Parsed.argument_quoted (h : c.Parsed) (hr : r.tree ∈ c.program)
    (hcall : c.isCall r = true) {i : Nat}
    (hp : (c.forest.childrenOfKind r .functionParam)[i]? = some p)
    (hn : c.forest.node? p = some n) (hquoted : n.quoted = true) :
    ∃ text, n.value = some (.string text) ∧
      ∀ s, (c.arguments s r)[i]? = some (.string text) := by
  rcases h.isArgument hr hcall (List.mem_of_getElem? hp) hn with ⟨-, hnot⟩ | ⟨text, htext, -⟩
  · rw [hquoted] at hnot
    cases hnot
  · refine ⟨text, htext, fun s => ?_⟩
    rw [arguments, List.getElem?_map, hp, Option.map_some, argument_of_quoted hn htext hquoted]

/-! ### Which trees are visited -/

theorem tree_findFunction (hr : r.tree ∈ c.program) (hf : c.findFunction r = some func) :
    func.tree ∈ c.program := by
  rw [findFunction] at hf
  split at hf
  · cases hf
  · rcases List.mem_append.mp (List.mem_of_find?_eq_some hf) with habove | hprogram
    · obtain ⟨i, -, rfl⟩ := List.mem_map.mp habove
      exact hr
    · obtain ⟨t, ht, hmem⟩ := List.mem_flatMap.mp hprogram
      rwa [Forest.tree_of_mem_children hmem]

theorem tree_of_mem_below (hq : q ∈ c.forest.below r) : q.tree = r.tree := by
  obtain ⟨i, -, rfl⟩ := List.mem_map.mp hq
  rfl

theorem tree_of_mem_body (hq : q ∈ c.body func) : q.tree = func.tree := by
  rw [body] at hq
  split at hq
  · cases hq
  · rename_i impl himpl
    rw [tree_of_mem_below hq]
    exact Forest.tree_of_mem_children (Forest.mem_children_of_childOfKind? himpl).1

/-- **A task leads on to nodes of its own tree, or of that of a function it calls.** -/
theorem tree_of_step (hstep : c.step task rest s = (.ok tasks, s'))
    (h : ∀ r, .visit r ∈ task :: rest → r.tree ∈ c.program) :
    ∀ r, .visit r ∈ tasks → r.tree ∈ c.program := by
  have hrest : ∀ r, .visit r ∈ rest → r.tree ∈ c.program :=
    fun r hr => h r (List.mem_cons_of_mem task hr)
  have hbelow : ∀ r, task = .visit r →
      ∀ q, .visit q ∈ (c.forest.below r).map Task.visit ++ rest → q.tree ∈ c.program := by
    intro r htask q hq
    rcases List.mem_append.mp hq with hq | hq
    · rw [tree_of_mem_below (by simpa using hq)]
      exact h r (htask ▸ List.mem_cons_self)
    · exact hrest q hq
  have hsteps := steps_of_step hstep
  generalize hout : (Except.ok tasks : Except Failure (List Task)) = out at hsteps
  cases hsteps with
  | leave | missing | declaration =>
    cases hout
    exact hrest
  | inner =>
    cases hout
    exact hbelow _ rfl
  | @direct r n _ result =>
    cases result with
    | error e => cases hout
    | ok v =>
      cases hout
      exact hbelow r rfl
  | refused => cases hout
  | @entered r func n _ hn hk hi hf he =>
    cases hout
    -- the body may be in another tree, but that is where the function was found
    intro q hq
    rcases List.mem_append.mp hq with hq | hq
    · rw [tree_of_mem_body (by simpa using hq)]
      exact tree_findFunction (h r List.mem_cons_self) hf
    · rcases List.mem_cons.mp hq with hleave | hq
      · cases hleave
      · exact hbelow r rfl q hq

/-! ### Which frames there are -/

/-- **A call binds a frame**: it finds a function, and its arguments are bound to the
parameters of that. -/
def Binds (c : Code) (r : NodeRef) (s : Store) (frame : Frame) : Prop :=
  c.isCall r = true ∧ ∃ func, c.findFunction r = some func ∧
    frame = bind (c.parameters func) (c.arguments s r)

/-- **A task adds no frame but that which its call binds.** -/
theorem frame_of_step (hstep : c.step task rest s = (.ok tasks, s')) (hframe : frame ∈ s'.frames) :
    frame ∈ s.frames ∨ ∃ r, task = .visit r ∧ c.Binds r s frame := by
  have hsteps := steps_of_step hstep
  generalize hout : (Except.ok tasks : Except Failure (List Task)) = out at hsteps
  cases hsteps with
  | leave => exact Or.inl (List.mem_of_mem_tail hframe)
  | missing => exact Or.inl hframe
  | declaration | inner =>
    rw [frames_visited] at hframe
    exact Or.inl hframe
  | @direct r n _ result hn hk hi hcall =>
    have hframes := frames_call_of_direct hi (c.visited n s)
    rw [hcall, frames_visited] at hframes
    exact Or.inl (hframes ▸ hframe)
  | refused => cases hout
  | @entered r func n _ hn hk hi hf he =>
    rw [frames_of_enter he, frames_visited, arguments_congr (frames_visited c n s)] at hframe
    refine (List.mem_cons.mp hframe).elim (fun heq => Or.inr ⟨r, rfl, ?_⟩) Or.inl
    exact ⟨by simp [isCall, hn, hk], func, hf, heq⟩

/-- **Every frame has been bound by a call**, unless it was there before. -/
theorem frame_of_reaches {x y : List Task × Store} (h : c.Reaches x y)
    (hframe : frame ∈ y.2.frames) :
    frame ∈ x.2.frames ∨
      ∃ r rest s, c.Reaches x (.visit r :: rest, s) ∧ c.Binds r s frame := by
  induction h with
  | refl => exact Or.inl hframe
  | tail hreach hnext ih =>
    obtain ⟨hstep⟩ := hnext
    rcases frame_of_step hstep hframe with hframe | ⟨r, rfl, hbinds⟩
    · exact ih hframe
    · exact Or.inr ⟨r, _, _, hreach, hbinds⟩

/-! ### Every turn of a run -/

/-- **All values can be traced back to the program**, those of the frames and those of the
nodes that are still to be visited. -/
structure Traceable (c : Code) (tasks : List Task) (s : Store) : Prop where
  /-- All nodes are in trees that run. -/
  inProgram : ∀ r, .visit r ∈ tasks → r.tree ∈ c.program
  /-- All values in the frames come from the program. -/
  sourced : ∀ frame ∈ s.frames, ∀ b ∈ frame, c.Sourced b.2

theorem Traceable.sourced_arguments (h : c.Traceable (.visit r :: rest) s) (hparsed : c.Parsed)
    (hcall : c.isCall r = true) (hv : v ∈ c.arguments s r) : c.Sourced v :=
  hparsed.sourced_arguments (h.inProgram r List.mem_cons_self) hcall h.sourced hv

/-- **A task that is done keeps all values traceable.** -/
theorem Traceable.step (h : c.Traceable (task :: rest) s) (hparsed : c.Parsed)
    (hstep : c.step task rest s = (.ok tasks, s')) : c.Traceable tasks s' := by
  refine ⟨tree_of_step hstep h.inProgram, fun frame hframe b hb => ?_⟩
  -- a new frame holds arguments, and those are traceable as long as the old frames are
  rcases frame_of_step hstep hframe with hframe | ⟨r, rfl, hcall, func, -, rfl⟩
  · exact h.sourced frame hframe b hb
  · rcases mem_bind hb with hb | hnone
    · exact h.sourced_arguments hparsed hcall hb
    · exact Or.inl hnone

/-- **The same at every turn.** -/
theorem Traceable.reaches {x y : List Task × Store} (h : c.Traceable x.1 x.2)
    (hparsed : c.Parsed) (hreach : c.Reaches x y) : c.Traceable y.1 y.2 := by
  induction hreach with
  | refl => exact h
  | tail _ hnext ih =>
    obtain ⟨hstep⟩ := hnext
    exact ih.step hparsed hstep

/-! ### Native calls -/

/-- The native call of a task is that of the call that is visited. -/
theorem mem_request (h : call ∈ c.request task s) :
    ∃ r, task = .visit r ∧ c.isCall r = true ∧ call.arguments = c.arguments s r := by
  cases task with
  | leave => cases h
  | visit r =>
    rw [request] at h
    cases hn : c.forest.node? r with
    | none =>
      rw [hn] at h
      cases h
    | some n =>
      rw [hn] at h
      dsimp only at h
      split at h
      · rename_i hk
        refine ⟨r, rfl, by simp [isCall, hn, hk], ?_⟩
        rw [Option.mem_toList, nativeCall?] at h
        split at h
        · split at h
          · cases h
            rfl
          · cases h
        · cases h
      · cases h

/-- **Every native call is made at a turn of the run.** -/
theorem mem_log (h : call ∈ c.log tasks s) :
    ∃ task rest s', c.Reaches (tasks, s) (task :: rest, s') ∧ call ∈ c.request task s' := by
  induction tasks, s using Code.run.induct c with
  | case1 s =>
    rw [Code.log] at h
    cases h
  | case2 s task rest tasks s₁ hstep ih =>
    rw [(turns_of_step hstep).log] at h
    rcases List.mem_append.mp h with h | h
    · exact ⟨task, rest, s, .refl, h⟩
    · obtain ⟨task', rest', s', hreach, hmem⟩ := ih h
      exact ⟨task', rest', s', hreach.head (.done hstep), hmem⟩
  | case3 s task rest e s₁ hstep =>
    -- a native call that fails has been made
    rw [(breaks_of_step hstep).log] at h
    exact ⟨task, rest, s, .refl, h⟩

end Code

/-! ### Machines -/

theorem Script.HasTree.placed {s : Script} {t : Tree} (h : s.HasTree t) : t.Placed := by
  obtain ⟨source, x, -, hx, rfl⟩ := h.exists_source
  exact Scanner.placed_parse hx

namespace Machine

variable {m : Machine} {files : Nat → FileStore} {tasks : List Task} {s : Store}
  {call : NativeCall}

theorem HasTrees.parsed {scripts : List Script} (h : m.HasTrees scripts)
    (hw : m.code.forest.WellFormed) : m.code.Parsed := by
  refine ⟨hw, fun i hi t ht => ?_⟩
  obtain ⟨k, hk⟩ := List.mem_iff_getElem?.mp hi
  obtain ⟨s, tree, -, htree, hhas⟩ := h k i hk
  obtain rfl := Option.some.inj (htree.symm.trans ht)
  exact hhas.placed

/-- **A turn of a run**, with the tasks that are left and the store: all scripts have been
parsed, some trees have been executed, and the execution of the next one is under way. -/
inductive AtTurn (m : Machine) (files : Nat → FileStore) : List Task → Store → Prop
  /-- The execution of a tree comes to a turn. -/
  | turn {m₁ m₂ : Machine} {ran todo : List Nat} {t : Nat} {tasks : List Task} {s : Store}
      (prepared : m.prepare files = (.ok (), m₁))
      (program : m₁.code.program = ran ++ t :: todo)
      (executed : m₁.executeTrees ran = (.ok (), m₂))
      (reached : m₂.code.Reaches ([.visit ⟨t, 0⟩], m₂.storeFor t) (tasks, s)) :
      AtTurn m files tasks s

theorem frames_executeTrees (m : Machine) (ts : List Nat) :
    (m.executeTrees ts).2.store.frames = m.store.frames := by
  induction ts generalizing m with
  | nil => rfl
  | cons t ts ih =>
    have hframes := m.frames_executeTree t
    rw [executeTrees]
    rcases hr : m.executeTree t with ⟨_ | _, m₁⟩
    · rwa [hr] at hframes
    · rw [hr] at hframes
      exact (ih m₁).trans hframes

/-- **No call is under way where the execution of a tree begins.** -/
theorem idle_storeFor {m₁ : Machine} (hidle : m.store.frames = []) {ran : List Nat}
    {out : Except Failure Unit} (executed : m.executeTrees ran = (out, m₁)) (t : Nat) :
    (m₁.storeFor t).frames = [] := by
  have hframes := m.frames_executeTrees ran
  rw [executed, hidle] at hframes
  exact (m₁.code.frames_note _ m₁.store).trans hframes

/-- **At every turn, all values are traceable, and every frame has been bound at an earlier
one.** -/
theorem AtTurn.traceable (h : m.AtTurn files tasks s)
    (hidle : (m.prepare files).2.store.frames = []) (hparsed : (m.prepare files).2.code.Parsed) :
    (m.prepare files).2.code.Traceable tasks s ∧
      ∀ frame ∈ s.frames, ∃ r rest s₀, m.AtTurn files (.visit r :: rest) s₀ ∧
        (m.prepare files).2.code.Binds r s₀ frame := by
  obtain @⟨m₁, m₂, ran, todo, t, _, _, prepared, program, executed, reached⟩ := h
  have hcode := code_of_executeTrees executed
  rw [prepared] at hidle hparsed ⊢
  -- nothing is left over from the trees before
  have hstart := idle_storeFor hidle executed t
  constructor
  · rw [hcode] at reached
    have htraceable : m₁.code.Traceable [.visit ⟨t, 0⟩] (m₂.storeFor t) := by
      refine ⟨fun r hr => ?_, fun frame hframe => ?_⟩
      · obtain rfl : r = ⟨t, 0⟩ := by simpa using hr
        rw [program]
        exact List.mem_append_right ran List.mem_cons_self
      · rw [hstart] at hframe
        cases hframe
    exact htraceable.reaches hparsed reached
  · intro frame hframe
    rcases Code.frame_of_reaches reached hframe with hbefore | ⟨r, rest, s₀, hreach, hbinds⟩
    · rw [hstart] at hbefore
      cases hbefore
    · rw [hcode] at hbinds
      exact ⟨r, rest, s₀, .turn prepared program executed hreach, hbinds⟩

/-- The native calls of several trees are each made by one of them, once those before it
have been executed. -/
theorem mem_logTrees {ts : List Nat} (h : call ∈ m.logTrees ts) :
    ∃ ran t todo m₁, ts = ran ++ t :: todo ∧ m.executeTrees ran = (.ok (), m₁) ∧
      call ∈ m₁.logTree t := by
  induction ts generalizing m with
  | nil => cases h
  | cons t ts ih =>
    rw [logTrees] at h
    rcases List.mem_append.mp h with h | h
    · exact ⟨[], t, ts, m, rfl, rfl, h⟩
    · rcases hr : m.executeTree t with ⟨_ | _, m₁⟩
      · rw [hr] at h
        cases h
      · rw [hr] at h
        obtain ⟨ran, t', todo, m₂, rfl, hran, hmem⟩ := ih h
        refine ⟨t :: ran, t', todo, m₂, rfl, ?_, hmem⟩
        rw [executeTrees, hr]
        exact hran

/-- **Every native call of a run is made at one of its turns**, where a call is visited
whose arguments it gets. -/
theorem mem_logRun (h : call ∈ m.logRun files) :
    ∃ r rest s, m.AtTurn files (.visit r :: rest) s ∧
      (m.prepare files).2.code.isCall r = true ∧
      call.arguments = (m.prepare files).2.code.arguments s r := by
  rw [logRun] at h
  rcases hprepare : m.prepare files with ⟨_ | _, m₁⟩
  · rw [hprepare] at h
    cases h
  · rw [hprepare] at h
    obtain ⟨ran, t, todo, m₂, program, executed, hmem⟩ := mem_logTrees h
    obtain ⟨task, rest, s, hreach, hrequest⟩ := Code.mem_log hmem
    obtain ⟨r, rfl, hcall, harguments⟩ := Code.mem_request hrequest
    have hcode := code_of_executeTrees executed
    rw [hcode] at hcall harguments
    exact ⟨r, rest, s, .turn hprepare program executed hreach, hcall, harguments⟩

/-- **All values of a run come from the program.** After any history, in a run with or
without calls of declared functions: at every turn, each frame is what the arguments of
a call that was visited were bound to, and all values in it are none or written as an
argument of a call in one of the trees; every native call is made for a call that is
visited, with its arguments, which come from there as well; and an argument in quotes
stands for its own text, whatever is bound. The trees are those that were parsed from
the scripts. -/
theorem values_come_from_program (options : Options) (history : List Operation)
    (files : Nat → FileStore) :
    let m := (new options).performAll history
    let m₁ := (m.prepare files).2
    let c := m₁.code
    m₁.HasTrees m₁.scripts ∧
      (∀ tasks s, m.AtTurn files tasks s → ∀ frame ∈ s.frames,
        (∃ r rest s₀, m.AtTurn files (.visit r :: rest) s₀ ∧ c.Binds r s₀ frame) ∧
          ∀ b ∈ frame, c.Sourced b.2) ∧
      (∀ call ∈ m.logRun files,
        (∃ r rest s, m.AtTurn files (.visit r :: rest) s ∧ c.isCall r = true ∧
            call.arguments = c.arguments s r) ∧
          ∀ v ∈ call.arguments, c.Sourced v) ∧
      ∀ (r : NodeRef) (i : Nat) (p : NodeRef) (n : Node), r.tree ∈ c.program → c.isCall r = true →
        (c.forest.childrenOfKind r .functionParam)[i]? = some p → c.forest.node? p = some n →
        n.quoted = true →
        ∃ text, n.value = some (.string text) ∧
          ∀ s, (c.arguments s r)[i]? = some (.string text) := by
  intro m m₁ c
  have hnew := inOrder_new options
  have horder : m.InOrder := (hnew.performAll history).1
  have htrees : m.HasTrees m.scripts := (hasTrees_new options).performAll hnew history
  have hnone : ∀ s ∈ ([] : List Script), s.IsParsed := fun s hs => nomatch hs
  have hstart : m.InStep ([] ++ m.scripts) := horder.inStep
  have hkeeps : m.Keeps ([] ++ m.scripts) m₁ := hstart.prepareFrom hnone
  -- the first phase leaves no call under way and no tree that was not parsed
  have hidle : m₁.store.frames = [] := hkeeps.frames.trans horder.idle
  obtain ⟨htrees₁, -, -⟩ := prepareFrom_ends files hstart htrees hnone
  have hregular :=
    regular_prepareFrom (regular_performAll (regular_new options) history) files [] m.scripts
  have hparsed : c.Parsed := htrees₁.parsed hregular.wellFormed
  refine ⟨htrees₁, fun tasks s hturn frame hframe => ?_, fun call hcall => ?_,
    fun r i p n hr hcall hp hn hquoted => hparsed.argument_quoted hr hcall hp hn hquoted⟩
  · obtain ⟨htraceable, hbound⟩ := hturn.traceable hidle hparsed
    exact ⟨hbound frame hframe, htraceable.sourced frame hframe⟩
  · obtain ⟨r, rest, s, hturn, hvisited, harguments⟩ := mem_logRun hcall
    refine ⟨⟨r, rest, s, hturn, hvisited, harguments⟩, fun v hv => ?_⟩
    rw [harguments] at hv
    exact (hturn.traceable hidle hparsed).1.sourced_arguments hparsed hvisited hv

/-- A script whose function is called with one argument too few, and prints what it was
given and the name of its first parameter. -/
def relayHistory : List Operation :=
  [.addScript "virtual://m" none (some "function f(x,y)\x7bprint(x,'x',y);\x7df('a');")]

/-- The tree of that script. -/
def relayTree : Tree :=
  { name := "m"
    nodes :=
      #[{ kind := .global, location := column 1, children := [1, 10] },
        { kind := .function, location := column 1, parent := some 0, children := [2, 5]
          name := some "f" },
        { kind := .functionParams, location := column 11, parent := some 1, children := [3, 4] },
        { kind := .functionParam, location := column 12, parent := some 2, name := some "x" },
        { kind := .functionParam, location := column 14, parent := some 2, name := some "y" },
        { kind := .functionImpl, location := column 16, parent := some 1, children := [6] },
        { kind := .call, location := column 17, parent := some 5, children := [7, 8, 9]
          name := some "print" },
        { kind := .functionParam, location := column 23, parent := some 6, name := some "x"
          value := some (.string "x") },
        { kind := .functionParam, location := column 25, parent := some 6
          value := some (.string "x"), quoted := true },
        { kind := .functionParam, location := column 29, parent := some 6, name := some "y"
          value := some (.string "y") },
        { kind := .call, location := column 33, parent := some 0, children := [11]
          name := some "f" },
        { kind := .functionParam, location := column 35, parent := some 10
          value := some (.string "a"), quoted := true }] }

/-- The code of that script, where functions can be called. -/
def relayCode : Code :=
  { options := { invokeFunctions := true }, forest := { trees := #[relayTree] }, program := [0] }

theorem prepare_relay :
    ∃ scripts, ((new { invokeFunctions := true }).performAll relayHistory).prepare (fun _ => {})
      = (.ok (), { code := relayCode, scripts }) :=
  ⟨_, rfl⟩

/-- What the call of `f` binds. -/
def relayFrame : Frame := [(some "x", .string "a"), (some "y", .none)]

theorem reaches_relay (s : Store) (hs : s.frames = []) :
    relayCode.Reaches ([.visit ⟨0, 0⟩], s)
      ([.visit ⟨0, 6⟩, .leave, .visit ⟨0, 11⟩], { s with frames := [relayFrame] }) := by
  have hroot : relayCode.step (.visit ⟨0, 0⟩) [] s
      = (.ok [.visit ⟨0, 1⟩, .visit ⟨0, 10⟩], s) := rfl
  have hdeclare : relayCode.step (.visit ⟨0, 1⟩) [.visit ⟨0, 10⟩] s
      = (.ok [.visit ⟨0, 10⟩], s) := rfl
  have hfind : relayCode.findFunction ⟨0, 10⟩ = some ⟨0, 1⟩ := by decide +kernel
  have hcall : relayCode.step (.visit ⟨0, 10⟩) [] s
      = (.ok [.visit ⟨0, 6⟩, .leave, .visit ⟨0, 11⟩], { s with frames := [relayFrame] }) := by
    obtain ⟨frames, console, trace⟩ := s
    obtain rfl : frames = [] := hs
    simp only [Code.step, hfind]
    rfl
  exact ((Relation.ReflTransGen.single (.done hroot)).tail (.done hdeclare)).tail (.done hcall)

theorem logRun_relay :
    (((new { invokeFunctions := true }).performAll relayHistory).logRun fun _ => {}).map
        (fun call => call.arguments.map Value.constructor)
      = [["Value.string('a')", "Value.string('x')", "Value.none()"]] := by
  decide +kernel

/-- The word `x` stands for what `f` was given, and in quotes for itself; `y` was given
nothing. -/
theorem values_come_from_program_relay :
    let m := (new { invokeFunctions := true }).performAll relayHistory
    (m.AtTurn (fun _ => {}) [.visit ⟨0, 6⟩, .leave, .visit ⟨0, 11⟩] { frames := [relayFrame] } ∧
        ∀ b ∈ relayFrame, relayCode.Sourced b.2) ∧
      ((m.logRun fun _ => {}).map (fun call => call.arguments.map Value.constructor)
          = [["Value.string('a')", "Value.string('x')", "Value.none()"]] ∧
        ∀ call ∈ m.logRun fun _ => {}, ∀ v ∈ call.arguments, relayCode.Sourced v) ∧
      ∀ s, (relayCode.arguments s ⟨0, 6⟩)[1]? = some (.string "x") := by
  intro m
  obtain ⟨scripts, hprepare⟩ := prepare_relay
  obtain ⟨-, hframes, hcalls, hquoted⟩ :=
    values_come_from_program { invokeFunctions := true } relayHistory fun _ => {}
  rw [hprepare] at hframes hcalls hquoted
  dsimp only at hframes hcalls hquoted
  have hprogram : relayCode.program = [] ++ 0 :: [] := rfl
  have hturn : m.AtTurn (fun _ => {}) _ { frames := [relayFrame] } :=
    .turn hprepare hprogram rfl (reaches_relay _ rfl)
  obtain ⟨text, htext, hpassed⟩ :=
    hquoted ⟨0, 6⟩ 1 ⟨0, 8⟩ _ (by decide) (by decide) (by decide) rfl rfl
  cases htext
  exact ⟨⟨hturn, (hframes _ _ hturn relayFrame List.mem_cons_self).2⟩,
    ⟨logRun_relay, fun call hcall => (hcalls call hcall).2⟩, hpassed⟩

end Machine

end ScopeScript
