import ScopeScript.Proofs.Machine.Refinement

/-!
# The frames of the calls under way

A call of a declared function adds a frame, and the task behind its body takes
the frame away again. The two are far apart on the list of tasks, and a failure
may strike anywhere in between. **The frames are in order all the same**
(`ScopeScript.Code.Framed`): those that were there when the run began are the
outermost ones, untouched; there is one more for each call whose end is still on
the list; and there are never more than the options allow.

What a single task does is said once, in `ScopeScript.Code.Steps`, case by case.
Every task keeps the frames in order (`ScopeScript.Code.Framed.step`), so they
are in order at every turn of a run (`ScopeScript.Code.Framed.reaches`), and
running a node or invoking a function leaves them as they were, whether it fails
or not (`ScopeScript.Code.framed_throughout`).
-/

namespace ScopeScript.Code

variable {c : Code} {r func : NodeRef} {n : Node} {s s' : Store} {task : Task}
  {tasks tasks' rest : List Task} {base : List Frame} {e : Failure}

/-! ### What one task does -/

/-- **What one task does**, case by case: which tasks are left, or how it fails,
and the store afterwards. -/
inductive Steps (c : Code) (rest : List Task) (s : Store) :
    Task → Except Failure (List Task) → Store → Prop
  /-- The innermost call ends. -/
  | leave : Steps c rest s .leave (.ok rest) { s with frames := s.frames.tail }
  /-- There is no such node. -/
  | missing {r : NodeRef} (hn : c.forest.node? r = none) : Steps c rest s (.visit r) (.ok rest) s
  /-- The declaration of a function is passed over where functions can be called. -/
  | declaration {r : NodeRef} {n : Node} (hn : c.forest.node? r = some n)
      (hk : n.kind = .function) (hi : c.options.invokeFunctions = true) :
      Steps c rest s (.visit r) (.ok rest) (c.visited n s)
  /-- A node that is no call leads on to its children. -/
  | inner {r : NodeRef} {n : Node} (hn : c.forest.node? r = some n) (hk : n.kind ≠ .call)
      (hi : ¬(n.kind = .function ∧ c.options.invokeFunctions = true)) :
      Steps c rest s (.visit r) (.ok ((c.forest.below r).map .visit ++ rest)) (c.visited n s)
  /-- A call that invokes no function is made directly. -/
  | direct {r : NodeRef} {n : Node} {s' : Store} {result : Except Failure Value}
      (hn : c.forest.node? r = some n) (hk : n.kind = .call)
      (hi : c.options.invokeFunctions = false ∨ c.findFunction r = none)
      (h : c.call r (c.visited n s) = (result, s')) :
      Steps c rest s (.visit r) (result.map fun _ => (c.forest.below r).map .visit ++ rest) s'
  /-- The arguments of a call cannot be bound. -/
  | refused {r func : NodeRef} {n : Node} {error : ScriptError}
      (hn : c.forest.node? r = some n) (hk : n.kind = .call)
      (hi : c.options.invokeFunctions = true) (hf : c.findFunction r = some func)
      (he : c.enter func r (c.visited n s) = .error error) :
      Steps c rest s (.visit r) (.error (.script error)) (c.visited n s)
  /-- The arguments of a call are bound, and its body is put in front. -/
  | entered {r func : NodeRef} {n : Node} {s' : Store} (hn : c.forest.node? r = some n)
      (hk : n.kind = .call) (hi : c.options.invokeFunctions = true)
      (hf : c.findFunction r = some func) (he : c.enter func r (c.visited n s) = .ok s') :
      Steps c rest s (.visit r)
        (.ok ((c.body func).map .visit ++ .leave :: ((c.forest.below r).map .visit ++ rest))) s'

/-- A call either invokes a function or is made directly. -/
theorem direct_or_invokes (c : Code) (r : NodeRef) :
    (c.options.invokeFunctions = false ∨ c.findFunction r = none) ∨
      c.options.invokeFunctions = true ∧ ∃ func, c.findFunction r = some func := by
  cases hf : c.findFunction r with
  | none => exact Or.inl (Or.inr rfl)
  | some func =>
    cases hi : c.options.invokeFunctions with
    | false => exact Or.inl (Or.inl rfl)
    | true => exact Or.inr ⟨rfl, func, rfl⟩

theorem step_of_direct (hn : c.forest.node? r = some n) (hk : n.kind = .call)
    (hi : c.options.invokeFunctions = false ∨ c.findFunction r = none) (rest : List Task)
    (s : Store) :
    c.step (.visit r) rest s
      = ((c.call r (c.visited n s)).1.map fun _ => (c.forest.below r).map .visit ++ rest,
          (c.call r (c.visited n s)).2) := by
  rw [call_of_direct hi, visited]
  cases hf : c.findFunction r with
  | none =>
    cases hr : c.callNative r (c.note ("Execute node: " ++ n.text) s) with
    | mk result s₁ => cases result <;> simp [step, hn, hk, hf, hr, Except.map]
  | some func =>
    have hoff : c.options.invokeFunctions = false := hi.resolve_right (by simp [hf])
    simp [step, hn, hk, hf, hoff, Except.map]

/-- Nothing else can come of a task that does one of these things. -/
theorem Steps.step_eq {out : Except Failure (List Task)} (h : c.Steps rest s task out s') :
    c.step task rest s = (out, s') := by
  cases h with
  | leave => rfl
  | missing hn => simp [step, hn]
  | declaration hn hk hi => simp [step, hn, hk, hi, visited]
  | inner hn hk hi => simp [step, hn, hk, hi, visited]
  | direct hn hk hi hcall => rw [step_of_direct hn hk hi, hcall]
  | refused hn hk hi hf he =>
    rw [visited] at he
    simp [step, hn, hk, hi, hf, he, visited]
  | entered hn hk hi hf he =>
    rw [visited] at he
    simp [step, hn, hk, hi, hf, he]

/-- Every task does one of these things. -/
theorem exists_steps (c : Code) (task : Task) (rest : List Task) (s : Store) :
    ∃ out s', c.Steps rest s task out s' := by
  cases task with
  | leave => exact ⟨_, _, .leave⟩
  | visit r =>
    cases hn : c.forest.node? r with
    | none => exact ⟨_, _, .missing hn⟩
    | some n =>
      by_cases hk : n.kind = .call
      · rcases c.direct_or_invokes r with hi | ⟨hi, func, hf⟩
        · exact ⟨_, _, .direct hn hk hi rfl⟩
        · cases he : c.enter func r (c.visited n s) with
          | error error => exact ⟨_, _, .refused hn hk hi hf he⟩
          | ok s₁ => exact ⟨_, _, .entered hn hk hi hf he⟩
      · by_cases hi : n.kind = .function ∧ c.options.invokeFunctions = true
        · exact ⟨_, _, .declaration hn hi.1 hi.2⟩
        · exact ⟨_, _, .inner hn hk hi⟩

theorem steps_of_step {out : Except Failure (List Task)} (h : c.step task rest s = (out, s')) :
    c.Steps rest s task out s' := by
  obtain ⟨out', s'', hsteps⟩ := c.exists_steps task rest s
  obtain ⟨rfl, rfl⟩ := Prod.mk.inj (hsteps.step_eq.symm.trans h)
  exact hsteps

/-! ### The turns of a run -/

/-- One turn of a run: the first task is done. -/
inductive Next (c : Code) : List Task × Store → List Task × Store → Prop
  /-- The task is done, and others are left. -/
  | done {task : Task} {rest tasks : List Task} {s s' : Store}
      (h : c.step task rest s = (.ok tasks, s')) : Next c (task :: rest, s) (tasks, s')

/-- The tasks and the store that a run has at one of its turns. -/
abbrev Reaches (c : Code) : List Task × Store → List Task × Store → Prop :=
  Relation.ReflTransGen c.Next

/-- **A run goes on until no task is left or one of them fails.** -/
theorem run_ends (c : Code) (tasks : List Task) (s : Store) :
    (∃ s', c.Reaches (tasks, s) ([], s') ∧ c.run tasks s = (.ok (), s')) ∨
      ∃ task rest s₁ e s', c.Reaches (tasks, s) (task :: rest, s₁) ∧
        c.step task rest s₁ = (.error e, s') ∧ c.run tasks s = (.error e, s') := by
  induction tasks, s using Code.run.induct c with
  | case1 s =>
    refine Or.inl ⟨s, Relation.ReflTransGen.refl, ?_⟩
    rw [Code.run]
  | case2 s task rest tasks s₁ hstep ih =>
    rw [(turns_of_step hstep).run]
    rcases ih with ⟨s', hreach, hrun⟩ | ⟨task', rest', s₂, e, s', hreach, hfail, hrun⟩
    · exact Or.inl ⟨s', hreach.head (.done hstep), hrun⟩
    · exact Or.inr ⟨task', rest', s₂, e, s', hreach.head (.done hstep), hfail, hrun⟩
  | case3 s task rest e s' hstep =>
    exact Or.inr ⟨task, rest, s, e, s', Relation.ReflTransGen.refl, hstep,
      (breaks_of_step hstep).run⟩

/-! ### Frames in order -/

/-- **The frames are in order** in a run that began with those in `base`. -/
structure Framed (c : Code) (base : List Frame) (tasks : List Task) (s : Store) : Prop where
  /-- The frames from before are the outermost ones. -/
  kept : base <:+ s.frames
  /-- There is one more for each call whose end is to come. -/
  counted : s.frames.length = base.length + tasks.count .leave
  /-- There are no more than the options allow, unless there were before. -/
  bounded : s.frames.length ≤ max base.length c.options.maxCallDepth

@[simp] theorem count_visits (rs : List NodeRef) :
    (rs.map Task.visit).count .leave = 0 := by
  refine List.count_eq_zero.mpr fun h => ?_
  obtain ⟨r, -, hr⟩ := List.mem_map.mp h
  cases hr

theorem framed_visits (c : Code) (rs : List NodeRef) (s : Store) :
    c.Framed s.frames (rs.map .visit) s where
  kept := List.suffix_rfl
  counted := by rw [count_visits, Nat.add_zero]
  bounded := Nat.le_max_left _ _

theorem framed_start (c : Code) (r : NodeRef) (s : Store) : c.Framed s.frames [.visit r] s :=
  c.framed_visits [r] s

/-- **Where a call is to end, the innermost frame is its own.** -/
theorem Framed.exists_cons (h : c.Framed base (.leave :: rest) s) :
    ∃ frame frames, s.frames = frame :: frames ∧ base <:+ frames := by
  obtain ⟨own, hown⟩ := h.kept
  have hcount := h.counted
  rw [List.count_cons_self] at hcount
  cases own with
  | nil =>
    rw [← hown, List.nil_append] at hcount
    omega
  | cons frame own => exact ⟨frame, own ++ base, hown.symm, List.suffix_append own base⟩

theorem Framed.of_frames (h : c.Framed base tasks s) (hframes : s'.frames = s.frames)
    (hcount : tasks'.count .leave = tasks.count .leave) : c.Framed base tasks' s' where
  kept := hframes ▸ h.kept
  counted := by rw [hframes, hcount, h.counted]
  bounded := hframes ▸ h.bounded

/-- **A task that is done keeps the frames in order.** -/
theorem Framed.step (h : c.Framed base (task :: rest) s)
    (hstep : c.step task rest s = (.ok tasks, s')) : c.Framed base tasks s' := by
  have hsteps := steps_of_step hstep
  generalize hout : (Except.ok tasks : Except Failure (List Task)) = out at hsteps
  cases hsteps with
  | leave =>
    cases hout
    obtain ⟨frame, frames, hframes, hbase⟩ := h.exists_cons
    have hcount := h.counted
    have hbound := h.bounded
    rw [hframes, List.count_cons_self, List.length_cons] at hcount
    rw [hframes, List.length_cons] at hbound
    refine ⟨?_, ?_, ?_⟩
    · simpa [hframes] using hbase
    · simp only [hframes, List.tail_cons]
      omega
    · simp only [hframes, List.tail_cons]
      omega
  | missing =>
    cases hout
    exact h.of_frames rfl (by simp)
  | declaration =>
    cases hout
    exact h.of_frames (frames_visited _ _ _) (by simp)
  | inner =>
    cases hout
    exact h.of_frames (frames_visited _ _ _) (by simp)
  | @direct r n s' result hn hk hi hcall =>
    cases result with
    | error e => cases hout
    | ok v =>
      cases hout
      have hframes := frames_call_of_direct hi (c.visited n s)
      rw [hcall, frames_visited] at hframes
      exact h.of_frames hframes (by simp)
  | refused => cases hout
  | @entered r func n s' hn hk hi hf he =>
    cases hout
    obtain ⟨frame, hframe⟩ := exists_frame_of_enter he
    have hroom := (frames_enter he).2
    rw [frames_visited] at hframe hroom
    have hcount := h.counted
    refine ⟨?_, ?_, ?_⟩
    · rw [hframe]
      exact h.kept.trans (List.suffix_cons frame s.frames)
    · simp only [hframe, List.length_cons, List.count_append, count_visits, List.count_cons_self]
      rw [List.count_cons_of_ne (by simp)] at hcount
      omega
    · rw [hframe, List.length_cons]
      omega

/-- A task that fails leaves the frames alone. -/
theorem frames_of_step_failed (hstep : c.step task rest s = (.error e, s')) :
    s'.frames = s.frames := by
  have hsteps := steps_of_step hstep
  generalize hout : (Except.error e : Except Failure (List Task)) = out at hsteps
  cases hsteps with
  | leave | missing | declaration | inner | entered => cases hout
  | @direct r n s' result hn hk hi hcall =>
    have hframes := frames_call_of_direct hi (c.visited n s)
    rwa [hcall, frames_visited] at hframes
  | refused => exact frames_visited _ _ _

/-- **The frames are in order at every turn.** -/
theorem Framed.reaches {x y : List Task × Store} (h : c.Framed base x.1 x.2)
    (hreach : c.Reaches x y) : c.Framed base y.1 y.2 := by
  induction hreach with
  | refl => exact h
  | tail _ hnext ih =>
    obtain ⟨hstep⟩ := hnext
    exact ih.step hstep

/-! ### Entry points -/

theorem frames_dropTo (h : base <:+ s.frames) : (Store.dropTo base.length s).frames = base := by
  obtain ⟨own, hown⟩ := h
  simp [Store.dropTo, ← hown]

/-- Whatever nodes are run, the frames from before are still there. -/
theorem suffix_frames_run (c : Code) (rs : List NodeRef) (s : Store) :
    s.frames <:+ (c.run (rs.map .visit) s).2.frames := by
  rcases c.run_ends (rs.map .visit) s with ⟨s', hreach, hrun⟩ |
    ⟨task, rest, s₁, e, s', hreach, hfail, hrun⟩
  · rw [hrun]
    exact ((c.framed_visits rs s).reaches hreach).kept
  · rw [hrun, frames_of_step_failed hfail]
    exact ((c.framed_visits rs s).reaches hreach).kept

/-- **Running a node leaves the frames as they were**, whether it fails or not. -/
theorem frames_executeNode (c : Code) (r : NodeRef) (s : Store) :
    (c.executeNode r s).2.frames = s.frames :=
  frames_dropTo (c.suffix_frames_run [r] s)

theorem frames_executeNodes (c : Code) (rs : List NodeRef) (s : Store) :
    (c.executeNodes s rs).2.frames = s.frames := by
  induction rs generalizing s with
  | nil => rfl
  | cons r rs ih =>
    have hnode := c.frames_executeNode r s
    rw [executeNodes]
    split
    · rename_i s₁ hr
      rw [hr] at hnode
      rw [ih, hnode]
    · rename_i s₁ hr
      rw [hr] at hnode
      exact hnode

/-- **Invoking a function leaves the frames as they were**, whether it fails or
not. -/
theorem frames_invoke (c : Code) (func call : NodeRef) (s : Store) :
    (c.invoke func call s).2.frames = s.frames := by
  rw [invoke]
  split
  · rfl
  · rename_i s₁ he
    obtain ⟨frame, hframe⟩ := exists_frame_of_enter he
    have hbody := c.frames_executeNodes (c.body func) s₁
    simp only
    rw [hbody, hframe, List.tail_cons]

/-- **The frames are in order throughout a run, and the same afterwards.** At
every turn those from before are the outermost ones, there are no more than the
options allow, and there is one more than before for each call whose end is to
come; a task that ends a call finds a frame on top of those from before. -/
theorem framed_throughout (c : Code) (r : NodeRef) (s : Store)
    (h : s.frames.length ≤ c.options.maxCallDepth) :
    (∀ tasks s', c.Reaches ([.visit r], s) (tasks, s') →
        s.frames <:+ s'.frames ∧ s'.frames.length ≤ c.options.maxCallDepth ∧
          s'.frames.length = s.frames.length + tasks.count .leave ∧
          ∀ rest, tasks = .leave :: rest →
            ∃ frame frames, s'.frames = frame :: frames ∧ s.frames <:+ frames) ∧
      (c.executeNode r s).2.frames = s.frames ∧
      ∀ func, (c.invoke func r s).2.frames = s.frames := by
  refine ⟨fun tasks s' hreach => ?_, c.frames_executeNode r s, fun func => c.frames_invoke func r s⟩
  have hframed := (c.framed_start r s).reaches hreach
  refine ⟨hframed.kept, ?_, hframed.counted, ?_⟩
  · have hbound := hframed.bounded
    rwa [Nat.max_eq_right h] at hbound
  · rintro rest rfl
    exact hframed.exists_cons

/-- A frame of a call that is under way when a run begins. -/
def outerFrame : Frame := [(some "y", .string "b")]

/-- The run of `printing`, under a call that is under way, gets to the body of
its function. -/
theorem reaches_printing :
    printing.Reaches ([.visit ⟨0, 0⟩], { frames := [outerFrame] })
      ([.visit ⟨0, 5⟩, .leave, .visit ⟨0, 8⟩], { frames := [printingFrame, outerFrame] }) := by
  have hroot : printing.step (.visit ⟨0, 0⟩) [] { frames := [outerFrame] }
      = (.ok [.visit ⟨0, 1⟩, .visit ⟨0, 7⟩], { frames := [outerFrame] }) := rfl
  have hdeclare : printing.step (.visit ⟨0, 1⟩) [.visit ⟨0, 7⟩] { frames := [outerFrame] }
      = (.ok [.visit ⟨0, 7⟩], { frames := [outerFrame] }) := rfl
  have hcall : printing.step (.visit ⟨0, 7⟩) [] { frames := [outerFrame] }
      = (.ok [.visit ⟨0, 5⟩, .leave, .visit ⟨0, 8⟩],
          { frames := [printingFrame, outerFrame] }) := by
    simp only [step, findFunction_printing.1]
    rfl
  exact ((Relation.ReflTransGen.single (.done hroot)).tail (.done hdeclare)).tail (.done hcall)

/-- In the body of a function there is one frame more, and afterwards there is
none. -/
theorem framed_throughout_printing :
    [outerFrame].length ≤ printing.options.maxCallDepth ∧
      [printingFrame, outerFrame].length
        = [outerFrame].length
          + List.count Task.leave [.visit ⟨0, 5⟩, .leave, .visit ⟨0, 8⟩] ∧
      (printing.executeNode ⟨0, 0⟩ { frames := [outerFrame] }).2.frames = [outerFrame] := by
  have hdepth : [outerFrame].length ≤ printing.options.maxCallDepth := by decide
  obtain ⟨hturns, hafter, -⟩ :=
    framed_throughout printing ⟨0, 0⟩ { frames := [outerFrame] } hdepth
  exact ⟨hdepth, (hturns _ _ reaches_printing).2.2.1, hafter⟩

end ScopeScript.Code
