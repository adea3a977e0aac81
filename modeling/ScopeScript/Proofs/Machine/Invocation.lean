import ScopeScript.Proofs.Machine.Termination
import ScopeScript.Proofs.Machine.Trace

/-!
# Two ways to invoke a function

A call of a declared function can be made in two ways. Running its node puts the body on
the list of tasks, with the end of the call behind it. Making the call by itself invokes
the function, which runs the statements of the body one by one, each with a list of its
own, and drops the frame afterwards. **Both come to the same**
(`ScopeScript.Code.invocations_agree`): they make the same native calls, fail alike or
not at all, and leave the same frames.

What carries the proof is that a list of tasks can be cut anywhere: **what stands behind
some tasks has no part in them** (`ScopeScript.Code.Steps.append`), so it goes on
where they end (`ScopeScript.Code.run_append`). Running nodes one after the other is then
running them from one list (`ScopeScript.Code.executeNodes_eq`), up to the frames that a
failure leaves behind. The only difference between the two ways is a line in the
trace, which is of no consequence.
-/

namespace ScopeScript.Code

variable {c : Code} {r func : NodeRef} {n : Node} {s s' : Store} {task : Task}
  {rest : List Task} {base : List Frame}

/-! ### One part of a list after the other -/

/-- **What stands behind a task has no part in it.** -/
theorem Steps.append {out : Except Failure (List Task)} (h : c.Steps rest s task out s')
    (more : List Task) : c.Steps (rest ++ more) s task (out.map (· ++ more)) s' := by
  cases h with
  | leave => exact .leave
  | missing hn => exact .missing hn
  | declaration hn hk hi => exact .declaration hn hk hi
  | inner hn hk hi =>
    rw [Except.map, List.append_assoc]
    exact .inner hn hk hi
  | @direct r n s' result hn hk hi hcall =>
    have hdirect : c.Steps (rest ++ more) s (.visit r) _ s' := .direct hn hk hi hcall
    cases result with
    | error e => exact hdirect
    | ok v =>
      rw [Except.map, Except.map, List.append_assoc]
      exact hdirect
  | refused hn hk hi hf he => exact .refused hn hk hi hf he
  | entered hn hk hi hf he =>
    rw [Except.map, List.append_assoc, List.cons_append, List.append_assoc]
    exact .entered hn hk hi hf he

theorem step_append {out : Except Failure (List Task)} (h : c.step task rest s = (out, s'))
    (more : List Task) : c.step task (rest ++ more) s = (out.map (· ++ more), s') :=
  ((steps_of_step h).append more).step_eq

/-- **Tasks that stand behind others go on where these end**, unless they fail. -/
theorem run_append (c : Code) (tasks more : List Task) (s : Store) :
    c.run (tasks ++ more) s
        = (match c.run tasks s with
          | (.ok (), s') => c.run more s'
          | (.error e, s') => (.error e, s')) ∧
      c.log (tasks ++ more) s
        = c.log tasks s ++
          match c.run tasks s with
          | (.ok (), s') => c.log more s'
          | (.error _, _) => [] := by
  induction tasks, s using Code.run.induct c with
  | case1 s =>
    rw [Code.run, Code.log]
    exact ⟨rfl, rfl⟩
  | case2 s task rest tasks s' hstep ih =>
    obtain ⟨hrun, hlog⟩ := turns_of_step hstep
    obtain ⟨hrun', hlog'⟩ := turns_of_step (step_append hstep more)
    rw [List.cons_append, hrun, hrun', hlog, hlog', List.append_assoc, ih.1, ih.2]
    exact ⟨rfl, rfl⟩
  | case3 s task rest e s' hstep =>
    obtain ⟨hrun, hlog⟩ := breaks_of_step hstep
    obtain ⟨hrun', hlog'⟩ := breaks_of_step (step_append hstep more)
    rw [List.cons_append, hrun, hrun', hlog, hlog', List.append_nil]
    exact ⟨rfl, rfl⟩

/-! ### The frames that are left -/

/-- Nodes that are run without a failure leave no frame behind. -/
theorem frames_of_run_ok {rs : List NodeRef} (h : c.run (rs.map .visit) s = (.ok (), s')) :
    s'.frames = s.frames := by
  rcases c.run_ends (rs.map .visit) s with ⟨s₁, hreach, hrun⟩ | ⟨_, _, _, _, _, _, _, hrun⟩
  · obtain rfl : s₁ = s' := congrArg Prod.snd (hrun.symm.trans h)
    have hframed := (c.framed_visits rs s).reaches hreach
    exact (hframed.kept.eq_of_length hframed.counted.symm).symm
  · cases hrun.symm.trans h

theorem dropTo_eq (h : base <:+ s.frames) :
    Store.dropTo base.length s = { s with frames := base } := by
  obtain ⟨own, hown⟩ := h
  simp [Store.dropTo, ← hown]

theorem executeNode_eq (c : Code) (r : NodeRef) (s : Store) :
    c.executeNode r s
      = ((c.run [.visit r] s).1, { (c.run [.visit r] s).2 with frames := s.frames }) :=
  congrArg (Prod.mk _) (dropTo_eq (c.suffix_frames_run [r] s))

/-- **Running nodes one after the other is running them from one list**, up to the frames
that a failure leaves behind. -/
theorem executeNodes_eq (c : Code) (rs : List NodeRef) (s : Store) :
    c.executeNodes s rs
        = ((c.run (rs.map .visit) s).1, { (c.run (rs.map .visit) s).2 with frames := s.frames }) ∧
      c.logNodes s rs = c.log (rs.map .visit) s := by
  induction rs generalizing s with
  | nil =>
    rw [List.map_nil, Code.run, Code.log]
    exact ⟨rfl, rfl⟩
  | cons r rs ih =>
    obtain ⟨hrun, hlog⟩ := c.run_append [.visit r] (rs.map .visit) s
    rw [List.singleton_append] at hrun hlog
    rw [executeNodes, logNodes, List.map_cons, hrun, hlog, executeNode_eq]
    rcases hr : c.run [.visit r] s with ⟨_ | _, s₁⟩
    · exact ⟨rfl, rfl⟩
    · have hframes : s₁.frames = s.frames := @frames_of_run_ok c s s₁ [r] hr
      rw [← hframes]
      exact ⟨(ih s₁).1, congrArg _ (ih s₁).2⟩

/-! ### What a call does on the list -/

theorem frames_call (c : Code) (r : NodeRef) (s : Store) : (c.call r s).2.frames = s.frames := by
  rcases c.direct_or_invokes r with hi | ⟨hi, func, hf⟩
  · exact frames_call_of_direct hi s
  · rw [call, hf]
    simp only [hi, if_true]
    exact c.frames_invoke func r s

theorem logCall_of_direct (hi : c.options.invokeFunctions = false ∨ c.findFunction r = none)
    (s : Store) : c.logCall r s = (c.nativeCall? r s).toList := by
  rw [logCall]
  cases hf : c.findFunction r with
  | none => rfl
  | some func =>
    have hoff : c.options.invokeFunctions = false := hi.resolve_right (by simp [hf])
    rw [nativeCall?_of_findFunction hf]
    simp [hoff]

/-- A call that is made directly leads on to its children. -/
theorem ends_call_of_direct (h : c.forest.Downward) (hn : c.forest.node? r = some n)
    (hk : n.kind = .call) (hi : c.options.invokeFunctions = false ∨ c.findFunction r = none)
    (rest : List Task) (s : Store) :
    c.Ends (.visit r :: rest) s (c.logCall r (c.visited n s))
      ((c.forest.children r).map .visit ++ rest) (c.call r (c.visited n s)).2
      ((c.call r (c.visited n s)).1.map fun _ => ()) := by
  have hstep := step_of_direct hn hk hi rest s
  rw [h.below_eq] at hstep
  rw [logCall_of_direct hi, ← request_of_call hn hk]
  rcases hcall : c.call r (c.visited n s) with ⟨e | v, s₁⟩
  · rw [hcall] at hstep
    exact ⟨[], breaks_of_step hstep⟩
  · rw [hcall] at hstep
    exact turns_of_step hstep

/-- The body of a function, with the end of the call behind it. -/
theorem ends_body (rs : List NodeRef) {frame : Frame} {frames : List Frame}
    (hs : s.frames = frame :: frames) (rest : List Task) :
    c.Ends (rs.map .visit ++ .leave :: rest) s (c.logNodes s rs) rest
      { (c.executeNodes s rs).2 with frames := frames } (c.executeNodes s rs).1 := by
  obtain ⟨hnodes, hlogNodes⟩ := c.executeNodes_eq rs s
  obtain ⟨hrun, hlog⟩ := c.run_append (rs.map .visit) (.leave :: rest) s
  have hsuffix := c.suffix_frames_run rs s
  rw [hnodes, hlogNodes]
  rcases hr : c.run (rs.map .visit) s with ⟨e | _, s₁⟩
  · rw [hr] at hrun hlog hsuffix
    obtain ⟨own, hown⟩ := hsuffix
    have hleft : own ++ [frame] ++ frames = s₁.frames := by rw [← hown, hs, List.append_assoc]; rfl
    refine ⟨own ++ [frame], ?_, ?_⟩
    · dsimp only
      rw [hrun, hleft]
    · rw [hlog, List.append_nil]
  · rw [hr] at hrun hlog
    have hframes := frames_of_run_ok hr
    have hleave : c.Turns (.leave :: rest) s₁ [] rest { s₁ with frames := s₁.frames.tail } :=
      turns_of_step rfl
    rw [hframes, hs, List.tail_cons] at hleave
    exact ⟨hrun.trans hleave.run, hlog.trans (congrArg _ hleave.log)⟩

/-- **A call leads on to its children as if it had been made by itself**, whichever way it
is made. -/
theorem ends_call (h : c.forest.Downward) (hn : c.forest.node? r = some n)
    (hk : n.kind = .call) (rest : List Task) (s : Store) :
    c.Ends (.visit r :: rest) s (c.logCall r (c.visited n s))
      ((c.forest.children r).map .visit ++ rest) (c.call r (c.visited n s)).2
      ((c.call r (c.visited n s)).1.map fun _ => ()) := by
  rcases c.direct_or_invokes r with hi | ⟨hi, func, hf⟩
  · exact ends_call_of_direct h hn hk hi rest s
  · have hnone : c.request (.visit r) s = [] := by
      rw [request_of_call hn hk, nativeCall?_of_findFunction hf]
      rfl
    have hinvoke : c.call r (c.visited n s) = c.invoke func r (c.visited n s) := by
      simp [call, hf, hi]
    have hlog : c.logCall r (c.visited n s) = c.logInvoke func r (c.visited n s) := by
      simp [logCall, hf, hi]
    rw [hinvoke, hlog, invoke, logInvoke]
    cases he : c.enter func r (c.visited n s) with
    | error error =>
      have hrefused : c.Steps rest s (.visit r) _ _ := .refused hn hk hi hf he
      have hbreaks := breaks_of_step hrefused.step_eq
      rw [hnone] at hbreaks
      exact ⟨[], hbreaks⟩
    | ok s₁ =>
      obtain ⟨frame, hframe⟩ := exists_frame_of_enter he
      have hentered : c.Steps rest s (.visit r) _ _ := .entered hn hk hi hf he
      have hturns := turns_of_step hentered.step_eq
      rw [hnone, h.below_eq] at hturns
      have hbody := ends_body (c := c) (c.body func) hframe
        ((c.forest.children r).map .visit ++ rest)
      have hframes := c.frames_executeNodes (c.body func) s₁
      have hends := hturns.ends hbody
      have hmap : ∀ out : Except Failure Unit,
          (out.map fun _ => Value.none).map (fun _ => ()) = out := by
        rintro (_ | _) <;> rfl
      dsimp only
      rw [hframes, hframe, List.tail_cons, hmap]
      exact hends

/-! ### Both ways -/

/-- Makes a call by itself, and then, unless it fails, runs what is below it, one child
after the other. -/
def callThenChildren (c : Code) (r : NodeRef) (s : Store) : Except Failure Unit × Store :=
  match c.call r s with
  | (.error e, s) => (.error e, s)
  | (.ok _, s) => c.executeNodes s (c.forest.children r)

/-- The native calls made in this way. -/
def logCallThenChildren (c : Code) (r : NodeRef) (s : Store) : List NativeCall :=
  c.logCall r s ++
    match c.call r s with
    | (.error _, _) => []
    | (.ok _, s) => c.logNodes s (c.forest.children r)

/-- Running the node of a call is making the call and running its children, once the
trace tells of the node. -/
theorem executeNode_of_call (h : c.forest.Downward) (hn : c.forest.node? r = some n)
    (hk : n.kind = .call) (s : Store) :
    c.executeNode r s = c.callThenChildren r (c.visited n s) ∧
      c.log [.visit r] s = c.logCallThenChildren r (c.visited n s) := by
  have hends := ends_call h hn hk [] s
  have hframes := c.frames_call r (c.visited n s)
  rw [frames_visited] at hframes
  rw [executeNode_eq, callThenChildren, logCallThenChildren, ← hframes]
  rcases hcall : c.call r (c.visited n s) with ⟨e | v, s₁⟩
  · rw [hcall] at hends
    obtain ⟨extra, hrun, hlog⟩ := hends
    rw [hrun, hlog, List.append_nil]
    exact ⟨rfl, rfl⟩
  · rw [hcall] at hends
    obtain ⟨hrun, hlog⟩ := hends
    obtain ⟨hnodes, hlogNodes⟩ := c.executeNodes_eq (c.forest.children r) s₁
    rw [List.append_nil] at hrun hlog
    rw [hrun, hlog]
    exact ⟨hnodes.symm, congrArg _ hlogNodes.symm⟩

theorem callThenChildren_untraced (c : Code) (r : NodeRef) (s : Store) :
    c.untraced.callThenChildren r s.untraced
        = ((c.callThenChildren r s).1, (c.callThenChildren r s).2.untraced) ∧
      c.untraced.logCallThenChildren r s.untraced = c.logCallThenChildren r s := by
  obtain ⟨hcall, hlog⟩ := c.call_untraced r s
  rw [callThenChildren, callThenChildren, logCallThenChildren, logCallThenChildren, hcall, hlog]
  rcases c.call r s with ⟨e | v, s₁⟩
  · exact ⟨rfl, rfl⟩
  · obtain ⟨hnodes, hlogNodes⟩ := c.executeNodes_untraced (c.forest.children r) s₁
    exact ⟨hnodes, congrArg _ hlogNodes⟩

/-- **Both ways to make a call agree.** Running the node of a call makes the same native
calls, ends in the same way, and leaves the same frames and the same console as making
the call by itself and then, if it succeeded, running its children one after the other.
Where functions can be called and the call finds one, making it is invoking that
function. -/
theorem invocations_agree (c : Code) (h : c.forest.Downward) (r : NodeRef)
    (hr : (c.forest.node? r).map (·.kind) = some .call) (s : Store) :
    (c.executeNode r s).1 = (c.callThenChildren r s).1 ∧
      (c.executeNode r s).2.frames = (c.callThenChildren r s).2.frames ∧
      (c.executeNode r s).2.console = (c.callThenChildren r s).2.console ∧
      c.log [.visit r] s = c.logCallThenChildren r s ∧
      ∀ func, c.options.invokeFunctions = true → c.findFunction r = some func →
        c.call r s = c.invoke func r s ∧ c.logCall r s = c.logInvoke func r s := by
  obtain ⟨n, hn, hk⟩ := Option.map_eq_some_iff.mp hr
  obtain ⟨hrun, hlog⟩ := executeNode_of_call h hn hk s
  obtain ⟨hquiet, hlogQuiet⟩ := c.callThenChildren_untraced r s
  obtain ⟨hquiet', hlogQuiet'⟩ := c.callThenChildren_untraced r (c.visited n s)
  -- the two ways differ by what the trace says about the node
  rw [untraced_visited] at hquiet' hlogQuiet'
  obtain ⟨hresult, hstore⟩ := Prod.mk.inj (hquiet.symm.trans hquiet')
  refine ⟨?_, ?_, ?_, ?_, fun func hi hf => ?_⟩
  · rw [hrun, hresult]
  · rw [hrun]
    exact (congrArg Store.frames hstore).symm
  · rw [hrun]
    exact (congrArg Store.console hstore).symm
  · rw [hlog, ← hlogQuiet', hlogQuiet]
  · simp [call, logCall, hf, hi]

/-- The call of a function that calls `print`. -/
theorem invocations_agree_printing :
    printing.forest.Downward ∧
      (printing.forest.node? ⟨0, 7⟩).map (·.kind) = some .call ∧
      printing.log [.visit ⟨0, 7⟩] {} = printing.logCallThenChildren ⟨0, 7⟩ {} ∧
      printing.call ⟨0, 7⟩ {} = printing.invoke ⟨0, 1⟩ ⟨0, 7⟩ {} := by
  have hdown := wellFormed_printing.downward
  obtain ⟨-, -, -, hlog, hinvoke⟩ := invocations_agree printing hdown ⟨0, 7⟩ rfl {}
  exact ⟨hdown, rfl, hlog, (hinvoke _ rfl findFunction_printing.1).1⟩

end ScopeScript.Code
