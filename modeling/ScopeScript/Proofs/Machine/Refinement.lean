import ScopeScript.Proofs.Machine.Semantics
import ScopeScript.Proofs.Scanner.WellFormed

/-!
# The task list does what running a node means

`ScopeScript.Code.run` keeps bodies of functions, ends of calls and the pending
children of callers on one list of tasks. This file shows that nothing gets mixed
up there: whatever tasks stand behind it, a node on the list does just what
`ScopeScript.Code.Does` says, and then the tasks behind it go on from the store
that is left (`ScopeScript.Code.Does.simulated`). So
`ScopeScript.Code.executeNode` makes the same native calls with the same
arguments, fails in the same way, and leaves the same frames, console and trace
(`ScopeScript.Code.does_iff_executeNode`).

Only where work fails does the list differ: it stops with the frames of the calls
under way still there, and `ScopeScript.Store.dropTo` drops them afterwards.
-/

namespace ScopeScript

namespace Code

variable {c : Code} {r func : NodeRef} {s s' s'' : Store} {calls calls' : List NativeCall}
  {out : Except Failure Unit} {task : Task} {tasks tasks' rest : List Task} {e : Failure}

/-! ### The native calls that tasks make -/

/-- The native call that one task makes, if it makes one. -/
def request (c : Code) (task : Task) (s : Store) : List NativeCall :=
  match task with
  | .leave => []
  | .visit r =>
    match c.forest.node? r with
    | none => []
    | some n => if n.kind = .call then (c.nativeCall? r s).toList else []

/-- The native calls that all tasks make, up to the first failure. -/
def log (c : Code) (tasks : List Task) (s : Store) : List NativeCall :=
  match tasks with
  | [] => []
  | task :: rest =>
    c.request task s ++
      match _h : c.step task rest s with
      | (.ok tasks, s) => c.log tasks s
      | (.error _, _) => []
termination_by c.effort tasks s.frames.length
decreasing_by exact effort_step _h

/-- Tasks make some calls, and then others go on. -/
structure Turns (c : Code) (tasks : List Task) (s : Store) (calls : List NativeCall)
    (tasks' : List Task) (s' : Store) : Prop where
  /-- They end in the same way. -/
  run : c.run tasks s = c.run tasks' s'
  /-- They make the same calls once some have been made. -/
  log : c.log tasks s = calls ++ c.log tasks' s'

/-- Tasks make some calls, and then fail. -/
structure Breaks (c : Code) (tasks : List Task) (s : Store) (calls : List NativeCall)
    (e : Failure) (s' : Store) : Prop where
  /-- They fail. -/
  run : c.run tasks s = (.error e, s')
  /-- They make some calls before. -/
  log : c.log tasks s = calls

theorem Turns.refl (c : Code) (tasks : List Task) (s : Store) : c.Turns tasks s [] tasks s :=
  ⟨rfl, rfl⟩

theorem Turns.trans (h : c.Turns tasks s calls tasks' s')
    (h' : c.Turns tasks' s' calls' rest s'') : c.Turns tasks s (calls ++ calls') rest s'' := by
  refine ⟨h.run.trans h'.run, ?_⟩
  rw [h.log, h'.log, List.append_assoc]

theorem Turns.breaks (h : c.Turns tasks s calls tasks' s') (h' : c.Breaks tasks' s' calls' e s'') :
    c.Breaks tasks s (calls ++ calls') e s'' := by
  refine ⟨h.run.trans h'.run, ?_⟩
  rw [h.log, h'.log]

theorem turns_of_step (h : c.step task rest s = (.ok tasks, s')) :
    c.Turns (task :: rest) s (c.request task s) tasks s' := by
  refine ⟨?_, ?_⟩
  · rw [Code.run]
    split
    · rename_i hstep
      rw [h] at hstep
      cases hstep
      rfl
    · rename_i hstep
      rw [h] at hstep
      cases hstep
  · rw [Code.log]
    split
    · rename_i hstep
      rw [h] at hstep
      cases hstep
      rfl
    · rename_i hstep
      rw [h] at hstep
      cases hstep

theorem breaks_of_step (h : c.step task rest s = (.error e, s')) :
    c.Breaks (task :: rest) s (c.request task s) e s' := by
  refine ⟨?_, ?_⟩
  · rw [Code.run]
    split
    · rename_i hstep
      rw [h] at hstep
      cases hstep
    · rename_i hstep
      rw [h] at hstep
      cases hstep
      rfl
  · rw [Code.log]
    split
    · rename_i hstep
      rw [h] at hstep
      cases hstep
    · rw [List.append_nil]

/-! ### One task -/

variable {n : Node}

/-- Arguments depend on nothing but the frames. -/
theorem arguments_congr (h : s'.frames = s.frames) (r : NodeRef) :
    c.arguments s' r = c.arguments s r := by
  unfold arguments argument
  rw [h]

theorem nativeCall?_visited (c : Code) (r : NodeRef) (n : Node) (s : Store) :
    c.nativeCall? r (c.visited n s) = c.nativeCall? r s := by
  unfold nativeCall?
  rw [arguments_congr (frames_visited c n s)]

theorem request_of_call (hn : c.forest.node? r = some n) (hk : n.kind = .call) (s : Store) :
    c.request (.visit r) s = (c.nativeCall? r (c.visited n s)).toList := by
  rw [nativeCall?_visited]
  simp [request, hn, hk]

theorem request_of_not_call (hn : c.forest.node? r = some n) (hk : n.kind ≠ .call) (s : Store) :
    c.request (.visit r) s = [] := by
  simp [request, hn, hk]

theorem nativeCall?_of_findFunction (hf : c.findFunction r = some func) (s : Store) :
    c.nativeCall? r s = none := by
  simp [nativeCall?, hf]

theorem body_eq_statements (hw : c.forest.WellFormed) (func : NodeRef) :
    c.body func = c.statements func := by
  unfold body statements
  cases c.forest.childOfKind? func .functionImpl with
  | none => rfl
  | some impl => exact Forest.below_eq_children hw impl

/-- Tasks end as work that comes out as `out`: either the tasks behind it go on,
or there is a failure and some frames are left over. -/
def Ends (c : Code) (tasks : List Task) (s : Store) (calls : List NativeCall) (rest : List Task)
    (s' : Store) : Except Failure Unit → Prop
  | .ok () => c.Turns tasks s calls rest s'
  | .error e => ∃ extra, c.Breaks tasks s calls e { s' with frames := extra ++ s'.frames }

theorem Turns.ends (h : c.Turns tasks s calls tasks' s')
    (h' : c.Ends tasks' s' calls' rest s'' out) :
    c.Ends tasks s (calls ++ calls') rest s'' out := by
  cases out with
  | ok u => exact h.trans h'
  | error e =>
    obtain ⟨extra, h'⟩ := h'
    exact ⟨extra, h.breaks h'⟩

theorem turns_declaration (hn : c.forest.node? r = some n) (hk : n.kind = .function)
    (hi : c.options.invokeFunctions = true) (rest : List Task) (s : Store) :
    c.Turns (.visit r :: rest) s [] rest (c.visited n s) := by
  have hstep : c.step (.visit r) rest s = (.ok rest, c.visited n s) := by
    simp [step, hn, hk, hi, visited]
  have hturns := turns_of_step hstep
  rwa [request_of_not_call hn (by simp [hk])] at hturns

theorem turns_inner (hw : c.forest.WellFormed) (hn : c.forest.node? r = some n)
    (hk : n.kind ≠ .call) (hi : ¬(n.kind = .function ∧ c.options.invokeFunctions = true))
    (rest : List Task) (s : Store) :
    c.Turns (.visit r :: rest) s [] ((c.forest.children r).map .visit ++ rest)
      (c.visited n s) := by
  have hstep : c.step (.visit r) rest s
      = (.ok ((c.forest.below r).map .visit ++ rest), c.visited n s) := by
    simp [step, hn, hk, hi, visited]
  have hturns := turns_of_step hstep
  rwa [request_of_not_call hn hk, Forest.below_eq_children hw] at hturns

theorem breaks_refused {error : ScriptError} (hn : c.forest.node? r = some n)
    (hk : n.kind = .call) (hi : c.options.invokeFunctions = true)
    (hf : c.findFunction r = some func)
    (he : c.enter func r (c.visited n s) = .error error) (rest : List Task) :
    c.Breaks (.visit r :: rest) s [] (.script error) (c.visited n s) := by
  have hstep : c.step (.visit r) rest s = (.error (.script error), c.visited n s) := by
    rw [visited] at he
    simp [step, hn, hk, hi, hf, he, visited]
  have hbreaks := breaks_of_step hstep
  rwa [request_of_call hn hk, nativeCall?_of_findFunction hf] at hbreaks

theorem turns_invoked (hw : c.forest.WellFormed) (hn : c.forest.node? r = some n)
    (hk : n.kind = .call) (hi : c.options.invokeFunctions = true)
    (hf : c.findFunction r = some func) (he : c.enter func r (c.visited n s) = .ok s')
    (rest : List Task) :
    c.Turns (.visit r :: rest) s []
      ((c.statements func).map .visit ++ .leave :: ((c.forest.children r).map .visit ++ rest))
      s' := by
  have hstep : c.step (.visit r) rest s
      = (.ok ((c.body func).map .visit ++ .leave :: ((c.forest.below r).map .visit ++ rest)),
          s') := by
    rw [visited] at he
    simp [step, hn, hk, hi, hf, he]
  have hturns := turns_of_step hstep
  rwa [request_of_call hn hk, nativeCall?_of_findFunction hf, body_eq_statements hw,
    Forest.below_eq_children hw] at hturns

theorem ends_direct {result : Except Failure Value} (hw : c.forest.WellFormed)
    (hn : c.forest.node? r = some n) (hk : n.kind = .call)
    (hi : c.options.invokeFunctions = false ∨ c.findFunction r = none)
    (h : c.call r (c.visited n s) = (result, s')) (rest : List Task) :
    c.Ends (.visit r :: rest) s (c.nativeCall? r (c.visited n s)).toList
      ((c.forest.children r).map .visit ++ rest) s' (result.map fun _ => ()) := by
  have hstep : c.step (.visit r) rest s
      = (result.map fun _ => (c.forest.children r).map .visit ++ rest, s') := by
    rw [call_of_direct hi, visited] at h
    rw [← Forest.below_eq_children hw]
    cases hf : c.findFunction r with
    | none =>
      rw [hf] at h
      cases result <;> simp [step, hn, hk, hf, h, Except.map]
    | some func =>
      have hoff : c.options.invokeFunctions = false := hi.resolve_right (by simp [hf])
      rw [hf] at h
      cases h
      simp [step, hn, hk, hf, hoff, Except.map]
  rw [← request_of_call hn hk]
  cases result with
  | ok v => exact turns_of_step hstep
  | error e => exact ⟨[], breaks_of_step hstep⟩

/-! ### Whole work -/

/-- **Tasks do some work**, whatever stands behind it. A call is no task by
itself: its node is, and its children are done afterwards. -/
def Simulated (c : Code) (w : Work) (s : Store) (calls : List NativeCall)
    (out : Except Failure Unit) (s' : Store) : Prop :=
  match w with
  | .node r => ∀ rest, c.Ends (.visit r :: rest) s calls rest s' out
  | .nodes rs => ∀ rest, c.Ends (rs.map .visit ++ rest) s calls rest s' out
  | .call r => ∀ rest n s₀, c.forest.node? r = some n → n.kind = .call → c.visited n s₀ = s →
    c.Ends (.visit r :: rest) s₀ calls ((c.forest.children r).map .visit ++ rest) s' out

/-- The body of a call, with the end of the call behind it. -/
theorem ends_invoked (h : c.Does (.nodes (c.statements func)) s calls out s')
    (hsim : c.Simulated (.nodes (c.statements func)) s calls out s') {frame : Frame}
    {frames : List Frame} (hframes : s.frames = frame :: frames) (rest : List Task) :
    c.Ends ((c.statements func).map .visit ++ .leave :: rest) s calls rest
      { s' with frames := s'.frames.tail } out := by
  have hbody := hsim (.leave :: rest)
  cases out with
  | ok u =>
    have hleave : c.Turns (.leave :: rest) s' [] rest { s' with frames := s'.frames.tail } :=
      turns_of_step rfl
    exact List.append_nil calls ▸ Turns.trans hbody hleave
  | error e =>
    -- the frame of the call is one of those that are left over
    obtain ⟨extra, hbreaks⟩ := hbody
    refine ⟨extra ++ [frame], ?_⟩
    rw [h.frames, hframes] at hbreaks
    rw [h.frames, hframes, List.tail_cons, List.append_assoc]
    exact hbreaks

/-- **The task list does what running means.** -/
theorem Does.simulated (hw : c.forest.WellFormed) {w : Work} (h : c.Does w s calls out s') :
    c.Simulated w s calls out s' := by
  induction h with
  | declaration hn hk hi => exact fun rest => turns_declaration hn hk hi rest _
  | inner hn hk hi _ ih => exact fun rest => (turns_inner hw hn hk hi rest _).ends (ih rest)
  | called hn hk _ _ ih ih' =>
    intro rest
    exact Turns.ends (ih rest _ _ hn hk rfl) (ih' rest)
  | failed hn hk _ ih => exact fun rest => ih rest _ _ hn hk rfl
  | refused hi hf he =>
    rintro rest n s₀ hn hk rfl
    exact ⟨[], breaks_refused hn hk hi hf he rest⟩
  | invoked hi hf he h ih =>
    rintro rest n s₀ hn hk rfl
    obtain ⟨frame, hframe⟩ := exists_frame_of_enter he
    exact (turns_invoked hw hn hk hi hf he rest).ends (ends_invoked h ih hframe _)
  | direct hi h =>
    rintro rest n s₀ hn hk rfl
    exact ends_direct hw hn hk hi h rest
  | done => exact fun rest => Turns.refl c rest _
  | next _ _ ih ih' =>
    intro rest
    exact Turns.ends (ih _) (ih' rest)
  | stop _ ih => exact fun rest => ih _

/-! ### What the native calls leave behind -/

/-- The console after some native calls, one after the other. -/
def perform (c : Code) (calls : List NativeCall) (k : Console) : Console :=
  calls.foldl (fun k call =>
    match c.natives.lookup call.name with
    | some native => (native call.arguments k).2
    | none => k) k

@[simp] theorem console_note (c : Code) (line : String) (s : Store) :
    (c.note line s).console = s.console := by
  unfold note
  split <;> rfl

theorem console_enter (h : c.enter func r s = .ok s') : s'.console = s.console := by
  unfold enter at h
  split at h
  · cases h
  · dsimp only at h
    split at h
    · cases h
    · cases h
      exact console_note _ _ _

theorem console_callNative (hf : c.findFunction r = none) (s : Store) :
    (c.callNative r s).2.console = c.perform (c.nativeCall? r s).toList s.console := by
  unfold callNative nativeCall?
  rw [hf]
  cases hname : c.name r with
  | none => rfl
  | some name =>
    cases hnative : c.natives.lookup name with
    | none => simp [hnative, perform]
    | some native =>
      simp only [Option.bind_some, hnative, Option.isSome_some, if_true, Option.toList_some,
        perform, List.foldl_cons, List.foldl_nil]
      split
      · rfl
      · split <;> rfl

theorem console_step (c : Code) (task : Task) (rest : List Task) (s : Store) :
    (c.step task rest s).2.console = c.perform (c.request task s) s.console := by
  cases task with
  | leave => rfl
  | visit r =>
    cases hn : c.forest.node? r with
    | none => simp [step, request, hn, perform]
    | some n =>
      by_cases hk : n.kind = .call
      · have hvisited : (c.visited n s).console = s.console := console_note _ _ _
        rw [request_of_call hn hk, ← hvisited]
        cases hf : c.findFunction r with
        | none =>
          rw [← console_callNative hf]
          cases hr : c.callNative r (c.visited n s) with
          | mk result s' =>
            rw [visited] at hr
            cases result <;> simp [step, hn, hk, hf, hr]
        | some func =>
          rw [nativeCall?_of_findFunction hf]
          by_cases hi : c.options.invokeFunctions = true
          · cases he : c.enter func r (c.visited n s) with
            | error e =>
              rw [visited] at he
              simp [step, hn, hk, hf, hi, he, perform, visited]
            | ok s' =>
              have hconsole := console_enter he
              rw [visited] at he
              simp [step, hn, hk, hf, hi, he, perform, hconsole]
          · simp [step, hn, hk, hf, hi, perform, noteDisabled, visited]
      · rw [request_of_not_call hn hk]
        simp only [step, hn, hk, ne_eq, not_false_eq_true, if_true]
        split <;> exact console_note _ _ _

/-- **The console shows the native calls that were made**, and nothing else. -/
theorem console_run (c : Code) (tasks : List Task) (s : Store) :
    (c.run tasks s).2.console = c.perform (c.log tasks s) s.console := by
  induction tasks, s using Code.run.induct c with
  | case1 s =>
    rw [Code.run, Code.log]
    rfl
  | case2 s task rest tasks s' hstep ih =>
    obtain ⟨hrun, hlog⟩ := turns_of_step hstep
    have hconsole := c.console_step task rest s
    rw [hstep] at hconsole
    rw [hrun, hlog, ih, hconsole, perform, perform, perform, List.foldl_append]
  | case3 s task rest e s' hstep =>
    obtain ⟨hrun, hlog⟩ := breaks_of_step hstep
    have hconsole := c.console_step task rest s
    rw [hstep] at hconsole
    rw [hrun, hlog, hconsole]

/-! ### Running a node -/

theorem dropTo_append (s : Store) (extra : List Frame) :
    Store.dropTo s.frames.length { s with frames := extra ++ s.frames } = s := by
  simp [Store.dropTo]

/-- Work that is done is what `executeNode` does. -/
theorem Does.executeNode (hw : c.forest.WellFormed) (h : c.Does (.node r) s calls out s') :
    c.executeNode r s = (out, s') ∧ c.log [.visit r] s = calls := by
  have hends := h.simulated hw []
  rw [Code.executeNode, ← h.frames]
  cases out with
  | ok u =>
    obtain ⟨hrun, hlog⟩ := hends
    rw [Code.run] at hrun
    rw [Code.log, List.append_nil] at hlog
    rw [hrun]
    exact ⟨congrArg (Prod.mk _) (dropTo_append s' []), hlog⟩
  | error e =>
    obtain ⟨extra, hrun, hlog⟩ := hends
    rw [hrun]
    exact ⟨congrArg (Prod.mk _) (dropTo_append s' extra), hlog⟩

/-- **Running a node by its task list is running it by recursion**: with the same
native calls and arguments, the same failure or none, and the same store
afterwards. The calls are those that the console shows. -/
theorem does_iff_executeNode (c : Code) (hw : c.forest.WellFormed) (r : NodeRef)
    (hr : (c.forest.node? r).isSome) (s : Store) :
    (∀ calls out s', c.Does (.node r) s calls out s' ↔
        c.executeNode r s = (out, s') ∧ c.log [.visit r] s = calls) ∧
      (c.executeNode r s).2.console = c.perform (c.log [.visit r] s) s.console := by
  refine ⟨fun calls out s' => ⟨fun h => h.executeNode hw, ?_⟩, c.console_run _ s⟩
  rintro ⟨hrun, rfl⟩
  -- the node can be run somehow, and then it is run as the tasks run it
  obtain ⟨n, hn⟩ := Option.isSome_iff_exists.mp hr
  obtain ⟨calls, out', s'', h⟩ := exists_does hw hn s
  obtain ⟨hrun', hlog⟩ := h.executeNode hw
  rw [hrun] at hrun'
  cases hrun'
  rw [hlog]
  exact h

/-- The tree of `function f(x){print(x);}f('a');`. -/
def printingTree : Tree :=
  { name := ""
    nodes :=
      #[{ kind := .global, location := {}, children := [1, 7] },
        { kind := .function, location := {}, parent := some 0, children := [2, 4]
          name := some "f" },
        { kind := .functionParams, location := { offset := 11, column := 11 }
          parent := some 1, children := [3] },
        { kind := .functionParam, location := { offset := 12, column := 12 }
          parent := some 2, name := some "x" },
        { kind := .functionImpl, location := { offset := 14, column := 14 }
          parent := some 1, children := [5] },
        { kind := .call, location := { offset := 15, column := 15 }
          parent := some 4, children := [6], name := some "print" },
        { kind := .functionParam, location := { offset := 21, column := 21 }
          parent := some 5, name := some "x", value := some (.string "x") },
        { kind := .call, location := { offset := 25, column := 25 }
          parent := some 0, children := [8], name := some "f" },
        { kind := .functionParam, location := { offset := 27, column := 27 }
          parent := some 7, value := some (.string "a"), quoted := true }] }

/-- That tree, where functions can be called. -/
def printing : Code :=
  { options := { invokeFunctions := true }, forest := { trees := #[printingTree] }, program := [0] }

/-- The frame of the call of `f`. -/
def printingFrame : Frame := [(some "x", .string "a")]

theorem wellFormed_printing : printing.forest.WellFormed := by
  intro t ht
  obtain rfl : t = printingTree := by simpa [printing] using ht
  have hsound := ({} : Scanner).sound_parse "" "function f(x)\x7bprint(x);\x7df('a');"
  obtain ⟨s, hs, htree⟩ : ∃ s : Scanner, s.tree = printingTree ∧
      ({} : Scanner).parse "" (some "function f(x)\x7bprint(x);\x7df('a');") = .ok s :=
    ⟨_, rfl, rfl⟩
  rw [htree] at hsound
  rw [← hs]
  exact hsound.wellFormed.tree

theorem findFunction_printing :
    printing.findFunction ⟨0, 7⟩ = some ⟨0, 1⟩ ∧ printing.findFunction ⟨0, 5⟩ = none := by
  have hcall : printingTree.ancestors 7 = [0] := by
    simp [Tree.ancestors, Tree.parent?, Tree.node?, printingTree]
  have hprint : printingTree.ancestors 5 = [4, 1, 0] := by
    simp [Tree.ancestors, Tree.parent?, Tree.node?, printingTree]
  have hup : ∀ i, printing.forest.ancestors ⟨0, i⟩
      = Forest.siblings ⟨0, i⟩ (printingTree.ancestors i) := fun i => rfl
  rw [findFunction, findFunction, reachable, reachable, hup, hup, hcall, hprint]
  exact ⟨rfl, rfl⟩

theorem does_printing :
    printing.Does (.node ⟨0, 0⟩) {} [⟨"print", [.string "a"]⟩] (.ok ())
      { console := { output := "a" } } := by
  obtain ⟨hf, hnone⟩ := findFunction_printing
  have hleaf : ∀ s : Store, printing.Does (.node ⟨0, 6⟩) s [] (.ok ()) s :=
    fun s => .inner rfl (by decide) (by decide) .done
  have hleaf' : ∀ s : Store, printing.Does (.node ⟨0, 8⟩) s [] (.ok ()) s :=
    fun s => .inner rfl (by decide) (by decide) .done
  -- the word `x` in the body stands for what `f` was given
  have hprint : printing.Does (.call ⟨0, 5⟩) { frames := [printingFrame] }
      [⟨"print", [.string "a"]⟩] (.ok ())
      { frames := [printingFrame], console := { output := "a" } } := by
    have hcall : printing.call ⟨0, 5⟩ { frames := [printingFrame] }
        = (.ok .none, { frames := [printingFrame], console := { output := "a" } }) := by
      rw [call_of_direct (Or.inr hnone), hnone]
      rfl
    have hnative : printing.nativeCall? ⟨0, 5⟩ { frames := [printingFrame] }
        = some ⟨"print", [.string "a"]⟩ := by
      rw [nativeCall?, hnone]
      rfl
    have hdirect := Does.direct (Or.inr hnone) hcall
    rwa [hnative] at hdirect
  have hbody : printing.Does (.nodes [⟨0, 5⟩]) { frames := [printingFrame] }
      [⟨"print", [.string "a"]⟩] (.ok ())
      { frames := [printingFrame], console := { output := "a" } } :=
    .next (.called rfl rfl hprint (.next (hleaf _) .done)) .done
  have hinvoke : printing.Does (.call ⟨0, 7⟩) {} [⟨"print", [.string "a"]⟩] (.ok ())
      { console := { output := "a" } } := .invoked rfl hf rfl hbody
  have hdeclare : printing.Does (.node ⟨0, 1⟩) {} [] (.ok ()) {} := .declaration rfl rfl rfl
  exact .inner rfl (by decide) (by decide)
    (.next hdeclare (.next (.called rfl rfl hinvoke (.next (hleaf' _) .done)) .done))

/-- A native call in the body of a function that is called. -/
theorem does_iff_executeNode_printing :
    printing.forest.WellFormed ∧ (printing.forest.node? ⟨0, 0⟩).isSome ∧
      printing.executeNode ⟨0, 0⟩ {} = (.ok (), { console := { output := "a" } }) ∧
      printing.log [.visit ⟨0, 0⟩] {} = [⟨"print", [.string "a"]⟩] :=
  ⟨wellFormed_printing, rfl,
    ((does_iff_executeNode printing wellFormed_printing ⟨0, 0⟩ rfl {}).1 _ _ _).mp does_printing⟩

end Code

end ScopeScript
