import ScopeScript.Proofs.Machine.Calls

/-!
# The limit on nested calls

The options limit how many calls may be under way at once. **The limit only ever cuts a
run short** (`ScopeScript.Machine.limit_only_cuts_short`): a run that did not hit it is
the same with any higher limit, down to the native calls, the scripts and the failure,
and a run that did hit it has made the first of the native calls that it makes with a
higher one.

## What carries the proof

There is a single place where the limit is asked for, which is where a call begins
(`ScopeScript.Code.enter`), and it is asked for before anything else is. So beginning a
call either fails for that reason or does the same with a higher limit
(`ScopeScript.Code.enter_limited`). The same choice is then passed on from a call to a
task, from there by induction to a list of tasks, and up to whole runs: each either
fails because calls are nested too deep, with the native calls so far, or is the same.
-/

namespace ScopeScript

/-- **Calls were nested too deep**: the failure that the limit is there for, at whatever
place. -/
def EndsTooDeep {α : Type} (out : Except Failure α) : Prop :=
  ∃ e : ScriptError, out = .error (.script e) ∧ e.fault = .tooDeep

/-- The same code with another limit on nested calls. -/
def Code.limited (c : Code) (depth : Nat) : Code :=
  { c with options := { c.options with maxCallDepth := depth } }

namespace Code

variable {c : Code} {task : Task} {rest : List Task} {s s' : Store} {depth : Nat}

/-! ### Tasks -/

/-- **The limit is asked for first, and only when a call begins.** -/
theorem enter_limited (h : c.options.maxCallDepth ≤ depth) (func call : NodeRef) (s : Store) :
    (∃ e, c.enter func call s = .error e ∧ e.fault = .tooDeep) ∨
      (c.limited depth).enter func call s = c.enter func call s := by
  by_cases hfull : c.options.maxCallDepth ≤ s.frames.length
  · refine Or.inl ⟨⟨.tooDeep, some (c.location call)⟩, ?_, rfl⟩
    rw [enter, if_pos hfull]
  · have hroom : ¬(c.limited depth).options.maxCallDepth ≤ s.frames.length := by
      change ¬depth ≤ s.frames.length
      omega
    refine Or.inr ?_
    rw [enter, enter, if_neg hfull, if_neg hroom]
    rfl

theorem call_limited_of_direct {r : NodeRef}
    (hi : c.options.invokeFunctions = false ∨ c.findFunction r = none) (s : Store) :
    (c.limited depth).call r s = c.call r s := by
  rw [call_of_direct hi, call_of_direct (c := c.limited depth) hi]
  rfl

/-- **A task fails because calls are nested too deep, or it does the same with a higher
limit.** -/
theorem Steps.limited (h : c.options.maxCallDepth ≤ depth) {out : Except Failure (List Task)}
    (hs : c.Steps rest s task out s') :
    EndsTooDeep out ∨ (c.limited depth).Steps rest s task out s' := by
  cases hs with
  | leave => exact Or.inr .leave
  | missing hn => exact Or.inr (.missing hn)
  | declaration hn hk hi => exact Or.inr (.declaration hn hk hi)
  | inner hn hk hi => exact Or.inr (.inner hn hk hi)
  | direct hn hk hi hcall =>
    exact Or.inr (.direct hn hk hi ((call_limited_of_direct hi _).trans hcall))
  | @refused r func n error hn hk hi hf he =>
    rcases enter_limited h func r (c.visited n s) with ⟨e, htoo, hfault⟩ | hsame
    · obtain rfl : error = e := Except.error.inj (he.symm.trans htoo)
      exact Or.inl ⟨error, rfl, hfault⟩
    · exact Or.inr (.refused hn hk hi hf (hsame.trans he))
  | @entered r func n s' hn hk hi hf he =>
    rcases enter_limited h func r (c.visited n s) with ⟨e, htoo, -⟩ | hsame
    · cases he.symm.trans htoo
    · exact Or.inr (.entered hn hk hi hf (hsame.trans he))

theorem step_limited (h : c.options.maxCallDepth ≤ depth) {out : Except Failure (List Task)}
    (hstep : c.step task rest s = (out, s')) :
    EndsTooDeep out ∨ (c.limited depth).step task rest s = (out, s') := by
  rcases (steps_of_step hstep).limited h with htoo | hsame
  · exact Or.inl htoo
  · exact Or.inr hsame.step_eq

/-- A task makes its native call whatever becomes of it. -/
theorem request_prefix_log (c : Code) (task : Task) (rest : List Task) (s : Store) :
    c.request task s <+: c.log (task :: rest) s := by
  rw [log]
  exact List.prefix_append _ _

/-- **A list of tasks is cut short because calls are nested too deep, or it does the same
with a higher limit.** -/
theorem run_limited (h : c.options.maxCallDepth ≤ depth) (tasks : List Task) (s : Store) :
    EndsTooDeep (c.run tasks s).1 ∧ c.log tasks s <+: (c.limited depth).log tasks s ∨
      (c.limited depth).run tasks s = c.run tasks s ∧
        (c.limited depth).log tasks s = c.log tasks s := by
  have hrequest : ∀ task s, (c.limited depth).request task s = c.request task s :=
    fun _ _ => rfl
  induction tasks, s using Code.run.induct c with
  | case1 s =>
    refine Or.inr ⟨?_, ?_⟩
    · rw [Code.run, Code.run]
    · rw [Code.log, Code.log]
  | case2 s task rest tasks s' hstep ih =>
    -- the task is done, so that the limit was no obstacle
    obtain ⟨hrun, hlog⟩ := turns_of_step hstep
    have hstep' : (c.limited depth).step task rest s = (.ok tasks, s') := by
      rcases step_limited h hstep with ⟨e, he, -⟩ | hsame
      · cases he
      · exact hsame
    obtain ⟨hrun', hlog'⟩ := turns_of_step hstep'
    rw [hrun, hrun', hlog, hlog', hrequest]
    rcases ih with ⟨htoo, hbefore⟩ | ⟨hsame, hsameLog⟩
    · exact Or.inl ⟨htoo, (List.prefix_append_right_inj _).mpr hbefore⟩
    · exact Or.inr ⟨hsame, congrArg _ hsameLog⟩
  | case3 s task rest e s' hstep =>
    obtain ⟨hrun, hlog⟩ := breaks_of_step hstep
    rw [hrun, hlog]
    rcases step_limited h hstep with htoo | hsame
    · obtain ⟨error, he, hfault⟩ := htoo
      refine Or.inl ⟨⟨error, congrArg _ (Except.error.inj he), hfault⟩, ?_⟩
      rw [← hrequest]
      exact request_prefix_log _ _ _ _
    · obtain ⟨hrun', hlog'⟩ := breaks_of_step hsame
      exact Or.inr ⟨hrun', hlog'.trans (hrequest task s)⟩

theorem executeNode_limited (h : c.options.maxCallDepth ≤ depth) (r : NodeRef) (s : Store) :
    EndsTooDeep (c.executeNode r s).1 ∧
        c.log [.visit r] s <+: (c.limited depth).log [.visit r] s ∨
      (c.limited depth).executeNode r s = c.executeNode r s ∧
        (c.limited depth).log [.visit r] s = c.log [.visit r] s := by
  rcases run_limited h [.visit r] s with hcut | ⟨hsame, hlog⟩
  · exact Or.inl hcut
  · refine Or.inr ⟨?_, hlog⟩
    rw [executeNode, executeNode, hsame]

end Code

namespace Machine

variable {m : Machine} {depth : Nat}

/-! ### Machines -/

/-- The same machine with another limit on nested calls. -/
def limited (m : Machine) (depth : Nat) : Machine := { m with code := m.code.limited depth }

theorem loadStep_limited (m : Machine) (fs : FileStore) (s : Script) :
    (m.limited depth).loadStep fs s = ((m.loadStep fs s).1, (m.loadStep fs s).2.limited depth) := by
  rw [loadStep, loadStep]
  split <;> rfl

theorem parseStep_limited (m : Machine) (s : Script) :
    (m.limited depth).parseStep s = ((m.parseStep s).1, (m.parseStep s).2.limited depth) := by
  by_cases hs : s.state = .loaded
  · have hscanner : (m.limited depth).scannerFor s = m.scannerFor s := rfl
    cases h : (m.scannerFor s).parse s.name s.content with
    | failed x e =>
      rw [parseStep_failed hs h, parseStep_failed hs (hscanner ▸ h)]
      rfl
    | ok x =>
      rw [parseStep_ok hs h, parseStep_ok hs (hscanner ▸ h)]
      rfl
  · rw [parseStep, parseStep, if_neg hs, if_neg hs]

/-- **Loading and parsing have no use for the limit.** -/
theorem prepareFrom_limited (m : Machine) (files : Nat → FileStore) (done rest : List Script) :
    (m.limited depth).prepareFrom files done rest
      = ((m.prepareFrom files done rest).1,
          (m.prepareFrom files done rest).2.limited depth) := by
  induction rest generalizing m done with
  | nil => rfl
  | cons s rest ih =>
    rw [prepareFrom, prepareFrom, loadStep_limited]
    rcases m.loadStep (files done.length) s with ⟨_ | s₁, m₁⟩
    · rfl
    · dsimp only
      rw [parseStep_limited]
      rcases m₁.parseStep s₁ with ⟨_ | s₂, m₂⟩
      · rfl
      · exact ih m₂ (done ++ [s₂])

theorem prepare_limited (m : Machine) (files : Nat → FileStore) :
    (m.limited depth).prepare files
      = ((m.prepare files).1, (m.prepare files).2.limited depth) :=
  m.prepareFrom_limited files [] m.scripts

theorem executeTree_limited (h : m.code.options.maxCallDepth ≤ depth) (t : Nat) :
    EndsTooDeep (m.executeTree t).1 ∧ m.logTree t <+: (m.limited depth).logTree t ∨
      (m.limited depth).executeTree t
          = ((m.executeTree t).1, (m.executeTree t).2.limited depth) ∧
        (m.limited depth).logTree t = m.logTree t := by
  have hstore : (m.limited depth).storeFor t = m.storeFor t := rfl
  rcases Code.executeNode_limited h ⟨t, 0⟩ (m.storeFor t) with ⟨htoo, hbefore⟩ | ⟨hsame, hlog⟩
  · refine Or.inl ⟨?_, hbefore⟩
    rw [executeTree_eq]
    rcases hr : m.code.executeNode ⟨t, 0⟩ (m.storeFor t) with ⟨_ | _, store⟩
    · rwa [hr] at htoo
    · rwa [hr] at htoo
  · refine Or.inr ⟨?_, hlog⟩
    rw [executeTree_eq, executeTree_eq, hstore,
      show (m.limited depth).code = m.code.limited depth from rfl, hsame]
    rcases m.code.executeNode ⟨t, 0⟩ (m.storeFor t) with ⟨_ | _, store⟩ <;> rfl

/-- **Executing trees is cut short because calls are nested too deep, or it does the same
with a higher limit.** -/
theorem executeTrees_limited (h : m.code.options.maxCallDepth ≤ depth) (ts : List Nat) :
    EndsTooDeep (m.executeTrees ts).1 ∧ m.logTrees ts <+: (m.limited depth).logTrees ts ∨
      (m.limited depth).executeTrees ts
          = ((m.executeTrees ts).1, (m.executeTrees ts).2.limited depth) ∧
        (m.limited depth).logTrees ts = m.logTrees ts := by
  induction ts generalizing m with
  | nil => exact Or.inr ⟨rfl, rfl⟩
  | cons t ts ih =>
    have hcode := m.code_executeTree t
    rw [executeTrees, executeTrees, logTrees, logTrees]
    rcases executeTree_limited h t with ⟨htoo, hbefore⟩ | ⟨hsame, hlog⟩
    · -- no other tree is executed with the lower limit
      obtain ⟨e, he, hfault⟩ := htoo
      rcases hr : m.executeTree t with ⟨_ | _, m₁⟩
      · rw [hr] at he
        refine Or.inl ⟨⟨e, he, hfault⟩, ?_⟩
        rw [List.append_nil]
        exact hbefore.trans (List.prefix_append _ _)
      · rw [hr] at he
        cases he
    · rw [hsame, hlog]
      rcases hr : m.executeTree t with ⟨e | _, m₁⟩
      · exact Or.inr ⟨rfl, rfl⟩
      · rw [hr] at hcode
        have h₁ : m₁.code.options.maxCallDepth ≤ depth := by rwa [hcode]
        rcases ih h₁ with ⟨htoo, hbefore⟩ | ⟨hrest, hlogRest⟩
        · exact Or.inl ⟨htoo, (List.prefix_append_right_inj _).mpr hbefore⟩
        · exact Or.inr ⟨hrest, congrArg _ hlogRest⟩

theorem maxCallDepth_prepare (m : Machine) (files : Nat → FileStore) :
    (m.prepare files).2.code.options.maxCallDepth = m.code.options.maxCallDepth := by
  -- the machine has the limit that it has
  have hsame : m.prepare files
      = ((m.prepare files).1, (m.prepare files).2.limited m.code.options.maxCallDepth) :=
    m.prepare_limited files
  exact congrArg (fun r => r.2.code.options.maxCallDepth) hsame

theorem runAmid_limited (h : m.code.options.maxCallDepth ≤ depth) (files : Nat → FileStore) :
    EndsTooDeep (m.runAmid files).1 ∧ m.logRun files <+: (m.limited depth).logRun files ∨
      (m.limited depth).runAmid files
          = ((m.runAmid files).1, (m.runAmid files).2.limited depth) ∧
        (m.limited depth).logRun files = m.logRun files := by
  rw [← m.maxCallDepth_prepare files] at h
  rw [runAmid, runAmid, logRun, logRun, prepare_limited]
  rcases hr : m.prepare files with ⟨_ | _, m₁⟩
  · exact Or.inr ⟨rfl, rfl⟩
  · rw [hr] at h
    exact executeTrees_limited h m₁.code.program

/-- **Raising the limit on nested calls changes no run that did not hit it.** Of two
machines that differ in nothing but the limit, the one with the lower limit makes the
first of the native calls that the other one makes. If its run does not fail because
calls are nested too deep, but succeeds or fails in any other way, then the other run
makes the same native calls, ends in the same way, and leaves a machine with the same
scripts, trees, frames, console and trace. -/
theorem limit_only_cuts_short (m : Machine) (files : Nat → FileStore) {d d' : Nat}
    (h : d ≤ d') :
    (m.limited d).logRun files <+: (m.limited d').logRun files ∧
      (¬EndsTooDeep ((m.limited d).runAmid files).1 →
        (m.limited d').logRun files = (m.limited d).logRun files ∧
        ((m.limited d').runAmid files).1 = ((m.limited d).runAmid files).1 ∧
        ((m.limited d').runAmid files).2 = ((m.limited d).runAmid files).2.limited d') := by
  have hlimit : (m.limited d).code.options.maxCallDepth ≤ d' := h
  have hagain : (m.limited d).limited d' = m.limited d' := rfl
  rcases runAmid_limited hlimit files with ⟨htoo, hbefore⟩ | ⟨hsame, hlog⟩
  · rw [hagain] at hbefore
    exact ⟨hbefore, fun hnot => absurd htoo hnot⟩
  · rw [hagain] at hsame hlog
    refine ⟨hlog ▸ List.prefix_rfl, fun _ => ⟨hlog, ?_, ?_⟩⟩
    · rw [hsame]
    · rw [hsame]

/-- A machine whose script makes a call that is nested in another one. -/
def nested : Machine :=
  (new { invokeFunctions := true }).performAll
    [.addScript "virtual://m" none
      (some "print();function g()\x7bprint();\x7dfunction f()\x7bg();\x7df();")]

theorem run_nested :
    ((nested.limited 2).runAmid fun _ => {}).1.toBool = true ∧
      ((nested.limited 1).logRun fun _ => {}).length = 1 ∧
      ((nested.limited 2).logRun fun _ => {}).length = 2 := by
  decide +kernel

/-- The call of `g` is one too many where a single call may be under way. Where there may
be two it is made, and with three nothing changes any more. -/
theorem limit_only_cuts_short_nested :
    (((nested.limited 1).logRun fun _ => {}).length = 1 ∧
        ((nested.limited 2).logRun fun _ => {}).length = 2 ∧
        ((nested.limited 1).logRun fun _ => {}) <+: ((nested.limited 2).logRun fun _ => {})) ∧
      ¬EndsTooDeep ((nested.limited 2).runAmid fun _ => {}).1 ∧
      ((nested.limited 3).logRun fun _ => {}) = ((nested.limited 2).logRun fun _ => {}) ∧
      ((nested.limited 3).runAmid fun _ => {}).1 = ((nested.limited 2).runAmid fun _ => {}).1 := by
  obtain ⟨hends, hone, htwo⟩ := run_nested
  have hnot : ¬EndsTooDeep ((nested.limited 2).runAmid fun _ => {}).1 := by
    rintro ⟨e, he, -⟩
    rw [he] at hends
    cases hends
  obtain ⟨hlog, hresult, -⟩ :=
    (nested.limit_only_cuts_short (fun _ => {}) (Nat.le_succ 2)).2 hnot
  have hbefore := (nested.limit_only_cuts_short (fun _ => {}) (Nat.le_succ 1)).1
  exact ⟨⟨hone, htwo, hbefore⟩, hnot, hlog, hresult⟩

end Machine

end ScopeScript
