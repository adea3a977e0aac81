import ScopeScript.Proofs.Machine.Calls

/-!
# The trace is an onlooker of machines, too

The option to keep a trace is asked for at every step of a run: whenever a script is
loaded or parsed, a scope opened, a node visited, an argument bound. **It makes no
difference to anything but the trace** (`ScopeScript.Machine.trace_is_onlooker`): the
trees, the native calls and what they write, the scripts, the frames, the registry and
the failures are the same.

The proof is one equation for each function. Forgetting the trace, and the wish to keep
one, is a map from machines to machines (`ScopeScript.Machine.untraced`), and doing
something is the same before it and after it. For the scanner this is
`ScopeScript.Scanner.untraced_parse`; here it is said of a single task
(`ScopeScript.Code.step_untraced`), from there by induction of a list of tasks, and so
on up to whole histories.
-/

namespace ScopeScript

/-- The store without its trace. -/
def Store.untraced (s : Store) : Store := { s with trace := #[] }

/-- The code of a run that keeps no trace. -/
def Code.untraced (c : Code) : Code := { c with options := { c.options with debug := false } }

namespace Code

variable {c : Code} {task : Task} {rest : List Task} {s s' : Store}

/-! ### Tasks -/

@[simp] theorem untraced_note (c : Code) (line : String) (s : Store) :
    (c.note line s).untraced = s.untraced := by
  unfold note
  split <;> rfl

theorem note_untraced (c : Code) (line : String) (s : Store) : c.untraced.note line s = s := rfl

theorem untraced_visited (c : Code) (n : Node) (s : Store) :
    (c.visited n s).untraced = s.untraced :=
  c.untraced_note _ s

theorem enter_untraced (c : Code) (func call : NodeRef) (s : Store) :
    c.untraced.enter func call s.untraced = (c.enter func call s).map Store.untraced := by
  rw [enter, enter, apply_ite (Except.map Store.untraced)]
  refine ite_congr rfl (fun _ => rfl) fun _ => ?_
  dsimp only
  rw [apply_ite (Except.map Store.untraced)]
  refine ite_congr rfl (fun _ => rfl) fun _ => ?_
  simp only [Except.map, Store.untraced, frames_note, console_note, note_untraced]
  rfl

theorem callNative_untraced (c : Code) (r : NodeRef) (s : Store) :
    c.untraced.callNative r s.untraced
      = ((c.callNative r s).1, (c.callNative r s).2.untraced) := by
  have hlook : (c.untraced.name r).bind (fun name => c.untraced.natives.lookup name)
      = (c.name r).bind (fun name => c.natives.lookup name) := rfl
  rw [callNative, callNative, hlook]
  split
  · rfl
  · rename_i native hnative
    have hcall : native (c.untraced.arguments s.untraced r) s.untraced.console
        = native (c.arguments s r) s.console := rfl
    dsimp only
    rw [hcall]
    split
    · rfl
    · split <;> rfl

theorem noteDisabled_untraced (c : Code) (r : NodeRef) (s : Store) :
    c.untraced.noteDisabled r s.untraced = (c.noteDisabled r s).untraced :=
  (c.untraced_note _ s).symm

/-- A call that is made directly, with a trace or without. -/
theorem call_untraced_of_direct {r : NodeRef}
    (hi : c.options.invokeFunctions = false ∨ c.findFunction r = none) (s : Store) :
    c.untraced.call r s.untraced = ((c.call r s).1, (c.call r s).2.untraced) := by
  have hfind : c.untraced.findFunction r = c.findFunction r := rfl
  rw [call_of_direct hi, call_of_direct (c := c.untraced) hi, hfind]
  cases c.findFunction r with
  | none => exact c.callNative_untraced r s
  | some func => exact congrArg (Prod.mk _) (c.noteDisabled_untraced r s)

/-- **A task does the same whether a trace is kept or not.** -/
theorem Steps.untraced {out : Except Failure (List Task)} (h : c.Steps rest s task out s') :
    c.untraced.Steps rest s.untraced task out s'.untraced := by
  cases h with
  | leave => exact .leave
  | missing hn => exact .missing hn
  | declaration hn hk hi =>
    rw [untraced_visited]
    exact .declaration hn hk hi
  | inner hn hk hi =>
    rw [untraced_visited]
    exact .inner hn hk hi
  | @direct r n s' result hn hk hi hcall =>
    have hsame := call_untraced_of_direct hi (c.visited n s)
    rw [untraced_visited, hcall] at hsame
    exact .direct hn hk hi hsame
  | @refused r func n error hn hk hi hf he =>
    have hsame := c.enter_untraced func r (c.visited n s)
    rw [untraced_visited, he] at hsame
    rw [untraced_visited]
    exact .refused hn hk hi hf hsame
  | @entered r func n s' hn hk hi hf he =>
    have hsame := c.enter_untraced func r (c.visited n s)
    rw [untraced_visited, he] at hsame
    exact .entered hn hk hi hf hsame

theorem step_untraced {out : Except Failure (List Task)} (h : c.step task rest s = (out, s')) :
    c.untraced.step task rest s.untraced = (out, s'.untraced) :=
  (steps_of_step h).untraced.step_eq

/-- **A list of tasks ends in the same way and makes the same native calls**, whether a
trace is kept or not. -/
theorem run_untraced (c : Code) (tasks : List Task) (s : Store) :
    c.untraced.run tasks s.untraced = ((c.run tasks s).1, (c.run tasks s).2.untraced) ∧
      c.untraced.log tasks s.untraced = c.log tasks s := by
  have hrequest : ∀ task s, c.untraced.request task s.untraced = c.request task s :=
    fun _ _ => rfl
  induction tasks, s using Code.run.induct c with
  | case1 s =>
    rw [Code.run, Code.run, Code.log, Code.log]
    exact ⟨rfl, rfl⟩
  | case2 s task rest tasks s' hstep ih =>
    obtain ⟨hrun, hlog⟩ := turns_of_step hstep
    obtain ⟨hrun', hlog'⟩ := turns_of_step (step_untraced hstep)
    obtain ⟨ihrun, ihlog⟩ := ih
    exact ⟨by rw [hrun, hrun', ihrun], by rw [hlog, hlog', ihlog, hrequest]⟩
  | case3 s task rest e s' hstep =>
    obtain ⟨hrun, hlog⟩ := breaks_of_step hstep
    obtain ⟨hrun', hlog'⟩ := breaks_of_step (step_untraced hstep)
    exact ⟨by rw [hrun, hrun'], by rw [hlog, hlog', hrequest]⟩

/-! ### Entry points -/

theorem executeNode_untraced (c : Code) (r : NodeRef) (s : Store) :
    c.untraced.executeNode r s.untraced
      = ((c.executeNode r s).1, (c.executeNode r s).2.untraced) := by
  rw [executeNode, (c.run_untraced [.visit r] s).1]
  rfl

theorem executeNodes_untraced (c : Code) (rs : List NodeRef) (s : Store) :
    c.untraced.executeNodes s.untraced rs
        = ((c.executeNodes s rs).1, (c.executeNodes s rs).2.untraced) ∧
      c.untraced.logNodes s.untraced rs = c.logNodes s rs := by
  induction rs generalizing s with
  | nil => exact ⟨rfl, rfl⟩
  | cons r rs ih =>
    rw [executeNodes, executeNodes, logNodes, logNodes, (c.run_untraced [.visit r] s).2,
      executeNode_untraced]
    rcases c.executeNode r s with ⟨_ | _, s₁⟩
    · exact ⟨rfl, rfl⟩
    · obtain ⟨hrun, hlog⟩ := ih s₁
      exact ⟨hrun, congrArg _ hlog⟩

theorem invoke_untraced (c : Code) (func call : NodeRef) (s : Store) :
    c.untraced.invoke func call s.untraced
        = ((c.invoke func call s).1, (c.invoke func call s).2.untraced) ∧
      c.untraced.logInvoke func call s.untraced = c.logInvoke func call s := by
  rw [invoke, invoke, logInvoke, logInvoke, enter_untraced]
  cases c.enter func call s with
  | error e => exact ⟨rfl, rfl⟩
  | ok s₁ =>
    obtain ⟨hrun, hlog⟩ := c.executeNodes_untraced (c.body func) s₁
    refine ⟨?_, hlog⟩
    dsimp only [Except.map]
    rw [show c.untraced.body func = c.body func from rfl, hrun]
    rfl

theorem call_untraced (c : Code) (r : NodeRef) (s : Store) :
    c.untraced.call r s.untraced = ((c.call r s).1, (c.call r s).2.untraced) ∧
      c.untraced.logCall r s.untraced = c.logCall r s := by
  have hfind : c.untraced.findFunction r = c.findFunction r := rfl
  have hoption : c.untraced.options.invokeFunctions = c.options.invokeFunctions := rfl
  rw [call, call, logCall, logCall, hfind, hoption]
  cases c.findFunction r with
  | none => exact ⟨c.callNative_untraced r s, rfl⟩
  | some func =>
    dsimp only
    cases c.options.invokeFunctions with
    | false => exact ⟨congrArg (Prod.mk _) (c.noteDisabled_untraced r s), rfl⟩
    | true => exact c.invoke_untraced func r s

end Code

namespace Machine

/-! ### Machines -/

/-- The machine without its trace, and without the wish to keep one. -/
def untraced (m : Machine) : Machine :=
  { m with code := m.code.untraced, store := m.store.untraced }

@[simp] theorem untraced_machineNote (m : Machine) (line : String) :
    (m.note line).untraced = m.untraced := by
  rw [untraced, note, Code.untraced_note]
  rfl

theorem loadStep_untraced (m : Machine) (fs : FileStore) (s : Script) :
    m.untraced.loadStep fs s = ((m.loadStep fs s).1, (m.loadStep fs s).2.untraced) := by
  rw [loadStep, loadStep]
  split
  · exact congrArg (Prod.mk _) (m.untraced_machineNote _).symm
  · rfl

theorem readBy_untraced (m : Machine) (s : Script) (x : Scanner) :
    m.untraced.readBy s x.untraced = (m.readBy s x).untraced := by
  have hstore := m.code.untraced_note ("Parse Script: " ++ s.name) m.store
  exact congrArg (fun store : Store => { m.untraced with store }) hstore.symm

/-- **Parsing a script does the same whether a trace is kept or not.** -/
theorem parseStep_untraced (m : Machine) (s : Script) :
    m.untraced.parseStep s = ((m.parseStep s).1, (m.parseStep s).2.untraced) := by
  by_cases hs : s.state = .loaded
  · have hscanner : m.untraced.scannerFor s = {} := rfl
    have hsame := (m.scannerFor s).untraced_parse s.name s.content
    rw [← hscanner] at hsame
    cases h : (m.scannerFor s).parse s.name s.content with
    | failed x e =>
      rw [h] at hsame
      rw [parseStep_failed hs h, parseStep_failed hs hsame.symm, readBy_untraced]
    | ok x =>
      rw [h] at hsame
      rw [parseStep_ok hs h, parseStep_ok hs hsame.symm, readBy_untraced]
      rfl
  · rw [parseStep, parseStep, if_neg hs, if_neg hs]

theorem prepareFrom_untraced (m : Machine) (files : Nat → FileStore) (done rest : List Script) :
    m.untraced.prepareFrom files done rest
      = ((m.prepareFrom files done rest).1, (m.prepareFrom files done rest).2.untraced) := by
  induction rest generalizing m done with
  | nil => rfl
  | cons s rest ih =>
    rw [prepareFrom, prepareFrom, loadStep_untraced]
    rcases m.loadStep (files done.length) s with ⟨_ | s₁, m₁⟩
    · rfl
    · dsimp only
      rw [parseStep_untraced]
      rcases m₁.parseStep s₁ with ⟨_ | s₂, m₂⟩
      · rfl
      · exact ih m₂ (done ++ [s₂])

/-- **Executing a tree does the same whether a trace is kept or not.** -/
theorem executeTree_untraced (m : Machine) (t : Nat) :
    m.untraced.executeTree t = ((m.executeTree t).1, (m.executeTree t).2.untraced) ∧
      m.untraced.logTree t = m.logTree t := by
  have hstore : (m.storeFor t).untraced = m.untraced.storeFor t := m.code.untraced_note _ m.store
  have hnode := m.code.executeNode_untraced ⟨t, 0⟩ (m.storeFor t)
  rw [hstore] at hnode
  constructor
  · rw [executeTree_eq, executeTree_eq, show m.untraced.code = m.code.untraced from rfl, hnode]
    rcases m.code.executeNode ⟨t, 0⟩ (m.storeFor t) with ⟨_ | _, store⟩ <;> rfl
  · rw [logTree, logTree, ← hstore]
    exact (m.code.run_untraced _ _).2

theorem executeTrees_untraced (m : Machine) (ts : List Nat) :
    m.untraced.executeTrees ts = ((m.executeTrees ts).1, (m.executeTrees ts).2.untraced) ∧
      m.untraced.logTrees ts = m.logTrees ts := by
  induction ts generalizing m with
  | nil => exact ⟨rfl, rfl⟩
  | cons t ts ih =>
    obtain ⟨hrun, hlog⟩ := m.executeTree_untraced t
    rw [executeTrees, executeTrees, logTrees, logTrees, hrun, hlog]
    rcases m.executeTree t with ⟨_ | _, m₁⟩
    · exact ⟨rfl, rfl⟩
    · obtain ⟨hrest, hlogRest⟩ := ih m₁
      exact ⟨hrest, congrArg _ hlogRest⟩

/-- **A run does the same whether a trace is kept or not.** -/
theorem runAmid_untraced (m : Machine) (files : Nat → FileStore) :
    m.untraced.runAmid files = ((m.runAmid files).1, (m.runAmid files).2.untraced) ∧
      m.untraced.logRun files = m.logRun files := by
  have hprepare : m.untraced.prepare files
      = ((m.prepare files).1, (m.prepare files).2.untraced) :=
    m.prepareFrom_untraced files [] m.scripts
  rw [runAmid, runAmid, logRun, logRun, hprepare]
  rcases m.prepare files with ⟨_ | _, m₁⟩
  · exact ⟨rfl, rfl⟩
  · exact m₁.executeTrees_untraced m₁.code.program

theorem addScript_untraced (m : Machine) (s : Script) :
    m.untraced.addScript s = (m.addScript s).map untraced := by
  rw [addScript, addScript, apply_ite (Except.map untraced)]
  rfl

theorem addNative_untraced (m : Machine) (name : String) (native : Option Native) :
    m.untraced.addNative name native = (m.addNative name native).map untraced := by
  cases native with
  | none => rfl
  | some native =>
    rw [addNative, addNative, apply_ite (Except.map untraced)]
    rfl

theorem load_untraced (m : Machine) (fs : FileStore) (path : String) (name base : Option String) :
    m.untraced.load fs path name base
      = (m.load fs path name base).map fun r => (r.1.untraced, r.2) := by
  rw [load, load]
  cases Script.importFrom fs path name base with
  | error e => rfl
  | ok s =>
    simp only [bind, Except.bind, addScript_untraced]
    cases m.addScript s <;> rfl

theorem perform_untraced (m : Machine) (op : Operation) :
    m.untraced.perform op = (m.perform op).untraced := by
  cases op with
  | addScript path name content =>
    rw [perform, perform]
    cases Script.make path name content with
    | error e => rfl
    | ok s =>
      dsimp only
      rw [addScript_untraced]
      cases m.addScript s <;> rfl
  | load fs path name base =>
    rw [perform, perform, load_untraced]
    cases m.load fs path name base <;> rfl
  | addNative name native =>
    rw [perform, perform, addNative_untraced]
    cases m.addNative name native <;> rfl
  | run files => exact congrArg Prod.snd (m.runAmid_untraced files).1
  | reset => rfl

end Machine

/-! ### All that can be asked of a machine -/

/-- Something that is asked of a machine: an operation, or the execution of a part of
what it holds. -/
inductive Command where
  /-- Do an operation. -/
  | operation (op : Operation)
  /-- Execute the tree at a position. -/
  | executeTree (tree : Nat)
  /-- Run a node and all below it. -/
  | executeNode (node : NodeRef)
  /-- Make a call, and leave out what is below it. -/
  | call (node : NodeRef)
  /-- Invoke a function with the arguments of a call. -/
  | invoke (func call : NodeRef)

/-- What comes of a command. -/
structure Reply where
  /-- What is given back, or why it failed. -/
  result : Except Failure Value
  /-- The native calls that were made. -/
  calls : List NativeCall

namespace Machine

/-- Whether an operation succeeds. -/
def answer (m : Machine) : Operation → Except Failure Unit
  | .addScript path name content =>
    match Script.make path name content with
    | .error e => .error (.host e)
    | .ok s => (m.addScript s).map fun _ => ()
  | .load fs path name base => (m.load fs path name base).map fun _ => ()
  | .addNative name native => (m.addNative name native).map fun _ => ()
  | .run files => (m.runAmid files).1
  | .reset => .ok ()

/-- The native calls made by an operation. -/
def logOperation (m : Machine) : Operation → List NativeCall
  | .run files => m.logRun files
  | _ => []

/-- Follows a command. -/
def obey (m : Machine) : Command → Reply × Machine
  | .operation op => (⟨(m.answer op).map fun _ => .none, m.logOperation op⟩, m.perform op)
  | .executeTree t =>
    let (result, m') := m.executeTree t
    (⟨result.map fun _ => .none, m.logTree t⟩, m')
  | .executeNode r =>
    let (result, store) := m.code.executeNode r m.store
    (⟨result.map fun _ => .none, m.code.log [.visit r] m.store⟩, { m with store })
  | .call r =>
    let (result, store) := m.code.call r m.store
    (⟨result, m.code.logCall r m.store⟩, { m with store })
  | .invoke func r =>
    let (result, store) := m.code.invoke func r m.store
    (⟨result, m.code.logInvoke func r m.store⟩, { m with store })

/-- Follows commands one after the other, whether they fail or not. -/
def obeyAll (m : Machine) : List Command → List Reply × Machine
  | [] => ([], m)
  | command :: rest =>
    let (reply, m₁) := m.obey command
    let (replies, m₂) := m₁.obeyAll rest
    (reply :: replies, m₂)

theorem answer_untraced (m : Machine) (op : Operation) : m.untraced.answer op = m.answer op := by
  cases op with
  | addScript path name content =>
    rw [answer, answer]
    cases Script.make path name content with
    | error e => rfl
    | ok s =>
      dsimp only
      rw [addScript_untraced]
      cases m.addScript s <;> rfl
  | load fs path name base =>
    rw [answer, answer, load_untraced]
    cases m.load fs path name base <;> rfl
  | addNative name native =>
    rw [answer, answer, addNative_untraced]
    cases m.addNative name native <;> rfl
  | run files => rw [answer, answer, (m.runAmid_untraced files).1]
  | reset => rfl

theorem logOperation_untraced (m : Machine) (op : Operation) :
    m.untraced.logOperation op = m.logOperation op := by
  cases op with
  | run files => exact (m.runAmid_untraced files).2
  | addScript | load | addNative | reset => rfl

/-- **Every command has the same reply and does the same**, whether a trace is kept or
not. -/
theorem obey_untraced (m : Machine) (command : Command) :
    m.untraced.obey command = ((m.obey command).1, (m.obey command).2.untraced) := by
  have hcode : m.untraced.code = m.code.untraced := rfl
  have hstore : m.untraced.store = m.store.untraced := rfl
  cases command with
  | operation op =>
    rw [obey, obey, answer_untraced, logOperation_untraced, perform_untraced]
  | executeTree t =>
    obtain ⟨hrun, hlog⟩ := m.executeTree_untraced t
    rw [obey, obey, hrun, hlog]
  | executeNode r =>
    have hrun := m.code.executeNode_untraced r m.store
    have hlog := (m.code.run_untraced [.visit r] m.store).2
    rw [obey, obey, hcode, hstore, hrun, hlog]
    rfl
  | call r =>
    obtain ⟨hrun, hlog⟩ := m.code.call_untraced r m.store
    rw [obey, obey, hcode, hstore, hrun, hlog]
    rfl
  | invoke func r =>
    obtain ⟨hrun, hlog⟩ := m.code.invoke_untraced func r m.store
    rw [obey, obey, hcode, hstore, hrun, hlog]
    rfl

theorem obeyAll_untraced (m : Machine) (commands : List Command) :
    m.untraced.obeyAll commands = ((m.obeyAll commands).1, (m.obeyAll commands).2.untraced) := by
  induction commands generalizing m with
  | nil => rfl
  | cons command rest ih =>
    rw [obeyAll, obeyAll, obey_untraced]
    dsimp only
    rw [ih]

/-- **Keeping a trace changes nothing but the trace.** Whatever is asked of two machines
with the same options, of which one keeps a trace and the other does not, they give the
same replies: the same values and failures, with the same native calls and arguments.
And they end with the same trees, registry, scripts, frames and console. The one that
keeps no trace has written nothing there. -/
theorem trace_is_onlooker (options : Options) (commands : List Command) :
    let traced := (new { options with debug := true }).obeyAll commands
    let quiet := (new { options with debug := false }).obeyAll commands
    traced.1 = quiet.1 ∧
      traced.2.code.forest = quiet.2.code.forest ∧
      traced.2.code.program = quiet.2.code.program ∧
      traced.2.code.natives = quiet.2.code.natives ∧
      traced.2.scripts = quiet.2.scripts ∧
      traced.2.store.frames = quiet.2.store.frames ∧
      traced.2.store.console = quiet.2.store.console ∧
      quiet.2.store.trace = #[] := by
  intro traced quiet
  have hsame : quiet = (traced.1, traced.2.untraced) :=
    obeyAll_untraced (new { options with debug := true }) commands
  rw [hsame]
  exact ⟨rfl, rfl, rfl, rfl, rfl, rfl, rfl, rfl⟩

end Machine

end ScopeScript
