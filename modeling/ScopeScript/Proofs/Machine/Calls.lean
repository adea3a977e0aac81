import ScopeScript.Proofs.Machine.TopLevel

/-!
# The native calls that are made

What a run does to the world are its **native calls**, each with its arguments, in
the order in which they are made. For a list of tasks these are
`ScopeScript.Code.log`. This file says the same of everything that is built from
lists of tasks: running nodes one after the other, invoking a function, making a call
without what is below it, executing trees, and running a machine.

None of these is a definition of its own choosing: on every level **the console
afterwards is that of the calls, made one after the other**
(`ScopeScript.Machine.console_runAmid` at the top), so that the calls are all that
native functions ever see of a run.
-/

namespace ScopeScript

namespace Code

/-- The native calls made by running nodes one after the other. -/
def logNodes (c : Code) (s : Store) : List NodeRef → List NativeCall
  | [] => []
  | r :: rest =>
    c.log [.visit r] s ++
      match c.executeNode r s with
      | (.ok (), s) => c.logNodes s rest
      | (.error _, _) => []

/-- The native calls made by invoking a function. -/
def logInvoke (c : Code) (func call : NodeRef) (s : Store) : List NativeCall :=
  match c.enter func call s with
  | .error _ => []
  | .ok s => c.logNodes s (c.body func)

/-- The native calls made by a call, without those of what is below it. -/
def logCall (c : Code) (r : NodeRef) (s : Store) : List NativeCall :=
  match c.findFunction r with
  | some func => if c.options.invokeFunctions then c.logInvoke func r s else []
  | none => (c.nativeCall? r s).toList

/-! ### What they do to the console -/

theorem perform_append (c : Code) (calls calls' : List NativeCall) (k : Console) :
    c.perform (calls ++ calls') k = c.perform calls' (c.perform calls k) :=
  List.foldl_append

theorem console_executeNode (c : Code) (r : NodeRef) (s : Store) :
    (c.executeNode r s).2.console = c.perform (c.log [.visit r] s) s.console :=
  c.console_run [.visit r] s

theorem console_executeNodes (c : Code) (rs : List NodeRef) (s : Store) :
    (c.executeNodes s rs).2.console = c.perform (c.logNodes s rs) s.console := by
  induction rs generalizing s with
  | nil => rfl
  | cons r rs ih =>
    have hnode := c.console_executeNode r s
    rw [executeNodes, logNodes, perform_append, ← hnode]
    rcases c.executeNode r s with ⟨_ | _, s₁⟩
    · rfl
    · exact ih s₁

theorem console_invoke (c : Code) (func call : NodeRef) (s : Store) :
    (c.invoke func call s).2.console = c.perform (c.logInvoke func call s) s.console := by
  rw [invoke, logInvoke]
  cases he : c.enter func call s with
  | error e => rfl
  | ok s₁ =>
    rw [← console_enter he]
    exact c.console_executeNodes (c.body func) s₁

/-- **A call shows on the console what its native calls write.** -/
theorem console_call (c : Code) (r : NodeRef) (s : Store) :
    (c.call r s).2.console = c.perform (c.logCall r s) s.console := by
  rw [call, logCall]
  cases hf : c.findFunction r with
  | none => exact console_callNative hf s
  | some func =>
    dsimp only
    split
    · exact c.console_invoke func r s
    · exact c.console_note _ s

end Code

namespace Machine

/-! ### Machines -/

/-- The native calls made by executing a tree. -/
def logTree (m : Machine) (t : Nat) : List NativeCall :=
  m.code.log [.visit ⟨t, 0⟩] (m.storeFor t)

/-- The native calls made by executing trees one after the other. -/
def logTrees (m : Machine) : List Nat → List NativeCall
  | [] => []
  | t :: rest =>
    m.logTree t ++
      match m.executeTree t with
      | (.ok (), m) => m.logTrees rest
      | (.error _, _) => []

/-- The native calls made by a run. -/
def logRun (m : Machine) (files : Nat → FileStore) : List NativeCall :=
  match m.prepare files with
  | (.error _, _) => []
  | (.ok (), m) => m.logTrees m.code.program

/-- The name of a tree that is executed. -/
def nameOf (m : Machine) (t : Nat) : String := ((m.code.forest.tree? t).map (·.name)).getD ""

/-- **Executing a tree is running its root**, and moving the script of its name on. -/
theorem executeTree_eq (m : Machine) (t : Nat) :
    m.executeTree t
      = match m.code.executeNode ⟨t, 0⟩ (m.storeFor t) with
        | (.error e, store) =>
          (.error e, { m.advanceScript (m.nameOf t) .running with store })
        | (.ok (), store) =>
          (.ok (), { (m.advanceScript (m.nameOf t) .running).advanceScript (m.nameOf t) .finished
            with store }) := by
  rcases h : m.code.executeNode ⟨t, 0⟩ (m.storeFor t) with ⟨out, store⟩
  have hnode : ((m.note ("Execute AST: " ++ m.nameOf t)).advanceScript (m.nameOf t)
      .running).code.executeNode ⟨t, 0⟩
        ((m.note ("Execute AST: " ++ m.nameOf t)).advanceScript (m.nameOf t) .running).store
      = (out, store) := h
  rw [executeTree, ← nameOf]
  dsimp only
  rw [hnode]
  cases out <;> rfl

theorem store_executeTree (m : Machine) (t : Nat) :
    (m.executeTree t).2.store = (m.code.executeNode ⟨t, 0⟩ (m.storeFor t)).2 := by
  rw [executeTree_eq]
  rcases m.code.executeNode ⟨t, 0⟩ (m.storeFor t) with ⟨_ | _, s⟩ <;> rfl

theorem console_executeTree (m : Machine) (t : Nat) :
    (m.executeTree t).2.store.console = m.code.perform (m.logTree t) m.store.console := by
  rw [store_executeTree, Code.console_executeNode, logTree]
  congr 1
  exact m.console_machineNote _

theorem console_executeTrees (m : Machine) (ts : List Nat) :
    (m.executeTrees ts).2.store.console = m.code.perform (m.logTrees ts) m.store.console := by
  induction ts generalizing m with
  | nil => rfl
  | cons t ts ih =>
    have htree := m.console_executeTree t
    have hcode := m.code_executeTree t
    rw [executeTrees, logTrees, Code.perform_append, ← htree]
    rcases hr : m.executeTree t with ⟨_ | _, m₁⟩
    · rfl
    · rw [hr] at hcode
      rw [← hcode]
      exact ih m₁

theorem console_prepareFrom (m : Machine) (files : Nat → FileStore) (done rest : List Script) :
    (m.prepareFrom files done rest).2.store.console = m.store.console := by
  induction rest generalizing m done with
  | nil => rfl
  | cons s rest ih =>
    obtain ⟨out, s', m₁, -, hconsole, heq⟩ := m.prepareFrom_cons files done s rest
    rw [heq]
    cases out with
    | error e => exact hconsole
    | ok => exact (ih m₁ (done ++ [s'])).trans hconsole

/-- **A run shows on the console what its native calls write**, and nothing else. -/
theorem console_runAmid (m : Machine) (files : Nat → FileStore) :
    (m.runAmid files).2.store.console
      = (m.prepare files).2.code.perform (m.logRun files) m.store.console := by
  have hprepare : (m.prepare files).2.store.console = m.store.console :=
    m.console_prepareFrom files [] m.scripts
  rw [runAmid, logRun, ← hprepare]
  rcases m.prepare files with ⟨_ | _, m₁⟩
  · rfl
  · exact m₁.console_executeTrees m₁.code.program

end Machine

end ScopeScript
