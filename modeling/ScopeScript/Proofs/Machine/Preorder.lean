import Mathlib.Data.List.TakeWhile
import ScopeScript.Proofs.Machine.Calls
import ScopeScript.Proofs.Tree.Walk

/-!
# Runs in which no function is called

Where functions are not called, a run has nothing to do but go through all trees: a
declaration is a node like any other, its body is run where it stands, and a call of a
declared function does nothing. **Such a run is a walk**
(`ScopeScript.Machine.run_along_walks`). The native calls that it makes can be read off
the nodes that the walks of all trees meet, one tree after the other: they are those of
the calls that refer to no declared function, each with the arguments that are written
there. The run ends at the first call that nothing is known of, if there is one.

## How the two are related

The list of tasks of a run and the list of nodes that a walk still has to visit are the
same at every turn, since both put what is below a node in front
(`ScopeScript.Code.ends_walkFrom`). What one node contributes is said in
`ScopeScript.Code.step_along`; what a list of nodes contributes is put together from
its parts, both within a tree and from one tree to the next
(`ScopeScript.Code.expected_append`, `ScopeScript.Code.verdict_append`).

That native functions return is only asked of those calls that are to be expected, on
the console that they find (`ScopeScript.Code.Returning`).
-/

namespace ScopeScript

namespace Forest

/-- The nodes at and below a node, each before its children. -/
def walk (f : Forest) (r : NodeRef) : List NodeRef := siblings r (f.onTree r [] Tree.walk)

/-- The walks of some trees from their roots, one after the other. -/
def walks (f : Forest) (ts : List Nat) : List NodeRef := ts.flatMap fun t => f.walk ⟨t, 0⟩

theorem walks_cons (f : Forest) (t : Nat) (ts : List Nat) :
    f.walks (t :: ts) = f.walk ⟨t, 0⟩ ++ f.walks ts :=
  List.flatMap_cons

theorem below_eq_nil {f : Forest} {r : NodeRef} (h : f.node? r = none) : f.below r = [] := by
  rw [node?] at h
  rw [below, onTree]
  cases ht : f.tree? r.tree with
  | none => rfl
  | some t =>
    rw [ht, Option.bind_some] at h
    simp [Tree.below, Tree.children, h, siblings]

end Forest

namespace Code

variable {c : Code} {r : NodeRef} {rs : List NodeRef} {s s' : Store}
  {calls calls' : List NativeCall} {k : Console}

/-! ### What is to be expected -/

/-- **The walks of all trees**, in the order in which they run. -/
def walks (c : Code) : List NodeRef := c.forest.walks c.program

/-- Whether a node is a call. -/
def isCall (c : Code) (r : NodeRef) : Bool := (c.forest.node? r).map (·.kind) == some .call

/-- Whether there is a native function of the name of a call. -/
def isNative (c : Code) (r : NodeRef) : Bool :=
  ((c.name r).bind fun name => c.natives.lookup name).isSome

/-- Whether it is known what a call refers to: a function that a script declares, or a
native one. -/
def isKnown (c : Code) (r : NodeRef) : Bool := (c.findFunction r).isSome || c.isNative r

/-- The failure at a call that nothing is known of. It tells the place of the call. -/
def unknownCall (c : Code) (r : NodeRef) : Failure :=
  .script { fault := .unknownFunction (c.name r), location := some (c.location r) }

/-- The arguments of a call as they are written, in their order. One that has no value is
none. -/
def written (c : Code) (call : NodeRef) : List Value :=
  (c.forest.childrenOfKind call .functionParam).map fun p =>
    ((c.forest.node? p).bind (·.value)).getD .none

/-- The native call that a call stands for, with the arguments that are written there. -/
def writtenCall? (c : Code) (r : NodeRef) : Option NativeCall :=
  if (c.findFunction r).isNone && c.isNative r then
    (c.name r).map fun name => ⟨name, c.written r⟩
  else none

/-- **The native calls that are to be expected** along some nodes: those of the calls
before the first unknown one. -/
def expected (c : Code) (rs : List NodeRef) : List NativeCall :=
  ((rs.filter c.isCall).takeWhile c.isKnown).filterMap c.writtenCall?

/-- **How a run along some nodes is to end**: with a failure at the first unknown call, if
there is one. -/
def verdict (c : Code) (rs : List NodeRef) : Except Failure Unit :=
  match (rs.filter c.isCall).find? fun r => !c.isKnown r with
  | none => .ok ()
  | some r => .error (c.unknownCall r)

/-- **Native calls return**, one after the other, each on the console that those before it
leave behind. -/
def Returning (c : Code) : List NativeCall → Console → Prop
  | [], _ => True
  | call :: rest, k =>
    (∃ native d v, c.natives.lookup call.name = some native ∧
        (native call.arguments k).1 = .ok d ∧ Value.ofDatum d = .ok v) ∧
      c.Returning rest (c.perform [call] k)

theorem returning_append :
    c.Returning (calls ++ calls') k
      ↔ c.Returning calls k ∧ c.Returning calls' (c.perform calls k) := by
  induction calls generalizing k with
  | nil => simp [Returning, perform]
  | cons call calls ih =>
    rw [List.cons_append, Returning, Returning, ih, and_assoc]
    rfl

/-! ### Parts of a way -/

theorem verdict_eq_ok_iff : c.verdict rs = .ok () ↔ ∀ r ∈ rs.filter c.isCall, c.isKnown r := by
  rw [verdict]
  cases hfind : (rs.filter c.isCall).find? fun r => !c.isKnown r with
  | none => simpa using hfind
  | some r =>
    have hunknown := List.find?_some hfind
    have hmem := List.mem_of_find?_eq_some hfind
    simp only [reduceCtorEq, false_iff, not_forall]
    exact ⟨r, hmem, by simpa using hunknown⟩

/-- **A way goes on where its first part ends**, unless that is at an unknown call. -/
theorem verdict_append (rs rs' : List NodeRef) :
    c.verdict (rs ++ rs')
      = match c.verdict rs with
        | .ok () => c.verdict rs'
        | .error e => .error e := by
  rw [verdict, verdict, List.filter_append, List.find?_append]
  cases (rs.filter c.isCall).find? fun r => !c.isKnown r with
  | none => rfl
  | some r => rfl

theorem expected_append (rs rs' : List NodeRef) :
    c.expected (rs ++ rs')
      = c.expected rs ++
        match c.verdict rs with
        | .ok () => c.expected rs'
        | .error _ => [] := by
  have hall : (rs.filter c.isCall).takeWhile c.isKnown = rs.filter c.isCall
      ↔ c.verdict rs = .ok () := by
    rw [List.takeWhile_eq_self_iff, verdict_eq_ok_iff]
  have hlength : ((rs.filter c.isCall).takeWhile c.isKnown).length = (rs.filter c.isCall).length
      ↔ c.verdict rs = .ok () := by
    rw [← hall]
    exact ⟨(List.takeWhile_prefix _).eq_of_length, congrArg List.length⟩
  rw [expected, expected, List.filter_append, List.takeWhile_append]
  cases hv : c.verdict rs with
  | ok u =>
    rw [if_pos (hlength.mpr hv), List.filterMap_append, hall.mpr hv]
    rfl
  | error e =>
    rw [if_neg (mt hlength.mp (by simp [hv])), List.append_nil]

/-! ### One node -/

theorem expected_of_not_call (h : c.isCall r = false) : c.expected [r] = [] := by
  simp [expected, h]

theorem verdict_of_not_call (h : c.isCall r = false) : c.verdict [r] = .ok () := by
  simp [verdict, h]

theorem verdict_of_call (h : c.isCall r = true) :
    c.verdict [r] = if c.isKnown r then .ok () else .error (c.unknownCall r) := by
  by_cases hknown : c.isKnown r <;> simp [verdict, h, hknown]

/-- An unknown call stands for no native one. -/
theorem expected_of_call (h : c.isCall r = true) :
    c.expected [r] = (c.writtenCall? r).toList := by
  by_cases hknown : c.isKnown r
  · cases hcall : c.writtenCall? r <;> simp [expected, h, hknown, hcall]
  · have hnone : c.writtenCall? r = none := by
      rw [isKnown, Bool.or_eq_true, not_or] at hknown
      simp [writtenCall?, hknown.2]
    simp [expected, h, hknown, hnone]

/-- **Where no call is under way, arguments are what is written.** -/
theorem arguments_of_idle (hidle : s.frames = []) : c.arguments s r = c.written r := by
  unfold arguments written argument
  refine List.map_congr_left fun p _ => ?_
  cases c.forest.node? p with
  | none => rfl
  | some n =>
    dsimp only [Option.bind_some]
    cases n.value with
    | none => rfl
    | some v =>
      rw [hidle]
      rfl

theorem nativeCall?_of_idle (hidle : s.frames = []) : c.nativeCall? r s = c.writtenCall? r := by
  rw [nativeCall?, writtenCall?, isNative, arguments_of_idle hidle]
  cases c.findFunction r with
  | some func => rfl
  | none =>
    cases c.name r with
    | none => rfl
    | some name => rfl

/-- **A native call that returns is a call that succeeds**, and an unknown one fails. -/
theorem callNative_of_idle (hf : c.findFunction r = none) (hidle : s.frames = [])
    (hreturn : c.Returning (c.writtenCall? r).toList s.console) :
    (c.callNative r s).1.map (fun _ => ())
      = if c.isNative r then .ok () else .error (c.unknownCall r) := by
  rw [writtenCall?, isNative, hf] at hreturn
  rw [callNative, isNative, arguments_of_idle hidle, unknownCall]
  cases hname : c.name r with
  | none => rfl
  | some name =>
    rw [hname, Option.bind_some] at hreturn
    rw [Option.bind_some]
    cases hlookup : c.natives.lookup name with
    | none => rfl
    | some native =>
      rw [hlookup] at hreturn
      obtain ⟨⟨native', d, v, hlookup', hd, hv⟩, -⟩ := hreturn
      obtain rfl : native = native' := Option.some.inj (hlookup.symm.trans hlookup')
      dsimp only at hd ⊢
      rw [hd]
      dsimp only
      rw [hv]
      rfl

theorem call_of_idle (hoff : c.options.invokeFunctions = false) (hcall : c.isCall r = true)
    (hidle : s.frames = []) (hreturn : c.Returning (c.expected [r]) s.console) :
    (c.call r s).1.map (fun _ => ()) = c.verdict [r] := by
  rw [expected_of_call hcall] at hreturn
  rw [verdict_of_call hcall, call_of_direct (Or.inl hoff), isKnown]
  cases hf : c.findFunction r with
  | some func => rfl
  | none => exact callNative_of_idle hf hidle hreturn

/-- **What one node contributes**: where functions are not called, the next tasks are
those below the node, unless it is an unknown call. -/
theorem step_along (hoff : c.options.invokeFunctions = false) (hidle : s.frames = [])
    (hreturn : c.Returning (c.expected [r]) s.console) (rest : List Task) :
    c.request (.visit r) s = c.expected [r] ∧
      ∃ s', s'.frames = [] ∧ c.step (.visit r) rest s
        = ((c.verdict [r]).map fun _ => (c.forest.below r).map .visit ++ rest, s') := by
  cases hn : c.forest.node? r with
  | none =>
    have hno : c.isCall r = false := by simp [isCall, hn]
    rw [expected_of_not_call hno, verdict_of_not_call hno, Forest.below_eq_nil hn]
    exact ⟨by simp [request, hn], s, hidle, (Steps.missing hn).step_eq⟩
  | some n =>
    by_cases hk : n.kind = .call
    · have hcall : c.isCall r = true := by simp [isCall, hn, hk]
      have hvisited : (c.visited n s).frames = [] := (frames_visited c n s).trans hidle
      refine ⟨?_, (c.call r (c.visited n s)).2, ?_, ?_⟩
      · rw [request_of_call hn hk, nativeCall?_of_idle hvisited, expected_of_call hcall]
      · rw [frames_call_of_direct (Or.inl hoff), hvisited]
      · have hconsole : (c.visited n s).console = s.console := console_note _ _ _
        rw [← hconsole] at hreturn
        rw [step_of_direct hn hk (Or.inl hoff), ← call_of_idle hoff hcall hvisited hreturn]
        rcases c.call r (c.visited n s) with ⟨e | v, s₁⟩ <;> rfl
    · have hno : c.isCall r = false := by simp [isCall, hn, hk]
      rw [request_of_not_call hn hk, expected_of_not_call hno, verdict_of_not_call hno]
      exact ⟨rfl, c.visited n s, (frames_visited c n s).trans hidle,
        (Steps.inner hn hk (by simp [hoff])).step_eq⟩

/-! ### A tree -/

/-- **A run goes along the walk of a tree**: the nodes that are still to be visited are the
same for both at every turn. -/
theorem ends_walkFrom {t : Tree} (hoff : c.options.invokeFunctions = false) {i : Nat}
    (ht : c.forest.tree? i = some t) (work : List Nat) (hidle : s.frames = [])
    (hreturn : c.Returning (c.expected (Forest.siblings ⟨i, 0⟩ (t.walkFrom work))) s.console) :
    ∃ s', c.Ends ((Forest.siblings ⟨i, 0⟩ work).map .visit) s
      (c.expected (Forest.siblings ⟨i, 0⟩ (t.walkFrom work))) [] s'
      (c.verdict (Forest.siblings ⟨i, 0⟩ (t.walkFrom work))) := by
  induction work using Tree.walkFrom.induct t generalizing s with
  | case1 =>
    rw [Tree.walkFrom]
    exact ⟨s, Turns.refl c [] s⟩
  | case2 j rest ih =>
    have hsplit : Forest.siblings ⟨i, 0⟩ (t.walkFrom (j :: rest))
        = [⟨i, j⟩] ++ Forest.siblings ⟨i, 0⟩ (t.walkFrom (t.below j ++ rest)) := by
      rw [Tree.walkFrom]
      rfl
    -- what is below the node comes in front of both lists
    have hbelow : (Forest.siblings ⟨i, 0⟩ (t.below j ++ rest)).map Task.visit
        = (c.forest.below ⟨i, j⟩).map .visit ++ (Forest.siblings ⟨i, 0⟩ rest).map .visit := by
      rw [Forest.below, Forest.onTree, ht, Forest.siblings, List.map_append, List.map_append]
      rfl
    rw [hsplit, expected_append, returning_append] at hreturn
    obtain ⟨hrequest, s₁, hidle₁, hstep⟩ :=
      step_along hoff hidle hreturn.1 ((Forest.siblings ⟨i, 0⟩ rest).map .visit)
    rw [hsplit, expected_append, verdict_append]
    cases hv : c.verdict [⟨i, j⟩] with
    | error e =>
      rw [hv] at hstep
      refine ⟨s₁, [], ?_⟩
      rw [List.append_nil, ← hrequest]
      exact breaks_of_step hstep
    | ok u =>
      rw [hv] at hstep hreturn
      have hconsole := c.console_step (.visit ⟨i, j⟩)
        ((Forest.siblings ⟨i, 0⟩ rest).map .visit) s
      rw [hstep, hrequest] at hconsole
      obtain ⟨s₂, hends⟩ := ih hidle₁ (hconsole ▸ hreturn.2)
      rw [hbelow] at hends
      have hturns := turns_of_step hstep
      rw [hrequest] at hturns
      exact ⟨s₂, hturns.ends hends⟩

/-- Tasks that end with nothing left. -/
theorem Ends.run_log {tasks : List Task} {out : Except Failure Unit}
    (h : c.Ends tasks s calls [] s' out) : (c.run tasks s).1 = out ∧ c.log tasks s = calls := by
  cases out with
  | ok u =>
    obtain ⟨hrun, hlog⟩ := h
    rw [hrun, hlog, Code.run, Code.log, List.append_nil]
    exact ⟨rfl, rfl⟩
  | error e =>
    obtain ⟨extra, hrun, hlog⟩ := h
    rw [hrun, hlog]
    exact ⟨rfl, rfl⟩

/-- **Running the root of a tree is walking it.** -/
theorem run_walk (hoff : c.options.invokeFunctions = false) (i : Nat) (hidle : s.frames = [])
    (hreturn : c.Returning (c.expected (c.forest.walk ⟨i, 0⟩)) s.console) :
    (c.run [.visit ⟨i, 0⟩] s).1 = c.verdict (c.forest.walk ⟨i, 0⟩) ∧
      c.log [.visit ⟨i, 0⟩] s = c.expected (c.forest.walk ⟨i, 0⟩) := by
  rw [Forest.walk, Forest.onTree] at hreturn ⊢
  cases ht : c.forest.tree? i with
  | none =>
    have hn : c.forest.node? ⟨i, 0⟩ = none := by simp [Forest.node?, ht]
    have hnone : c.request (.visit ⟨i, 0⟩) s = [] := by simp [request, hn]
    have hmissing : c.Steps [] s (.visit ⟨i, 0⟩) (.ok []) s := .missing hn
    have hends : c.Ends [.visit ⟨i, 0⟩] s [] [] s (.ok ()) := by
      rw [← hnone]
      exact turns_of_step hmissing.step_eq
    exact hends.run_log
  | some t =>
    rw [ht] at hreturn
    obtain ⟨s', hends⟩ := ends_walkFrom hoff ht [0] hidle hreturn
    exact hends.run_log

end Code

/-! ### All trees -/

namespace Machine

variable {m : Machine}

theorem executeTree_along (hoff : m.code.options.invokeFunctions = false)
    (hidle : m.store.frames = []) {t : Nat}
    (hreturn : m.code.Returning (m.code.expected (m.code.forest.walk ⟨t, 0⟩)) m.store.console) :
    (m.executeTree t).1 = m.code.verdict (m.code.forest.walk ⟨t, 0⟩) ∧
      m.logTree t = m.code.expected (m.code.forest.walk ⟨t, 0⟩) := by
  have hframes : (m.storeFor t).frames = [] := (m.code.frames_note _ m.store).trans hidle
  have hconsole : (m.storeFor t).console = m.store.console := m.code.console_note _ m.store
  rw [fst_executeTree, logTree]
  exact Code.run_walk hoff t hframes (hconsole ▸ hreturn)

theorem frames_executeTree (m : Machine) (t : Nat) :
    (m.executeTree t).2.store.frames = m.store.frames := by
  rw [store_executeTree, Code.frames_executeNode]
  exact m.code.frames_note _ m.store

/-- **Executing trees is walking them, one after the other.** -/
theorem executeTrees_along (hoff : m.code.options.invokeFunctions = false)
    (hidle : m.store.frames = []) {ts : List Nat}
    (hreturn : m.code.Returning (m.code.expected (m.code.forest.walks ts)) m.store.console) :
    (m.executeTrees ts).1 = m.code.verdict (m.code.forest.walks ts) ∧
      m.logTrees ts = m.code.expected (m.code.forest.walks ts) := by
  induction ts generalizing m with
  | nil => exact ⟨rfl, rfl⟩
  | cons t ts ih =>
    rw [Forest.walks_cons, Code.expected_append, Code.returning_append] at hreturn
    obtain ⟨hresult, hlog⟩ := executeTree_along hoff hidle hreturn.1
    have hcode := m.code_executeTree t
    have hframes := m.frames_executeTree t
    have hconsole := m.console_executeTree t
    rw [Forest.walks_cons, Code.verdict_append, Code.expected_append, executeTrees, logTrees,
      hlog, ← hresult]
    rw [← hresult, ← hlog, ← hconsole] at hreturn
    rcases hr : m.executeTree t with ⟨e | _, m₁⟩
    · exact ⟨rfl, rfl⟩
    · rw [hr] at hreturn hcode hframes
      dsimp only at hreturn hcode hframes ⊢
      rw [← hcode] at hoff hreturn ⊢
      obtain ⟨hrest, hlogRest⟩ := ih hoff (hframes.trans hidle) hreturn.2
      exact ⟨hrest, congrArg _ hlogRest⟩

/-! ### The trees of the scripts -/

theorem Deals.name {m₁ : Machine} {fs : FileStore} {s s' : Script} {out : Except Failure Unit}
    (h : Deals m fs s out s' m₁) : s'.name = s.name := by
  cases h with
  | kept => rfl
  | stuck hstuck => exact hstuck.precedes.name
  | parsed hload => exact (hload.precedes.trans (Script.precedes_advance _ .parsed)).name

/-- The first phase does not change the order of the scripts. -/
theorem names_prepareFrom (m : Machine) (files : Nat → FileStore) (done rest : List Script) :
    (m.prepareFrom files done rest).2.scripts.map (·.name) = (done ++ rest).map (·.name) := by
  induction rest generalizing m done with
  | nil =>
    rw [List.append_nil]
    rfl
  | cons s rest ih =>
    obtain ⟨out, s', m₁, hdeals, -, heq⟩ := m.prepareFrom_cons files done s rest
    have hname : (done ++ s' :: rest).map (·.name) = (done ++ s :: rest).map (·.name) := by
      simp [hdeals.name]
    rw [heq, ← hname]
    cases out with
    | error e => rfl
    | ok =>
      refine (ih m₁ (done ++ [s'])).trans ?_
      rw [List.append_assoc]
      rfl

/-- **No tree runs twice.** -/
theorem InStep.nodup_program (h : m.InStep m.scripts) : m.code.program.Nodup := by
  refine List.nodup_iff_getElem?_ne_getElem?.mpr fun i j hij hj heq => ?_
  obtain ⟨s, hs, hname⟩ := h.named i (Nat.lt_trans hij hj)
  obtain ⟨s', hs', hname'⟩ := h.named j hj
  have hsame : s.name = s'.name := by
    rw [treeName?, heq] at hname
    exact Option.some.inj (hname.symm.trans hname')
  have hlt : j < (m.scripts.map (·.name)).length := by
    rw [List.length_map]
    exact (List.getElem?_eq_some_iff.mp hs').1
  refine List.nodup_iff_getElem?_ne_getElem?.mp h.distinct i j hij hlt ?_
  rw [List.getElem?_map, List.getElem?_map, hs, hs', Option.map_some, Option.map_some, hsame]

theorem InStep.length_program (h : m.InStep m.scripts) (hparsed : ∀ s ∈ m.scripts, s.IsParsed) :
    m.code.program.length = m.scripts.length := by
  refine Nat.le_antisymm h.length_le (Nat.le_of_not_lt fun hlt => ?_)
  have hget := List.getElem?_eq_getElem hlt
  exact absurd ((h.parsed _ _ hget).mp (hparsed _ (List.getElem_mem hlt))) (Nat.lt_irrefl _)

/-- **The walks of all trees meet no node twice.** -/
theorem nodup_walks (h : m.InStep m.scripts) (ht : m.HasTrees m.scripts) :
    m.code.walks.Nodup := by
  refine List.nodup_flatMap.mpr ⟨fun t hmem => ?_, h.nodup_program.imp fun hne r hr hr' => ?_⟩
  · obtain ⟨i, hi⟩ := List.mem_iff_getElem?.mp hmem
    obtain ⟨s, tree, -, htree, hhas⟩ := ht i t hi
    have hwalk : (tree.walk 0).Nodup := hhas.laid.walk_increasing.imp Nat.ne_of_lt
    rw [Forest.walk, Forest.onTree, htree]
    exact hwalk.map fun a b hab => congrArg NodeRef.node hab
  · obtain ⟨i, -, rfl⟩ := List.mem_map.mp hr
    obtain ⟨j, -, heq⟩ := List.mem_map.mp hr'
    exact hne (congrArg NodeRef.tree heq).symm

/-- **A run in which no function is called is a walk.** After any history, a run that has
loaded and parsed all scripts goes along the walks of their trees, in the order of the
scripts, and meets no node twice. It makes the native calls that are to be expected there,
if they return, and ends as is to be expected: at the first call that refers neither to a
declared function nor to a native one, or else with success. -/
theorem run_along_walks (options : Options) (hoff : options.invokeFunctions = false)
    (history : List Operation) (files : Nat → FileStore) (m₁ : Machine)
    (hprepare : ((new options).performAll history).prepare files = (.ok (), m₁))
    (hreturn : m₁.code.Returning (m₁.code.expected m₁.code.walks) m₁.store.console) :
    let m := (new options).performAll history
    (m₁.scripts.map (·.name) = m.scripts.map (·.name) ∧
        m₁.code.program.length = m₁.scripts.length ∧ m₁.HasTrees m₁.scripts) ∧
      m₁.code.walks.Nodup ∧
      m.logRun files = m₁.code.expected m₁.code.walks ∧
      (m.runAmid files).2.store.console
        = m₁.code.perform (m₁.code.expected m₁.code.walks) m.store.console ∧
      (m.runAmid files).1 = m₁.code.verdict m₁.code.walks := by
  intro m
  have hnew := inOrder_new options
  have horder : m.InOrder := (hnew.performAll history).1
  have htrees : m.HasTrees m.scripts := (hasTrees_new options).performAll hnew history
  have hstart : m.InStep ([] ++ m.scripts) := horder.inStep
  have hnone : ∀ s ∈ ([] : List Script), s.IsParsed := fun s hs => nomatch hs
  have hkeeps : m.Keeps ([] ++ m.scripts) (m.prepareFrom files [] m.scripts).2 :=
    hstart.prepareFrom hnone
  obtain ⟨htrees₁, -, hends⟩ := prepareFrom_ends files hstart htrees hnone
  have hnames := m.names_prepareFrom files [] m.scripts
  have hregular :=
    regular_prepareFrom (regular_performAll (regular_new options) history) files [] m.scripts
  rw [← prepare, hprepare] at hkeeps htrees₁ hends hnames hregular
  have hstep₁ : m₁.InStep m₁.scripts := hkeeps.inStep
  have hidle : m₁.store.frames = [] := hkeeps.frames.trans horder.idle
  have hoff₁ : m₁.code.options.invokeFunctions = false := by rw [hregular.options_eq, hoff]
  obtain ⟨hresult, hlog⟩ := executeTrees_along hoff₁ hidle hreturn
  cases hends with
  | all hparsed =>
    have hcalls : m.logRun files = m₁.code.expected m₁.code.walks := by
      rw [logRun, hprepare]
      exact hlog
    have hconsole := m.console_runAmid files
    rw [hprepare, hcalls] at hconsole
    refine ⟨⟨hnames, hstep₁.length_program hparsed, htrees₁⟩, nodup_walks hstep₁ htrees₁, hcalls,
      hconsole, ?_⟩
    rw [runAmid, hprepare]
    exact hresult

/-- Two scripts. The first one declares a function, which the second one calls, and then
there is a call of something unknown. -/
def twoScripts : List Operation :=
  [.addScript "virtual://a" none (some "function f(x)\x7bprint(x);\x7d"),
    .addScript "virtual://b" none (some "f(print('c'));g();")]

/-- The tree of the first script. -/
def declaringTree : Tree :=
  let place (i : Int) : Location := { file := "a", offset := i, column := i }
  { name := "a"
    nodes :=
      #[{ kind := .global, location := place 1, children := [1] },
        { kind := .function, location := place 1, parent := some 0, children := [2, 4]
          name := some "f" },
        { kind := .functionParams, location := place 11, parent := some 1, children := [3] },
        { kind := .functionParam, location := place 12, parent := some 2, name := some "x" },
        { kind := .functionImpl, location := place 14, parent := some 1, children := [5] },
        { kind := .call, location := place 15, parent := some 4, children := [6]
          name := some "print" },
        { kind := .functionParam, location := place 21, parent := some 5, name := some "x"
          value := some (.string "x") }] }

/-- The tree of the second script. -/
def callingTree : Tree :=
  let place (i : Int) : Location := { file := "b", offset := i, column := i }
  { name := "b"
    nodes :=
      #[{ kind := .global, location := place 1, children := [1, 4] },
        { kind := .call, location := place 1, parent := some 0, children := [2]
          name := some "f" },
        { kind := .call, location := place 3, parent := some 1, children := [3]
          name := some "print" },
        { kind := .functionParam, location := place 9, parent := some 2
          value := some (.string "c"), quoted := true },
        { kind := .call, location := place 15, parent := some 0, name := some "g" }] }

/-- The code of both scripts. -/
def twoTrees : Code := { forest := { trees := #[declaringTree, callingTree] }, program := [0, 1] }

theorem prepare_twoScripts :
    ∃ scripts, ((new {}).performAll twoScripts).prepare (fun _ => {})
      = (.ok (), { code := twoTrees, scripts }) :=
  ⟨_, rfl⟩

theorem expected_twoTrees :
    twoTrees.expected twoTrees.walks = [⟨"print", [.string "x"]⟩, ⟨"print", [.string "c"]⟩] ∧
      twoTrees.verdict twoTrees.walks = .error (.script
        { fault := .unknownFunction (some "g")
          location := some { file := "b", offset := 15, column := 15 } }) := by
  have hknown : (twoTrees.walks.filter twoTrees.isCall).takeWhile twoTrees.isKnown
      = [⟨0, 5⟩, ⟨1, 1⟩, ⟨1, 2⟩] := by decide +kernel
  have hunknown : (twoTrees.walks.filter twoTrees.isCall).find? (fun r => !twoTrees.isKnown r)
      = some ⟨1, 4⟩ := by decide +kernel
  have hbody : twoTrees.findFunction ⟨0, 5⟩ = none := by decide +kernel
  have hdeclared : twoTrees.findFunction ⟨1, 1⟩ = some ⟨0, 1⟩ := by decide +kernel
  have hargument : twoTrees.findFunction ⟨1, 2⟩ = none := by decide +kernel
  refine ⟨?_, ?_⟩
  · rw [Code.expected, hknown]
    simp only [List.filterMap, Code.writtenCall?, hbody, hdeclared, hargument]
    rfl
  · rw [Code.verdict, hunknown]
    rfl

/-- The body of the function is run where it stands, the argument of its call is run
although the function is not, and the run ends at the call of `g`. -/
theorem run_along_walks_twoScripts :
    let m := (new {}).performAll twoScripts
    let calls : List NativeCall := [⟨"print", [.string "x"]⟩, ⟨"print", [.string "c"]⟩]
    (m.prepare fun _ => {}).1 = .ok () ∧ twoTrees.Returning calls {} ∧
      m.logRun (fun _ => {}) = calls ∧
      (m.runAmid fun _ => {}).1 = .error (.script
        { fault := .unknownFunction (some "g")
          location := some { file := "b", offset := 15, column := 15 } }) := by
  intro m calls
  obtain ⟨hexpected, hverdict⟩ := expected_twoTrees
  have hreturn : twoTrees.Returning calls {} :=
    ⟨⟨.print, .value .none, .none, rfl, rfl, rfl⟩, ⟨.print, .value .none, .none, rfl, rfl, rfl⟩,
      trivial⟩
  obtain ⟨scripts, hprepare⟩ := prepare_twoScripts
  obtain ⟨-, -, hlog, -, hresult⟩ := run_along_walks {} rfl twoScripts (fun _ => {}) _ hprepare
    (by rw [hexpected]; exact hreturn)
  exact ⟨congrArg Prod.fst hprepare, hreturn, hlog.trans hexpected, hresult.trans hverdict⟩

end Machine

end ScopeScript
