import ScopeScript.Proofs.Machine.Provenance
import ScopeScript.Proofs.Scanner.CallNames

/-!
# Calls without a name in a run

A call that refers to nothing ends a run with a failure that tells its name, and the place
where it stands. There is a wording also for a call that has no name. One would expect
that no script can bring it about; but a semicolon makes a call even of a function header
without a name (`ScopeScript.Scanner.EndsUnnamed`), and a run that comes to such a call
ends there.

**No other script can bring it about.** A run that fails once all scripts have been parsed
fails at one of its turns (`ScopeScript.Machine.runAmid_error_iff`); what is visited there
is a node of one of the trees; and in the source of that tree the header can be found
(`ScopeScript.Machine.unnamed_calls_are_headers`). Native functions are left out of
account, since they may report whatever they like.
-/

namespace ScopeScript

/-- A native function that writes fails only where it cannot write, and gives back
nothing. -/
theorem Native.writing_cases (ending : String) (args : List Value) (console : Console) :
    (∃ reason, (Native.writing ending args console).1
        = .error (.script { fault := .unwritable reason })) ∨
      (Native.writing ending args console).1 = .ok (.value .none) := by
  rw [Native.writing]
  split
  · exact Or.inl ⟨_, rfl⟩
  · exact Or.inr rfl

namespace Code

variable {c : Code} {r : NodeRef} {s s' : Store} {task : Task} {rest : List Task}
  {e : ScriptError} {name : Option String}

/-- **A native function reports an error** of its own. -/
def Reports (c : Code) (e : ScriptError) : Prop :=
  ∃ p ∈ c.natives, ∃ args console, (p.2 args console).1 = .error (.script e)

/-- The native functions of a new machine are those that write. -/
theorem native_cases (hnatives : c.natives = ({} : Code).natives) {p : String × Native}
    (hp : p ∈ c.natives) (args : List Value) (console : Console) :
    (∃ reason, (p.2 args console).1 = .error (.script { fault := .unwritable reason })) ∨
      (p.2 args console).1 = .ok (.value .none) := by
  rw [hnatives] at hp
  obtain rfl | rfl : p = ("println", Native.println) ∨ p = ("print", Native.print) := by
    simpa using hp
  · exact Native.writing_cases _ args console
  · exact Native.writing_cases _ args console

/-- The native functions of a new machine report only that they cannot write. -/
theorem unwritable_of_reports (hnatives : c.natives = ({} : Code).natives) (h : c.Reports e) :
    ∃ reason, e = { fault := .unwritable reason } := by
  obtain ⟨p, hp, args, console, hresult⟩ := h
  rcases native_cases hnatives hp args console with ⟨reason, herror⟩ | hok
  · exact ⟨reason, Failure.script.inj (Except.error.inj (hresult.symm.trans herror))⟩
  · rw [hresult] at hok
    cases hok

/-- A call without a name. -/
def IsUnnamed (c : Code) (r : NodeRef) : Prop := c.isCall r = true ∧ (c.name r).getD "" = ""

/-! ### Unknown functions -/

/-- **How a native call fails**: there is no such function, the function fails, or what it
gives back makes no value. -/
theorem callNative_failure {e : Failure} (h : c.callNative r s = (.error e, s')) :
    c.unknownCall r = e ∨ ∃ p ∈ c.natives, ∃ args console,
      (p.2 args console).1 = .error e ∨
        ∃ d cause, (p.2 args console).1 = .ok d ∧ Value.ofDatum d = .error cause ∧
          e = .host (.conversion cause) := by
  rw [callNative] at h
  split at h
  · cases h
    exact Or.inl rfl
  · rename_i native hnative
    obtain ⟨name, -, hlookup⟩ := Option.bind_eq_some_iff.mp hnative
    obtain ⟨before, after, hsplit, -⟩ := List.lookup_eq_some_iff.mp hlookup
    have hmem : (name, native) ∈ c.natives := by simp [hsplit]
    refine Or.inr ⟨_, hmem, c.arguments s r, s.console, ?_⟩
    rcases hresult : native (c.arguments s r) s.console with ⟨result, console⟩
    rw [hresult] at h
    dsimp only at h ⊢
    rw [hresult]
    split at h
    · cases h
      exact Or.inl rfl
    · split at h
      · rename_i cause hcause
        cases h
        exact Or.inr ⟨_, cause, rfl, hcause, rfl⟩
      · cases h

theorem callNative_error (h : c.callNative r s = (.error (.script e), s')) :
    c.Reports e ∨ c.unknownCall r = .script e := by
  rcases callNative_failure h with
    hunknown | ⟨p, hp, args, console, hfails | ⟨d, cause, -, -, hhost⟩⟩
  · exact Or.inr hunknown
  · exact Or.inl ⟨p, hp, args, console, hfails⟩
  · cases hhost

/-- The arguments of a call may be too many or stand too deep, but the function is known. -/
theorem ne_unknownFunction_of_enter {func : NodeRef} (h : c.enter func r s = .error e) :
    e.fault ≠ .unknownFunction name := by
  rw [enter] at h
  split at h
  · cases h
    intro hfault
    cases hfault
  · dsimp only at h
    split at h
    · cases h
      intro hfault
      cases hfault
    · cases h

/-- **A task that fails visits a call**: a function cannot be entered, or the native call
fails. -/
theorem failure_of_step {e : Failure} (hstep : c.step task rest s = (.error e, s')) :
    ∃ r, task = .visit r ∧ c.isCall r = true ∧
      ((∃ func s₁ error, c.enter func r s₁ = .error error ∧ e = .script error) ∨
        ∃ s₁, c.callNative r s₁ = (.error e, s')) := by
  have hsteps := steps_of_step hstep
  generalize hout : (Except.error e : Except Failure (List Task)) = out at hsteps
  cases hsteps with
  | leave | missing | declaration | inner | entered => cases hout
  | @refused r func n error hn hk hi hf herror =>
    cases hout
    exact ⟨r, rfl, by simp [isCall, hn, hk], Or.inl ⟨func, _, error, herror, rfl⟩⟩
  | @direct r n _ result hn hk hi hcall =>
    cases result with
    | ok v => cases hout
    | error e' =>
      cases hout
      rw [call_of_direct hi] at hcall
      split at hcall
      · cases hcall
      · exact ⟨r, rfl, by simp [isCall, hn, hk], Or.inr ⟨_, hcall⟩⟩

/-- **A task that reports an unknown function visits a call of it**, unless a native
function reports it. -/
theorem unknown_of_step (hstep : c.step task rest s = (.error (.script e), s'))
    (he : e.fault = .unknownFunction name) :
    c.Reports e ∨ ∃ r, task = .visit r ∧ c.isCall r = true ∧ c.unknownCall r = .script e := by
  obtain ⟨r, htask, hcall, ⟨func, s₁, error, herror, hscript⟩ | ⟨s₁, hnative⟩⟩ :=
    failure_of_step hstep
  · obtain rfl := Failure.script.inj hscript
    exact absurd he (ne_unknownFunction_of_enter herror)
  · exact (callNative_error hnative).imp id fun hunknown => ⟨r, htask, hcall, hunknown⟩

/-- **A call without any name cannot be made.** -/
theorem step_of_nameless (hcall : c.isCall r = true) (hname : c.name r = none)
    (rest : List Task) (s : Store) :
    ∃ s', c.step (.visit r) rest s = (.error (c.unknownCall r), s') := by
  obtain ⟨n, hn, hk⟩ := Option.map_eq_some_iff.mp (beq_iff_eq.mp hcall)
  have hf : c.findFunction r = none := by rw [findFunction, hname]
  refine ⟨c.visited n s, ?_⟩
  rw [step_of_direct hn hk (Or.inr hf), call_of_direct (Or.inr hf), hf]
  simp [callNative, unknownCall, hname, Except.map]

/-! ### Turns -/

/-- Nothing but nodes of the program is visited. -/
theorem tree_of_reaches {x y : List Task × Store} (h : c.Reaches x y)
    (hx : ∀ r, .visit r ∈ x.1 → r.tree ∈ c.program) :
    ∀ r, .visit r ∈ y.1 → r.tree ∈ c.program := by
  induction h with
  | refl => exact hx
  | tail _ hnext ih =>
    obtain ⟨hstep⟩ := hnext
    exact tree_of_step hstep ih

theorem run_of_reaches {x y : List Task × Store} (h : c.Reaches x y) :
    c.run x.1 x.2 = c.run y.1 y.2 := by
  induction h with
  | refl => rfl
  | tail _ hnext ih =>
    obtain ⟨hstep⟩ := hnext
    exact ih.trans (turns_of_step hstep).run

end Code

/-! ### Scripts -/

/-- **Somewhere in the source of a script a semicolon ends the header `i`, which has no
name.** -/
def Script.EndsUnnamed (s : Script) (i : Nat) : Prop :=
  ∃ source, s.content = some source ∧
    (({} : Scanner).start s.name).Meets (Scanner.EndsUnnamed i) source.toList

theorem Script.HasTree.unnamed {s : Script} {t : Tree} (h : s.HasTree t) {i : Nat}
    (ht : t.Unnamed i) : s.EndsUnnamed i := by
  obtain ⟨source, x, hcontent, hx, rfl⟩ := h.exists_source
  exact ⟨source, hcontent, (Scanner.unnamed_parse hx).mp ht⟩

namespace Machine

variable {m m₁ : Machine} {files : Nat → FileStore} {tasks : List Task} {s : Store} {e : Failure}

theorem executeTrees_append_error {ran : List Nat} {t : Nat}
    (hran : m.executeTrees ran = (.ok (), m₁)) (ht : (m₁.executeTree t).1 = .error e)
    (todo : List Nat) : (m.executeTrees (ran ++ t :: todo)).1 = .error e := by
  induction ran generalizing m with
  | nil =>
    cases hran
    rw [List.nil_append, executeTrees]
    split
    · rename_i hr
      rwa [hr] at ht
    · rename_i hr
      rw [hr] at ht
      cases ht
  | cons u ran ih =>
    rw [executeTrees] at hran
    rw [List.cons_append, executeTrees]
    split at hran
    · cases hran
    · exact ih hran

/-- **Once all scripts have been parsed, a run fails just if one of its turns does.** -/
theorem runAmid_error_iff (hprepare : m.prepare files = (.ok (), m₁)) :
    (m.runAmid files).1 = .error e ↔
      ∃ task rest s s', m.AtTurn files (task :: rest) s ∧
        m₁.code.step task rest s = (.error e, s') := by
  rw [runAmid, hprepare]
  constructor
  · intro h
    obtain ⟨ran, t, todo, m₂, program, executed, hfail⟩ := executeTrees_error (Prod.ext h rfl)
    have hcode := code_of_executeTrees executed
    have hfirst := congrArg Prod.fst hfail
    rw [fst_executeTree] at hfirst
    rcases m₂.code.run_ends [.visit ⟨t, 0⟩] (m₂.storeFor t) with
      ⟨s', -, hok⟩ | ⟨task, rest, s, e', s', hreach, hstep, herror⟩
    · rw [hok] at hfirst
      cases hfirst
    · rw [herror] at hfirst
      cases hfirst
      rw [← hcode]
      exact ⟨task, rest, s, s', .turn hprepare program executed hreach, hstep⟩
  · rintro ⟨task, rest, s, s', hturn, hstep⟩
    obtain @⟨m₁', m₂, ran, todo, t, _, _, prepared, program, executed, reached⟩ := hturn
    obtain rfl : m₁ = m₁' := (Prod.mk.inj (hprepare.symm.trans prepared)).2
    have hcode := code_of_executeTrees executed
    rw [← hcode] at hstep
    dsimp only
    rw [program]
    refine executeTrees_append_error executed ?_ todo
    rw [fst_executeTree, Code.run_of_reaches reached, (Code.breaks_of_step hstep).run]

theorem AtTurn.inProgram (h : m.AtTurn files tasks s) {r : NodeRef} (hr : .visit r ∈ tasks) :
    r.tree ∈ (m.prepare files).2.code.program := by
  obtain @⟨m₁, m₂, ran, todo, t, _, _, prepared, program, executed, reached⟩ := h
  have hcode := code_of_executeTrees executed
  rw [hcode] at reached
  rw [prepared]
  refine Code.tree_of_reaches reached (fun q hq => ?_) r hr
  obtain rfl : q = ⟨t, 0⟩ := by simpa using hq
  rw [program]
  exact List.mem_append_right ran List.mem_cons_self

/-- **A call without a name has been the header of a function** in the script of its
tree. -/
theorem HasTrees.unnamed {scripts : List Script} (h : m.HasTrees scripts) {r : NodeRef}
    (hr : r.tree ∈ m.code.program) (hunnamed : m.code.IsUnnamed r) :
    ∃ (k : Nat) (script : Script), m.code.program[k]? = some r.tree ∧
      scripts[k]? = some script ∧ script.EndsUnnamed r.node := by
  obtain ⟨k, hk⟩ := List.mem_iff_getElem?.mp hr
  obtain ⟨script, tree, hscript, htree, hhas⟩ := h k r.tree hk
  refine ⟨k, script, hk, hscript, hhas.unnamed ?_⟩
  obtain ⟨hcall, hname⟩ := hunnamed
  have hnode : m.code.forest.node? r = tree.node? r.node := by
    rw [Forest.node?, htree, Option.bind_some]
  rw [Code.isCall, beq_iff_eq, hnode] at hcall
  rw [Code.name, hnode] at hname
  obtain ⟨n, hn, hkn⟩ := Option.map_eq_some_iff.mp hcall
  rw [hn] at hname
  exact ⟨n, hn, hkn, hname⟩

/-- After any history, a run parses each tree from the script at its position. -/
theorem hasTrees_of_prepare {options : Options} {history : List Operation}
    {out : Except Failure Unit}
    (hprepare : ((new options).performAll history).prepare files = (out, m₁)) :
    m₁.HasTrees m₁.scripts := by
  have hnew := inOrder_new options
  have hstart : ((new options).performAll history).InStep ([] ++ _) :=
    (hnew.performAll history).1.inStep
  have hnone : ∀ s ∈ ([] : List Script), s.IsParsed := fun s hs => nomatch hs
  have hends := prepareFrom_ends files hstart ((hasTrees_new options).performAll hnew history) hnone
  rw [← prepare, hprepare] at hends
  exact hends.1

/-- **A call without a name has been a function header without a name.** In a parsed tree
these calls are the headers that had no name where a semicolon ended them. After any
history, where a run has parsed all scripts and then fails at a call without a name, and
no native function has reported that, the call is visited at the last turn, and in the
source of its script a semicolon ends it as a header without a name. A run that comes to a
call that has no name at all does fail there. -/
theorem unnamed_calls_are_headers (s : Scanner) (name source : String) (options : Options)
    (history : List Operation) (files : Nat → FileStore) :
    (∀ s', s.parse name (some source) = .ok s' → ∀ i,
        s'.tree.Unnamed i ↔ (s.start name).Meets (Scanner.EndsUnnamed i) source.toList) ∧
      let m := (new options).performAll history
      ∀ m₁, m.prepare files = (.ok (), m₁) →
        (∀ (e : ScriptError) (called : Option String),
          (m.runAmid files).1 = .error (.script e) → e.fault = .unknownFunction called →
          called.getD "" = "" → ¬m₁.code.Reports e →
          ∃ r rest store, m.AtTurn files (.visit r :: rest) store ∧ m₁.code.IsUnnamed r ∧
            m₁.code.unknownCall r = .script e ∧
            ∃ (k : Nat) (script : Script), m₁.code.program[k]? = some r.tree ∧
              m₁.scripts[k]? = some script ∧ script.EndsUnnamed r.node) ∧
        ∀ r rest store, m.AtTurn files (.visit r :: rest) store → m₁.code.isCall r = true →
          m₁.code.name r = none → (m.runAmid files).1 = .error (m₁.code.unknownCall r) := by
  refine ⟨fun s' h i => Scanner.unnamed_parse h, ?_⟩
  intro m m₁ hprepare
  constructor
  · intro e called hrun he hempty hreports
    obtain ⟨task, rest, store, store', hturn, hstep⟩ := (runAmid_error_iff hprepare).mp hrun
    obtain ⟨r, rfl, hcall, hunknown⟩ := (Code.unknown_of_step hstep he).resolve_left hreports
    have hfault := congrArg ScriptError.fault (Failure.script.inj hunknown)
    rw [he] at hfault
    have hname : m₁.code.name r = called := Fault.unknownFunction.inj hfault
    have hunnamed : m₁.code.IsUnnamed r := ⟨hcall, by rw [hname, hempty]⟩
    have hr := hturn.inProgram List.mem_cons_self
    rw [hprepare] at hr
    exact ⟨r, rest, store, hturn, hunnamed, hunknown,
      (hasTrees_of_prepare hprepare).unnamed hr hunnamed⟩
  · intro r rest store hturn hcall hname
    obtain ⟨store', hstep⟩ := Code.step_of_nameless hcall hname rest store
    exact (runAmid_error_iff hprepare).mpr ⟨_, rest, store, store', hturn, hstep⟩

/-- A script with nothing but a header that has no name. -/
def bareHistory : List Operation := [.addScript "virtual://m" none (some "function;")]

/-- The tree of that script. -/
def bareTree : Tree :=
  { name := "m"
    nodes :=
      #[{ kind := .global, location := column 1, children := [1] },
        { kind := .call, location := column 1, parent := some 0 }] }

/-- The code of that script. -/
def bareCode : Code := { forest := { trees := #[bareTree] }, program := [0] }

/-- How a run of it fails. -/
def bareError : ScriptError := { fault := .unknownFunction none, location := some (column 1) }

theorem prepare_bare :
    ∃ script, ((new {}).performAll bareHistory).prepare (fun _ => {})
      = (.ok (), { code := bareCode, scripts := [script] }) :=
  ⟨_, rfl⟩

/-- The error is not that output was refused. -/
theorem not_reports_bare : ¬bareCode.Reports bareError := by
  intro h
  obtain ⟨reason, herror⟩ := Code.unwritable_of_reports rfl h
  cases herror

/-- The header becomes a call without a name, and a run fails there. A header that has a
name does not. -/
theorem unnamed_calls_are_headers_bare :
    let m := (new {}).performAll bareHistory
    ((∃ s', ({} : Scanner).parse "m" (some "function;") = .ok s' ∧ s'.tree.Unnamed 1 ∧
          (({} : Scanner).start "m").Meets (Scanner.EndsUnnamed 1) "function;".toList) ∧
        ∃ s', ({} : Scanner).parse "m" (some "function f;") = .ok s' ∧ ¬s'.tree.Unnamed 1 ∧
          ¬(({} : Scanner).start "m").Meets (Scanner.EndsUnnamed 1) "function f;".toList) ∧
      ∃ script, m.prepare (fun _ => {}) = (.ok (), { code := bareCode, scripts := [script] }) ∧
        (m.runAmid fun _ => {}).1 = .error (.script bareError) ∧ script.EndsUnnamed 1 := by
  intro m
  obtain ⟨hunnamed, hrun⟩ :=
    unnamed_calls_are_headers {} "m" "function;" {} bareHistory fun _ => {}
  obtain ⟨hnamed, -⟩ :=
    unnamed_calls_are_headers {} "m" "function f;" {} bareHistory fun _ => {}
  obtain ⟨script, hprepare⟩ := prepare_bare
  obtain ⟨hcause, hfails⟩ := hrun _ hprepare
  -- the run comes to the call in two turns
  have hprogram : bareCode.program = [] ++ 0 :: [] := rfl
  have hreach : bareCode.Reaches ([.visit ⟨0, 0⟩], {}) ([.visit ⟨0, 1⟩], {}) :=
    .single (.done rfl)
  have hturn : m.AtTurn (fun _ => {}) [.visit ⟨0, 1⟩] {} :=
    .turn hprepare hprogram rfl hreach
  have herror : (m.runAmid fun _ => {}).1 = .error (.script bareError) :=
    hfails ⟨0, 1⟩ [] {} hturn rfl rfl
  obtain ⟨⟨tree, node⟩, -, -, -, ⟨hcall, -⟩, -, k, script', hk, hscript, hends⟩ :=
    hcause bareError none herror rfl rfl not_reports_bare
  -- there is one tree, with one call
  obtain ⟨rfl, rfl⟩ : k = 0 ∧ script = script' := by
    rcases k with - | k
    · exact ⟨rfl, Option.some.inj hscript⟩
    · cases hscript
  obtain rfl : 0 = tree := Option.some.inj hk
  obtain rfl : node = 1 := by
    rcases node with - | - | node
    · cases hcall
    · rfl
    · cases hcall
  refine ⟨⟨?_, ?_⟩, script, hprepare, herror, hends⟩
  · obtain ⟨s', hs', hcall⟩ : ∃ s', ({} : Scanner).parse "m" (some "function;") = .ok s' ∧
        s'.tree.Unnamed 1 := ⟨_, rfl, _, rfl, rfl, rfl⟩
    exact ⟨s', hs', hcall, (hunnamed s' hs' 1).mp hcall⟩
  · obtain ⟨s', hs', hname⟩ : ∃ s', ({} : Scanner).parse "m" (some "function f;") = .ok s' ∧
        s'.tree.name? 1 = some "f" := ⟨_, rfl, rfl⟩
    have hnot : ¬s'.tree.Unnamed 1 := by
      rintro ⟨n, hn, -, hempty⟩
      rw [Tree.name?, hn, Option.bind_some] at hname
      rw [hname] at hempty
      exact absurd hempty (by decide)
    exact ⟨s', hs', hnot, fun hmeets => hnot ((hnamed s' hs' 1).mpr hmeets)⟩

end Machine

end ScopeScript
