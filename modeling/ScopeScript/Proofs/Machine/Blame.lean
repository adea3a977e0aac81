import ScopeScript.Proofs.Machine.UnnamedCalls
import ScopeScript.Proofs.Scanner.Tokens

/-!
# Where a failed run points to

A script error that ends a run is one of two things, once all scripts have been parsed.
A native function has reported it, and then it may point anywhere; or a call could not be
made, and **then it points to the place of that call** (`ScopeScript.Code.located_of_step`,
`ScopeScript.Machine.blamed_call`). So the place that is reported for an unresolved call is
the place of a node, and is told from the source like that of any other node.

It is the place where the word begins that names the call, or the keyword `function` where
a semicolon has made the call of a header
(`ScopeScript.Machine.nodes_begin_at_words`). Neither need be the first character of the
name: a word may begin at a blank that is no symbol
(`ScopeScript.Machine.not_forall_nodes_begin_at_text`).
-/

namespace ScopeScript

namespace Code

variable {c : Code} {r : NodeRef} {s s' : Store} {task : Task} {rest : List Task}
  {e : ScriptError}

theorem location_of_enter {func : NodeRef} (h : c.enter func r s = .error e) :
    e.location = some (c.location r) := by
  rw [enter] at h
  split at h
  · cases h
    rfl
  · dsimp only at h
    split at h
    · cases h
      rfl
    · cases h

/-- **A task that fails with a script error visits a call and points to it**, unless a
native function reports the error. -/
theorem located_of_step (hstep : c.step task rest s = (.error (.script e), s')) :
    c.Reports e ∨
      ∃ r, task = .visit r ∧ c.isCall r = true ∧ e.location = some (c.location r) := by
  obtain ⟨r, htask, hcall, ⟨func, s₁, error, herror, hscript⟩ | ⟨s₁, hnative⟩⟩ :=
    failure_of_step hstep
  · obtain rfl := Failure.script.inj hscript
    exact Or.inr ⟨r, htask, hcall, location_of_enter herror⟩
  · refine (callNative_error hnative).imp id fun hunknown => ?_
    cases hunknown
    exact ⟨r, htask, hcall, rfl⟩

end Code

namespace Machine

variable {m m₁ : Machine} {files : Nat → FileStore} {e : ScriptError}

/-- **The call that an error of a run points to**, in the tree of one of the scripts. -/
structure Blames (m : Machine) (e : ScriptError) (script : Script) (source : String) (i : Nat)
    (n : Node) : Prop where
  registered : script ∈ m.scripts
  content : script.content = some source
  parsed : ∃ x, ({} : Scanner).parse script.name (some source) = .ok x ∧ x.tree.node? i = some n
  below : i ≠ 0
  call : n.kind = .call
  place : e.location = some n.location
  name : ∀ called, e.fault = .unknownFunction called → called = n.name

/-- **Where a run fails after all scripts have been parsed, the error points to a call** in
one of the scripts, unless a native function has reported it. -/
theorem blamed_call (hhas : m₁.HasTrees m₁.scripts) (hprepare : m.prepare files = (.ok (), m₁))
    (hrun : (m.runAmid files).1 = .error (.script e)) (hreports : ¬m₁.code.Reports e) :
    ∃ script source i n, m₁.Blames e script source i n := by
  obtain ⟨task, rest, store, store', hturn, hstep⟩ := (runAmid_error_iff hprepare).mp hrun
  obtain ⟨r, rfl, hcall, hplace⟩ := (Code.located_of_step hstep).resolve_left hreports
  have hr := hturn.inProgram List.mem_cons_self
  rw [hprepare] at hr
  obtain ⟨k, hk⟩ := List.mem_iff_getElem?.mp hr
  obtain ⟨script, tree, hscript, htree, htreeOf⟩ := hhas k r.tree hk
  have hroot := (htreeOf.laid.global_iff 0).mpr rfl
  obtain ⟨source, x, hcontent, hx, rfl⟩ := htreeOf.exists_source
  have hnode : m₁.code.forest.node? r = x.tree.node? r.node := by
    rw [Forest.node?, htree, Option.bind_some]
  rw [Code.isCall, beq_iff_eq, hnode] at hcall
  obtain ⟨n, hn, hkn⟩ := Option.map_eq_some_iff.mp hcall
  refine ⟨script, source, r.node, n, List.mem_of_getElem? hscript, hcontent, ⟨x, hx, hn⟩, ?_, hkn,
    ?_, fun called hfault => ?_⟩
  · intro hzero
    rw [hzero] at hn
    rw [Tree.kind?_of_node? hn, hkn] at hroot
    cases hroot
  · rw [hplace, Code.location, hnode, hn]
    rfl
  · -- only a call that is not found is reported as unknown
    obtain ⟨q, hq, -, hunknown⟩ := (Code.unknown_of_step hstep hfault).resolve_left hreports
    obtain rfl := Task.visit.inj hq
    have hname := congrArg ScriptError.fault (Failure.script.inj hunknown)
    rw [hfault] at hname
    rw [← Fault.unknownFunction.inj hname, Code.name, hnode, hn]
    rfl

/-- **The word of a call** begins where the call does: it names the call, or is the keyword
of the header that the call has been. -/
theorem word_of_call {n : Node} {name : String} {text : List Char}
    (h : n.BeginsIn name text) (hk : n.kind = .call) :
    ∃ before taken after w, text = before ++ taken ++ after ∧
      n.location = placeAfter name before ∧ Word.Spans w taken ∧
        (n.name = some (Text.strip w.literal) ∨
          w.quoted = false ∧ Keyword.ofText? w.text = some .function) := by
  cases h with
  | @word before taken after w htext hplace hspans htells =>
    refine ⟨before, taken, after, w, htext, hplace, hspans, ?_⟩
    cases htells with
    | @keyword k kind hquoted hkey hscope hn =>
      obtain rfl : kind = .function := by
        rcases hn with hn | ⟨hfunction, -⟩
        · rw [hk] at hn
          subst hn
          cases k <;> cases hscope
        · exact hfunction
      obtain rfl : k = .function := by cases k <;> cases hscope; rfl
      exact Or.inr ⟨hquoted, hkey⟩
    | name _ _ hname => exact Or.inl hname
    | text _ hn | blanks _ hn =>
      rcases hn with hn | hn <;> rw [hk] at hn <;> cases hn
  | symbol _ _ hopened =>
    cases hopened with
    | list hn | body hn | block hn | omitted hn =>
      rw [hk] at hn
      cases hn

/-- **Nodes begin where their words do.** In a parsed tree each node but the root begins at
a character of the source: the first one of the word that tells it, or else the symbol that
made it. If that is a blank, it is one that is no symbol. After any history, where a run
has parsed all scripts and then fails at an unresolved call, and no native function has
reported that, the error points to the first character of the word that names the call, or
of the keyword `function` if the call has been a header. -/
theorem nodes_begin_at_words (s : Scanner) (name source : String) (options : Options)
    (history : List Operation) (files : Nat → FileStore) :
    (∀ s', s.parse name (some source) = .ok s' → ∀ i n, s'.tree.node? i = some n → i ≠ 0 →
        n.BeginsIn name source.toList ∧
          ∀ before c after, source.toList = before ++ c :: after →
            n.location = placeAfter name before → Text.isBlank c = true →
              Symbol.ofChar? c = none) ∧
      let m := (new options).performAll history
      ∀ m₁ e called, m.prepare files = (.ok (), m₁) →
        (m.runAmid files).1 = .error (.script e) → e.fault = .unknownFunction called →
        ¬m₁.code.Reports e →
        ∃ script ∈ m₁.scripts, ∃ source before taken after w, script.content = some source ∧
          source.toList = before ++ taken ++ after ∧
          e.location = some (placeAfter script.name before) ∧ Word.Spans w taken ∧
            (called = some (Text.strip w.literal) ∨
              w.quoted = false ∧ Keyword.ofText? w.text = some .function) := by
  constructor
  · intro s' hparse i n hn hi
    have hbegins := Scanner.beginsIn_parse hparse i n hn hi
    refine ⟨hbegins, fun before c after hsource hplace hblank => ?_⟩
    rw [hsource] at hbegins
    exact (hbegins.of_blank hplace hblank).1
  · intro m m₁ e called hprepare hrun hfault hreports
    obtain ⟨script, source, i, n, hblames⟩ :=
      blamed_call (hasTrees_of_prepare hprepare) hprepare hrun hreports
    obtain ⟨x, hx, hn⟩ := hblames.parsed
    obtain ⟨before, taken, after, w, htext, hplace, hspans, hword⟩ :=
      word_of_call (Scanner.beginsIn_parse hx i n hn hblames.below) hblames.call
    refine ⟨script, hblames.registered, source, before, taken, after, w, hblames.content, htext, ?_,
      hspans, ?_⟩
    · rw [hblames.place, hplace]
    · rw [hblames.name called hfault]
      exact hword

/-- A script with a carriage return in front of a call. -/
def returnHistory : List Operation := [.addScript "virtual://m" none (some "\rf();")]

/-- The tree of that script. -/
def returnTree : Tree :=
  { name := "m"
    nodes :=
      #[{ kind := .global, location := column 1, children := [1] },
        { kind := .call, location := column 1, parent := some 0, name := some "f" }] }

/-- The code of that script. -/
def returnCode : Code := { forest := { trees := #[returnTree] }, program := [0] }

/-- How a run of it fails. -/
def returnError : ScriptError :=
  { fault := .unknownFunction (some "f"), location := some (column 1) }

/-- The call begins at the carriage return, and that is where the error points. -/
theorem nodes_begin_at_words_return :
    (∃ s' n, ({} : Scanner).parse "m" (some "\rf();") = .ok s' ∧ s'.tree.node? 1 = some n ∧
        n.location = placeAfter "m" [] ∧ n.BeginsIn "m" "\rf();".toList) ∧
      ∃ script, ((new {}).performAll returnHistory).prepare (fun _ => {})
          = (.ok (), { code := returnCode, scripts := [script] }) ∧
        ∃ before taken after w, "\rf();".toList = before ++ taken ++ after ∧
          returnError.location = some (placeAfter "m" before) ∧ Word.Spans w taken := by
  obtain ⟨hnodes, hblames⟩ :=
    nodes_begin_at_words {} "m" "\rf();" {} returnHistory fun _ => {}
  obtain ⟨s', n, hparse, hn, hplace⟩ : ∃ s' n,
      ({} : Scanner).parse "m" (some "\rf();") = .ok s' ∧ s'.tree.node? 1 = some n ∧
        n.location = placeAfter "m" [] := ⟨_, _, rfl, rfl, rfl⟩
  obtain ⟨script, hprepare, hname, hcontent⟩ : ∃ script : Script,
      ((new {}).performAll returnHistory).prepare (fun _ => {})
        = (.ok (), { code := returnCode, scripts := [script] }) ∧
      script.name = "m" ∧ script.content = some "\rf();" := ⟨_, rfl, rfl, rfl⟩
  have hreports : ¬returnCode.Reports returnError := by
    intro h
    obtain ⟨reason, herror⟩ := Code.unwritable_of_reports rfl h
    cases herror
  -- the run comes to the call in two turns
  have hprogram : returnCode.program = [] ++ 0 :: [] := rfl
  have hreach : returnCode.Reaches ([.visit ⟨0, 0⟩], {}) ([.visit ⟨0, 1⟩], {}) :=
    .single (.done rfl)
  have hturn : AtTurn ((new {}).performAll returnHistory) (fun _ => {}) [.visit ⟨0, 1⟩] {} :=
    .turn hprepare hprogram rfl hreach
  have hfind : returnCode.findFunction ⟨0, 1⟩ = none := by decide +kernel
  have hstep : returnCode.step (.visit ⟨0, 1⟩) [] {} = (.error (.script returnError), {}) := by
    simp only [Code.step, hfind]
    rfl
  have hrun : (((new {}).performAll returnHistory).runAmid fun _ => {}).1
      = .error (.script returnError) :=
    (runAmid_error_iff hprepare).mpr ⟨_, _, _, _, hturn, hstep⟩
  refine ⟨⟨s', n, hparse, hn, hplace, (hnodes s' hparse 1 n hn (by decide)).1⟩, script, hprepare,
    ?_⟩
  obtain ⟨script', hscript', source, before, taken, after, w, hsource, htext, hlocation,
    hspans, -⟩ :=
    hblames _ returnError (some "f") hprepare hrun rfl hreports
  obtain rfl := List.mem_singleton.mp hscript'
  obtain rfl := Option.some.inj (hcontent.symm.trans hsource)
  rw [hname] at hlocation
  exact ⟨before, taken, after, w, htext, hlocation, hspans⟩

/-- **Not every node begins at a character that shows.** -/
theorem not_forall_nodes_begin_at_text :
    ¬∀ (name source : String) (s' : Scanner), ({} : Scanner).parse name (some source) = .ok s' →
      ∀ i n before c after, s'.tree.node? i = some n → i ≠ 0 →
        source.toList = before ++ c :: after → n.location = placeAfter name before →
          Text.isBlank c = false := by
  intro h
  have hshows := h "m" "\rf();" _ rfl 1 _ [] '\r' "f();".toList rfl (by decide) rfl rfl
  exact absurd hshows (by decide)

end Machine

end ScopeScript
