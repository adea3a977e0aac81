import Mathlib.Data.List.Induction
import ScopeScript.Proofs.Machine.History
import ScopeScript.Proofs.Scanner.Trace

/-!
# The two phases of a run

A run first loads and parses what needs it, script by script, and then executes
the trees, one by one. It may stop anywhere, and **what it leaves behind tells
where** (`ScopeScript.Machine.Outcome`): the scripts before the one it stopped at
have got to the end of the phase, those after it are as they were, and the one in
between is as far as it got.

The first phase has no use for native functions: with others in their place it
would have done the same (`ScopeScript.Machine.CallsNoNative`). And it takes
no notice of what was parsed before: **each tree is the one that any scanner builds
from the script alone** (`ScopeScript.Script.HasTree`), however it has been used.

## What carries the proof

What the first phase does with a single script is said once, in
`ScopeScript.Machine.Deals`, case by case, and everything about the phase follows
from there by induction over the scripts. Executing a tree replaces one script, that
at the position of the tree (`ScopeScript.Machine.InStep.scripts_executeTree`).
-/

namespace ScopeScript

/-! ### Scripts and their trees -/

namespace Script

variable {s s' : Script} {fs : FileStore} {t : Tree} {e : Failure}

/-- **The tree of a script**: every scanner builds it from the source of the script,
whatever it has read, or failed to read, before. -/
def HasTree (s : Script) (t : Tree) : Prop :=
  ∀ p : Scanner, ∃ x, p.parse s.name s.content = .ok x ∧ x.tree = t

/-- Reading a script, unless it has been read before. -/
def Loads (fs : FileStore) (s s' : Script) : Prop :=
  s.state = .initial ∧ s.load fs none = .ok s' ∨ s.state ≠ .initial ∧ s' = s

/-- **Loading or parsing a script fails**, and leaves a script that is as far as it
got. -/
inductive Stuck (fs : FileStore) (s : Script) : Script → Failure → Prop
  /-- Its source cannot be read. -/
  | unread {e : Failure} (hs : s.state = .initial) (h : s.load fs none = .error e) :
      Stuck fs s s e
  /-- Its source cannot be parsed, by whatever scanner. -/
  | unparsed {s' : Script} {e : Failure} (hs : s.Loads fs s') (hs' : s'.state = .loaded)
      (h : ∀ p : Scanner, (p.parse s'.name s'.content).failure? = some e) : Stuck fs s s' e

theorem hasTree_of_parse {p x : Scanner} (h : p.parse s.name s.content = .ok x) :
    s.HasTree x.tree := by
  intro q
  have hsame : (q.parse s.name s.content).untraced = (Scanned.ok x).untraced := by
    rw [← h, Scanner.untraced_parse, Scanner.untraced_parse]
  cases hq : q.parse s.name s.content with
  | ok y =>
    rw [hq] at hsame
    have htree : y.untraced.tree = x.untraced.tree :=
      congrArg Scanner.tree (Scanned.ok.inj hsame)
    exact ⟨y, rfl, htree⟩
  | failed y e =>
    rw [hq] at hsame
    cases hsame

theorem failure_of_parse_failed {p x : Scanner} (h : p.parse s.name s.content = .failed x e)
    (q : Scanner) : (q.parse s.name s.content).failure? = some e := by
  rw [← Scanned.failure?_untraced, q.untraced_parse, ← p.untraced_parse, h]
  rfl

theorem HasTree.name (h : s.HasTree t) : t.name = s.name := by
  obtain ⟨x, hx, rfl⟩ := h {}
  exact Scanner.treeName_parse hx

/-- A tree has been parsed from the source of its script. -/
theorem HasTree.exists_source (h : s.HasTree t) :
    ∃ source x, s.content = some source ∧
      ({} : Scanner).parse s.name (some source) = .ok x ∧ x.tree = t := by
  obtain ⟨x, hx, htree⟩ := h {}
  cases hcontent : s.content with
  | none =>
    rw [hcontent] at hx
    cases hx
  | some source =>
    rw [hcontent] at hx
    exact ⟨source, x, rfl, hx, htree⟩

/-- A script keeps its tree as long as it keeps its name and its source. -/
theorem HasTree.advance (h : s.HasTree t) (state : ScriptState) : (s.advance state).HasTree t := by
  rw [Script.advance]
  split
  · exact h
  · exact h

theorem Loads.precedes (h : s.Loads fs s') : s.Precedes s' := by
  rcases h with ⟨-, hload⟩ | ⟨-, rfl⟩
  · exact (load_ok hload).1
  · exact Precedes.refl _

theorem Loads.ne_initial (h : s.Loads fs s') : s'.state ≠ .initial := by
  rcases h with ⟨-, hload⟩ | ⟨hs, rfl⟩
  · have hrank := (load_ok hload).2
    intro hinitial
    rw [hinitial] at hrank
    simp only [ScriptState.rank] at hrank
    omega
  · exact hs

/-- Reading a script does not parse it. -/
theorem Loads.isParsed (h : s.Loads fs s') (hs' : s'.IsParsed) : s.IsParsed ∧ s' = s := by
  rcases h with ⟨hs, hload⟩ | ⟨-, rfl⟩
  · rw [IsParsed, (load_ok hload).2, hs] at hs'
    exact absurd hs' (by decide)
  · exact ⟨hs', rfl⟩

theorem Stuck.state (h : s.Stuck fs s' e) : s'.state = .initial ∨ s'.state = .loaded := by
  rcases h with ⟨hs, -⟩ | ⟨-, hs', -⟩
  · exact Or.inl hs
  · exact Or.inr hs'

theorem Stuck.not_isParsed (h : s.Stuck fs s' e) : ¬s'.IsParsed := by
  rcases h.state with hs' | hs' <;> rw [IsParsed, hs'] <;> decide

theorem Stuck.precedes (h : s.Stuck fs s' e) : s.Precedes s' := by
  rcases h with ⟨-, -⟩ | ⟨hs, -, -⟩
  · exact Precedes.refl _
  · exact hs.precedes

/-- A script once its tree has been executed, which may have failed. -/
def executed (s : Script) : Except Failure Unit → Script
  | .error _ => s.advance .running
  | .ok () => (s.advance .running).advance .finished

theorem HasTree.executed (h : s.HasTree t) (out : Except Failure Unit) :
    (s.executed out).HasTree t := by
  cases out with
  | error e => exact h.advance .running
  | ok => exact (h.advance .running).advance .finished

theorem running_le_rank_executed (s : Script) (out : Except Failure Unit) :
    ScriptState.running.rank ≤ (s.executed out).state.rank := by
  cases out with
  | error e =>
    rw [executed, rank_advance]
    exact Nat.le_max_right _ _
  | ok =>
    rw [executed, rank_advance, rank_advance]
    exact Nat.le_trans (Nat.le_max_right _ _) (Nat.le_max_left _ _)

theorem state_executed_ok (s : Script) : (s.executed (.ok ())).state = .finished := by
  have hrank : ScriptState.finished.rank ≤ (s.executed (.ok ())).state.rank := by
    rw [executed, rank_advance]
    exact Nat.le_max_right _ _
  cases hstate : (s.executed (.ok ())).state with
  | finished => rfl
  | initial | loaded | parsed | running =>
    rw [hstate] at hrank
    exact absurd hrank (by decide)

end Script

namespace Machine

variable {m m' m₁ : Machine} {s s' : Script} {scripts done rest : List Script} {e : Failure}
  {fs : FileStore} {files : Nat → FileStore} {out : Except Failure Unit}

/-! ### The first phase, script by script -/

/-- **What the first phase does with a script**: whether it fails, the script that is
left, and the machine afterwards. -/
inductive Deals (m : Machine) (fs : FileStore) (s : Script) :
    Except Failure Unit → Script → Machine → Prop
  /-- There is nothing to be done. -/
  | kept {m' : Machine} (hs : s.IsParsed) (hcode : m'.code = m.code) : Deals m fs s (.ok ()) s m'
  /-- It cannot be loaded or parsed. -/
  | stuck {s' : Script} {e : Failure} {m' : Machine} (h : s.Stuck fs s' e)
      (hcode : m'.code = m.code) : Deals m fs s (.error e) s' m'
  /-- It gets its tree. -/
  | parsed {s₁ : Script} {t : Tree} {m' : Machine} (hload : s.Loads fs s₁)
      (hs₁ : s₁.state = .loaded) (ht : s₁.HasTree t) (hcode : m'.code = (m.addTree t).code) :
      Deals m fs s (.ok ()) (s₁.advance .parsed) m'

theorem code_addTree_congr (h : m'.code = m.code) (t : Tree) :
    (m'.addTree t).code = (m.addTree t).code := by
  simp only [addTree, h]

@[simp] theorem console_machineNote (m : Machine) (line : String) :
    (m.note line).store.console = m.store.console :=
  m.code.console_note line m.store

/-- Loading a script, unless it has been loaded. -/
theorem loadStep_cases (m : Machine) (fs : FileStore) (s : Script) :
    (m.loadStep fs s).2.code = m.code ∧ (m.loadStep fs s).2.store.console = m.store.console ∧
      ((∃ e, (m.loadStep fs s).1 = .error e ∧ s.Stuck fs s e) ∨
        ∃ s₁, (m.loadStep fs s).1 = .ok s₁ ∧ s.Loads fs s₁) := by
  rw [loadStep]
  split
  · rename_i hinitial
    refine ⟨rfl, m.console_machineNote _, ?_⟩
    dsimp only
    cases hload : s.load fs none with
    | error e => exact Or.inl ⟨e, rfl, .unread hinitial hload⟩
    | ok s₁ => exact Or.inr ⟨s₁, rfl, Or.inl ⟨hinitial, hload⟩⟩
  · rename_i hinitial
    exact ⟨rfl, rfl, Or.inr ⟨s, rfl, Or.inr ⟨hinitial, rfl⟩⟩⟩

/-- The scanner that reads a script. -/
def scannerFor (m : Machine) (s : Script) : Scanner :=
  { debug := m.code.options.debug, trace := (m.note ("Parse Script: " ++ s.name)).store.trace }

/-- The machine once a script has been read, with the trace that the scanner has kept. -/
def readBy (m : Machine) (s : Script) (x : Scanner) : Machine :=
  { m.note ("Parse Script: " ++ s.name) with
    store := { (m.note ("Parse Script: " ++ s.name)).store with trace := x.trace } }

theorem parseStep_failed {x : Scanner} (hs : s.state = .loaded)
    (h : (m.scannerFor s).parse s.name s.content = .failed x e) :
    m.parseStep s = (.error e, m.readBy s x) := by
  unfold scannerFor at h
  rw [parseStep, if_pos hs]
  simp only [show (m.note ("Parse Script: " ++ s.name)).code = m.code from rfl, h]
  rfl

theorem parseStep_ok {x : Scanner} (hs : s.state = .loaded)
    (h : (m.scannerFor s).parse s.name s.content = .ok x) :
    m.parseStep s = (.ok (s.advance .parsed), (m.readBy s x).addTree x.tree) := by
  unfold scannerFor at h
  rw [parseStep, if_pos hs]
  simp only [show (m.note ("Parse Script: " ++ s.name)).code = m.code from rfl, h]
  rfl

/-- Parsing a script that has been loaded. -/
theorem deals_parseStep {s₁ : Script} (hload : s.Loads fs s₁) (hcode : m₁.code = m.code) :
    (m₁.parseStep s₁).2.store.console = m₁.store.console ∧
      ((∃ e, (m₁.parseStep s₁).1 = .error e ∧
          Deals m fs s (.error e) s₁ (m₁.parseStep s₁).2) ∨
        ∃ s', (m₁.parseStep s₁).1 = .ok s' ∧ Deals m fs s (.ok ()) s' (m₁.parseStep s₁).2) := by
  by_cases hloaded : s₁.state = .loaded
  · cases hparse : (m₁.scannerFor s₁).parse s₁.name s₁.content with
    | failed x e =>
      rw [parseStep_failed hloaded hparse]
      refine ⟨m₁.console_machineNote _, Or.inl ⟨e, rfl, .stuck ?_ hcode⟩⟩
      exact .unparsed hload hloaded (Script.failure_of_parse_failed hparse)
    | ok x =>
      rw [parseStep_ok hloaded hparse]
      have htree := Script.hasTree_of_parse hparse
      refine ⟨m₁.console_machineNote _, Or.inr ⟨_, rfl, .parsed hload hloaded htree ?_⟩⟩
      exact code_addTree_congr hcode _
  · rw [parseStep, if_neg hloaded]
    obtain ⟨hs, rfl⟩ := hload.isParsed (isParsed_of_ne hload.ne_initial hloaded)
    exact ⟨rfl, Or.inr ⟨s₁, rfl, .kept hs hcode⟩⟩

/-- **The first phase deals with one script after the other.** -/
theorem prepareFrom_cons (m : Machine) (files : Nat → FileStore) (done : List Script)
    (s : Script) (rest : List Script) :
    ∃ out s' m₁, Deals m (files done.length) s out s' m₁ ∧
      m₁.store.console = m.store.console ∧
      m.prepareFrom files done (s :: rest)
        = match out with
          | .error e => (.error e, { m₁ with scripts := done ++ s' :: rest })
          | .ok () => m₁.prepareFrom files (done ++ [s']) rest := by
  obtain ⟨hcode, hconsole, hload⟩ := m.loadStep_cases (files done.length) s
  rw [prepareFrom]
  cases hr : m.loadStep (files done.length) s with
  | mk result m₁ =>
    rw [hr] at hcode hconsole hload
    rcases hload with ⟨e, rfl, hstuck⟩ | ⟨s₁, rfl, hload⟩
    · exact ⟨.error e, s, m₁, .stuck hstuck hcode, hconsole, rfl⟩
    · obtain ⟨hconsole₂, hparse⟩ := deals_parseStep hload hcode
      dsimp only
      cases hr₂ : m₁.parseStep s₁ with
      | mk result m₂ =>
        rw [hr₂] at hconsole₂ hparse
        rcases hparse with ⟨e, rfl, hdeals⟩ | ⟨s', rfl, hdeals⟩
        · exact ⟨.error e, s₁, m₂, hdeals, hconsole₂.trans hconsole, rfl⟩
        · exact ⟨.ok (), s', m₂, hdeals, hconsole₂.trans hconsole, rfl⟩

/-! ### What the first phase keeps -/

/-- **Each tree of the machine is that of the script at its position.** -/
def HasTrees (m : Machine) (scripts : List Script) : Prop :=
  ∀ i t : Nat, m.code.program[i]? = some t →
    ∃ (s : Script) (tree : Tree), scripts[i]? = some s ∧ m.code.forest.tree? t = some tree ∧
      s.HasTree tree

theorem HasTrees.congr (h : m.HasTrees scripts) (hcode : m'.code = m.code) :
    m'.HasTrees scripts := by
  rw [HasTrees, hcode]
  exact h

/-- A tree is where it was once there is another one. -/
theorem tree?_addTree {i : Nat} {tree : Tree} (t : Tree)
    (h : m.code.forest.tree? i = some tree) : (m.addTree t).code.forest.tree? i = some tree := by
  have hlt : i < m.code.forest.trees.size := (Array.getElem?_eq_some_iff.mp h).1
  rw [← h]
  exact (Array.getElem?_push_lt hlt).trans (Array.getElem?_eq_getElem hlt).symm

theorem tree?_addTree_new (m : Machine) (t : Tree) :
    (m.addTree t).code.forest.tree? m.code.forest.trees.size = some t :=
  Array.getElem?_push_size

/-- A script that has no tree yet may change as it likes. -/
theorem HasTrees.middle (h : m.HasTrees (done ++ s :: rest))
    (hlength : m.code.program.length = done.length) (s' : Script) :
    m.HasTrees (done ++ s' :: rest) := by
  intro i t hi
  obtain ⟨u, tree, hu, htree, hhas⟩ := h i t hi
  have hlt : i < done.length := hlength ▸ (List.getElem?_eq_some_iff.mp hi).1
  rcases getElem?_middle s' hu with ⟨heq, -, -⟩ | ⟨-, hget⟩
  · omega
  · exact ⟨u, tree, hget, htree, hhas⟩

/-- **A new tree is that of the script that was parsed.** -/
theorem HasTrees.addTree {t : Tree} (h : m.HasTrees (done ++ s :: rest))
    (hlength : m.code.program.length = done.length) (ht : s.HasTree t) :
    (m.addTree t).HasTrees (done ++ s :: rest) := by
  intro i p hi
  rw [program_addTree] at hi
  rcases Nat.lt_or_ge i m.code.program.length with hlt | hge
  · rw [List.getElem?_append_left hlt] at hi
    obtain ⟨u, tree, hu, htree, hhas⟩ := h i p hi
    exact ⟨u, tree, hu, tree?_addTree t htree, hhas⟩
  · have hlast := (List.getElem?_eq_some_iff.mp hi).1
    rw [List.length_append, List.length_singleton] at hlast
    obtain rfl : i = m.code.program.length := by omega
    obtain rfl : m.code.forest.trees.size = p := by simpa using hi
    exact ⟨s, t, by simp [hlength], m.tree?_addTree_new t, ht⟩

/-- **What is kept when the first phase has dealt with a script**: scripts and trees
are in step, each tree is that of its script, and if nothing failed the script has
been parsed. -/
theorem Deals.keeps (hd : Deals m fs s out s' m₁) (h : m.InStep (done ++ s :: rest))
    (ht : m.HasTrees (done ++ s :: rest)) (hdone : ∀ t ∈ done, t.IsParsed) :
    m₁.InStep (done ++ s' :: rest) ∧ m₁.HasTrees (done ++ s' :: rest) ∧
      (out = .ok () → s'.IsParsed) := by
  cases hd with
  | kept hs hcode => exact ⟨h.congr hcode, ht.congr hcode, fun _ => hs⟩
  | stuck hstuck hcode =>
    have hs : ¬s.IsParsed := fun hs => hstuck.not_isParsed (hstuck.precedes.isParsed hs)
    have hmiddle := ht.middle (h.length_eq hdone hs) s'
    refine ⟨(h.middle hstuck.precedes ?_).congr hcode, hmiddle.congr hcode, fun hok => nomatch hok⟩
    exact iff_of_false hstuck.not_isParsed hs
  | @parsed s₁ t _ hload hs₁ hhas hcode =>
    have hnot₁ : ¬s₁.IsParsed := by
      rw [Script.IsParsed, hs₁]
      decide
    have hs : ¬s.IsParsed := fun hs => hnot₁ (hload.precedes.isParsed hs)
    have hnew : (s₁.advance .parsed).IsParsed := by
      rw [Script.IsParsed, Script.rank_advance]
      exact Nat.le_max_right _ _
    have hlength := h.length_eq hdone hs
    have hp := hload.precedes.trans (s₁.precedes_advance .parsed)
    have hname : t.name = s.name := hhas.name.trans hload.precedes.name
    have hmiddle := ht.middle hlength (s₁.advance .parsed)
    exact ⟨(h.addTree hdone hs hp hnew hname).congr hcode,
      (hmiddle.addTree hlength (hhas.advance .parsed)).congr hcode, fun _ => hnew⟩

/-! ### How the first phase ends -/

/-- **How the first phase ends**: all scripts have been parsed, or one of them is
stuck, those before it have been parsed, and those after it are as they were. -/
inductive Prepared (files : Nat → FileStore) (scripts : List Script) :
    Except Failure Unit → Machine → Prop
  /-- All scripts have been parsed. -/
  | all {m' : Machine} (h : ∀ s ∈ m'.scripts, s.IsParsed) : Prepared files scripts (.ok ()) m'
  /-- The script at position `k` is stuck. -/
  | stuck {m' : Machine} {k : Nat} {s s' : Script} {e : Failure} (hs : scripts[k]? = some s)
      (hs' : m'.scripts[k]? = some s') (hstuck : s.Stuck (files k) s' e)
      (before : ∀ i < k, ∃ t, m'.scripts[i]? = some t ∧ t.IsParsed)
      (after : ∀ i, k < i → m'.scripts[i]? = scripts[i]?) :
      Prepared files scripts (.error e) m'

theorem getElem?_middle_of_ne {i : Nat} (h : i ≠ done.length) (s s' : Script) :
    (done ++ s' :: rest)[i]? = (done ++ s :: rest)[i]? := by
  rcases Nat.lt_or_ge i done.length with hlt | hge
  · rw [List.getElem?_append_left hlt, List.getElem?_append_left hlt]
  · obtain ⟨k, hk⟩ : ∃ k, i - done.length = k + 1 := ⟨i - done.length - 1, by omega⟩
    rw [List.getElem?_append_right hge, List.getElem?_append_right hge, hk,
      List.getElem?_cons_succ, List.getElem?_cons_succ]

/-- What is stuck stands behind all that has been parsed. -/
theorem Prepared.of_middle (h : Prepared files (done ++ s' :: rest) out m')
    (hparsed : ∀ t ∈ done ++ [s'], t.IsParsed) : Prepared files (done ++ s :: rest) out m' := by
  cases h with
  | all h => exact .all h
  | @stuck _ k u u' e hu hu' hstuck before after =>
    have hlt : done.length < k := by
      by_contra hle
      have hmem : u ∈ done ++ [s'] := by
        have hk : k < (done ++ [s']).length := by
          rw [List.length_append, List.length_singleton]
          omega
        have hsplit : done ++ s' :: rest = (done ++ [s']) ++ rest := by simp
        rw [hsplit, List.getElem?_append_left hk] at hu
        exact List.mem_of_getElem? hu
      exact hstuck.not_isParsed (hstuck.precedes.isParsed (hparsed u hmem))
    refine .stuck ?_ hu' hstuck before fun i hi => ?_
    · rw [← hu]
      exact getElem?_middle_of_ne (by omega) s' s
    · rw [after i hi]
      exact getElem?_middle_of_ne (by omega) s s'

/-- **The first phase, by induction over the scripts that are left.** -/
theorem prepareFrom_ends (files : Nat → FileStore) (h : m.InStep (done ++ rest))
    (ht : m.HasTrees (done ++ rest)) (hdone : ∀ t ∈ done, t.IsParsed) :
    let r := m.prepareFrom files done rest
    r.2.HasTrees r.2.scripts ∧ r.2.store.console = m.store.console ∧
      Prepared files (done ++ rest) r.1 r.2 := by
  induction rest generalizing m done with
  | nil =>
    rw [List.append_nil] at h ht ⊢
    exact ⟨ht.congr rfl, rfl, .all hdone⟩
  | cons s rest ih =>
    obtain ⟨out, s', m₁, hdeals, hconsole, heq⟩ := m.prepareFrom_cons files done s rest
    obtain ⟨h₁, ht₁, hparsed⟩ := hdeals.keeps h ht hdone
    rw [heq]
    cases out with
    | error e =>
      refine ⟨ht₁.congr rfl, hconsole, ?_⟩
      cases hdeals with
      | stuck hstuck _ =>
        refine .stuck (k := done.length) (by simp) (by simp) hstuck (fun i hi => ?_) fun i hi => ?_
        · refine ⟨done[i], ?_, hdone _ (List.getElem_mem hi)⟩
          dsimp only
          rw [List.getElem?_append_left hi, List.getElem?_eq_getElem hi]
        · exact getElem?_middle_of_ne (by omega) s s'
    | ok =>
      have hmove : done ++ s' :: rest = (done ++ [s']) ++ rest := by simp
      have hdone₁ : ∀ t ∈ done ++ [s'], t.IsParsed := by
        intro t ht
        rcases List.mem_append.mp ht with ht | ht
        · exact hdone t ht
        · rw [List.mem_singleton.mp ht]
          exact hparsed rfl
      rw [hmove] at h₁ ht₁
      obtain ⟨hhas, hsame, hends⟩ := ih h₁ ht₁ hdone₁
      rw [← hmove] at hends
      exact ⟨hhas, hsame.trans hconsole, hends.of_middle hdone₁⟩

/-! ### Native functions have no part in the first phase -/

/-- The machine with other native functions. -/
def withNatives (m : Machine) (natives : List (String × Native)) : Machine :=
  { m with code := { m.code with natives } }

theorem loadStep_withNatives (m : Machine) (natives : List (String × Native)) (fs : FileStore)
    (s : Script) : (m.withNatives natives).loadStep fs s
      = ((m.loadStep fs s).1, (m.loadStep fs s).2.withNatives natives) := by
  rw [loadStep, loadStep]
  split <;> rfl

theorem parseStep_withNatives (m : Machine) (natives : List (String × Native)) (s : Script) :
    (m.withNatives natives).parseStep s
      = ((m.parseStep s).1, (m.parseStep s).2.withNatives natives) := by
  have hsame : (m.withNatives natives).scannerFor s = m.scannerFor s := rfl
  by_cases hs : s.state = .loaded
  · cases h : (m.scannerFor s).parse s.name s.content with
    | failed x e => rw [parseStep_failed hs h, parseStep_failed hs (hsame ▸ h)]; rfl
    | ok x => rw [parseStep_ok hs h, parseStep_ok hs (hsame ▸ h)]; rfl
  · rw [parseStep, parseStep, if_neg hs, if_neg hs]

theorem prepareFrom_withNatives (m : Machine) (natives : List (String × Native))
    (files : Nat → FileStore) (done rest : List Script) :
    (m.withNatives natives).prepareFrom files done rest
      = ((m.prepareFrom files done rest).1,
          (m.prepareFrom files done rest).2.withNatives natives) := by
  induction rest generalizing m done with
  | nil => rfl
  | cons s rest ih =>
    rw [prepareFrom, prepareFrom, loadStep_withNatives]
    cases m.loadStep (files done.length) s with
    | mk result m₁ =>
      cases result with
      | error e => rfl
      | ok s₁ =>
        dsimp only
        rw [parseStep_withNatives]
        cases m₁.parseStep s₁ with
        | mk result m₂ =>
          cases result with
          | error e => rfl
          | ok s₂ => exact ih m₂ (done ++ [s₂])

/-- **Something calls no native function**: it leaves alone what they can touch, and
with others in their place it would have done the same. -/
def CallsNoNative (m : Machine) (f : Machine → Except Failure Unit × Machine) : Prop :=
  (f m).2.store.console = m.store.console ∧
    ∀ natives, f (m.withNatives natives) = ((f m).1, (f m).2.withNatives natives)

/-! ### The second phase, tree by tree -/

/-- Where names are distinct, moving on the script of a name replaces it. -/
theorem advanceIn_eq_set {j : Nat} (hdistinct : (scripts.map (·.name)).Nodup)
    (hs : scripts[j]? = some s) (state : ScriptState) :
    advanceIn s.name state scripts = scripts.set j (s.advance state) := by
  induction scripts generalizing j with
  | nil => simp at hs
  | cons t rest ih =>
    rw [List.map_cons, List.nodup_cons] at hdistinct
    cases j with
    | zero =>
      obtain rfl : t = s := by simpa using hs
      simp [advanceIn]
    | succ j =>
      rw [List.getElem?_cons_succ] at hs
      have hne : t.name ≠ s.name := fun heq =>
        hdistinct.1 (heq ▸ List.mem_map_of_mem (List.mem_of_getElem? hs))
      rw [advanceIn, if_neg (by simpa using hne), ih hdistinct.2 hs, List.set_cons_succ]

theorem InStep.treeName_eq {j t : Nat} (h : m.InStep m.scripts)
    (ht : m.code.program[j]? = some t) (hs : m.scripts[j]? = some s) :
    ((m.code.forest.tree? t).map (·.name)).getD "" = s.name := by
  obtain ⟨u, hu, hname⟩ := h.named j (List.getElem?_eq_some_iff.mp ht).1
  obtain rfl : s = u := Option.some.inj (hs.symm.trans hu)
  rw [treeName?, ht, Option.bind_some] at hname
  rw [hname]
  rfl

/-- **Executing a tree replaces one script**, that at the position of the tree. -/
theorem InStep.scripts_executeTree {j t : Nat} (h : m.InStep m.scripts)
    (ht : m.code.program[j]? = some t) (hs : m.scripts[j]? = some s)
    (hr : m.executeTree t = (out, m')) : m'.scripts = m.scripts.set j (s.executed out) := by
  have hdistinct : ((m.scripts.set j (s.advance .running)).map (·.name)).Nodup := by
    rw [← advanceIn_eq_set h.distinct hs, names_advanceIn]
    exact h.distinct
  have hset : (m.scripts.set j (s.advance .running))[j]? = some (s.advance .running) :=
    List.getElem?_set_self (List.getElem?_eq_some_iff.mp hs).1
  have hname : (s.advance .running).name = s.name := (s.precedes_advance .running).name
  rw [Machine.executeTree, h.treeName_eq ht hs] at hr
  dsimp only at hr
  have hrunning : ((m.note ("Execute AST: " ++ s.name)).advanceScript s.name .running).scripts
      = m.scripts.set j (s.advance .running) := advanceIn_eq_set h.distinct hs .running
  split at hr
  · cases hr
    exact hrunning
  · cases hr
    have hagain := advanceIn_eq_set hdistinct hset .finished
    rw [hname, List.set_set] at hagain
    change Machine.advanceIn s.name .finished
      ((m.note ("Execute AST: " ++ s.name)).advanceScript s.name .running).scripts = _
    rw [hrunning, hagain]
    rfl

theorem executeTrees_snoc {ts : List Nat} {t : Nat} :
    m.executeTrees (ts ++ [t]) = (.ok (), m')
      ↔ ∃ m₁, m.executeTrees ts = (.ok (), m₁) ∧ m₁.executeTree t = (.ok (), m') := by
  induction ts generalizing m with
  | nil =>
    rw [List.nil_append]
    constructor
    · intro h
      rw [executeTrees] at h
      split at h
      · cases h
      · rename_i m₁ hr
        exact ⟨m, rfl, hr.trans h⟩
    · rintro ⟨m₁, h, hr⟩
      cases h
      rw [executeTrees, hr]
      rfl
  | cons u ts ih =>
    rw [List.cons_append, executeTrees, executeTrees]
    cases hr : m.executeTree u with
    | mk out m₁ =>
      cases out with
      | error e => simp
      | ok => exact ih

/-- **Where trees fail to be executed, one of them is the first to fail.** -/
theorem executeTrees_error {ts : List Nat} (h : m.executeTrees ts = (.error e, m')) :
    ∃ ran t rest m₁, ts = ran ++ t :: rest ∧ m.executeTrees ran = (.ok (), m₁) ∧
      m₁.executeTree t = (.error e, m') := by
  induction ts generalizing m with
  | nil => cases h
  | cons t ts ih =>
    rw [executeTrees] at h
    split at h
    · rename_i e₁ m₁ hr
      cases h
      exact ⟨[], t, ts, m, rfl, rfl, hr⟩
    · rename_i m₁ hr
      obtain ⟨ran, u, rest, m₂, rfl, hran, hu⟩ := ih h
      refine ⟨t :: ran, u, rest, m₂, rfl, ?_, hu⟩
      rw [executeTrees, hr]
      exact hran

theorem code_executeTrees (m : Machine) (ts : List Nat) : (m.executeTrees ts).2.code = m.code := by
  induction ts generalizing m with
  | nil => rfl
  | cons t ts ih =>
    have hcode := m.code_executeTree t
    rw [executeTrees]
    split
    · rename_i e m₁ hr
      rwa [hr] at hcode
    · rename_i m₁ hr
      rw [hr] at hcode
      exact (ih m₁).trans hcode

theorem code_of_executeTrees {ts : List Nat} (h : m.executeTrees ts = (out, m')) :
    m'.code = m.code := by
  rw [← m.code_executeTrees ts, h]

/-- **What has become of the scripts once the first trees have been executed**: theirs
are finished, and the others are as they were. -/
theorem InStep.executeTrees_ok {ran rest : List Nat} (h : m.InStep m.scripts)
    (hprogram : m.code.program = ran ++ rest) (hr : m.executeTrees ran = (.ok (), m')) :
    m'.InStep m'.scripts ∧ m'.code = m.code ∧
      (∀ i < ran.length, ∃ s : Script, m'.scripts[i]? = some s ∧ s.state = .finished) ∧
      ∀ i, ran.length ≤ i → m'.scripts[i]? = m.scripts[i]? := by
  induction ran using List.reverseRecOn generalizing m' rest with
  | nil =>
    cases hr
    exact ⟨h, rfl, fun i hi => absurd hi (Nat.not_lt_zero i), fun _ _ => rfl⟩
  | append_singleton ran t ih =>
    obtain ⟨m₁, hran, ht⟩ := executeTrees_snoc.mp hr
    rw [List.append_assoc] at hprogram
    obtain ⟨h₁, hcode, hfinished, hsame⟩ := ih hprogram hran
    have hget : m₁.code.program[ran.length]? = some t := by simp [hcode, hprogram]
    obtain ⟨s, hs, -⟩ := h₁.named ran.length (List.getElem?_eq_some_iff.mp hget).1
    have hscripts := h₁.scripts_executeTree hget hs ht
    have hkeeps := h₁.executeTree (List.mem_of_getElem? hget)
    have hcode₁ := m₁.code_executeTree t
    rw [ht] at hkeeps hcode₁
    refine ⟨hkeeps.inStep, hcode₁.trans hcode, fun i hi => ?_, fun i hi => ?_⟩
    · rw [List.length_append, List.length_singleton] at hi
      rcases Nat.lt_succ_iff_lt_or_eq.mp hi with hlt | rfl
      · obtain ⟨u, hu, hstate⟩ := hfinished i hlt
        refine ⟨u, ?_, hstate⟩
        rw [hscripts, List.getElem?_set_ne (Nat.ne_of_gt hlt)]
        exact hu
      · refine ⟨_, ?_, s.state_executed_ok⟩
        rw [hscripts, List.getElem?_set_self (List.getElem?_eq_some_iff.mp hs).1]
    · rw [List.length_append, List.length_singleton] at hi
      rw [hscripts, List.getElem?_set_ne (by omega), hsame i (by omega)]

/-! ### Trees and their scripts through a history -/

/-- A script that is replaced keeps its tree if it keeps name and source. -/
theorem HasTrees.executeTree {j t : Nat} (h : m.InStep m.scripts) (ht : m.HasTrees m.scripts)
    (hj : m.code.program[j]? = some t) :
    (m.executeTree t).2.HasTrees (m.executeTree t).2.scripts := by
  obtain ⟨s, hs, -⟩ := h.named j (List.getElem?_eq_some_iff.mp hj).1
  have hcode := m.code_executeTree t
  cases hr : m.executeTree t with
  | mk out m' =>
    rw [hr] at hcode
    rw [h.scripts_executeTree hj hs hr]
    refine HasTrees.congr (m := m) (fun i p hi => ?_) hcode
    obtain ⟨u, tree, hu, htree, hhas⟩ := ht i p hi
    rcases eq_or_ne i j with rfl | hne
    · obtain rfl : s = u := Option.some.inj (hs.symm.trans hu)
      refine ⟨s.executed out, tree, ?_, htree, hhas.executed out⟩
      exact List.getElem?_set_self (List.getElem?_eq_some_iff.mp hs).1
    · exact ⟨u, tree, (List.getElem?_set_ne hne.symm).trans hu, htree, hhas⟩

theorem HasTrees.executeTrees {ts : List Nat} (h : m.InStep m.scripts)
    (ht : m.HasTrees m.scripts) (hts : ∀ t ∈ ts, t ∈ m.code.program) :
    (m.executeTrees ts).2.HasTrees (m.executeTrees ts).2.scripts := by
  induction ts generalizing m with
  | nil => exact ht
  | cons t ts ih =>
    have hmem := hts t List.mem_cons_self
    obtain ⟨j, hj⟩ := List.mem_iff_getElem?.mp hmem
    have hhas := ht.executeTree h hj
    have hkeeps := h.executeTree hmem
    have hcode := m.code_executeTree t
    rw [Machine.executeTrees]
    split
    · rename_i e m₁ hr
      rwa [hr] at hhas
    · rename_i m₁ hr
      rw [hr] at hhas hkeeps hcode
      refine ih hkeeps.inStep hhas fun u hu => ?_
      rw [hcode]
      exact hts u (List.mem_cons_of_mem t hu)

/-- **A run keeps each tree with its script**, wherever it stops. -/
theorem HasTrees.runAmid (h : m.InStep m.scripts) (ht : m.HasTrees m.scripts)
    (files : Nat → FileStore) : (m.runAmid files).2.HasTrees (m.runAmid files).2.scripts := by
  have hstart : m.InStep ([] ++ m.scripts) := h
  have hkeeps : m.Keeps m.scripts (m.prepare files).2 :=
    hstart.prepareFrom fun t ht => nomatch ht
  obtain ⟨hhas, -⟩ := prepareFrom_ends files hstart ht fun t ht => nomatch ht
  rw [← prepare] at hhas
  rw [Machine.runAmid]
  split
  · rename_i e m₁ hr
    rwa [hr] at hhas
  · rename_i m₁ hr
    rw [hr] at hhas hkeeps
    exact hhas.executeTrees hkeeps.inStep fun t ht => ht

theorem HasTrees.append (ht : m.HasTrees m.scripts) (more : List Script) :
    m.HasTrees (m.scripts ++ more) := by
  intro i t hi
  obtain ⟨u, tree, hu, htree, hhas⟩ := ht i t hi
  refine ⟨u, tree, ?_, htree, hhas⟩
  rwa [List.getElem?_append_left (List.getElem?_eq_some_iff.mp hu).1]

/-- **Every operation keeps each tree with its script.** -/
theorem HasTrees.perform (h : m.InOrder) (ht : m.HasTrees m.scripts) (op : Operation) :
    (m.perform op).HasTrees (m.perform op).scripts := by
  cases op with
  | addScript path name content =>
    rw [Machine.perform]
    split
    · exact ht
    · split
      · exact ht
      · rename_i m₁ hadd
        obtain ⟨-, rfl⟩ := addScript_ok hadd
        exact ht.append _
  | load fs path name base =>
    rw [Machine.perform]
    split
    · exact ht
    · rename_i m₁ s hload
      obtain ⟨-, rfl⟩ := addScript_ok (load_ok hload).2
      exact ht.append _
  | addNative name native =>
    rw [Machine.perform]
    split
    · exact ht
    · rename_i m₁ hadd
      obtain ⟨f, -, rfl⟩ := addNative_ok hadd
      exact ht
  | run files => exact ht.runAmid h.inStep files
  | reset =>
    intro i t hi
    simp [Machine.perform, reset] at hi

/-- After any history each tree is that of the script at its position. -/
theorem HasTrees.performAll (h : m.InOrder) (ht : m.HasTrees m.scripts) (ops : List Operation) :
    (m.performAll ops).HasTrees (m.performAll ops).scripts := by
  induction ops generalizing m with
  | nil => exact ht
  | cons op ops ih => exact ih (h.perform op) (ht.perform h op)

theorem hasTrees_new (options : Options) : (new options).HasTrees (new options).scripts := by
  intro i t hi
  simp [new] at hi

/-! ### Outcomes -/

/-- **How a run ends, and what it leaves behind.** -/
inductive Outcome (m : Machine) (files : Nat → FileStore) :
    Except Failure Unit → Machine → Prop
  /-- The script at position `k` cannot be loaded or parsed. Those before it have been
  parsed, it has no tree, and those after it are as they were. -/
  | stuck {m' : Machine} {k : Nat} {s s' : Script} {e : Failure}
      (prepared : m.prepare files = (.error e, m'))
      (hs : m.scripts[k]? = some s) (hs' : m'.scripts[k]? = some s')
      (reason : s.Stuck (files k) s' e) (state : s'.state = .initial ∨ s'.state = .loaded)
      (before : ∀ i < k, ∃ t, m'.scripts[i]? = some t ∧ t.IsParsed)
      (trees : m'.code.program.length = k)
      (after : ∀ i, k < i → m'.scripts[i]? = m.scripts[i]?) : Outcome m files (.error e) m'
  /-- All scripts have been parsed, and the tree at position `j` fails. The scripts
  before it are finished, its own is running at least, and those after it are as they
  were before the second phase. -/
  | broken {m₁ m₂ m' : Machine} {j t : Nat} {s' : Script} {e : Failure}
      (prepared : m.prepare files = (.ok (), m₁)) (parsed : ∀ s ∈ m₁.scripts, s.IsParsed)
      (executed : m₁.executeTrees (m₁.code.program.take j) = (.ok (), m₂))
      (ht : m₁.code.program[j]? = some t) (failed : m₂.executeTree t = (.error e, m'))
      (before : ∀ i < j, ∃ s : Script, m'.scripts[i]? = some s ∧ s.state = .finished)
      (hs' : m'.scripts[j]? = some s') (state : ScriptState.running.rank ≤ s'.state.rank)
      (after : ∀ i, j < i → m'.scripts[i]? = m₁.scripts[i]?) : Outcome m files (.error e) m'
  /-- All scripts have been parsed, and all of them are finished. -/
  | finished {m₁ m' : Machine} (prepared : m.prepare files = (.ok (), m₁))
      (parsed : ∀ s ∈ m₁.scripts, s.IsParsed)
      (executed : m₁.executeTrees m₁.code.program = (.ok (), m'))
      (state : ∀ s ∈ m'.scripts, s.state = .finished) : Outcome m files (.ok ()) m'

/-- What the first phase does as a whole. -/
theorem prepare_ends (h : m.InStep m.scripts) (ht : m.HasTrees m.scripts)
    (files : Nat → FileStore) :
    m.Keeps m.scripts (m.prepare files).2 ∧ m.CallsNoNative (·.prepare files) ∧
      Prepared files m.scripts (m.prepare files).1 (m.prepare files).2 := by
  have hstart : m.InStep ([] ++ m.scripts) := h
  have hnone : ∀ t ∈ ([] : List Script), t.IsParsed := fun t ht => nomatch ht
  obtain ⟨-, hconsole, hends⟩ := prepareFrom_ends files hstart ht hnone
  refine ⟨hstart.prepareFrom hnone, ⟨hconsole, fun natives => ?_⟩, hends⟩
  exact m.prepareFrom_withNatives natives files [] m.scripts

/-- A run that is stuck is nothing but its first phase. -/
theorem CallsNoNative.runAmid (h : m.CallsNoNative (·.prepare files))
    (hstuck : m.prepare files = (.error e, m')) : m.CallsNoNative (·.runAmid files) := by
  obtain ⟨hconsole, hnatives⟩ := h
  have hrun : m.runAmid files = (.error e, m') := by rw [Machine.runAmid, hstuck]
  simp only [hstuck] at hconsole hnatives
  refine ⟨?_, fun natives => ?_⟩
  · simpa only [hrun] using hconsole
  · have hother : (m.withNatives natives).runAmid files = (.error e, m'.withNatives natives) := by
      rw [Machine.runAmid, hnatives natives]
    simp only [hrun, hother]

/-- **How a run ends**, where scripts and trees are in step. -/
theorem InStep.outcome (h : m.InStep m.scripts) (ht : m.HasTrees m.scripts)
    (files : Nat → FileStore) :
    m.Outcome files (m.runAmid files).1 (m.runAmid files).2 := by
  obtain ⟨hkeeps, -, hends⟩ := prepare_ends h ht files
  cases hprepare : m.prepare files with
  | mk out m₁ =>
    rw [hprepare] at hkeeps hends
    obtain h₁ : m₁.InStep m₁.scripts := hkeeps.inStep
    rw [Machine.runAmid, hprepare]
    cases hends with
    | @stuck _ k s s' e hs hs' hstuck before after =>
      have hlength : m₁.code.program.length = k := by
        have hle : ¬k < m₁.code.program.length := fun hlt =>
          hstuck.not_isParsed ((h₁.parsed k s' hs').mpr hlt)
        by_contra hne
        obtain ⟨t, hget, hparsed⟩ := before m₁.code.program.length (by omega)
        exact absurd ((h₁.parsed _ t hget).mp hparsed) (Nat.lt_irrefl _)
      exact .stuck hprepare hs hs' hstuck hstuck.state before hlength after
    | all hparsed =>
      dsimp only
      cases hexecute : m₁.executeTrees m₁.code.program with
      | mk out m' =>
        cases out with
        | ok =>
          obtain ⟨-, -, hfinished, hsame⟩ :=
            h₁.executeTrees_ok (List.append_nil _).symm hexecute
          refine .finished hprepare hparsed hexecute fun s hmem => ?_
          obtain ⟨i, hi⟩ := List.mem_iff_getElem?.mp hmem
          rcases Nat.lt_or_ge i m₁.code.program.length with hlt | hge
          · obtain ⟨u, hu, hstate⟩ := hfinished i hlt
            obtain rfl : s = u := Option.some.inj (hi.symm.trans hu)
            exact hstate
          · -- a script without a tree would not have been parsed
            rw [hsame i hge] at hi
            have hlt := (h₁.parsed i s hi).mp (hparsed s (List.mem_of_getElem? hi))
            omega
        | error e =>
          obtain ⟨ran, t, rest, m₂, hprogram, hran, hfail⟩ := executeTrees_error hexecute
          obtain ⟨h₂, hcode, hfinished, hsame⟩ := h₁.executeTrees_ok hprogram hran
          have htake : m₁.code.program.take ran.length = ran := by simp [hprogram]
          have hget : m₁.code.program[ran.length]? = some t := by simp [hprogram]
          have hget₂ : m₂.code.program[ran.length]? = some t := hcode ▸ hget
          obtain ⟨s, hs, -⟩ := h₂.named ran.length (List.getElem?_eq_some_iff.mp hget₂).1
          have hscripts := h₂.scripts_executeTree hget₂ hs hfail
          refine .broken hprepare hparsed (htake.symm ▸ hran) hget hfail (fun i hi => ?_)
            ?_ (s.running_le_rank_executed (.error e)) fun i hi => ?_
          · obtain ⟨u, hu, hstate⟩ := hfinished i hi
            exact ⟨u, by rwa [hscripts, List.getElem?_set_ne (Nat.ne_of_gt hi)], hstate⟩
          · rw [hscripts, List.getElem?_set_self (List.getElem?_eq_some_iff.mp hs).1]
          · rw [hscripts, List.getElem?_set_ne (Nat.ne_of_lt hi), hsame i (Nat.le_of_lt hi)]

/-- **What a run leaves behind tells where it stopped.** After any history, a run calls
no native function before all scripts have been parsed; it ends with a script that is
stuck, with a tree that fails, or with all scripts finished, and in each case it is said
what has become of the scripts before, at and after that place; no script is lost or
moves backwards; and each tree is the one that any scanner, whatever it has read before,
builds from the script at its position. -/
theorem run_outcome (options : Options) (history : List Operation) (files : Nat → FileStore) :
    let m := (new options).performAll history
    let m₁ := (m.prepare files).2
    let m' := (m.runAmid files).2
    m.CallsNoNative (·.prepare files) ∧
      ((∃ s ∈ m₁.scripts, ¬s.IsParsed) → m.CallsNoNative (·.runAmid files)) ∧
      m.Outcome files (m.runAmid files).1 m' ∧
      Preceding m.scripts m'.scripts ∧
      ∀ i t : Nat, m'.code.program[i]? = some t →
        ∃ (s : Script) (tree : Tree), m'.scripts[i]? = some s ∧
          m'.code.forest.tree? t = some tree ∧
          ∀ p : Scanner, ∃ x, p.parse s.name s.content = .ok x ∧ x.tree = tree := by
  intro m m₁ m'
  have hnew := inOrder_new options
  have hstep : m.InStep m.scripts := (hnew.performAll history).1.inStep
  have htrees : m.HasTrees m.scripts := (hasTrees_new options).performAll hnew history
  obtain ⟨-, hcalls, hends⟩ := prepare_ends hstep htrees files
  refine ⟨hcalls, ?_, hstep.outcome htrees files, (hstep.runAmid files).preceding,
    htrees.runAmid hstep files⟩
  rintro ⟨s, hmem, hs⟩
  cases hprepare : m.prepare files with
  | mk out m₂ =>
    have hm₂ : m₁ = m₂ := congrArg Prod.snd hprepare
    rw [hprepare] at hends
    cases hends with
    | all hparsed => exact absurd (hparsed s (hm₂ ▸ hmem)) hs
    | stuck => exact hcalls.runAmid hprepare

end Machine

end ScopeScript
