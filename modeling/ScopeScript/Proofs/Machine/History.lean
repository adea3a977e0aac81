import Mathlib.Data.List.Nodup
import ScopeScript.Machine.Run
import ScopeScript.Proofs.Machine.Frames

/-!
# Machines over time

A machine is worked with over a long time: scripts and native functions are
registered, everything is run, and run again once more scripts are there, or once
a missing file is back. Each of these may fail, and a run may fail in the middle of
anything. **Scripts and trees stay in step all the same**
(`ScopeScript.Machine.InStep`): the trees are those of the first scripts, in
order, and these scripts are just the ones that have been parsed.

## What carries the proof

While scripts are prepared, those already seen have all been parsed. So the first
script that has not been stands where the next tree will
(`ScopeScript.Machine.InStep.length_eq`), and parsing it puts both in step again
(`ScopeScript.Machine.InStep.addTree`). Executing a tree moves on the script of
the same name, and there is only one, which has been parsed
(`ScopeScript.Machine.InStep.advanceScript`).

From what single operations keep follows what whole histories keep
(`ScopeScript.Machine.inStep_throughout`): no script moves backwards, a native
function is never replaced, and between operations no call is under way.
-/

namespace ScopeScript

/-! ### Scripts that move on -/

namespace Script

variable {s s' s'' : Script} {state : ScriptState} {fs : FileStore}

/-- The script has been parsed, and may have got further. -/
def IsParsed (s : Script) : Prop := ScriptState.parsed.rank ≤ s.state.rank

/-- The same script at a later time, or at the same. -/
structure Precedes (s s' : Script) : Prop where
  /-- It has kept its name. -/
  name : s'.name = s.name
  /-- It has kept its path. -/
  path : s'.path = s.path
  /-- It has not moved backwards. -/
  rank : s.state.rank ≤ s'.state.rank

theorem Precedes.refl (s : Script) : s.Precedes s := ⟨rfl, rfl, Nat.le_refl _⟩

theorem Precedes.trans (h : s.Precedes s') (h' : s'.Precedes s'') : s.Precedes s'' :=
  ⟨h'.name.trans h.name, h'.path.trans h.path, Nat.le_trans h.rank h'.rank⟩

theorem Precedes.isParsed (h : s.Precedes s') (hs : s.IsParsed) : s'.IsParsed :=
  Nat.le_trans hs h.rank

theorem precedes_advance (s : Script) (state : ScriptState) : s.Precedes (s.advance state) := by
  rw [advance]
  split
  · exact Precedes.refl s
  · rename_i hrank
    exact ⟨rfl, rfl, Nat.le_of_lt (Nat.lt_of_not_le hrank)⟩

theorem rank_advance (s : Script) (state : ScriptState) :
    (s.advance state).state.rank = max s.state.rank state.rank := by
  rw [advance]
  split
  · rename_i hrank
    exact (Nat.max_eq_left hrank).symm
  · rename_i hrank
    exact (Nat.max_eq_right (Nat.le_of_lt (Nat.lt_of_not_le hrank))).symm

/-- What reading the source of a script makes of it. -/
theorem load_ok {base : Option String} (h : s.load fs base = .ok s') :
    s.Precedes s' ∧ s'.state.rank = max s.state.rank ScriptState.loaded.rank := by
  rw [load] at h
  split at h
  · cases h
  · cases h
  · split at h
    · cases h
    · cases h
      obtain ⟨hname, hpath, hrank⟩ := precedes_advance { s with content := some _ } .loaded
      exact ⟨⟨hname, hpath, hrank⟩, rank_advance _ _⟩

/-- A new script has not been parsed. -/
theorem not_isParsed_named (path name : String) (content : Option String) :
    ¬(named path name content).IsParsed := by
  unfold named
  split
  · simp [IsParsed, ScriptState.rank]
  · split <;> simp [IsParsed, ScriptState.rank]

theorem not_isParsed_make {path : String} {name content : Option String}
    (h : make path name content = .ok s) : ¬s.IsParsed := by
  unfold make at h
  split at h
  · cases h
    exact not_isParsed_named _ _ _
  · cases hstem : Locator.stem path with
    | error e =>
      rw [hstem] at h
      cases h
    | ok stem =>
      rw [hstem] at h
      cases h
      exact not_isParsed_named _ _ _

theorem not_isParsed_importFrom {path : String} {name base : Option String}
    (h : importFrom fs path name base = .ok s) : ¬s.IsParsed := by
  rw [importFrom] at h
  split at h
  · cases h
  · rename_i s₀ hmake
    have hnew := not_isParsed_make hmake
    have hrank := (load_ok h).2
    unfold IsParsed at hnew ⊢
    simp only [ScriptState.rank] at hnew hrank ⊢
    omega

end Script

/-- Each script is still there, at a later time. -/
def Preceding (before after : List Script) : Prop :=
  ∀ (i : Nat) (s : Script), before[i]? = some s → ∃ s', after[i]? = some s' ∧ s.Precedes s'

theorem Preceding.refl (scripts : List Script) : Preceding scripts scripts :=
  fun _ s hs => ⟨s, hs, Script.Precedes.refl s⟩

theorem Preceding.trans {xs ys zs : List Script} (h : Preceding xs ys) (h' : Preceding ys zs) :
    Preceding xs zs := by
  intro i s hs
  obtain ⟨s₁, hs₁, h₁⟩ := h i s hs
  obtain ⟨s₂, hs₂, h₂⟩ := h' i s₁ hs₁
  exact ⟨s₂, hs₂, h₁.trans h₂⟩

/-- Looking up in a list whose entry in the middle is replaced. -/
theorem getElem?_middle {done rest : List Script} {s t : Script} {i : Nat} (s' : Script)
    (h : (done ++ s :: rest)[i]? = some t) :
    (i = done.length ∧ t = s ∧ (done ++ s' :: rest)[i]? = some s') ∨
      (i ≠ done.length ∧ (done ++ s' :: rest)[i]? = some t) := by
  rcases Nat.lt_trichotomy i done.length with hlt | rfl | hgt
  · rw [List.getElem?_append_left hlt] at h
    exact Or.inr ⟨by omega, by rwa [List.getElem?_append_left hlt]⟩
  · rw [List.getElem?_append_right (Nat.le_refl _), Nat.sub_self, List.getElem?_cons_zero] at h
    exact Or.inl ⟨rfl, (Option.some.inj h).symm, by simp⟩
  · obtain ⟨k, hk⟩ : ∃ k, i - done.length = k + 1 := ⟨i - done.length - 1, by omega⟩
    rw [List.getElem?_append_right (by omega), hk, List.getElem?_cons_succ] at h
    refine Or.inr ⟨by omega, ?_⟩
    rwa [List.getElem?_append_right (by omega), hk, List.getElem?_cons_succ]

theorem preceding_middle {s s' : Script} (h : s.Precedes s') (done rest : List Script) :
    Preceding (done ++ s :: rest) (done ++ s' :: rest) := by
  intro i t ht
  rcases getElem?_middle s' ht with ⟨-, rfl, hi⟩ | ⟨-, hi⟩
  · exact ⟨s', hi, h⟩
  · exact ⟨t, hi, Script.Precedes.refl t⟩

namespace Machine

variable {m m' : Machine} {s s' : Script} {scripts done rest : List Script} {e : Failure}

/-! ### Scripts and trees in step -/

/-- The name of one of the trees that run. -/
def treeName? (m : Machine) (i : Nat) : Option String :=
  ((m.code.program[i]?).bind m.code.forest.tree?).map (·.name)

/-- **Scripts and the trees of a machine are in step.** -/
structure InStep (m : Machine) (scripts : List Script) : Prop where
  /-- No two scripts have the same name. -/
  distinct : (scripts.map (·.name)).Nodup
  /-- A tree is that of the script at the same position. -/
  named : ∀ i < m.code.program.length, ∃ s, scripts[i]? = some s ∧ m.treeName? i = some s.name
  /-- Those scripts that have been parsed are those that have a tree. -/
  parsed : ∀ i s, scripts[i]? = some s → (s.IsParsed ↔ i < m.code.program.length)

theorem InStep.congr (h : m.InStep scripts) (hcode : m'.code = m.code) : m'.InStep scripts := by
  obtain ⟨hdistinct, hnamed, hparsed⟩ := h
  refine ⟨hdistinct, ?_, ?_⟩
  · unfold treeName?
    rw [hcode]
    exact hnamed
  · rw [hcode]
    exact hparsed

theorem InStep.length_le (h : m.InStep scripts) : m.code.program.length ≤ scripts.length := by
  by_contra hlt
  obtain ⟨s, hs, -⟩ := h.named scripts.length (by omega)
  simp at hs

/-- **If those before a script have been parsed and the script has not, the next
tree is its own.** -/
theorem InStep.length_eq (h : m.InStep (done ++ s :: rest)) (hdone : ∀ t ∈ done, t.IsParsed)
    (hs : ¬s.IsParsed) : m.code.program.length = done.length := by
  have hle : m.code.program.length ≤ done.length := by
    by_contra hlt
    exact hs ((h.parsed done.length s (by simp)).mpr (by omega))
  have hge : done.length ≤ m.code.program.length := by
    by_contra hlt
    have hi : m.code.program.length < done.length := by omega
    have hmem : (done ++ s :: rest)[m.code.program.length]? = some done[m.code.program.length] := by
      rw [List.getElem?_append_left hi, List.getElem?_eq_getElem hi]
    have := (h.parsed _ _ hmem).mp (hdone _ (List.getElem_mem hi))
    omega
  omega

/-- A script that moves on, and is no more parsed than before, stays in step. -/
theorem InStep.middle (h : m.InStep (done ++ s :: rest)) (hp : s.Precedes s')
    (hparsed : s'.IsParsed ↔ s.IsParsed) : m.InStep (done ++ s' :: rest) where
  distinct := by
    have hdistinct := h.distinct
    simp only [List.map_append, List.map_cons] at hdistinct ⊢
    rwa [hp.name]
  named := by
    intro i hi
    obtain ⟨t, ht, hname⟩ := h.named i hi
    rcases getElem?_middle s' ht with ⟨-, rfl, hget⟩ | ⟨-, hget⟩
    · exact ⟨s', hget, by rw [hp.name, hname]⟩
    · exact ⟨t, hget, hname⟩
  parsed := by
    intro i t ht
    rcases getElem?_middle s ht with ⟨-, rfl, hget⟩ | ⟨-, hget⟩
    · rw [hparsed]
      exact h.parsed i s hget
    · exact h.parsed i t hget

theorem program_addTree (m : Machine) (t : Tree) :
    (m.addTree t).code.program = m.code.program ++ [m.code.forest.trees.size] := rfl

theorem treeName?_addTree_of_some {i : Nat} {name : String} (t : Tree)
    (h : m.treeName? i = some name) : (m.addTree t).treeName? i = some name := by
  obtain ⟨tree, htree, rfl⟩ := Option.map_eq_some_iff.mp h
  obtain ⟨p, hp, hget⟩ := Option.bind_eq_some_iff.mp htree
  have hi : i < m.code.program.length := (List.getElem?_eq_some_iff.mp hp).1
  have hsize : p < m.code.forest.trees.size := (Array.getElem?_eq_some_iff.mp hget).1
  have hgrown : (m.addTree t).code.forest.tree? p = some tree := by
    rw [← hget]
    exact Array.getElem?_push_lt hsize |>.trans (Array.getElem?_eq_getElem hsize).symm
  rw [treeName?, program_addTree, List.getElem?_append_left hi, hp, Option.bind_some, hgrown]
  rfl

theorem treeName?_addTree_new (m : Machine) (t : Tree) :
    (m.addTree t).treeName? m.code.program.length = some t.name := by
  have hnew : (m.addTree t).code.forest.tree? m.code.forest.trees.size = some t :=
    Array.getElem?_push_size
  rw [treeName?, program_addTree, List.getElem?_append_right (Nat.le_refl _), Nat.sub_self,
    List.getElem?_cons_zero, Option.bind_some, hnew]
  rfl

/-- **Parsing the next script puts scripts and trees in step again.** -/
theorem InStep.addTree (h : m.InStep (done ++ s :: rest)) (hdone : ∀ t ∈ done, t.IsParsed)
    (hs : ¬s.IsParsed) (hp : s.Precedes s') (hs' : s'.IsParsed) {t : Tree}
    (ht : t.name = s.name) : (m.addTree t).InStep (done ++ s' :: rest) := by
  have hlength := h.length_eq hdone hs
  have hgrown : (m.addTree t).code.program.length = m.code.program.length + 1 := by
    rw [program_addTree, List.length_append, List.length_singleton]
  refine ⟨?_, ?_, ?_⟩
  · have hdistinct := h.distinct
    simp only [List.map_append, List.map_cons] at hdistinct ⊢
    rwa [hp.name]
  · intro i hi
    rcases Nat.lt_or_ge i m.code.program.length with hlt | hge
    · obtain ⟨u, hu, hname⟩ := h.named i hlt
      rcases getElem?_middle s' hu with ⟨hi', -, -⟩ | ⟨-, hget⟩
      · omega
      · exact ⟨u, hget, treeName?_addTree_of_some t hname⟩
    · obtain rfl : i = m.code.program.length := by omega
      refine ⟨s', ?_, ?_⟩
      · rw [hlength]
        simp
      · rw [treeName?_addTree_new, ht, hp.name]
  · intro i u hu
    rcases getElem?_middle s hu with ⟨hi, rfl, -⟩ | ⟨hi, hget⟩
    · exact iff_of_true hs' (by omega)
    · have hold := h.parsed i u hget
      rw [hold, hgrown]
      omega

/-! ### Loading and parsing -/

@[simp] theorem frames_machineNote (m : Machine) (line : String) :
    (m.note line).store.frames = m.store.frames :=
  m.code.frames_note line m.store

/-- What loading does to a machine, and to the script unless it fails. -/
theorem loadStep_keeps (m : Machine) (fs : FileStore) (s : Script) :
    (m.loadStep fs s).2.code = m.code ∧
      (m.loadStep fs s).2.store.frames = m.store.frames ∧
      ∀ s', (m.loadStep fs s).1 = .ok s' → s.Precedes s' ∧ (s'.IsParsed ↔ s.IsParsed) := by
  rw [loadStep]
  split
  · rename_i hinitial
    refine ⟨rfl, m.frames_machineNote _, fun s' hs' => ?_⟩
    obtain ⟨hp, hrank⟩ := Script.load_ok hs'
    refine ⟨hp, ?_⟩
    rw [Script.IsParsed, Script.IsParsed, hrank, hinitial]
    decide
  · refine ⟨rfl, rfl, fun s' hs' => ?_⟩
    cases hs'
    exact ⟨Script.Precedes.refl s, Iff.rfl⟩

/-- What parsing does: nothing, if it is not the time for it or it fails, and
otherwise there is a tree more. -/
theorem parseStep_cases (m : Machine) (s : Script) :
    (m.parseStep s).2.store.frames = m.store.frames ∧
      (((m.parseStep s).2.code = m.code ∧ ∀ s', (m.parseStep s).1 = .ok s' →
          s.state ≠ .loaded ∧ s' = s) ∨
        ∃ t : Tree, t.name = s.name ∧ s.state = .loaded ∧
          (m.parseStep s).1 = .ok (s.advance .parsed) ∧
          (m.parseStep s).2.code = (m.addTree t).code) := by
  rw [parseStep]
  split
  · rename_i hloaded
    dsimp only
    split
    · exact ⟨m.frames_machineNote _, Or.inl ⟨rfl, fun s' hs' => nomatch hs'⟩⟩
    · rename_i scanner hparse
      exact ⟨m.frames_machineNote _,
        Or.inr ⟨scanner.tree, Scanner.treeName_parse hparse, hloaded, rfl, rfl⟩⟩
  · rename_i hloaded
    refine ⟨rfl, Or.inl ⟨rfl, fun s' hs' => ?_⟩⟩
    cases hs'
    exact ⟨hloaded, rfl⟩

theorem natives_addTree (m : Machine) (t : Tree) :
    (m.addTree t).code.natives = m.code.natives := rfl

/-- What some part of a run keeps, and what becomes of the scripts in it. -/
structure Keeps (m : Machine) (scripts : List Script) (m' : Machine) : Prop where
  /-- Scripts and trees are in step afterwards. -/
  inStep : m'.InStep m'.scripts
  /-- No script has moved backwards or been lost. -/
  preceding : Preceding scripts m'.scripts
  /-- The calls under way are the same. -/
  frames : m'.store.frames = m.store.frames
  /-- The native functions are the same. -/
  natives : m'.code.natives = m.code.natives

/-- A script that is neither initial nor loaded has been parsed. -/
theorem isParsed_of_ne (hi : s.state ≠ .initial) (hl : s.state ≠ .loaded) : s.IsParsed := by
  rw [Script.IsParsed]
  cases hstate : s.state with
  | initial => exact absurd hstate hi
  | loaded => exact absurd hstate hl
  | parsed | running | finished => decide

theorem loadStep_ne_initial {fs : FileStore} (h : (m.loadStep fs s).1 = .ok s') :
    s'.state ≠ .initial := by
  rw [loadStep] at h
  split at h
  · have hrank := (Script.load_ok h).2
    intro hinitial
    rw [hinitial] at hrank
    simp only [ScriptState.rank] at hrank
    omega
  · rename_i hinitial
    cases h
    exact hinitial

/-- **A script that is parsed gets its tree**, if it had none, and is in step with
the others. -/
theorem InStep.parseStep (h : m.InStep (done ++ s :: rest))
    (hdone : ∀ t ∈ done, t.IsParsed) (hinitial : s.state ≠ .initial)
    (hr : m.parseStep s = (.ok s', m')) :
    m'.InStep (done ++ s' :: rest) ∧ s'.IsParsed ∧ s.Precedes s' ∧
      m'.code.natives = m.code.natives := by
  have hcases := (m.parseStep_cases s).2
  rw [hr] at hcases
  rcases hcases with ⟨hcode, hskip⟩ | ⟨t, hname, hloaded, hok, hcode⟩
  · obtain ⟨hloaded, rfl⟩ := hskip s' rfl
    exact ⟨h.congr hcode, isParsed_of_ne hinitial hloaded, Script.Precedes.refl _,
      congrArg Code.natives hcode⟩
  · cases hok
    have hold : ¬s.IsParsed := by
      rw [Script.IsParsed, hloaded]
      decide
    have hnew : (s.advance .parsed).IsParsed := by
      rw [Script.IsParsed, Script.rank_advance]
      exact Nat.le_max_right _ _
    have hp := s.precedes_advance .parsed
    exact ⟨(h.addTree hdone hold hp hnew hname).congr hcode, hnew, hp,
      (congrArg Code.natives hcode).trans (m.natives_addTree t)⟩

/-- **Loading and parsing keep scripts and trees in step**, as far as they get. -/
theorem InStep.prepareFrom {files : Nat → FileStore} (h : m.InStep (done ++ rest))
    (hdone : ∀ t ∈ done, t.IsParsed) :
    m.Keeps (done ++ rest) (m.prepareFrom files done rest).2 := by
  induction rest generalizing m done with
  | nil =>
    rw [List.append_nil] at h ⊢
    exact ⟨h.congr rfl, Preceding.refl done, rfl, rfl⟩
  | cons s rest ih =>
    rw [Machine.prepareFrom]
    obtain ⟨hcode, hframes, hload⟩ := m.loadStep_keeps (files done.length) s
    split
    · rename_i e m₁ hr
      rw [hr] at hcode hframes
      exact ⟨h.congr hcode, Preceding.refl _, hframes, congrArg Code.natives hcode⟩
    · rename_i s₁ m₁ hr
      have hinitial := loadStep_ne_initial (congrArg Prod.fst hr)
      rw [hr] at hcode hframes hload
      obtain ⟨hp₁, hparsed₁⟩ := hload s₁ rfl
      have h₁ : m₁.InStep (done ++ s₁ :: rest) := (h.middle hp₁ hparsed₁).congr hcode
      have hpre₁ := preceding_middle hp₁ done rest
      obtain ⟨hframes₂, hcases⟩ := m₁.parseStep_cases s₁
      split
      · rename_i e m₂ hr₂
        rw [hr₂] at hframes₂ hcases
        rcases hcases with ⟨hcode₂, -⟩ | ⟨t, -, -, hok, -⟩
        · exact ⟨h₁.congr hcode₂, hpre₁, hframes₂.trans hframes,
            (congrArg Code.natives hcode₂).trans (congrArg Code.natives hcode)⟩
        · cases hok
      · rename_i s₂ m₂ hr₂
        rw [hr₂] at hframes₂
        -- the script has been parsed now, and the others follow
        obtain ⟨h₂, hs₂, hp₂, hnatives⟩ := h₁.parseStep hdone hinitial hr₂
        have hmove : done ++ s₂ :: rest = (done ++ [s₂]) ++ rest := by simp
        have hdone₂ : ∀ t ∈ done ++ [s₂], t.IsParsed := by
          intro t ht
          rcases List.mem_append.mp ht with ht | ht
          · exact hdone t ht
          · rwa [List.mem_singleton.mp ht]
        obtain ⟨hstep, hpre, hfr, hna⟩ := ih (m := m₂) (hmove ▸ h₂) hdone₂
        refine ⟨hstep, ?_, hfr.trans (hframes₂.trans hframes),
          hna.trans (hnatives.trans (congrArg Code.natives hcode))⟩
        rw [← hmove] at hpre
        exact (hpre₁.trans (preceding_middle hp₂ done rest)).trans hpre

/-! ### Execution -/

/-- What becomes of one script where the first one of some name moves on. -/
theorem getElem?_advanceIn (name : String) (state : ScriptState) {i : Nat}
    (h : scripts[i]? = some s) :
    ∃ s', (advanceIn name state scripts)[i]? = some s' ∧
      (s' = s ∨ s.name = name ∧ s' = s.advance state) := by
  induction scripts generalizing i with
  | nil => simp at h
  | cons t rest ih =>
    rw [advanceIn]
    split
    · rename_i hname
      cases i with
      | zero =>
        obtain rfl : t = s := by simpa using h
        exact ⟨t.advance state, rfl, Or.inr ⟨by simpa using hname, rfl⟩⟩
      | succ i => exact ⟨s, h, Or.inl rfl⟩
    · cases i with
      | zero =>
        obtain rfl : t = s := by simpa using h
        exact ⟨t, rfl, Or.inl rfl⟩
      | succ i => exact ih (by simpa using h)

theorem length_advanceIn (name : String) (state : ScriptState) (scripts : List Script) :
    (advanceIn name state scripts).length = scripts.length := by
  induction scripts with
  | nil => rfl
  | cons t rest ih =>
    rw [advanceIn]
    split
    · rfl
    · rw [List.length_cons, ih, List.length_cons]

theorem preceding_advanceIn (name : String) (state : ScriptState) (scripts : List Script) :
    Preceding scripts (advanceIn name state scripts) := by
  intro i s hs
  obtain ⟨s', hs', rfl | ⟨-, rfl⟩⟩ := getElem?_advanceIn name state hs
  · exact ⟨s', hs', Script.Precedes.refl s'⟩
  · exact ⟨_, hs', s.precedes_advance state⟩

/-- Looking up backwards, where the first script of some name has moved on. -/
theorem getElem?_of_advanceIn {name : String} {state : ScriptState} {i : Nat}
    (h : (advanceIn name state scripts)[i]? = some s') :
    ∃ s, scripts[i]? = some s ∧ (s' = s ∨ s.name = name ∧ s' = s.advance state) := by
  have hi : i < scripts.length := by
    rw [← length_advanceIn name state]
    exact (List.getElem?_eq_some_iff.mp h).1
  obtain ⟨s₁, hs₁, hcases⟩ := getElem?_advanceIn name state (List.getElem?_eq_getElem hi)
  obtain rfl : s₁ = s' := Option.some.inj (hs₁.symm.trans h)
  exact ⟨_, List.getElem?_eq_getElem hi, hcases⟩

theorem names_advanceIn (name : String) (state : ScriptState) (scripts : List Script) :
    (advanceIn name state scripts).map (·.name) = scripts.map (·.name) := by
  induction scripts with
  | nil => rfl
  | cons t rest ih =>
    rw [advanceIn]
    split
    · rw [List.map_cons, List.map_cons, (t.precedes_advance state).name]
    · rw [List.map_cons, List.map_cons, ih]

/-- **The script of a tree moves on**: it is the only one of its name, and has been
parsed, so that nothing falls out of step. -/
theorem InStep.advanceIn (h : m.InStep scripts) {k : Nat} {name : String}
    (hk : k < m.code.program.length) (hname : m.treeName? k = some name) (state : ScriptState) :
    m.InStep (advanceIn name state scripts) where
  distinct := by
    rw [names_advanceIn]
    exact h.distinct
  named := by
    intro i hi
    obtain ⟨s, hs, htree⟩ := h.named i hi
    obtain ⟨s', hs', hp⟩ := preceding_advanceIn name state scripts i s hs
    exact ⟨s', hs', by rw [htree, hp.name]⟩
  parsed := by
    intro i s' hs'
    obtain ⟨s, hs, rfl | ⟨hsame, rfl⟩⟩ := getElem?_of_advanceIn hs'
    · exact h.parsed i s' hs
    · obtain ⟨u, hu, htree⟩ := h.named k hk
      have hik : i = k := by
        obtain ⟨hi, rfl⟩ := List.getElem?_eq_some_iff.mp hs
        obtain ⟨hk', rfl⟩ := List.getElem?_eq_some_iff.mp hu
        have heq : scripts[i].name = scripts[k].name := by
          rw [hsame]
          exact Option.some.inj (hname.symm.trans htree)
        have hinj := @List.Nodup.getElem_inj_iff _ _ h.distinct i (by simpa using hi) k
          (by simpa using hk')
        exact hinj.mp (by simpa using heq)
      have hold := h.parsed i s hs
      have hparsed : s.IsParsed := hold.mpr (by omega)
      exact iff_of_true ((s.precedes_advance state).isParsed hparsed) (by omega)

theorem Keeps.trans {m₁ m₂ : Machine} (h : m.Keeps scripts m₁) (h' : m₁.Keeps m₁.scripts m₂) :
    m.Keeps scripts m₂ where
  inStep := h'.inStep
  preceding := h.preceding.trans h'.preceding
  frames := h'.frames.trans h.frames
  natives := h'.natives.trans h.natives

/-- Executing a tree changes no code. -/
theorem code_executeTree (m : Machine) (t : Nat) : (m.executeTree t).2.code = m.code := by
  rw [executeTree]
  dsimp only
  split <;> rfl

/-- **Executing a tree keeps scripts and trees in step**, whether it fails or not. -/
theorem InStep.executeTree (h : m.InStep m.scripts) {t : Nat} (ht : t ∈ m.code.program) :
    m.Keeps m.scripts (m.executeTree t).2 := by
  obtain ⟨k, hk, hget⟩ := List.getElem_of_mem ht
  obtain ⟨s, hs, htree⟩ := h.named k hk
  have hname : ((m.code.forest.tree? t).map (·.name)).getD "" = s.name := by
    rw [treeName?, List.getElem?_eq_getElem hk, hget, Option.bind_some] at htree
    rw [htree]
    rfl
  set running := (m.note ("Execute AST: " ++ s.name)).advanceScript s.name .running with hrunning
  have hrun : running.InStep running.scripts :=
    InStep.congr (m := m) (h.advanceIn hk htree .running) rfl
  have hpre : Preceding m.scripts running.scripts := preceding_advanceIn _ _ _
  have hframes := running.code.frames_executeNode ⟨t, 0⟩ running.store
  have hsame : running.store.frames = m.store.frames := m.frames_machineNote _
  unfold Machine.executeTree
  rw [hname]
  dsimp only
  rw [← hrunning]
  split
  · exact ⟨hrun.congr rfl, hpre, hframes.trans hsame, rfl⟩
  · refine ⟨InStep.congr (m := running) (hrun.advanceIn hk htree .finished) rfl, ?_,
      hframes.trans hsame, rfl⟩
    exact hpre.trans (preceding_advanceIn _ _ _)

/-- **Executing trees keeps scripts and trees in step**, as far as it gets. -/
theorem InStep.executeTrees (h : m.InStep m.scripts) {ts : List Nat}
    (hts : ∀ t ∈ ts, t ∈ m.code.program) : m.Keeps m.scripts (m.executeTrees ts).2 := by
  induction ts generalizing m with
  | nil => exact ⟨h, Preceding.refl _, rfl, rfl⟩
  | cons t ts ih =>
    have hone := h.executeTree (hts t List.mem_cons_self)
    have hcode := m.code_executeTree t
    rw [Machine.executeTrees]
    split
    · rename_i e m₁ hr
      rwa [hr] at hone
    · rename_i m₁ hr
      rw [hr] at hone hcode
      refine hone.trans (ih hone.inStep fun u hu => ?_)
      rw [hcode]
      exact hts u (List.mem_cons_of_mem t hu)

/-- **A run keeps scripts and trees in step**, wherever it stops. -/
theorem InStep.runAmid (h : m.InStep m.scripts) (files : Nat → FileStore) :
    m.Keeps m.scripts (m.runAmid files).2 := by
  have hstart : m.InStep ([] ++ m.scripts) := h
  have hprepare : m.Keeps m.scripts (m.prepare files).2 :=
    hstart.prepareFrom fun t ht => nomatch ht
  rw [Machine.runAmid]
  split
  · rename_i e m₁ hr
    rwa [hr] at hprepare
  · rename_i m₁ hr
    rw [hr] at hprepare
    exact hprepare.trans (hprepare.inStep.executeTrees fun t ht => ht)

end Machine

/-! ### Histories -/

/-- Something that is done with a machine. Files are as they happen to be at the
time: each script that is read may find others. -/
inductive Operation where
  /-- Make a script and register it. -/
  | addScript (path : String) (name content : Option String)
  /-- Read a script and register it. -/
  | load (fs : FileStore) (path : String) (name base : Option String)
  /-- Register a native function, or something that is none. -/
  | addNative (name : String) (native : Option Native)
  /-- Run everything; the script at position `i` is read from `files i`. -/
  | run (files : Nat → FileStore)
  /-- Forget scripts and trees. -/
  | reset

namespace Machine

variable {m m' : Machine} {s s' : Script} {op : Operation}

/-- The machine after an operation, whether it succeeded or failed. -/
def perform (m : Machine) : Operation → Machine
  | .addScript path name content =>
    match Script.make path name content with
    | .error _ => m
    | .ok s =>
      match m.addScript s with
      | .error _ => m
      | .ok m' => m'
  | .load fs path name base =>
    match m.load fs path name base with
    | .error _ => m
    | .ok (m', _) => m'
  | .addNative name native =>
    match m.addNative name native with
    | .error _ => m
    | .ok m' => m'
  | .run files => (m.runAmid files).2
  | .reset => m.reset

/-- The machine after operations, one after the other. -/
def performAll (m : Machine) (ops : List Operation) : Machine := ops.foldl perform m

/-- The machine is in order: scripts and trees are in step, and no call is under
way. -/
structure InOrder (m : Machine) : Prop where
  /-- Scripts and trees are in step. -/
  inStep : m.InStep m.scripts
  /-- No call is under way. -/
  idle : m.store.frames = []

theorem inOrder_new (options : Options) : (new options).InOrder where
  inStep := by
    refine ⟨List.nodup_nil, ?_, ?_⟩
    · intro i hi
      exact absurd hi (Nat.not_lt_zero i)
    · intro i s hs
      simp [new] at hs
  idle := rfl

/-- A new script stands behind all trees. -/
theorem InStep.append (h : m.InStep m.scripts) (hs : ¬s.IsParsed)
    (hnew : m.script? s.name = none) : m.InStep (m.scripts ++ [s]) where
  distinct := by
    rw [List.map_append, List.nodup_append]
    refine ⟨h.distinct, by simp, ?_⟩
    intro a ha b hb hab
    obtain ⟨t, ht, rfl⟩ := List.mem_map.mp ha
    obtain rfl : b = s.name := by simpa using hb
    have hno := List.find?_eq_none.mp hnew t ht
    simp [hab] at hno
  named := by
    intro i hi
    obtain ⟨t, ht, hname⟩ := h.named i hi
    have hlt := (List.getElem?_eq_some_iff.mp ht).1
    exact ⟨t, by rwa [List.getElem?_append_left hlt], hname⟩
  parsed := by
    intro i t ht
    rcases Nat.lt_or_ge i m.scripts.length with hlt | hge
    · rw [List.getElem?_append_left hlt] at ht
      exact h.parsed i t ht
    · obtain ⟨hlt, -⟩ := List.getElem?_eq_some_iff.mp ht
      rw [List.length_append, List.length_singleton] at hlt
      obtain rfl : i = m.scripts.length := by omega
      obtain rfl : s = t := by simpa using ht
      have := h.length_le
      exact iff_of_false hs (by omega)

theorem addScript_ok (h : m.addScript s = .ok m') :
    m.script? s.name = none ∧ m' = { m with scripts := m.scripts ++ [s] } := by
  rw [addScript] at h
  split at h
  · cases h
  · rename_i hnone
    cases h
    exact ⟨by simpa using hnone, rfl⟩

/-- What registering a script that is new keeps. -/
theorem InOrder.addScript (h : m.InOrder) (hs : ¬s.IsParsed) (hadd : m.addScript s = .ok m') :
    m'.InOrder := by
  obtain ⟨hnew, rfl⟩ := addScript_ok hadd
  exact ⟨(h.inStep.append hs hnew).congr rfl, h.idle⟩

theorem preceding_append (scripts more : List Script) : Preceding scripts (scripts ++ more) := by
  intro i s hs
  have hlt := (List.getElem?_eq_some_iff.mp hs).1
  exact ⟨s, by rwa [List.getElem?_append_left hlt], Script.Precedes.refl s⟩

theorem load_ok {fs : FileStore} {path : String} {name base : Option String}
    (h : m.load fs path name base = .ok (m', s)) :
    Script.importFrom fs path name base = .ok s ∧ m.addScript s = .ok m' := by
  rw [load] at h
  cases himport : Script.importFrom fs path name base with
  | error e =>
    rw [himport] at h
    cases h
  | ok s₁ =>
    cases hadd : m.addScript s₁ with
    | error e =>
      simp only [himport, hadd, bind, Except.bind] at h
      cases h
    | ok m₁ =>
      simp only [himport, hadd, bind, Except.bind] at h
      cases h
      exact ⟨rfl, hadd⟩

theorem addNative_ok {name : String} {native : Option Native}
    (h : m.addNative name native = .ok m') :
    ∃ f, m.code.natives.lookup name = none ∧
      m' = { m with code := { m.code with natives := m.code.natives ++ [(name, f)] } } := by
  unfold addNative at h
  split at h
  · cases h
  · rename_i f
    split at h
    · cases h
    · rename_i hnone
      cases h
      exact ⟨f, by simpa only [Option.not_isSome_iff_eq_none] using hnone, rfl⟩

/-- **Every operation leaves a machine in order**, whether it fails or not. -/
theorem InOrder.perform (h : m.InOrder) (op : Operation) : (m.perform op).InOrder := by
  cases op with
  | addScript path name content =>
    rw [Machine.perform]
    split
    · exact h
    · rename_i s hmake
      split
      · exact h
      · rename_i m₁ hadd
        exact h.addScript (Script.not_isParsed_make hmake) hadd
  | load fs path name base =>
    rw [Machine.perform]
    split
    · exact h
    · rename_i m₁ s hload
      obtain ⟨himport, hadd⟩ := load_ok hload
      exact h.addScript (Script.not_isParsed_importFrom himport) hadd
  | addNative name native =>
    rw [Machine.perform]
    split
    · exact h
    · rename_i m₁ hadd
      obtain ⟨f, -, rfl⟩ := addNative_ok hadd
      exact ⟨⟨h.inStep.distinct, h.inStep.named, h.inStep.parsed⟩, h.idle⟩
  | run files =>
    have hkeeps := h.inStep.runAmid files
    exact ⟨hkeeps.inStep, hkeeps.frames.trans h.idle⟩
  | reset =>
    refine ⟨⟨List.nodup_nil, ?_, ?_⟩, rfl⟩
    · intro i hi
      exact absurd hi (Nat.not_lt_zero i)
    · intro i s hs
      simp [Machine.perform, reset] at hs

/-- **No operation replaces a native function.** -/
theorem InOrder.lookup_perform (h : m.InOrder) (op : Operation) {name : String} {f : Native}
    (hf : m.code.natives.lookup name = some f) :
    (m.perform op).code.natives.lookup name = some f := by
  cases op with
  | addScript path name content =>
    rw [Machine.perform]
    split
    · exact hf
    · split
      · exact hf
      · rename_i m₁ hadd
        obtain ⟨-, rfl⟩ := addScript_ok hadd
        exact hf
  | load fs path name base =>
    rw [Machine.perform]
    split
    · exact hf
    · rename_i m₁ s hload
      obtain ⟨-, rfl⟩ := addScript_ok (load_ok hload).2
      exact hf
  | addNative name native =>
    rw [Machine.perform]
    split
    · exact hf
    · rename_i m₁ hadd
      obtain ⟨g, -, rfl⟩ := addNative_ok hadd
      dsimp only
      rw [List.lookup_append, hf]
      rfl
  | run files =>
    rw [Machine.perform, (h.inStep.runAmid files).natives]
    exact hf
  | reset => exact hf

/-- **No operation moves a script backwards**, and only a reset forgets one. -/
theorem InOrder.preceding_perform (h : m.InOrder) (hop : op ≠ .reset) :
    Preceding m.scripts (m.perform op).scripts := by
  cases op with
  | addScript path name content =>
    rw [Machine.perform]
    split
    · exact Preceding.refl _
    · split
      · exact Preceding.refl _
      · rename_i m₁ hadd
        obtain ⟨-, rfl⟩ := addScript_ok hadd
        exact preceding_append _ _
  | load fs path name base =>
    rw [Machine.perform]
    split
    · exact Preceding.refl _
    · rename_i m₁ s hload
      obtain ⟨-, rfl⟩ := addScript_ok (load_ok hload).2
      exact preceding_append _ _
  | addNative name native =>
    rw [Machine.perform]
    split
    · exact Preceding.refl _
    · rename_i m₁ hadd
      obtain ⟨g, -, rfl⟩ := addNative_ok hadd
      exact Preceding.refl _
  | run files => exact (h.inStep.runAmid files).preceding
  | reset => exact absurd rfl hop

/-- What a whole history keeps. -/
theorem InOrder.performAll (h : m.InOrder) (ops : List Operation) :
    (m.performAll ops).InOrder ∧
      (∀ name f, m.code.natives.lookup name = some f →
        (m.performAll ops).code.natives.lookup name = some f) ∧
      (Operation.reset ∉ ops → Preceding m.scripts (m.performAll ops).scripts) := by
  induction ops generalizing m with
  | nil => exact ⟨h, fun _ _ hf => hf, fun _ => Preceding.refl _⟩
  | cons op ops ih =>
    obtain ⟨horder, hnatives, hscripts⟩ := ih (h.perform op)
    refine ⟨horder, fun name f hf => hnatives name f (h.lookup_perform op hf), fun hno => ?_⟩
    obtain ⟨hop, hno⟩ := not_or.mp (mt List.mem_cons.mpr hno)
    exact (h.preceding_perform (Ne.symm hop)).trans (hscripts hno)

/-- **Scripts and trees stay in step through every history.** After any operations,
succeeding or failing, script names are distinct, each tree is that of the script
at its position, the scripts with a tree are those that have been parsed, and no
call is under way; and whatever is done later, native functions stay the same, and
until a reset every script stays where it is and does not move backwards. -/
theorem inStep_throughout (options : Options) (before later : List Operation) :
    let m := (new options).performAll before
    let m' := m.performAll later
    (m.scripts.map (·.name)).Nodup ∧
      (∀ i < m.code.program.length,
        ∃ s, m.scripts[i]? = some s ∧ m.treeName? i = some s.name) ∧
      (∀ (i : Nat) (s : Script), m.scripts[i]? = some s →
        (ScriptState.parsed.rank ≤ s.state.rank ↔ i < m.code.program.length)) ∧
      m.store.frames = [] ∧
      (∀ name native, m.code.natives.lookup name = some native →
        m'.code.natives.lookup name = some native) ∧
      (Operation.reset ∉ later → ∀ (i : Nat) (s : Script), m.scripts[i]? = some s →
        ∃ s' : Script, m'.scripts[i]? = some s' ∧ s'.name = s.name ∧ s'.path = s.path ∧
          s.state.rank ≤ s'.state.rank) := by
  intro m m'
  have horder : m.InOrder := ((inOrder_new options).performAll before).1
  obtain ⟨-, hnatives, hscripts⟩ := horder.performAll later
  refine ⟨horder.inStep.distinct, horder.inStep.named, horder.inStep.parsed, horder.idle,
    hnatives, ?_⟩
  intro hno i s hs
  obtain ⟨s', hs', hp⟩ := hscripts hno i s hs
  exact ⟨s', hs', hp.name, hp.path, hp.rank⟩

/-- Two scripts are registered, and a run parses the first and fails at the
second. -/
def abortedHistory : List Operation :=
  [.addScript "virtual://a" none (some "x;"), .addScript "virtual://b" none (some "\x7d"),
    .run fun _ => {}]

/-- After such a run the first script has a tree, and the second has none; a
native function is refused then, and another run fails again. -/
theorem inStep_throughout_aborted :
    let later : List Operation := [.addNative "print" (some Native.echo), .run fun _ => {}]
    let m := (new {}).performAll abortedHistory
    m.scripts.map (·.state) = [.parsed, .loaded] ∧ m.code.program.length = 1 ∧
      Operation.reset ∉ later ∧
      ∃ s', (m.performAll later).scripts[0]? = some s' ∧ s'.name = "a" ∧
        ScriptState.parsed.rank ≤ s'.state.rank := by
  intro later m
  have hno : Operation.reset ∉ later := by simp [later]
  obtain ⟨-, -, -, -, -, hscripts⟩ := inStep_throughout {} abortedHistory later
  obtain ⟨s', hs', hname, -, hrank⟩ := hscripts hno 0 _ rfl
  exact ⟨rfl, rfl, hno, s', hs', hname, hrank⟩

end Machine

end ScopeScript
