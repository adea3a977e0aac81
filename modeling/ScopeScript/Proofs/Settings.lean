import Mathlib.Data.List.Forall2
import ScopeScript.Settings

/-!
# Which mappings make settings

Settings from a mapping are made in three passes: the keys are matched with fields, the values
are put into these one after the other, and then the fields are checked, one function for the
flags and another one for the depth of calls. This file says what comes out, from the entries
of the mapping alone.

Several keys can name one field, since hyphens count as underscores and any key is written out
first. What counts is **the last value under the name of a field**
(`ScopeScript.Settings.lastUnder`), and a field without an entry keeps its default. Settings are
made if every key names a field and every last value suits the field
(`ScopeScript.Settings.Suits`); otherwise there is an error about the first key that names no
field, about a flag that is no truth value, or about the depth
(`ScopeScript.Settings.Rejects`), and never one of another sort.

**There is one exception**: the truth value *true* passes for a depth of calls, as if it were
the integer one (`ScopeScript.Settings.ofMapping_outcome`).
-/

namespace ScopeScript.Settings

variable {entries : List (Datum × Datum)} {fields : List (Field × Datum)} {s : Settings}
variable {f g : Field} {d : Datum}

/-! ### What is asked of a mapping -/

/-- The key names some field. -/
def IsKnown (key : Datum) : Prop := ∃ f : Field, keyName key = f.name

/-- **The last value that stands under the name of a field**, if there is one. -/
def lastUnder (f : Field) (entries : List (Datum × Datum)) : Option Datum :=
  ((entries.filter fun e => keyName e.1 == f.name).map Prod.snd).getLast?

/-- **The datum is of the right sort for the field**: a truth value for a flag, and a positive
integer for the depth of calls. -/
inductive Suits : Field → Datum → Prop
  | debug (flag : Bool) : Suits .debug (.bool flag)
  | invokeFunctions (flag : Bool) : Suits .invokeFunctions (.bool flag)
  | maxCallDepth {depth : Int} (h : 1 ≤ depth) : Suits .maxCallDepth (.int depth)

/-- **The mapping is fit to make settings**: all keys name fields, and the last values suit
them. -/
def IsFit (entries : List (Datum × Datum)) : Prop :=
  (∀ e ∈ entries, IsKnown e.1) ∧ ∀ f d, lastUnder f entries = some d → Suits f d

/-- The datum is taken for the field: it suits it, or it is *true* in place of a depth. -/
def Passes (f : Field) (d : Datum) : Prop := Suits f d ∨ f = .maxCallDepth ∧ d = .bool true

/-- **Why a mapping makes no settings.** -/
inductive Rejects (entries : List (Datum × Datum)) : SettingsError → Prop
  /-- This is the first key that names no field. -/
  | unknownOption {before after : List (Datum × Datum)} {key d : Datum}
      (hentries : entries = before ++ (key, d) :: after) (hbefore : ∀ e ∈ before, IsKnown e.1)
      (hkey : ¬IsKnown key) : Rejects entries (.unknownOption key)
  /-- The last value for a flag is no truth value. -/
  | notBoolean {f : Field} {d : Datum} (hflag : f ≠ .maxCallDepth)
      (hlast : lastUnder f entries = some d) (hd : ¬Suits f d) :
      Rejects entries (.notBoolean f.name)
  /-- The last value for the depth of calls is no positive integer. -/
  | badDepth {d : Datum} (hlast : lastUnder .maxCallDepth entries = some d)
      (hd : ¬Suits .maxCallDepth d) : Rejects entries (.badDepth d)

/-! ### Fields -/

theorem Field.ofName?_eq_some_iff {name : String} : ofName? name = some f ↔ name = f.name := by
  constructor
  · intro h
    have hname := List.find?_some h
    exact (eq_of_beq hname).symm
  · rintro rfl
    cases f <;> rfl

theorem Field.name_injective (h : f.name = g.name) : f = g := by
  have hf := ofName?_eq_some_iff.mpr h
  rw [ofName?_eq_some_iff.mpr rfl] at hf
  exact Option.some.inj hf

theorem Field.ofName?_keyName_eq_none_iff {key : Datum} :
    ofName? (keyName key) = none ↔ ¬IsKnown key := by
  rw [Option.eq_none_iff_forall_ne_some, IsKnown, not_exists]
  exact forall_congr' fun f => not_congr ofName?_eq_some_iff

@[simp] theorem get_set (s : Settings) (f g : Field) (d : Datum) :
    (s.set f d).get g = if g = f then d else s.get g := by
  cases f <;> cases g <;> rfl

theorem get_ext {s t : Settings} (h : ∀ f, s.get f = t.get f) : s = t := by
  obtain ⟨a, b, c⟩ := s
  obtain ⟨a', b', c'⟩ := t
  obtain rfl : a = a' := h .debug
  obtain rfl : b = b' := h .invokeFunctions
  obtain rfl : c = c' := h .maxCallDepth
  rfl

/-- Of the values that are put into a field one after the other, the last one stays. -/
theorem get_foldl_set (fields : List (Field × Datum)) (s : Settings) (f : Field) :
    (fields.foldl (fun s (g, d) => s.set g d) s).get f
      = ((fields.filter fun p => p.1 = f).map Prod.snd).getLast?.getD (s.get f) := by
  induction fields generalizing s with
  | nil => rfl
  | cons p fields ih =>
    obtain ⟨g, d⟩ := p
    rw [List.foldl_cons, ih, get_set]
    by_cases hg : g = f
    · simp [hg, List.getLast?_cons]
    · simp [hg, Ne.symm hg]

/-- Every default suits its field. -/
theorem suits_default (f : Field) : Suits f (({} : Settings).get f) := by
  cases f with
  | debug => exact .debug false
  | invokeFunctions => exact .invokeFunctions false
  | maxCallDepth => exact .maxCallDepth (by decide)

theorem isBoolean_iff (hflag : f ≠ .maxCallDepth) : isBoolean d ↔ Suits f d := by
  constructor
  · intro h
    cases d with
    | bool b =>
      cases f with
      | debug => exact .debug b
      | invokeFunctions => exact .invokeFunctions b
      | maxCallDepth => exact absurd rfl hflag
    | _ => cases h
  · intro h
    cases h with
    | debug | invokeFunctions => rfl
    | maxCallDepth => exact absurd rfl hflag

theorem isDepth_iff : isDepth d ↔ Passes .maxCallDepth d := by
  constructor
  · intro h
    cases d with
    | int n => exact Or.inl (.maxCallDepth (of_decide_eq_true h))
    | bool b => exact Or.inr ⟨rfl, congrArg Datum.bool h⟩
    | _ => cases h
  · rintro (h | ⟨-, rfl⟩)
    · cases h with
      | maxCallDepth h => exact decide_eq_true h
    · rfl

/-! ### Keys -/

/-- The fields stand for the entries one by one. -/
def Match (entries : List (Datum × Datum)) (fields : List (Field × Datum)) : Prop :=
  List.Forall₂ (fun e p => keyName e.1 = p.1.name ∧ e.2 = p.2) entries fields

/-- **Keys are matched with fields up to the first one that names none.** -/
theorem fieldsOf_cases (entries : List (Datum × Datum)) :
    (∃ fields, fieldsOf entries = .ok fields ∧ Match entries fields) ∨
      ∃ before key d after, entries = before ++ (key, d) :: after ∧
        (∀ e ∈ before, IsKnown e.1) ∧ ¬IsKnown key ∧
          fieldsOf entries = .error (.unknownOption key) := by
  induction entries with
  | nil => exact Or.inl ⟨[], rfl, .nil⟩
  | cons e entries ih =>
    obtain ⟨key, d⟩ := e
    rw [fieldsOf]
    split
    · rename_i hname
      have hkey := Field.ofName?_keyName_eq_none_iff.mp hname
      exact Or.inr ⟨[], key, d, entries, rfl, nofun, hkey, rfl⟩
    · rename_i f hname
      have hkey := Field.ofName?_eq_some_iff.mp hname
      rcases ih with ⟨fields, hfields, hmatch⟩ | ⟨before, k, x, after, rfl, hbefore, hk, herror⟩
      · rw [hfields]
        exact Or.inl ⟨_, rfl, .cons ⟨hkey, rfl⟩ hmatch⟩
      · rw [herror]
        refine Or.inr ⟨(key, d) :: before, k, x, after, rfl, ?_, hk, rfl⟩
        exact List.forall_mem_cons.mpr ⟨⟨f, hkey⟩, hbefore⟩

theorem Match.isKnown (h : Match entries fields) : ∀ e ∈ entries, IsKnown e.1 := by
  induction h with
  | nil => exact nofun
  | cons hentry _ ih => exact List.forall_mem_cons.mpr ⟨⟨_, hentry.1⟩, ih⟩

/-- The values for one field are those under its name. -/
theorem Match.values_eq (h : Match entries fields) (f : Field) :
    (fields.filter fun p => p.1 = f).map Prod.snd
      = (entries.filter fun e => keyName e.1 == f.name).map Prod.snd := by
  induction h with
  | nil => rfl
  | @cons e p _ _ hentry _ ih =>
    obtain ⟨hkey, hvalue⟩ := hentry
    by_cases hf : p.1 = f
    · simp [hf, hkey, hvalue, ih]
    · have hname : p.1.name ≠ f.name := fun hname => hf (Field.name_injective hname)
      simp [hf, hkey, hname, ih]

/-! ### Mappings -/

/-- What the entries put into the fields, before these are checked. -/
def filled (entries : List (Datum × Datum)) : Settings where
  debug := (lastUnder .debug entries).getD (.bool false)
  invokeFunctions := (lastUnder .invokeFunctions entries).getD (.bool false)
  maxCallDepth := (lastUnder .maxCallDepth entries).getD (.int 256)

theorem get_filled (entries : List (Datum × Datum)) (f : Field) :
    (filled entries).get f = (lastUnder f entries).getD (({} : Settings).get f) := by
  cases f <;> rfl

/-- A field that is filled wrongly was filled by an entry. -/
theorem lastUnder_of_not_suits (h : ¬Suits f ((filled entries).get f)) :
    lastUnder f entries = some ((filled entries).get f) := by
  rw [get_filled] at h ⊢
  cases hlast : lastUnder f entries with
  | none =>
    rw [hlast] at h
    exact absurd (suits_default f) h
  | some d => rfl

/-- The checks, one after the other. -/
def checkFields (s : Settings) : Except SettingsError Settings := do
  let s ← s.checkFlag .debug
  let s ← s.checkFlag .invokeFunctions
  s.checked

theorem checkFlag_cases (s : Settings) (hflag : f ≠ .maxCallDepth) :
    (Suits f (s.get f) ∧ s.checkFlag f = .ok s) ∨
      (¬Suits f (s.get f) ∧ s.checkFlag f = .error (.notBoolean f.name)) := by
  rw [checkFlag]
  split
  · rename_i h
    exact Or.inl ⟨(isBoolean_iff hflag).mp h, rfl⟩
  · rename_i h
    exact Or.inr ⟨mt (isBoolean_iff hflag).mpr h, rfl⟩

/-- **The checks pass settings on, or stop at the first field that is wrong.** -/
theorem checkFields_cases (s : Settings) :
    ((∀ f, Passes f (s.get f)) ∧ s.checkFields = .ok s) ∨
      (∃ f, f ≠ .maxCallDepth ∧ ¬Suits f (s.get f) ∧
        s.checkFields = .error (.notBoolean f.name)) ∨
      (¬Passes .maxCallDepth s.maxCallDepth ∧
        s.checkFields = .error (.badDepth s.maxCallDepth)) := by
  rw [checkFields]
  rcases s.checkFlag_cases (f := .debug) nofun with ⟨hdebug, hok⟩ | ⟨hdebug, herror⟩
  · rcases s.checkFlag_cases (f := .invokeFunctions) nofun with ⟨hinvoke, hok'⟩ | ⟨hinvoke, herror⟩
    · simp only [hok, hok', bind, Except.bind, checked]
      split
      · rename_i hdepth
        refine Or.inl ⟨fun f => ?_, rfl⟩
        cases f with
        | debug => exact Or.inl hdebug
        | invokeFunctions => exact Or.inl hinvoke
        | maxCallDepth => exact isDepth_iff.mp hdepth
      · rename_i hdepth
        exact Or.inr (Or.inr ⟨mt isDepth_iff.mpr hdepth, rfl⟩)
    · simp only [hok, herror, bind, Except.bind]
      exact Or.inr (Or.inl ⟨.invokeFunctions, nofun, hinvoke, rfl⟩)
  · simp only [herror, bind, Except.bind]
    exact Or.inr (Or.inl ⟨.debug, nofun, hdebug, rfl⟩)

/-- **Fields are filled with what stands last under their names**, and then checked. -/
theorem ofMapping_of_match (hfields : fieldsOf entries = .ok fields) (h : Match entries fields) :
    ofMapping entries = (filled entries).checkFields := by
  have hfilled : fields.foldl (fun s (f, d) => s.set f d) {} = filled entries := by
    refine get_ext fun f => ?_
    rw [get_foldl_set, h.values_eq, get_filled, lastUnder]
  rw [ofMapping, hfields, ← hfilled]
  rfl

theorem ofMapping_of_error {e : SettingsError} (h : fieldsOf entries = .error e) :
    ofMapping entries = .error e := by
  rw [ofMapping, h]
  rfl

/-- The last values that pass are those that pass together with the defaults. -/
theorem passes_filled_iff :
    (∀ f, Passes f ((filled entries).get f)) ↔
      ∀ f d, lastUnder f entries = some d → Passes f d := by
  refine forall_congr' fun f => ?_
  rw [get_filled]
  cases lastUnder f entries with
  | none => exact iff_of_true (Or.inl (suits_default f)) nofun
  | some d => simp

/-- **What comes of a mapping.** Settings are made just if every key names a field and every
last value suits its field or is *true* in place of a depth; they hold the last values, and
defaults elsewhere. Otherwise there is an error that tells what is wrong with the mapping. -/
theorem ofMapping_outcome (entries : List (Datum × Datum)) :
    ((∃ s, ofMapping entries = .ok s) ↔
        (∀ e ∈ entries, IsKnown e.1) ∧ ∀ f d, lastUnder f entries = some d → Passes f d) ∧
      (∀ s, ofMapping entries = .ok s →
        ∀ f, s.get f = (lastUnder f entries).getD (({} : Settings).get f)) ∧
      ∀ e, ofMapping entries = .error e → Rejects entries e := by
  rcases fieldsOf_cases entries with
    ⟨fields, hfields, hmatch⟩ | ⟨before, key, d, after, hentries, hbefore, hkey, herror⟩
  · rw [ofMapping_of_match hfields hmatch, and_iff_right hmatch.isKnown, ← passes_filled_iff]
    rcases (filled entries).checkFields_cases with
      ⟨hpasses, hok⟩ | ⟨f, hflag, hsuits, herror⟩ | ⟨hdepth, herror⟩
    · rw [hok]
      refine ⟨iff_of_true ⟨_, rfl⟩ hpasses, fun s hs f => ?_, nofun⟩
      obtain rfl := Except.ok.inj hs
      exact get_filled entries f
    · rw [herror]
      refine ⟨iff_of_false nofun fun h => ?_, nofun, fun e he => ?_⟩
      · rcases h f with hf | ⟨hf, -⟩
        · exact hsuits hf
        · exact hflag hf
      · obtain rfl := Except.error.inj he
        exact .notBoolean hflag (lastUnder_of_not_suits hsuits) hsuits
    · rw [herror]
      refine ⟨iff_of_false nofun fun h => hdepth (h .maxCallDepth), nofun, fun e he => ?_⟩
      obtain rfl := Except.error.inj he
      have hsuits : ¬Suits .maxCallDepth (filled entries).maxCallDepth := mt Or.inl hdepth
      exact .badDepth (lastUnder_of_not_suits hsuits) hsuits
  · rw [ofMapping_of_error herror]
    refine ⟨iff_of_false nofun fun h => hkey (h.1 (key, d) ?_), nofun, fun e he => ?_⟩
    · simp [hentries]
    · obtain rfl := Except.error.inj he
      exact .unknownOption hentries hbefore hkey

/-- Two keys for the depth, of which the first has a bad value, and a mapping with two faults. -/
theorem ofMapping_outcome_hyphens :
    (let entries : List (Datum × Datum) :=
        [(.text "max-call-depth", .int 0), (.text "debug", .bool true),
          (.text "max_call_depth", .int 5)]
     ∃ s, ofMapping entries = .ok s ∧ s.get .debug = .bool true ∧
      s.get .invokeFunctions = .bool false ∧ s.get .maxCallDepth = .int 5) ∧
      (let entries : List (Datum × Datum) := [(.text "debug", .text "yes"), (.int 1, .null)]
       ofMapping entries = .error (.unknownOption (.int 1)) ∧
        Rejects entries (.unknownOption (.int 1))) := by
  refine ⟨?_, ?_⟩
  · intro entries
    obtain ⟨hmade, hholds, -⟩ := ofMapping_outcome entries
    have hkeys : ∀ e ∈ entries, IsKnown e.1 := by
      refine List.forall_mem_cons.mpr ⟨⟨.maxCallDepth, rfl⟩, ?_⟩
      refine List.forall_mem_cons.mpr ⟨⟨.debug, rfl⟩, ?_⟩
      exact List.forall_mem_singleton.mpr ⟨.maxCallDepth, rfl⟩
    have hlast : ∀ f d, lastUnder f entries = some d → Passes f d := by
      intro f d h
      cases f with
      | debug =>
        obtain rfl := Option.some.inj h
        exact Or.inl (.debug true)
      | invokeFunctions => cases h
      | maxCallDepth =>
        obtain rfl := Option.some.inj h
        exact Or.inl (.maxCallDepth (by decide))
    obtain ⟨s, hs⟩ := hmade.mpr ⟨hkeys, hlast⟩
    exact ⟨s, hs, hholds s hs .debug, hholds s hs .invokeFunctions, hholds s hs .maxCallDepth⟩
  · intro entries
    have herror : ofMapping entries = .error (.unknownOption (.int 1)) := rfl
    exact ⟨herror, (ofMapping_outcome entries).2.2 _ herror⟩

/-- **Not only mappings that are fit make settings**: *true* passes for a depth of calls. -/
theorem not_forall_isFit :
    ¬∀ entries : List (Datum × Datum), (∃ s, ofMapping entries = .ok s) ↔ IsFit entries := by
  intro h
  have hfit := (h [(.text "max_call_depth", .bool true)]).mp ⟨_, rfl⟩
  have hsuits := hfit.2 .maxCallDepth (.bool true) rfl
  cases hsuits

end ScopeScript.Settings
