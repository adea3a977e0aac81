import ScopeScript.CommandLine.Session
import ScopeScript.Proofs.Files.Absolute
import ScopeScript.Proofs.Machine.Trace
import ScopeScript.Proofs.Machine.UnnamedCalls

/-!
# How the program ends when it is given sources

Sources are registered one after the other, then read and parsed one after the other, and
then executed. Whatever goes wrong is meant to be reported on the error output, with the exit
code 1; but only script errors are caught, and a host error ends the program without a report.

**There are three ways to bring that about** (`ScopeScript.CommandLine.Stumbles`): a path that
cannot be resolved, because of a NUL, of its links, or of a working directory that is gone
(`ScopeScript.FileStore.Unresolved`); a path that leads to the root, after which no script can
be named; and a text that trips the scanner over a node without a name
(`ScopeScript.Scanner.Trips`). There are no others, as long as the output takes every text; what
becomes of one that refuses a text is not modelled. In every other case the exit code is 0 if
all sources are named, read, parsed and executed, and otherwise 1 with a report of the first
failure (`ScopeScript.CommandLine.runSources_exits`).

## What carries the proof

How the sources end is said without a machine for the first two phases: what a source is
registered as depends on its path alone (`ScopeScript.FileStore.scriptAt`), and what comes
of reading it on its text alone (`ScopeScript.CommandLine.Reads`). So a phase goes well up
to some source and fails there, or it goes well altogether
(`ScopeScript.CommandLine.holds_or_breaks`). For the last phase it is enough that no turn
of a run fails with a host error, as the native functions of a new machine do not
(`ScopeScript.Code.script_of_step`).
-/

namespace ScopeScript

/-! ### Failures of turns -/

namespace Code

variable {c : Code} {r : NodeRef} {s s' : Store} {task : Task} {rest : List Task} {e : Failure}

/-- The native functions of a new machine fail with script errors only. -/
theorem script_of_callNative (hnatives : c.natives = ({} : Code).natives)
    (h : c.callNative r s = (.error e, s')) : ∃ error, e = .script error := by
  rcases callNative_failure h with rfl | ⟨p, hp, args, console, hfails⟩
  · exact ⟨_, rfl⟩
  · rcases native_cases hnatives hp args console with ⟨reason, herror⟩ | hok
    · rcases hfails with hfails | ⟨d, cause, hd, -⟩
      · exact ⟨_, Except.error.inj (hfails.symm.trans herror)⟩
      · cases herror.symm.trans hd
    · rcases hfails with hfails | ⟨d, cause, hd, hcause, -⟩
      · cases hok.symm.trans hfails
      · obtain rfl := Except.ok.inj (hok.symm.trans hd)
        cases hcause

/-- **With the native functions of a new machine every failure of a turn is a script
error.** -/
theorem script_of_step (hnatives : c.natives = ({} : Code).natives)
    (h : c.step task rest s = (.error e, s')) : ∃ error, e = .script error := by
  obtain ⟨r, -, -, ⟨func, s₁, error, -, hscript⟩ | ⟨s₁, hnative⟩⟩ := failure_of_step h
  · exact ⟨error, hscript⟩
  · exact script_of_callNative hnatives hnative

end Code

/-- The path that a source leads to. One that leads nowhere counts as leading to the root. -/
def FileStore.pathAt (fs : FileStore) (source : String) : String :=
  match fs.absolute source with
  | .ok path => path
  | .error _ => "/"

/-- The script that a source is registered as. -/
@[irreducible] def FileStore.scriptAt (fs : FileStore) (source : String) : Script where
  path := fs.pathAt source
  name := Path.stem (fs.pathAt source)

theorem FileStore.pathAt_of_absolute {fs : FileStore} {source path : String}
    (h : fs.absolute source = .ok path) : fs.pathAt source = path := by
  rw [pathAt, h]

/-- A source leads to names on the way from the root, without a NUL. -/
theorem FileStore.isPlace_pathAt (fs : FileStore) (source : String) :
    ∃ ns, Path.IsPlace ns ∧ fs.pathAt source = Path.ofNames ns ∧
      hasNul (fs.pathAt source) = false := by
  cases habsolute : fs.absolute source with
  | ok path =>
    rw [pathAt_of_absolute habsolute]
    exact eq_ofNames_of_absolute habsolute
  | error e =>
    have hroot : fs.pathAt source = "/" := by rw [pathAt, habsolute]
    rw [hroot]
    exact ⟨[], ⟨nofun, nofun, nofun, nofun⟩, rfl, by decide⟩

theorem FileStore.path_scriptAt (fs : FileStore) (source : String) :
    (fs.scriptAt source).path = fs.pathAt source := by
  rw [scriptAt]

theorem FileStore.state_scriptAt (fs : FileStore) (source : String) :
    (fs.scriptAt source).state = .initial := by
  rw [scriptAt]

namespace CommandLine

open FileStore

variable {fs : FileStore} {options : Options} {source : String}
  {sources before after : List String} {out : Except Failure Unit} {e : Failure}

/-- **What holds of no elements holds of all elements of a list, or up to some element and
not with it.** -/
theorem holds_or_breaks {α : Type} {P : List α → Prop} (hnil : P []) (xs : List α) :
    P xs ∨ ∃ before x after, xs = before ++ x :: after ∧ P before ∧ ¬P (before ++ [x]) := by
  induction xs using List.reverseRecOn with
  | nil => exact Or.inl hnil
  | append_singleton xs x ih =>
    rcases ih with hxs | ⟨before, y, after, rfl, hbefore, hbreak⟩
    · by_cases hx : P (xs ++ [x])
      · exact Or.inl hx
      · exact Or.inr ⟨xs, x, [], rfl, hxs, hx⟩
    · exact Or.inr ⟨before, y, after ++ [x], by simp, hbefore, hbreak⟩

/-! ### Registration -/

/-- A script can be named after the source. -/
structure Named (fs : FileStore) (source : String) : Prop where
  /-- The path leads somewhere. -/
  resolved : fs.absolute source = .ok (fs.pathAt source)
  /-- It does not lead to the root. -/
  not_root : fs.pathAt source ≠ "/"

/-- **The sources can be registered.** -/
structure Registered (fs : FileStore) (sources : List String) : Prop where
  /-- Scripts can be named after them. -/
  named : ∀ source ∈ sources, Named fs source
  /-- No two of them have the same name. -/
  distinct : (sources.map fun source => (fs.scriptAt source).name).Nodup

/-- The machine with the scripts of the sources. -/
def machineFor (fs : FileStore) (options : Options) (sources : List String) : Machine :=
  { Machine.new options with scripts := sources.map fs.scriptAt }

/-- The script of a path, or why it has none. -/
def scriptOf (fs : FileStore) (source : String) : Except HostError Script :=
  (fs.absolute source).bind fun path => Script.make path none none

-- Whether a path has a script must not be looked into when the recursion is unfolded.
attribute [local irreducible] FileStore.absolute Script.make Machine.addScript in
theorem addSources_unfold (m : Machine) (source : String) (rest : List String) :
    addSources fs m (source :: rest)
      = match fs.absolute source with
        | .error e => .error (.host e)
        | .ok path =>
          match Script.make path none none with
          | .error e => .error (.host e)
          | .ok script => (m.addScript script).bind fun m => addSources fs m rest :=
  rfl

theorem addSources_cons (m : Machine) (source : String) (rest : List String) :
    addSources fs m (source :: rest)
      = match scriptOf fs source with
        | .error e => .error (.host e)
        | .ok script => (m.addScript script).bind fun m => addSources fs m rest := by
  rw [addSources_unfold, scriptOf]
  cases fs.absolute source with
  | error e => simp only [Except.bind]
  | ok path => simp only [Except.bind]

theorem scriptOf_of_unresolved {cause : HostError} (h : fs.absolute source = .error cause) :
    scriptOf fs source = .error cause := by
  rw [scriptOf, h]
  rfl

theorem scriptOf_of_root (h : fs.absolute source = .ok "/") :
    scriptOf fs source = .error (.noScriptName "/") := by
  rw [scriptOf, h]
  rfl

theorem scriptOf_of_named (h : Named fs source) :
    scriptOf fs source = .ok (fs.scriptAt source) := by
  obtain ⟨ns, hplace, hpath, -⟩ := fs.isPlace_pathAt source
  have hne : ns ≠ [] := by
    rintro rfl
    exact h.not_root hpath
  rw [scriptOf, h.resolved, Except.bind, Script.make, scriptAt, hpath,
    Locator.stem_ofNames hplace, if_neg hne]
  rfl

theorem addSources_append (m : Machine) (xs ys : List String) :
    addSources fs m (xs ++ ys) = (addSources fs m xs).bind fun m => addSources fs m ys := by
  induction xs generalizing m with
  | nil => rfl
  | cons x xs ih =>
    rw [List.cons_append, addSources_cons, addSources_cons]
    cases scriptOf fs x with
    | error e => rfl
    | ok script =>
      dsimp only
      cases m.addScript script with
      | error e => rfl
      | ok m => exact ih m

theorem registered_nil (fs : FileStore) : Registered fs [] where
  named := fun _ h => nomatch h
  distinct := List.nodup_nil

theorem registered_snoc : Registered fs (before ++ [source]) ↔
    Registered fs before ∧ Named fs source ∧
      (fs.scriptAt source).name ∉ before.map fun source => (fs.scriptAt source).name := by
  constructor
  · rintro ⟨hnamed, hdistinct⟩
    rw [List.map_append, List.map_singleton, List.nodup_append] at hdistinct
    refine ⟨⟨fun x hx => hnamed x (List.mem_append_left _ hx), hdistinct.1⟩,
      hnamed source (by simp), fun hmem => ?_⟩
    exact hdistinct.2.2 _ hmem _ List.mem_cons_self rfl
  · rintro ⟨⟨hnamed, hdistinct⟩, hsource, hnew⟩
    refine ⟨fun x hx => ?_, ?_⟩
    · rcases List.mem_append.mp hx with hx | hx
      · exact hnamed x hx
      · exact List.mem_singleton.mp hx ▸ hsource
    · rw [List.map_append, List.map_singleton, List.nodup_append]
      refine ⟨hdistinct, List.nodup_singleton _, fun a ha b hb hab => hnew ?_⟩
      rw [← List.mem_singleton.mp hb, ← hab]
      exact ha

/-- A machine with the scripts of the sources knows their names. -/
theorem script?_machineFor_iff (name : String) :
    ((machineFor fs options sources).script? name).isSome = true ↔
      name ∈ sources.map fun source => (fs.scriptAt source).name := by
  simp [Machine.script?, machineFor]

/-- **Sources that can be registered are.** -/
theorem Registered.addSources (h : Registered fs sources) (options : Options) :
    addSources fs (Machine.new options) sources = .ok (machineFor fs options sources) := by
  induction sources using List.reverseRecOn with
  | nil => rfl
  | append_singleton before source ih =>
    obtain ⟨hbefore, hnamed, hnew⟩ := registered_snoc.mp h
    have hadd : (machineFor fs options before).addScript (fs.scriptAt source)
        = .ok (machineFor fs options (before ++ [source])) := by
      rw [Machine.addScript, if_neg (mt (script?_machineFor_iff _).mp hnew)]
      simp [machineFor]
    rw [addSources_append, ih hbefore, Except.bind, addSources_cons, scriptOf_of_named hnamed]
    dsimp only
    rw [hadd]
    rfl

/-- Registration fails at the first source that cannot be registered. -/
theorem Registered.addSources_error (h : Registered fs before) {rest : List String}
    (herror : CommandLine.addSources fs (machineFor fs options before) rest = .error e) :
    CommandLine.addSources fs (Machine.new options) (before ++ rest) = .error e := by
  rw [addSources_append, h.addSources options]
  exact herror

/-! ### Reading and parsing -/

/-- **What comes of reading and parsing a source**, whatever stands before it. -/
inductive Reads (fs : FileStore) (source : String) : Except Failure Unit → Prop
  /-- Its text is parsed. -/
  | parsed {text : String} {x : Scanner} (htext : fs.Holds (fs.pathAt source) text)
      (hparse : ({} : Scanner).parse (fs.scriptAt source).name (some text) = .ok x) :
      Reads fs source (.ok ())
  /-- There is no text. -/
  | unread {error : ScriptError} (htext : ¬∃ text, fs.Holds (fs.pathAt source) text)
      (hload : (fs.scriptAt source).load fs none = .error (.script error)) :
      Reads fs source (.error (.script error))
  /-- Its text is not well formed. -/
  | malformed {text : String} {error : ScriptError} (htext : fs.Holds (fs.pathAt source) text)
      (hfail : (({} : Scanner).parse (fs.scriptAt source).name (some text)).failure?
        = some (.script error)) : Reads fs source (.error (.script error))
  /-- Its text trips the scanner over a node without a name. -/
  | tripped {text : String} (htext : fs.Holds (fs.pathAt source) text)
      (htrips : Scanner.Trips (fs.scriptAt source).name text) :
      Reads fs source (.error (.host Scanner.namelessError))

/-- The script of a source once its text has been read. -/
def loadedAt (fs : FileStore) (source text : String) : Script :=
  { fs.scriptAt source with content := some text, state := .loaded }

/-- Reading the source that a script stands for gives its text, or a script error. -/
theorem load_scriptAt_cases (fs : FileStore) (source : String) :
    (∃ error, (fs.scriptAt source).load fs none = .error (.script error) ∧
        ¬∃ text, fs.Holds (fs.pathAt source) text) ∨
      ∃ text, fs.Holds (fs.pathAt source) text ∧
        (fs.scriptAt source).load fs none = .ok (loadedAt fs source text) := by
  obtain ⟨ns, hplace, hpath, hnul⟩ := fs.isPlace_pathAt source
  rw [← path_scriptAt] at hpath hnul
  rcases @Script.load_cases fs _ ns hplace hpath hnul none with
    ⟨error, hload, hno⟩ | ⟨text, htext, hload⟩
  · rw [path_scriptAt] at hno
    exact Or.inl ⟨error, hload, hno⟩
  · rw [path_scriptAt] at htext
    refine Or.inr ⟨text, htext, ?_⟩
    rw [hload, Script.advance, state_scriptAt]
    rfl

theorem load_of_holds {text : String} (htext : fs.Holds (fs.pathAt source) text) :
    (fs.scriptAt source).load fs none = .ok (loadedAt fs source text) := by
  rcases load_scriptAt_cases fs source with ⟨-, -, hno⟩ | ⟨other, hother, hload⟩
  · exact absurd ⟨text, htext⟩ hno
  · obtain rfl : text = other := Except.ok.inj (htext.read.symm.trans hother.read)
    exact hload

/-- **Something comes of every source.** -/
theorem exists_reads (fs : FileStore) (source : String) : ∃ out, Reads fs source out := by
  rcases load_scriptAt_cases fs source with ⟨error, hload, hno⟩ | ⟨text, htext, -⟩
  · exact ⟨_, .unread hno hload⟩
  · obtain ⟨htrips, htame⟩ :=
      ({} : Scanner).failure_of_parse (fs.scriptAt source).name htext.ne_empty
    by_cases hyes : Scanner.Trips (fs.scriptAt source).name text
    · exact ⟨_, .tripped htext hyes⟩
    · cases hparse : ({} : Scanner).parse (fs.scriptAt source).name (some text) with
      | ok x => exact ⟨_, .parsed htext hparse⟩
      | failed x e =>
        have hscan := htame hyes e (by rw [hparse]; rfl)
        cases e with
        | script error => exact ⟨_, .malformed htext (by rw [hparse]; rfl)⟩
        | host error => exact hscan.elim

theorem parseStep_of_failure {s : Script} (hs : s.state = .loaded)
    (hfail : (({} : Scanner).parse s.name s.content).failure? = some e) (m : Machine) :
    ∃ m', m.parseStep s = (.error e, m') := by
  rw [← (m.scannerFor s).failure?_parse] at hfail
  cases hparse : (m.scannerFor s).parse s.name s.content with
  | ok x =>
    rw [hparse] at hfail
    cases hfail
  | failed x e' =>
    rw [hparse] at hfail
    obtain rfl := Option.some.inj hfail
    exact ⟨_, Machine.parseStep_failed hs hparse⟩

/-- The first phase ends at a source whose text cannot be parsed. -/
theorem prepareFrom_of_failure {text : String} (htext : fs.Holds (fs.pathAt source) text)
    (hfail : (({} : Scanner).parse (fs.scriptAt source).name (some text)).failure? = some e)
    (m : Machine) (done rest : List Script) :
    ∃ (s' : Script) (m₁ : Machine),
      m.prepareFrom (fun _ => fs) done (fs.scriptAt source :: rest)
        = (.error e, { m₁ with scripts := done ++ s' :: rest }) := by
  obtain ⟨m₁, hparse⟩ := parseStep_of_failure (s := loadedAt fs source text) rfl hfail
    (m.note ("Load Script: " ++ (fs.scriptAt source).name))
  rw [Machine.prepareFrom, Machine.loadStep, if_pos (fs.state_scriptAt source),
    load_of_holds htext]
  dsimp only
  rw [hparse]
  exact ⟨_, _, rfl⟩

/-- **The first phase goes on behind a source just if the source can be read and parsed.** -/
theorem Reads.prepareFrom_cons (h : Reads fs source out) (m : Machine)
    (done rest : List Script) :
    ∃ (s' : Script) (m₁ : Machine),
      m.prepareFrom (fun _ => fs) done (fs.scriptAt source :: rest)
        = match out with
          | .error e => (.error e, { m₁ with scripts := done ++ s' :: rest })
          | .ok () => m₁.prepareFrom (fun _ => fs) (done ++ [s']) rest := by
  cases h with
  | malformed htext hfail => exact prepareFrom_of_failure htext hfail m done rest
  | tripped htext htrips =>
    have hfail := (({} : Scanner).failure_of_parse _ htext.ne_empty).1 htrips
    exact prepareFrom_of_failure htext hfail m done rest
  | unread htext hload =>
    rw [Machine.prepareFrom, Machine.loadStep, if_pos (fs.state_scriptAt source), hload]
    exact ⟨_, _, rfl⟩
  | @parsed text x htext hparse =>
    have htree : (loadedAt fs source text).HasTree x.tree := Script.hasTree_of_parse hparse
    obtain ⟨y, hy, -⟩ := htree (Machine.scannerFor
      (m.note ("Load Script: " ++ (fs.scriptAt source).name)) (loadedAt fs source text))
    rw [Machine.prepareFrom, Machine.loadStep, if_pos (fs.state_scriptAt source),
      load_of_holds htext]
    dsimp only
    rw [Machine.parseStep_ok rfl hy]
    exact ⟨_, _, rfl⟩

/-- The first phase comes to what stands behind sources that can be read and parsed. -/
theorem prepareFrom_append (hbefore : ∀ source ∈ before, Reads fs source (.ok ())) (m : Machine)
    (done rest : List Script) :
    ∃ (m₁ : Machine) (done' : List Script),
      m.prepareFrom (fun _ => fs) done (before.map fs.scriptAt ++ rest)
        = m₁.prepareFrom (fun _ => fs) done' rest := by
  induction before generalizing m done with
  | nil => exact ⟨m, done, rfl⟩
  | cons source before ih =>
    obtain ⟨s', m₁, heq⟩ := (hbefore source List.mem_cons_self).prepareFrom_cons m done
      (before.map fs.scriptAt ++ rest)
    obtain ⟨m₂, done', hrest⟩ :=
      ih (fun x hx => hbefore x (List.mem_cons_of_mem source hx)) m₁ (done ++ [s'])
    exact ⟨m₂, done', heq.trans hrest⟩

/-- The first phase goes well if all sources can be read and parsed. -/
theorem prepare_ok (hreads : ∀ source ∈ sources, Reads fs source (.ok ())) (options : Options) :
    ∃ m₁, (machineFor fs options sources).prepare (fun _ => fs) = (.ok (), m₁) := by
  obtain ⟨m₁, done, heq⟩ := prepareFrom_append hreads (machineFor fs options sources) [] []
  rw [List.append_nil] at heq
  exact ⟨_, heq⟩

/-- The first phase fails at the first source that cannot be read or parsed. -/
theorem prepare_error (hbefore : ∀ source ∈ before, Reads fs source (.ok ()))
    (h : Reads fs source (.error e)) (options : Options) (after : List String) :
    ∃ m₁, (machineFor fs options (before ++ source :: after)).prepare (fun _ => fs)
      = (.error e, m₁) := by
  obtain ⟨m₁, done, heq⟩ := prepareFrom_append hbefore
    (machineFor fs options (before ++ source :: after)) []
    (fs.scriptAt source :: after.map fs.scriptAt)
  obtain ⟨s', m₂, hstuck⟩ := h.prepareFrom_cons m₁ done (after.map fs.scriptAt)
  refine ⟨_, Eq.trans ?_ (heq.trans hstuck)⟩
  rw [← List.map_cons, ← List.map_append]
  rfl

/-! ### How the sources end -/

/-- **The sources can be registered, read and parsed, and no turn fails.** -/
structure Completes (fs : FileStore) (options : Options) (sources : List String) : Prop where
  /-- They can be registered. -/
  registered : Registered fs sources
  /-- They can be read and parsed. -/
  parsed : ∀ source ∈ sources, Reads fs source (.ok ())
  /-- No turn of the run fails. -/
  executed : ∀ {task : Task} {rest : List Task} {s : Store} (e : Failure) (s' : Store),
    (machineFor fs options sources).AtTurn (fun _ => fs) (task :: rest) s →
      ((machineFor fs options sources).prepare fun _ => fs).2.code.step task rest s
        ≠ (.error e, s')

/-- **The sources fail with a script error.** -/
inductive Fails (fs : FileStore) (options : Options) (sources : List String) :
    ScriptError → Prop
  /-- A source has the name of one before it. -/
  | sameName {before after : List String} {source : String}
      (hsources : sources = before ++ source :: after) (hbefore : Registered fs before)
      (hnamed : Named fs source)
      (hname : (fs.scriptAt source).name ∈ before.map fun source => (fs.scriptAt source).name) :
      Fails fs options sources { fault := .scriptExists (fs.scriptAt source).name }
  /-- All sources can be registered, and one of them cannot be read or parsed. -/
  | unparsed {before after : List String} {source : String} {error : ScriptError}
      (hsources : sources = before ++ source :: after) (hall : Registered fs sources)
      (hbefore : ∀ source ∈ before, Reads fs source (.ok ()))
      (hreads : Reads fs source (.error (.script error))) : Fails fs options sources error
  /-- All sources can be read and parsed, and a turn of the run fails. -/
  | broken {task : Task} {rest : List Task} {s s' : Store} {error : ScriptError}
      (hall : Registered fs sources) (hparsed : ∀ source ∈ sources, Reads fs source (.ok ()))
      (hturn : (machineFor fs options sources).AtTurn (fun _ => fs) (task :: rest) s)
      (hstep : ((machineFor fs options sources).prepare fun _ => fs).2.code.step task rest s
        = (.error (.script error), s')) : Fails fs options sources error

/-- **The sources bring about a host error.** -/
inductive Stumbles (fs : FileStore) (sources : List String) : HostError → Prop
  /-- The path of a source cannot be resolved. -/
  | unresolved {before after : List String} {source : String} {cause : HostError}
      (hsources : sources = before ++ source :: after) (hbefore : Registered fs before)
      (hcause : fs.absolute source = .error cause) : Stumbles fs sources cause
  /-- The path of a source leads to the root. -/
  | root {before after : List String} {source : String}
      (hsources : sources = before ++ source :: after) (hbefore : Registered fs before)
      (hroot : fs.absolute source = .ok "/") : Stumbles fs sources (.noScriptName "/")
  /-- The text of a source trips the scanner. -/
  | tripped {before after : List String} {source text : String}
      (hsources : sources = before ++ source :: after) (hall : Registered fs sources)
      (hbefore : ∀ source ∈ before, Reads fs source (.ok ()))
      (htext : fs.Holds (fs.pathAt source) text)
      (htrips : Scanner.Trips (fs.scriptAt source).name text) :
      Stumbles fs sources Scanner.namelessError

/-- How the sources end. -/
def Ends (fs : FileStore) (options : Options) (sources : List String) :
    Except Failure Unit → Prop
  | .ok () => Completes fs options sources
  | .error (.script e) => Fails fs options sources e
  | .error (.host e) => Stumbles fs sources e

/-- What comes of the sources, apart from what is written. -/
def result (fs : FileStore) (options : Options) (sources : List String) : Except Failure Unit :=
  (addSources fs (Machine.new options) sources).bind fun m => (m.run fs).1

/-! ### Registration comes to an end -/

theorem Registered.result (h : Registered fs sources) (options : Options) :
    result fs options sources = ((machineFor fs options sources).runAmid fun _ => fs).1 := by
  rw [CommandLine.result, h.addSources options]
  rfl

theorem result_of_addSources_error
    (h : addSources fs (Machine.new options) sources = .error e) :
    result fs options sources = .error e := by
  rw [result, h]
  rfl

theorem addSources_of_unresolved (hbefore : Registered fs before) {cause : HostError}
    (hcause : fs.absolute source = .error cause) (after : List String) :
    addSources fs (Machine.new options) (before ++ source :: after) = .error (.host cause) := by
  refine hbefore.addSources_error ?_
  rw [addSources_cons, scriptOf_of_unresolved hcause]

theorem addSources_of_root (hbefore : Registered fs before) (hroot : fs.absolute source = .ok "/")
    (after : List String) :
    addSources fs (Machine.new options) (before ++ source :: after)
      = .error (.host (.noScriptName "/")) := by
  refine hbefore.addSources_error ?_
  rw [addSources_cons, scriptOf_of_root hroot]

theorem addSources_of_sameName (hbefore : Registered fs before) (hnamed : Named fs source)
    (hname : (fs.scriptAt source).name ∈ before.map fun source => (fs.scriptAt source).name)
    (after : List String) :
    addSources fs (Machine.new options) (before ++ source :: after)
      = .error (.script { fault := .scriptExists (fs.scriptAt source).name }) := by
  refine hbefore.addSources_error ?_
  rw [addSources_cons, scriptOf_of_named hnamed]
  dsimp only
  rw [Machine.addScript, if_pos ((script?_machineFor_iff _).mpr hname)]
  rfl

/-- **Sources can be registered, or registering them tells how they end.** -/
theorem registered_or_ends (fs : FileStore) (options : Options) (sources : List String) :
    Registered fs sources ∨ ∃ e, addSources fs (Machine.new options) sources = .error e ∧
      Ends fs options sources (.error e) := by
  refine (holds_or_breaks (registered_nil fs) sources).imp id ?_
  rintro ⟨before, source, after, hsources, hbefore, hbreak⟩
  cases habsolute : fs.absolute source with
  | error cause =>
    exact ⟨.host cause, hsources ▸ addSources_of_unresolved hbefore habsolute after,
      Stumbles.unresolved hsources hbefore habsolute⟩
  | ok path =>
    have hpath : fs.pathAt source = path := pathAt_of_absolute habsolute
    by_cases hroot : path = "/"
    · subst hroot
      exact ⟨.host _, hsources ▸ addSources_of_root hbefore habsolute after,
        Stumbles.root hsources hbefore habsolute⟩
    · have hnamed : Named fs source := ⟨hpath ▸ habsolute, hpath ▸ hroot⟩
      have hname : (fs.scriptAt source).name
          ∈ before.map fun source => (fs.scriptAt source).name :=
        Classical.not_not.mp fun hnew => hbreak (registered_snoc.mpr ⟨hbefore, hnamed, hnew⟩)
      exact ⟨.script _, hsources ▸ addSources_of_sameName hbefore hnamed hname after,
        Fails.sameName hsources hbefore hnamed hname⟩

/-! ### A run comes to an end -/

theorem Registered.inStep (h : Registered fs sources) (options : Options) :
    (machineFor fs options sources).InStep (machineFor fs options sources).scripts where
  distinct := by
    rw [machineFor, List.map_map]
    exact h.distinct
  named := fun i hi => absurd hi (Nat.not_lt_zero i)
  parsed := by
    intro i s hs
    obtain ⟨source, -, rfl⟩ := List.mem_map.mp (List.mem_of_getElem? hs)
    refine iff_of_false ?_ (Nat.not_lt_zero i)
    rw [Script.IsParsed, state_scriptAt]
    decide

/-- **The last phase fails with script errors only.** -/
theorem Registered.script_of_step (h : Registered fs sources) {task : Task} {rest : List Task}
    {s s' : Store}
    (hstep : ((machineFor fs options sources).prepare fun _ => fs).2.code.step task rest s
      = (.error e, s')) : ∃ error, e = .script error := by
  have htrees : (machineFor fs options sources).HasTrees (machineFor fs options sources).scripts :=
    fun i t hi => nomatch hi
  obtain ⟨hkeeps, -⟩ := Machine.prepare_ends (h.inStep options) htrees fun _ => fs
  exact Code.script_of_step hkeeps.natives hstep

/-- The run of sources that can be read and parsed fails just if one of its turns does. -/
theorem run_error_iff (hparsed : ∀ source ∈ sources, Reads fs source (.ok ())) :
    ((machineFor fs options sources).runAmid fun _ => fs).1 = .error e ↔
      ∃ task rest s s', (machineFor fs options sources).AtTurn (fun _ => fs) (task :: rest) s ∧
        ((machineFor fs options sources).prepare fun _ => fs).2.code.step task rest s
          = (.error e, s') := by
  obtain ⟨m₁, hprepare⟩ := prepare_ok hparsed options
  rw [Machine.runAmid_error_iff hprepare, hprepare]

theorem run_of_reads_error (hbefore : ∀ source ∈ before, Reads fs source (.ok ()))
    (h : Reads fs source (.error e)) (options : Options) (after : List String) :
    ((machineFor fs options (before ++ source :: after)).runAmid fun _ => fs).1 = .error e := by
  obtain ⟨m₁, hprepare⟩ := prepare_error hbefore h options after
  rw [Machine.runAmid, hprepare]

/-- **How sources end is what comes of them.** -/
theorem Ends.result (h : Ends fs options sources out) : result fs options sources = out := by
  rcases out with (error | error) | _
  · cases h with
    | sameName hsources hbefore hnamed hname =>
      subst hsources
      exact result_of_addSources_error (addSources_of_sameName hbefore hnamed hname _)
    | unparsed hsources hall hbefore hreads =>
      subst hsources
      rw [hall.result options, run_of_reads_error hbefore hreads]
    | broken hall hparsed hturn hstep =>
      rw [hall.result options]
      exact (run_error_iff hparsed).mpr ⟨_, _, _, _, hturn, hstep⟩
  · cases h with
    | unresolved hsources hbefore hcause =>
      subst hsources
      exact result_of_addSources_error (addSources_of_unresolved hbefore hcause _)
    | root hsources hbefore hroot =>
      subst hsources
      exact result_of_addSources_error (addSources_of_root hbefore hroot _)
    | tripped hsources hall hbefore htext htrips =>
      subst hsources
      rw [hall.result options, run_of_reads_error hbefore (.tripped htext htrips)]
  · obtain ⟨hall, hparsed, hexecuted⟩ := h
    rw [hall.result options]
    cases hrun : ((machineFor fs options sources).runAmid fun _ => fs).1 with
    | ok => rfl
    | error e =>
      obtain ⟨task, rest, s, s', hturn, hstep⟩ := (run_error_iff hparsed).mp hrun
      exact absurd hstep (hexecuted e s' hturn)

/-- **Sources end in some way.** -/
theorem exists_ends (fs : FileStore) (options : Options) (sources : List String) :
    ∃ out, Ends fs options sources out := by
  rcases registered_or_ends fs options sources with hall | ⟨e, -, hends⟩
  · rcases holds_or_breaks (P := fun xs => ∀ x ∈ xs, Reads fs x (.ok ())) (fun _ h => nomatch h)
        sources with hparsed | ⟨before, source, after, hsources, hbefore, hbreak⟩
    · cases hrun : ((machineFor fs options sources).runAmid fun _ => fs).1 with
      | ok =>
        refine ⟨.ok (), hall, hparsed, fun e s' hturn hstep => ?_⟩
        have herror := (run_error_iff hparsed).mpr ⟨_, _, _, _, hturn, hstep⟩
        rw [hrun] at herror
        cases herror
      | error e =>
        obtain ⟨task, rest, s, s', hturn, hstep⟩ := (run_error_iff hparsed).mp hrun
        obtain ⟨error, rfl⟩ := hall.script_of_step hstep
        exact ⟨.error (.script error), .broken hall hparsed hturn hstep⟩
    · obtain ⟨out, hreads⟩ := exists_reads fs source
      cases hreads with
      | parsed htext hparse =>
        refine absurd (fun x hx => ?_) hbreak
        rcases List.mem_append.mp hx with hx | hx
        · exact hbefore x hx
        · exact List.mem_singleton.mp hx ▸ .parsed htext hparse
      | unread htext hload =>
        exact ⟨.error (.script _), .unparsed hsources hall hbefore (.unread htext hload)⟩
      | malformed htext hfail =>
        exact ⟨.error (.script _), .unparsed hsources hall hbefore (.malformed htext hfail)⟩
      | tripped htext htrips =>
        exact ⟨.error (.host _), .tripped hsources hall hbefore htext htrips⟩
  · exact ⟨_, hends⟩

theorem ends_iff : Ends fs options sources out ↔ result fs options sources = out := by
  refine ⟨Ends.result, fun h => ?_⟩
  obtain ⟨out', hends⟩ := exists_ends fs options sources
  rwa [← h, hends.result]

/-! ### What the program makes of it -/

/-- How the program ends with what comes of the sources. -/
def ending (session : Session) : Except Failure Unit → Outcome
  | .ok () => .exited 0 session
  | .error (.script e) => .exited 1 (session.warn ("Error: " ++ e.format))
  | .error (.host e) => .crashed (.host e) session

/-- No trace is written unless it is asked for. -/
theorem trace_run (fs : FileStore) (options : Options) (sources : List String)
    (hdebug : options.debug = false) :
    ((machineFor fs options sources).run fs).2.store.trace = #[] := by
  have hsame : (machineFor fs options sources).untraced = machineFor fs options sources := by
    have hoptions : { options with debug := false } = options := by rw [← hdebug]
    rw [Machine.untraced, Code.untraced]
    simp only [machineFor, Machine.new, hoptions]
    rfl
  have hrun := ((machineFor fs options sources).runAmid_untraced fun _ => fs).1
  rw [hsame] at hrun
  rw [Machine.run, congrArg Prod.snd hrun]
  rfl

theorem err_foldl_writeLine (scripts : List Script) (session : Session) :
    (scripts.foldl (fun s script => s.writeLine (" - " ++ script.text)) session).err
      = session.err := by
  induction scripts generalizing session with
  | nil => rfl
  | cons script scripts ih => exact ih _

/-- **The program ends with what comes of the sources**, and before that only the trace is
written to the error output. -/
theorem runSources_eq_ending (fs : FileStore) (options : Options) (session : Session)
    (sources : List String) :
    ∃ shown trace, (options.debug = false → trace = "") ∧
      runSources fs options session sources
        = ending { out := shown, err := session.err ++ trace } (result fs options sources) := by
  rcases registered_or_ends fs options sources with hall | ⟨e, hadd, -⟩
  · have herr := err_foldl_writeLine (machineFor fs options sources).scripts session
    have htrace := trace_run fs options sources
    rw [runSources, hall.addSources options, hall.result options]
    dsimp only [Machine.run] at htrace ⊢
    set listed := (machineFor fs options sources).scripts.foldl _ session
    rcases hrun : (machineFor fs options sources).runAmid fun _ => fs with ⟨out, m⟩
    rw [hrun] at htrace
    refine ⟨listed.out ++ m.store.console.output,
      String.join (m.store.trace.toList.map (· ++ "\n")), fun hdebug => ?_, ?_⟩
    · rw [htrace hdebug]
      rfl
    · rw [← herr]
      rcases out with (error | error) | _
      · rfl
      · rfl
      · rfl
  · refine ⟨session.out, "", fun _ => rfl, ?_⟩
    rw [result_of_addSources_error hadd, runSources, hadd, String.append_empty]
    cases e with
    | script error => rfl
    | host error => rfl

/-- **The program reports what goes wrong with its sources, unless they bring about a host
error.** It crashes just if they do. Otherwise the exit code is 0 if all sources can be
registered, read and parsed and no turn of the run fails; and if not, it is 1, and a report
that begins with `Error: ` and says what has failed is the last thing written to the error
output, behind the trace if there is one. The report is one line as long as there is no
newline in the names that it gives: quoted in a script, the name of a call may have some. -/
theorem runSources_exits (fs : FileStore) (options : Options) (session : Session)
    (sources : List String) :
    (∀ cause, (∃ s', runSources fs options session sources = .crashed cause s') ↔
        ∃ e, cause = .host e ∧ Stumbles fs sources e) ∧
      ((¬∃ e, Stumbles fs sources e) →
        ∃ shown trace, (options.debug = false → trace = "") ∧
          (Completes fs options sources ∧
              runSources fs options session sources
                = .exited 0 { out := shown, err := session.err ++ trace } ∨
            ¬Completes fs options sources ∧ ∃ e, Fails fs options sources e ∧
              runSources fs options session sources
                = .exited 1
                    { out := shown
                      err := session.err ++ trace ++ ("Error: " ++ e.format) ++ "\n" })) := by
  obtain ⟨shown, trace, htrace, hrun⟩ := runSources_eq_ending fs options session sources
  have hcompletes : Completes fs options sources ↔ result fs options sources = .ok () :=
    @ends_iff fs options sources (.ok ())
  have hstumbles : ∀ e, Stumbles fs sources e ↔ result fs options sources = .error (.host e) :=
    fun e => @ends_iff fs options sources (.error (.host e))
  have hends : Ends fs options sources (result fs options sources) := ends_iff.mpr rfl
  rw [hrun, hcompletes]
  simp only [hstumbles]
  rcases hresult : result fs options sources with (error | error) | _
  · rw [hresult] at hends
    refine ⟨fun cause => iff_of_false ?_ ?_, fun _ => ?_⟩
    · rintro ⟨s', hcrash⟩
      cases hcrash
    · rintro ⟨e, -, herror⟩
      cases herror
    · exact ⟨shown, trace, htrace, Or.inr ⟨nofun, error, hends, rfl⟩⟩
  · refine ⟨fun cause => ⟨?_, ?_⟩, fun hno => absurd ⟨error, rfl⟩ hno⟩
    · rintro ⟨s', hcrash⟩
      cases hcrash
      exact ⟨error, rfl, rfl⟩
    · rintro ⟨e, rfl, herror⟩
      cases herror
      exact ⟨_, rfl⟩
  · refine ⟨fun cause => iff_of_false ?_ ?_, fun _ => ?_⟩
    · rintro ⟨s', hcrash⟩
      cases hcrash
    · rintro ⟨e, -, herror⟩
      cases herror
    · exact ⟨shown, trace, htrace, Or.inl ⟨rfl, rfl⟩⟩

theorem absolute_a : ({} : FileStore).absolute "a" = .ok "/a" := by decide +kernel

theorem named_a : Named {} "a" := by
  have hpath : ({} : FileStore).pathAt "a" = "/a" := pathAt_of_absolute absolute_a
  exact ⟨hpath ▸ absolute_a, by rw [hpath]; decide⟩

theorem registered_a : Registered {} ["a"] where
  named := by
    intro source hsource
    obtain rfl := List.mem_singleton.mp hsource
    exact named_a
  distinct := List.nodup_singleton _

/-- The root cannot be run, and that is not reported. Neither is a link that leads to itself. A
path that leads to the same place as another is. -/
theorem runSources_exits_twice :
    (∃ s', runSources {} {} {} ["a", "b/.."] = .crashed (.host (.noScriptName "/")) s') ∧
      (let fs : FileStore := { entries := [(["l"], .link "l")] }
       ∃ s', runSources fs {} {} ["l"] = .crashed (.host (.linkLoop "/l")) s') ∧
      ∃ s' e, runSources {} {} {} ["a", "b/../a"] = .exited 1 s' ∧
        s'.err = "Error: " ++ e ++ "\n" := by
  have hsplit : ∀ source : String, ["a", source] = ["a"] ++ source :: [] := fun _ => rfl
  refine ⟨?_, ?_, ?_⟩
  · obtain ⟨hcrash, -⟩ := runSources_exits {} {} {} ["a", "b/.."]
    have hroot : ({} : FileStore).absolute "b/.." = .ok "/" := by decide +kernel
    exact (hcrash _).mpr ⟨_, rfl, .root (hsplit _) registered_a hroot⟩
  · intro fs
    obtain ⟨hcrash, -⟩ := runSources_exits fs {} {} ["l"]
    have hsources : ["l"] = [] ++ "l" :: [] := rfl
    have hloop : fs.absolute "l" = .error (.linkLoop "/l") := by decide +kernel
    exact (hcrash _).mpr ⟨_, rfl, .unresolved hsources (registered_nil fs) hloop⟩
  · have hsame : ({} : FileStore).absolute "b/../a" = .ok "/a" := by decide +kernel
    have hpath : ({} : FileStore).pathAt "b/../a" = ({} : FileStore).pathAt "a" := by
      rw [pathAt_of_absolute hsame, pathAt_of_absolute absolute_a]
    have hname : (({} : FileStore).scriptAt "b/../a").name
        ∈ ["a"].map fun source => (({} : FileStore).scriptAt source).name := by
      simp [scriptAt, hpath]
    have hnamed : Named {} "b/../a" := by
      refine ⟨?_, hpath ▸ named_a.not_root⟩
      rw [hpath, pathAt_of_absolute absolute_a, hsame]
    have hends : Ends {} {} ["a", "b/../a"] (.error (.script _)) :=
      Fails.sameName (hsplit _) registered_a hnamed hname
    have hresult := hends.result
    obtain ⟨-, hexits⟩ := runSources_exits {} {} {} ["a", "b/../a"]
    obtain ⟨shown, trace, htrace, ⟨hcompletes, -⟩ | ⟨-, e, -, hrun⟩⟩ := hexits (by
      rintro ⟨e, hstumbles⟩
      have hstumbles : Ends {} {} ["a", "b/../a"] (.error (.host e)) := hstumbles
      cases hresult.symm.trans hstumbles.result)
    · have hcompletes : Ends {} {} ["a", "b/../a"] (.ok ()) := hcompletes
      cases hresult.symm.trans hcompletes.result
    · refine ⟨_, e.format, hrun, ?_⟩
      rw [htrace rfl]
      simp

/-- **Not all that goes wrong with sources is reported.** -/
theorem not_forall_runSources_exits :
    ¬∀ (fs : FileStore) (options : Options) (session : Session) (sources : List String),
      ∃ code s', runSources fs options session sources = .exited code s' := by
  intro h
  obtain ⟨code, s', hexits⟩ := h {} {} {} ["/"]
  have hsources : ["/"] = [] ++ "/" :: [] := rfl
  have hroot : ({} : FileStore).absolute "/" = .ok "/" := by decide +kernel
  have hends : Ends {} {} ["/"] (.error (.host (.noScriptName "/"))) :=
    Stumbles.root hsources (registered_nil {}) hroot
  obtain ⟨shown, trace, -, hrun⟩ := runSources_eq_ending {} {} {} ["/"]
  rw [hends.result, hexits] at hrun
  cases hrun

end CommandLine

end ScopeScript
