import ScopeScript.Proofs.Files.Locator
import ScopeScript.Proofs.Text.Lines
import ScopeScript.Script

/-!
# Absolute paths and what stands there

A path that can be resolved leads to a **place**: names on the way from the root, none of which
leads up again (`ScopeScript.Path.IsPlace`). Whatever links have been followed, its absolute
form is written with these names, and no NUL is left in it
(`ScopeScript.FileStore.eq_ofNames_of_absolute`). So nothing is left to be done to it: it is a
locator that stands for itself (`ScopeScript.Locator.resolve_ofNames`). What keeps a path from
being resolved is told by `ScopeScript.FileStore.unresolved_of_absolute`.

A script gets its name from the last of the names, and **only the root gives no name**
(`ScopeScript.Locator.stem_ofNames`). What stands at a place can be read or not, and
**whatever keeps it from being read is the fault of the script**
(`ScopeScript.Script.load_cases`).
-/
namespace ScopeScript

namespace Text

/-! ### Characters of pieces -/

theorem mem_splitWhereFrom_iff (sep c : Char) (start cs : List Char) :
    (∃ piece ∈ splitWhereFrom (· == sep) start cs, c ∈ piece) ↔ c ∈ start ∨ c ≠ sep ∧ c ∈ cs := by
  induction cs generalizing start with
  | nil => simp [splitWhereFrom]
  | cons b cs ih =>
    rw [splitWhereFrom]
    split
    · rename_i hb
      obtain rfl : b = sep := beq_iff_eq.mp hb
      simp only [List.mem_cons, exists_eq_or_imp, ih, List.mem_reverse]
      grind
    · rename_i hb
      have hne : b ≠ sep := fun heq => hb (beq_iff_eq.mpr heq)
      rw [ih]
      grind

/-- **The pieces of a text have its characters, but for the separator.** -/
theorem mem_splitAtChar_iff {sep c : Char} {s : String} :
    (∃ piece ∈ splitAtChar sep s, c ∈ piece.toList) ↔ c ≠ sep ∧ c ∈ s.toList := by
  have hpieces := mem_splitWhereFrom_iff sep c [] s.toList
  simpa [splitAtChar] using hpieces

end Text

namespace Path

/-! ### Places -/

/-- **Names on the way from the root**: each of them names something, and none leads up
again. -/
structure IsPlace (names : List String) : Prop where
  /-- There is no empty name. -/
  not_empty : "" ∉ names
  /-- No name stands for the directory itself. -/
  not_dot : "." ∉ names
  /-- No name leads up. -/
  not_up : ".." ∉ names
  /-- There are no slashes in a name. -/
  no_slash : ∀ name ∈ names, '/' ∉ name.toList

/-- The path from the root that is made of names. -/
def ofNames (names : List String) : String := "/" ++ "/".intercalate names

variable {ns : List String} {s : String}

theorem mem_names {p : String} (h : s ∈ names p) : s ≠ "" ∧ s ≠ "." ∧ s ∈ parts p := by
  obtain ⟨hpart, hname⟩ := List.mem_filter.mp h
  obtain ⟨hempty, hdot⟩ : s ≠ "" ∧ s ≠ "." := by simpa using hname
  exact ⟨hempty, hdot, hpart⟩

theorem no_slash_of_mem_names {p : String} (h : s ∈ names p) : '/' ∉ s.toList := fun hslash =>
  (Text.mem_splitAtChar_iff.mp ⟨s, (mem_names h).2.2, hslash⟩).1 rfl

theorem collapse_cons_of_ne {n : String} (hn : n ≠ "..") (absolute : Bool) (done : List String) :
    collapse absolute done (n :: ns) = collapse absolute (n :: done) ns := by
  rw [collapse.eq_def]
  simp [hn]

theorem collapse_cons_up {done : List String} (hdone : ".." ∉ done) :
    collapse true done (".." :: ns) = collapse true done.tail ns := by
  cases done with
  | nil => simp [collapse]
  | cons d before =>
    obtain ⟨hd, -⟩ := not_or.mp (mt List.mem_cons.mpr hdone)
    simp [collapse, Ne.symm hd]

/-- What is left of the names in a path are some of them, and none leads up. -/
theorem mem_collapse {done : List String} (hdone : ".." ∉ done) (h : s ∈ collapse true done ns) :
    s ∈ done ∨ s ∈ ns ∧ s ≠ ".." := by
  induction ns generalizing done with
  | nil => exact Or.inl (List.mem_reverse.mp h)
  | cons n ns ih =>
    rcases eq_or_ne n ".." with rfl | hn
    · rw [collapse_cons_up hdone] at h
      refine (ih (mt List.mem_of_mem_tail hdone) h).imp List.mem_of_mem_tail ?_
      exact And.imp_left (List.mem_cons_of_mem _)
    · rw [collapse_cons_of_ne hn] at h
      have hdone' : ".." ∉ n :: done := List.not_mem_cons_of_ne_of_not_mem hn.symm hdone
      rcases ih hdone' h with hmem | ⟨hmem, hup⟩
      · rcases List.mem_cons.mp hmem with rfl | hmem
        · exact Or.inr ⟨List.mem_cons_self, hn⟩
        · exact Or.inl hmem
      · exact Or.inr ⟨List.mem_cons_of_mem n hmem, hup⟩

theorem isPlace_collapse (p : String) : IsPlace (collapse true [] (names p)) := by
  have hmem : ∀ s ∈ collapse true [] (names p), s ∈ names p ∧ s ≠ ".." := fun s hs =>
    (mem_collapse List.not_mem_nil hs).resolve_left List.not_mem_nil
  refine ⟨fun h => ?_, fun h => ?_, fun h => ?_, fun s hs hslash => ?_⟩
  · exact (mem_names (hmem _ h).1).1 rfl
  · exact (mem_names (hmem _ h).1).2.1 rfl
  · exact (hmem _ h).2 rfl
  · exact no_slash_of_mem_names (hmem s hs).1 hslash

theorem collapse_of_not_up (absolute : Bool) (done : List String) (h : ".." ∉ ns) :
    collapse absolute done ns = done.reverse ++ ns := by
  induction ns generalizing done with
  | nil => simp [collapse]
  | cons n ns ih =>
    obtain ⟨hn, hns⟩ := not_or.mp (mt List.mem_cons.mpr h)
    rw [collapse_cons_of_ne (Ne.symm hn), ih _ hns]
    simp

/-! ### Paths made of names -/

/-- Names are found again once they are joined. -/
theorem names_intercalate (h : ∀ s ∈ ns, s ≠ "" ∧ s ≠ "." ∧ '/' ∉ s.toList) :
    names ("/".intercalate ns) = ns := by
  cases ns with
  | nil => exact names_empty
  | cons n ns =>
    have hparts : parts ("/".intercalate (n :: ns)) = n :: ns :=
      Text.splitAtChar_intercalate fun s hs => (h s hs).2.2
    rw [names, hparts, List.filter_eq_self]
    intro s hs
    obtain ⟨hempty, hdot, -⟩ := h s hs
    simp [hempty, hdot]

/-- **The path that is made of names has them.** -/
theorem names_ofNames (h : IsPlace ns) : names (ofNames ns) = ns := by
  have hslash : names (ofNames ns) = names ("/".intercalate ns) := by
    have hsplit := names_append_slash "" ("/".intercalate ns)
    rwa [String.empty_append, names_empty, List.nil_append] at hsplit
  rw [hslash]
  exact names_intercalate fun s hs =>
    ⟨fun heq => h.not_empty (heq ▸ hs), fun heq => h.not_dot (heq ▸ hs), h.no_slash s hs⟩

theorem toList_ofNames (ns : List String) :
    (ofNames ns).toList = '/' :: ("/".intercalate ns).toList := by
  rw [ofNames, String.toList_append]
  rfl

theorem isAbsolute_ofNames (ns : List String) : isAbsolute (ofNames ns) = true := by
  rw [isAbsolute, Text.startsWith, toList_ofNames]
  rfl

/-- Names that are joined begin with no slash. -/
theorem isAbsolute_intercalate (h : ∀ s ∈ ns, s ≠ "" ∧ '/' ∉ s.toList) :
    isAbsolute ("/".intercalate ns) = false := by
  rw [isAbsolute, Text.startsWith]
  cases ns with
  | nil => rfl
  | cons n ns =>
    obtain ⟨hempty, hslash⟩ := h n List.mem_cons_self
    have hfirst : ∃ rest, ("/".intercalate (n :: ns)).toList = n.toList ++ rest := by
      cases ns with
      | nil => exact ⟨[], by rw [String.intercalate_singleton, List.append_nil]⟩
      | cons next ns =>
        refine ⟨"/".toList ++ ("/".intercalate (next :: ns)).toList, ?_⟩
        rw [String.intercalate_cons_cons, String.toList_append, String.toList_append,
          List.append_assoc]
    obtain ⟨rest, hrest⟩ := hfirst
    rw [hrest]
    cases hchars : n.toList with
    | nil => exact absurd (String.toList_eq_nil_iff.mp hchars) hempty
    | cons c cs =>
      have hne : '/' ≠ c := fun heq => hslash (hchars ▸ heq ▸ List.mem_cons_self)
      simp [List.isPrefixOf, hne]

/-- Behind its first character a path that is made of names has no slash. -/
theorem root_ofNames (h : IsPlace ns) : root (ofNames ns) = "/" := by
  have hsecond : Text.startsWith (ofNames ns) "//" = isAbsolute ("/".intercalate ns) := by
    rw [Text.startsWith, toList_ofNames]
    rfl
  have hnone : isAbsolute ("/".intercalate ns) = false := isAbsolute_intercalate fun s hs =>
    ⟨fun heq => h.not_empty (heq ▸ hs), h.no_slash s hs⟩
  rw [root, hsecond, hnone, isAbsolute_ofNames]
  rfl

/-- **There is nothing to be normalized in a path that is made of names.** -/
theorem normalize_ofNames (h : IsPlace ns) : normalize (ofNames ns) = ofNames ns := by
  have hne : (ofNames ns).isEmpty = false := by
    refine eq_false_of_ne_true fun hempty => ?_
    have hchars := toList_ofNames ns
    rw [String.isEmpty_iff.mp hempty] at hchars
    cases hchars
  rw [normalize, root_ofNames h, names_ofNames h, collapse_of_not_up _ _ h.not_up]
  exact if_neg (by rw [List.reverse_nil, List.nil_append, ← ofNames, hne]; exact Bool.false_ne_true)

/-- A file name is not empty without its suffix. -/
theorem cutSuffix_ne_empty (h : s ≠ "") : (cutSuffix s).1 ≠ "" := by
  rw [cutSuffix]
  split
  · rename_i hcut
    obtain ⟨-, hbefore⟩ := Bool.and_eq_true_iff.mp (Bool.and_eq_true_iff.mp hcut).1
    have hpos := of_decide_eq_true hbefore
    intro hempty
    have hchars := congrArg String.toList hempty
    rw [String.toList_ofList, String.toList_empty, List.take_eq_nil_iff] at hchars
    rcases hchars with hzero | hnil
    · omega
    · exact h (String.toList_eq_nil_iff.mp hnil)
  · exact h

/-- **Only the root has no stem.** -/
theorem stem_ofNames_ne_empty (h : IsPlace ns) (hne : ns ≠ []) : stem (ofNames ns) ≠ "" := by
  rw [stem, fileName, names_ofNames h, List.getLast?_eq_some_getLast hne]
  exact cutSuffix_ne_empty fun hempty => h.not_empty (hempty ▸ List.getLast_mem hne)

end Path

namespace Locator

open ScopeScript.Path

variable {ns : List String}

/-! ### Absolute paths as locators -/

theorem not_isVirtual_ofNames (ns : List String) : isVirtual (ofNames ns) = false := by
  rw [isVirtual, Text.startsWith, toList_ofNames]
  rfl

theorem not_fileScheme_ofNames (ns : List String) :
    Text.startsWith (ofNames ns) fileScheme = false := by
  rw [Text.startsWith, toList_ofNames]
  rfl

/-- **A script has no name at the root, and one at every other place.** -/
theorem stem_ofNames (h : IsPlace ns) :
    stem (ofNames ns)
      = if ns = [] then .error (.noScriptName "/") else .ok (Path.stem (ofNames ns)) := by
  have hrest : withoutScheme (ofNames ns) = ofNames ns := by
    rw [withoutScheme, not_isVirtual_ofNames, not_fileScheme_ofNames]
    rfl
  rw [stem, hrest]
  rcases eq_or_ne ns [] with rfl | hne
  · rfl
  · have hstem : (Path.stem (ofNames ns)).isEmpty = false :=
      eq_false_of_ne_true fun hempty => stem_ofNames_ne_empty h hne (String.isEmpty_iff.mp hempty)
    rw [if_neg hne, hstem, if_neg Bool.false_ne_true]

/-- **An absolute path stands for itself.** -/
theorem resolve_ofNames (fs : FileStore) (base : Option String) (h : IsPlace ns) :
    resolve fs (ofNames ns) base = .ok (ofNames ns) := by
  have htilde : Text.startsWith (ofNames ns) "~" = false := by
    rw [Text.startsWith, toList_ofNames]
    rfl
  rw [resolve, not_isVirtual_ofNames, not_fileScheme_ofNames,
    expandHome_of_not_tilde fs.home htilde]
  dsimp only
  rw [isAbsolute_ofNames, if_pos rfl, normalize_ofNames h]
  rfl

end Locator

namespace FileStore

open ScopeScript.Path

variable {fs : FileStore} {path p : String} {e : HostError}

/-! ### Where a path leads -/

theorem eq_ofNames_of_fromRoot (h : fs.fromRoot path = .ok p) :
    ∃ ns, IsPlace ns ∧ p = ofNames ns := by
  rw [fromRoot] at h
  split at h
  · exact ⟨_, isPlace_collapse _, (Except.ok.inj h).symm⟩
  · cases hbase : fs.currentDirectory with
    | error e =>
      rw [hbase] at h
      cases h
    | ok base =>
      rw [hbase] at h
      exact ⟨_, isPlace_collapse _, (Except.ok.inj h).symm⟩

/-- **A path leads to a place**, if it can be resolved, and there is no NUL on the way. -/
theorem eq_ofNames_of_absolute (h : fs.absolute path = .ok p) :
    ∃ ns, IsPlace ns ∧ p = ofNames ns ∧ hasNul p = false := by
  rw [absolute] at h
  cases hfound : fs.resolveFrom fs.nesting "" (tidy path) [] with
  | error e =>
    rw [hfound] at h
    cases h
  | ok found =>
    cases hfull : fs.fromRoot found.path with
    | error e =>
      simp only [hfound, hfull, bind, Except.bind] at h
      cases h
    | ok full =>
      simp only [hfound, hfull, bind, Except.bind] at h
      obtain ⟨ns, hplace, rfl⟩ := eq_ofNames_of_fromRoot hfull
      cases hnul : hasNul (ofNames ns) with
      | true =>
        rw [hnul] at h
        cases h
      | false =>
        rw [hnul, if_neg Bool.false_ne_true] at h
        split at h
        · cases h
        · obtain rfl := Except.ok.inj h
          exact ⟨ns, hplace, rfl, hnul⟩

/-! ### What keeps a path from being resolved -/

/-- **Why a path cannot be resolved.** -/
inductive Unresolved (fs : FileStore) : HostError → Prop
  /-- There is a NUL in it, or in the path that it leads to. -/
  | nul : Unresolved fs .nulInPath
  /-- The system does not say where a link leads. -/
  | refused {refusal : Refusal} {place : List String} (h : fs.refusal? place = some refusal)
      (link : String) : Unresolved fs (.file (.refused refusal link))
  /-- Links lead to links, and so on, as deep as the host goes. -/
  | tooNested : Unresolved fs .tooNested
  /-- It is taken from the working directory, and there is none. -/
  | lost (h : fs.lost = true) : Unresolved fs (.file .noWorkingDirectory)
  /-- What is left after resolving it takes more links than the system follows. -/
  | loop {full : String} (h : fs.locate true full = .error .tooManyLinks) :
    Unresolved fs (.linkLoop full)

theorem unresolved_of_readLink (h : fs.readLink path = .error e) : fs.Unresolved e := by
  rw [readLink] at h
  split at h
  · cases h
    exact .nul
  · split at h
    · split at h
      · rename_i hrefusal
        cases h
        exact .refused hrefusal path
      · cases h
    · cases h

theorem unresolved_of_resolveParts {links : List (String × Option String)}
    {enter : String → String → List (String × Option String) → Except HostError Resolved}
    (henter : ∀ start target links, enter start target links = .error e → fs.Unresolved e)
    {parts : List String} (h : fs.resolveParts enter path links parts = .error e) :
    fs.Unresolved e := by
  induction parts generalizing path links with
  | nil => cases h
  | cons s rest ih =>
    rw [resolveParts] at h
    split at h
    · exact ih h
    · split at h
      · exact ih h
      · dsimp only at h
        split at h
        · rename_i hlink
          cases h
          exact unresolved_of_readLink hlink
        · exact ih h
        · split at h
          · exact ih h
          · cases h
          · split at h
            · rename_i hfound
              cases h
              exact henter _ _ _ hfound
            · split at h
              · exact ih h
              · cases h

theorem unresolved_of_resolveFrom {depth : Nat} {start : String}
    {links : List (String × Option String)}
    (h : fs.resolveFrom depth start path links = .error e) : fs.Unresolved e := by
  induction depth generalizing start path links with
  | zero =>
    cases h
    exact .tooNested
  | succ depth ih => exact unresolved_of_resolveParts (fun _ _ _ => ih) h

theorem unresolved_of_fromRoot (h : fs.fromRoot path = .error e) : fs.Unresolved e := by
  rw [fromRoot] at h
  split at h
  · cases h
  · rw [currentDirectory] at h
    split at h
    · rename_i hlost
      cases h
      exact .lost hlost
    · cases h

/-- **A path that cannot be resolved** has a NUL in it, is relative where there is no working
directory, or goes through links that cannot be read or lead on to too many others. -/
theorem unresolved_of_absolute (h : fs.absolute path = .error e) : fs.Unresolved e := by
  rw [absolute] at h
  cases hfound : fs.resolveFrom fs.nesting "" (tidy path) [] with
  | error e' =>
    rw [hfound] at h
    cases h
    exact unresolved_of_resolveFrom hfound
  | ok found =>
    cases hfull : fs.fromRoot found.path with
    | error e' =>
      simp only [hfound, hfull, bind, Except.bind] at h
      cases h
      exact unresolved_of_fromRoot hfull
    | ok full =>
      simp only [hfound, hfull, bind, Except.bind] at h
      split at h
      · cases h
        exact .nul
      · split at h
        · rename_i hlocate
          cases h
          exact .loop hlocate
        · cases h

/-! ### What stands there -/

theorem readText_cases (fs : FileStore) (h : hasNul path = false) :
    (∃ cause, fs.readText path = .error (.file cause)) ∨
      ∃ text, fs.readText path = .ok text ∧ fs.isDirectory path = false := by
  rw [readText, readBytes, isDirectory, h]
  rcases hfound : fs.locate true path with blocked | ⟨place, entry⟩
  · exact Or.inl ⟨_, rfl⟩
  · cases entry with
    | directory => exact Or.inl ⟨_, rfl⟩
    | link target => exact Or.inl ⟨_, rfl⟩
    | file content =>
      cases hrefusal : fs.refusal? place with
      | some refusal =>
        refine Or.inl ⟨.refused refusal path, ?_⟩
        simp [bind, Except.bind, hrefusal]
      | none =>
        cases hdecoded : Text.decodeUtf8 content with
        | error fault =>
          refine Or.inl ⟨.undecodable fault, ?_⟩
          simp [bind, Except.bind, hrefusal, hdecoded]
        | ok text =>
          refine Or.inr ⟨Text.unifyNewlines text, ?_, rfl⟩
          simp [bind, Except.bind, hrefusal, hdecoded, pure, Except.pure]

/-- **A text stands at a path.** -/
structure Holds (fs : FileStore) (path text : String) : Prop where
  /-- The text is not empty. -/
  ne_empty : text ≠ ""
  /-- It can be read. -/
  read : fs.readText path = .ok text

end FileStore

namespace Script

open ScopeScript.Path

variable {fs : FileStore} {s : Script}

/-- **Reading the source of a script at a place gives a text that is not empty, or a script
error.** -/
theorem load_cases {ns : List String} (hplace : IsPlace ns) (hpath : s.path = ofNames ns)
    (hnul : FileStore.hasNul s.path = false) (base : Option String) :
    (∃ e, s.load fs base = .error (.script e) ∧ ¬∃ text, fs.Holds s.path text) ∨
      ∃ text, fs.Holds s.path text ∧
        s.load fs base = .ok ({ s with content := some text }.advance .loaded) := by
  have hread : Locator.read fs s.path base
      = if fs.isDirectory s.path then .error (.file (.directory s.path))
        else fs.readText s.path := by
    rw [Locator.read, hpath, Locator.resolve_ofNames fs base hplace]
    simp only [bind, Except.bind]
  rw [load, hread]
  rcases fs.readText_cases hnul with ⟨cause, herror⟩ | ⟨text, hok, hdirectory⟩
  · have hno : ¬∃ text, fs.Holds s.path text := by
      rintro ⟨text, hholds⟩
      have hok := hholds.read
      rw [herror] at hok
      cases hok
    rw [herror]
    cases fs.isDirectory s.path with
    | true => exact Or.inl ⟨_, rfl, hno⟩
    | false => exact Or.inl ⟨_, rfl, hno⟩
  · rw [hok, hdirectory, if_neg Bool.false_ne_true]
    dsimp only
    split
    · rename_i hempty
      refine Or.inl ⟨_, rfl, ?_⟩
      rintro ⟨other, hne, hother⟩
      rw [hok] at hother
      cases hother
      exact hne (String.isEmpty_iff.mp hempty)
    · rename_i hne
      exact Or.inr ⟨text, ⟨by simpa using hne, hok⟩, rfl⟩

end Script

end ScopeScript
