import ScopeScript.Proofs.Files.Absolute

/-!
# Resolving a path without links

To make a path absolute the host goes along it name by name, and asks the system about each of
them; only then the working directory is put before what it has found. **Where there are no
links, none of that can be told from the result**: the path is put behind the working
directory, and `..` takes away the name before it (`ScopeScript.FileStore.LinkFree.absolute_eq`).
All that is left of the way is that a NUL in the path is refused even if some `..` takes it
away.

What is kept from name to name is where the path leads behind any others: a name is put at the
end of the path, and `..` at the end of it is the path one level up
(`ScopeScript.Path.collapse_parent`).
-/

namespace ScopeScript

namespace Path

variable {ns : List String} {p s : String}

/-! ### Going up -/

theorem collapse_append (absolute : Bool) (done xs ys : List String) :
    collapse absolute done (xs ++ ys)
      = collapse absolute (collapse absolute done xs).reverse ys := by
  induction xs generalizing done with
  | nil => simp [collapse]
  | cons x xs ih =>
    rw [List.cons_append, collapse.eq_def, collapse.eq_def absolute done (x :: xs)]
    dsimp only
    split
    · split
      · exact ih _
      · split
        · exact ih _
        · exact ih _
    · exact ih _

/-- A name and `..` behind it come to nothing. -/
theorem collapse_snoc_up (hs : s ≠ "..") (absolute : Bool) :
    collapse absolute [] (ns ++ [s] ++ [".."]) = collapse absolute [] ns := by
  rw [List.append_assoc, collapse_append]
  simp [collapse, hs]

/-- A path begins with one or two slashes, or it is relative. -/
theorem root_cases (p : String) :
    isAbsolute p = true ∧ (root p = "/" ∨ root p = "//") ∨ isAbsolute p = false ∧ root p = "" := by
  rw [root]
  split
  · rename_i htwo
    obtain ⟨htwo, -⟩ := Bool.and_eq_true_iff.mp htwo
    obtain ⟨rest, hrest⟩ := List.isPrefixOf_iff_prefix.mp htwo
    refine Or.inl ⟨isAbsolute_iff.mpr ?_, Or.inr rfl⟩
    rw [← hrest]
    rfl
  · split
    · rename_i habsolute
      exact Or.inl ⟨habsolute, Or.inl rfl⟩
    · rename_i hrelative
      exact Or.inr ⟨eq_false_of_ne_true hrelative, rfl⟩

theorem isAbsolute_eq_root (p : String) : isAbsolute p = !(root p).isEmpty := by
  rcases root_cases p with ⟨habsolute, hroot | hroot⟩ | ⟨hrelative, hroot⟩
  · rw [habsolute, hroot]
    decide
  · rw [habsolute, hroot]
    decide
  · rw [hrelative, hroot]
    decide

theorem names_root_append (p t : String) : names (root p ++ t) = names t := by
  have hslash : ∀ t, names ("/" ++ t) = names t := fun t => by
    have hsplit := names_append_slash "" t
    rwa [String.empty_append, names_empty, List.nil_append] at hsplit
  rcases root_cases p with ⟨-, hroot | hroot⟩ | ⟨-, hroot⟩
  · rw [hroot, hslash]
  · have htwo : "//" ++ t = "/" ++ ("/" ++ t) := by
      rw [← String.append_assoc]
      rfl
    rw [hroot, htwo, hslash, hslash]
  · rw [hroot, String.empty_append]

/-- The path that is made of a root and of names from another path has these names. -/
theorem names_root_intercalate (h : ∀ s ∈ ns, s ∈ names p) :
    names (root p ++ "/".intercalate ns) = ns := by
  rw [names_root_append]
  refine names_intercalate fun s hs => ?_
  obtain ⟨hempty, hdot, -⟩ := mem_names (h s hs)
  exact ⟨hempty, hdot, no_slash_of_mem_names (h s hs)⟩

theorem isAbsolute_root_intercalate (h : ∀ s ∈ ns, s ∈ names p) :
    isAbsolute (root p ++ "/".intercalate ns) = isAbsolute p := by
  rcases root_cases p with ⟨habsolute, hroot⟩ | ⟨hrelative, hroot⟩
  · rw [habsolute, isAbsolute_iff, String.toList_append]
    rcases hroot with hroot | hroot
    · rw [hroot]
      rfl
    · rw [hroot]
      rfl
  · rw [hrelative, hroot, String.empty_append]
    refine isAbsolute_intercalate fun s hs => ?_
    exact ⟨(mem_names (h s hs)).1, no_slash_of_mem_names (h s hs)⟩

/-- **The path one level up** has all names but the last one, or one more `..`. -/
theorem parent_cases (p : String) :
    (names p = [] ∧ isAbsolute p = true ∧ names (parent p) = []) ∨
      names (parent p) = names p ++ [".."] ∨
      ∃ ns s, s ≠ ".." ∧ names p = ns ++ [s] ∧ names (parent p) = ns := by
  rw [parent]
  split
  · rename_i hnone
    rw [List.getLast?_eq_none_iff.mp hnone]
    cases isAbsolute p with
    | true => exact Or.inl ⟨rfl, rfl, by decide⟩
    | false => exact Or.inr (Or.inl (by decide))
  · rename_i s hlast
    obtain ⟨ns, hns⟩ := List.getLast?_eq_some_iff.mp hlast
    split
    · refine Or.inr (Or.inl ?_)
      have hup : p ++ "/.." = p ++ "/" ++ ".." := by
        rw [String.append_assoc]
        rfl
      rw [hup, names_append_slash]
      rfl
    · rename_i hup
      refine Or.inr (Or.inr ⟨ns, s, by simpa using hup, hns, ?_⟩)
      rw [hns, List.dropLast_concat]
      exact names_root_intercalate fun t ht => hns ▸ List.mem_append_left _ ht

theorem isAbsolute_parent (p : String) : isAbsolute (parent p) = isAbsolute p := by
  rw [parent]
  split
  · cases isAbsolute p with
    | true => decide
    | false => decide
  · rename_i s hlast
    split
    · have hpos : 0 < p.toList.length := by
        refine List.length_pos_iff.mpr fun hnil => ?_
        rw [String.toList_eq_nil_iff.mp hnil, names_empty] at hlast
        cases hlast
      rw [Bool.eq_iff_iff, isAbsolute_iff, isAbsolute_iff, String.toList_append,
        List.getElem?_append_left hpos]
    · exact isAbsolute_root_intercalate fun t ht => List.dropLast_subset _ ht

/-- **One level up is where `..` at the end leads**, whatever the path is taken from. -/
theorem collapse_parent {before : List String} (h : isAbsolute p = true → before = []) :
    collapse true [] (before ++ names (parent p))
      = collapse true [] (before ++ names p ++ [".."]) := by
  rcases parent_cases p with ⟨hnone, habsolute, hparent⟩ | hparent | ⟨ns, s, hs, hnames, hparent⟩
  · rw [hparent, hnone, h habsolute]
    decide
  · rw [hparent, List.append_assoc]
  · rw [hparent, hnames, ← List.append_assoc, collapse_snoc_up hs]

/-! ### Paths that are put together -/

theorem names_tidy (p : String) : names (tidy p) = names p := by
  have hnames : names (root p ++ "/".intercalate (names p)) = names p :=
    names_root_intercalate fun _ hs => hs
  rw [tidy]
  split
  · rename_i hempty
    rw [String.isEmpty_iff.mp hempty, names_empty] at hnames
    rw [← hnames]
    decide
  · exact hnames

theorem isAbsolute_tidy (p : String) : isAbsolute (tidy p) = isAbsolute p := by
  have habsolute : isAbsolute (root p ++ "/".intercalate (names p)) = isAbsolute p :=
    isAbsolute_root_intercalate fun _ hs => hs
  rw [tidy]
  split
  · rename_i hempty
    rw [String.isEmpty_iff.mp hempty] at habsolute
    rw [← habsolute]
    decide
  · exact habsolute

/-- A name is a relative path. -/
theorem isAbsolute_of_no_slash (h : '/' ∉ s.toList) : isAbsolute s = false := by
  refine eq_false_of_ne_true fun habsolute => h ?_
  exact List.mem_of_getElem? (isAbsolute_iff.mp habsolute)

theorem names_of_no_slash (h : '/' ∉ s.toList) (hempty : s ≠ "") (hdot : s ≠ ".") :
    names s = [s] := by
  rw [names, parts, Text.splitAtChar_of_not_mem h]
  simp [hempty, hdot]

theorem isAbsolute_join (h : isAbsolute s = false) (p : String) :
    isAbsolute (join p s) = isAbsolute p := by
  rw [isAbsolute_eq_root, root_join h, ← isAbsolute_eq_root]

end Path

namespace FileStore

open ScopeScript.Path

variable {fs : FileStore} {p s : String}

/-! ### NULs in names -/

theorem any_parts (p : String) : (parts p).any hasNul = hasNul p := by
  rw [Bool.eq_iff_iff, List.any_eq_true]
  simp only [hasNul, List.contains_iff_mem]
  exact Text.mem_splitAtChar_iff.trans (and_iff_right (by decide))

/-- **A NUL in a path is in one of its names.** -/
theorem any_names (p : String) : (names p).any hasNul = hasNul p := by
  rw [← any_parts, names, List.any_filter]
  refine congrArg (parts p).any (funext fun s => ?_)
  by_cases hnothing : s = "" ∨ s = "."
  · rcases hnothing with rfl | rfl
    · decide
    · decide
  · obtain ⟨hempty, hdot⟩ := not_or.mp hnothing
    simp [hempty, hdot]

theorem hasNul_tidy (p : String) : hasNul (tidy p) = hasNul p := by
  rw [← any_names, names_tidy, any_names]

theorem hasNul_join (hs : isAbsolute s = false) (p : String) :
    hasNul (join p s) = (hasNul p || hasNul s) := by
  rw [← any_names, names_join hs, List.any_append, any_names, any_names]

theorem hasNul_parent (h : hasNul p = false) : hasNul (parent p) = false := by
  rw [← any_names] at h ⊢
  rcases parent_cases p with ⟨-, -, hparent⟩ | hparent | ⟨ns, s, -, hnames, hparent⟩
  · rw [hparent]
    rfl
  · rw [hparent, List.any_append, h]
    decide
  · rw [hnames, List.any_append, Bool.or_eq_false_iff] at h
    rw [hparent]
    exact h.1

/-! ### The system, without links -/

/-- There are no links. -/
def LinkFree (fs : FileStore) : Prop :=
  ∀ place target, (place, FileEntry.link target) ∉ fs.entries

theorem LinkFree.at?_ne_link (h : fs.LinkFree) (place : List String) (target : String) :
    fs.at? place ≠ some (.link target) := by
  rw [at?]
  split
  · rename_i e he
    intro hlink
    obtain rfl := Option.some.inj hlink
    obtain ⟨l₁, l₂, hentries, -⟩ := List.lookup_eq_some_iff.mp he
    exact h place target (hentries ▸ List.mem_append_right _ List.mem_cons_self)
  · split
    · nofun
    · nofun

variable {last : Bool}
  {enter : List String → List String → Except Blocked (List String × FileEntry)}

/-- Without links a path is followed to its end, or as far as it exists. -/
theorem LinkFree.walk_ends (h : fs.LinkFree) (place rest : List String) :
    fs.walk last enter place rest ≠ .error .tooManyLinks ∧
      ∀ found target, fs.walk last enter place rest ≠ .ok (found, .link target) := by
  induction rest generalizing place with
  | nil => exact ⟨nofun, nofun⟩
  | cons s rest ih =>
    rw [walk]
    split
    · exact ih place
    · split
      · exact ⟨nofun, nofun⟩
      · split
        · exact ih place
        · split
          · exact ih place.dropLast
          · split
            · exact ⟨nofun, nofun⟩
            · split
              · exact ⟨nofun, nofun⟩
              · exact ih (place ++ [s])
              · split
                · exact ⟨nofun, nofun⟩
                · exact ⟨nofun, nofun⟩
              · rename_i target hlink
                exact absurd hlink (h.at?_ne_link _ target)

theorem LinkFree.locate_ends (h : fs.LinkFree) (last : Bool) (path : String) :
    fs.locate last path ≠ .error .tooManyLinks ∧
      ∀ found target, fs.locate last path ≠ .ok (found, .link target) := by
  rw [locate]
  split
  · exact ⟨nofun, nofun⟩
  · split
    · exact ⟨nofun, nofun⟩
    · cases linkLimit with
      | zero => exact h.walk_ends _ _
      | succ links => exact h.walk_ends _ _

theorem LinkFree.readLink (h : fs.LinkFree) (path : String) :
    fs.readLink path = if hasNul path then .error .nulInPath else .ok none := by
  rw [FileStore.readLink]
  split
  · rfl
  · split
    · rename_i place target hlocate
      exact absurd hlocate ((h.locate_ends false path).2 place target)
    · rfl

/-! ### The host, without links -/

variable {links : List (String × Option String)}
  {enter : String → String → List (String × Option String) → Except HostError Resolved}
  {path : String} {rest : List String}

/-- **What one part of a path does** where there are no links. -/
theorem LinkFree.resolveParts_cons (h : fs.LinkFree) (path s : String) (rest : List String) :
    fs.resolveParts enter path links (s :: rest)
      = if s = "" ∨ s = "." then fs.resolveParts enter path links rest
        else if s = ".." then fs.resolveParts enter (parent path) links rest
        else if hasNul (join path s) then .error .nulInPath
        else fs.resolveParts enter (join path s) links rest := by
  rw [resolveParts]
  simp only [Bool.or_eq_true, beq_iff_eq]
  refine if_congr Iff.rfl rfl (if_congr Iff.rfl rfl ?_)
  rw [h.readLink]
  cases hasNul (join path s) with
  | true => rfl
  | false => rfl

/-- A NUL in a part is found. -/
theorem LinkFree.resolveParts_of_nul (h : fs.LinkFree) (hslash : ∀ s ∈ rest, '/' ∉ s.toList)
    (hnul : rest.any hasNul = true) (path : String) :
    fs.resolveParts enter path links rest = .error .nulInPath := by
  induction rest generalizing path with
  | nil => cases hnul
  | cons s rest ih =>
    have ih' := ih fun t ht => hslash t (List.mem_cons_of_mem s ht)
    rw [List.any_cons, Bool.or_eq_true] at hnul
    rw [h.resolveParts_cons]
    split
    · rename_i hnothing
      refine ih' (hnul.resolve_left ?_) path
      rcases hnothing with rfl | rfl
      · decide
      · decide
    · split
      · rename_i hup
        subst hup
        exact ih' (hnul.resolve_left (by decide)) (parent path)
      · split
        · rfl
        · rename_i hjoin
          have hs : isAbsolute s = false :=
            isAbsolute_of_no_slash (hslash s List.mem_cons_self)
          rw [hasNul_join hs, Bool.or_eq_true, not_or] at hjoin
          exact ih' (hnul.resolve_left hjoin.2) (join path s)

/-- **Without links the parts of a path are put behind it**, and where they lead is not changed
by taking away names before `..` on the way. -/
theorem LinkFree.resolveParts_eq (h : fs.LinkFree)
    (enter : String → String → List (String × Option String) → Except HostError Resolved)
    (links : List (String × Option String)) (hslash : ∀ s ∈ rest, '/' ∉ s.toList)
    (hnul : rest.any hasNul = false) (hpath : hasNul path = false) :
    ∃ q, fs.resolveParts enter path links rest = .ok { path := q, links } ∧
      isAbsolute q = isAbsolute path ∧
      ∀ before, (isAbsolute path = true → before = []) →
        collapse true [] (before ++ names q) = collapse true []
          (before ++ names path ++ rest.filter fun s => !(s == "" || s == ".")) := by
  induction rest generalizing path with
  | nil => exact ⟨path, rfl, rfl, fun before _ => by simp⟩
  | cons s rest ih =>
    have hs : '/' ∉ s.toList := hslash s List.mem_cons_self
    have hrest : ∀ t ∈ rest, '/' ∉ t.toList := fun t ht => hslash t (List.mem_cons_of_mem s ht)
    rw [List.any_cons, Bool.or_eq_false_iff] at hnul
    rw [h.resolveParts_cons]
    by_cases hnothing : s = "" ∨ s = "."
    · obtain ⟨q, hq, habsolute, hleads⟩ := ih hrest hnul.2 hpath
      refine ⟨q, by rw [if_pos hnothing, hq], habsolute, fun before hbefore => ?_⟩
      rw [hleads before hbefore, List.filter_cons_of_neg]
      simpa [or_iff_not_imp_left] using hnothing
    · rw [if_neg hnothing, List.filter_cons_of_pos (by simpa using hnothing)]
      obtain ⟨hempty, hdot⟩ := not_or.mp hnothing
      by_cases hup : s = ".."
      · subst hup
        obtain ⟨q, hq, habsolute, hleads⟩ := ih hrest hnul.2 (hasNul_parent hpath)
        rw [isAbsolute_parent] at habsolute hleads
        refine ⟨q, hq, habsolute, fun before hbefore => ?_⟩
        rw [hleads before hbefore, collapse_append, collapse_parent hbefore, ← collapse_append]
        simp
      · have hrelative : isAbsolute s = false := isAbsolute_of_no_slash hs
        have hjoin : hasNul (join path s) = false := by
          rw [hasNul_join hrelative, hpath, hnul.1]
          rfl
        obtain ⟨q, hq, habsolute, hleads⟩ := ih hrest hnul.2 hjoin
        rw [isAbsolute_join hrelative] at habsolute hleads
        refine ⟨q, ?_, habsolute, fun before hbefore => ?_⟩
        · rw [if_neg hup, hjoin, if_neg Bool.false_ne_true, hq]
        · rw [hleads before hbefore, names_join hrelative, names_of_no_slash hs hempty hdot]
          simp

/-- Two paths that lead to the same place behind any others lead to the same place from the
root. -/
theorem fromRoot_congr {q : String} (habsolute : isAbsolute q = isAbsolute path)
    (hleads : ∀ before, (isAbsolute path = true → before = []) →
      collapse true [] (before ++ names q) = collapse true [] (before ++ names path)) :
    fs.fromRoot q = fs.fromRoot path := by
  rw [fromRoot, fromRoot, habsolute]
  cases hpath : isAbsolute path with
  | true =>
    have hnone := hleads [] fun _ => rfl
    rw [List.nil_append, List.nil_append] at hnone
    rw [if_pos rfl, if_pos rfl]
    dsimp only
    rw [join_of_isAbsolute (habsolute.trans hpath), join_of_isAbsolute hpath, hnone]
  | false =>
    have hbelow : ∀ base, collapse true [] (names (join base q))
        = collapse true [] (names (join base path)) := by
      intro base
      rw [names_join (habsolute.trans hpath), names_join hpath]
      exact hleads _ fun htrue => absurd (hpath.symm.trans htrue) Bool.false_ne_true
    simp only [hbelow]

/-- **Without links a path is made absolute by its text alone**: it is taken from the working
directory, and each `..` takes away the name before it. A NUL is refused wherever it is. -/
theorem LinkFree.absolute_eq (h : fs.LinkFree) (hnesting : 0 < fs.nesting) (path : String) :
    fs.absolute path
      = if hasNul path then .error .nulInPath
        else (fs.fromRoot path).bind fun full =>
          if hasNul full then .error .nulInPath else .ok full := by
  obtain ⟨depth, hdepth⟩ := Nat.exists_eq_succ_of_ne_zero (Nat.ne_of_gt hnesting)
  have hslash : ∀ s ∈ parts (tidy path), '/' ∉ s.toList := fun s hs hmem =>
    (Text.mem_splitAtChar_iff.mp ⟨s, hs, hmem⟩).1 rfl
  have hparts : (parts (tidy path)).any hasNul = hasNul path := by rw [any_parts, hasNul_tidy]
  rw [absolute, hdepth, resolveFrom, isAbsolute_tidy]
  obtain ⟨start, hstart⟩ : ∃ start, start = if isAbsolute path then "/" else "" := ⟨_, rfl⟩
  obtain ⟨habsolute, hnames, hnone⟩ : isAbsolute start = isAbsolute path ∧ names start = [] ∧
      hasNul start = false := by
    rw [hstart]
    cases isAbsolute path with
    | true => decide
    | false => decide
  rw [← hstart]
  cases hnul : hasNul path with
  | true =>
    rw [h.resolveParts_of_nul hslash (hparts.trans hnul)]
    rfl
  | false =>
    obtain ⟨q, hq, hsame, hleads⟩ :=
      h.resolveParts_eq (resolveFrom fs depth) [] hslash (hparts.trans hnul) hnone
    have hroot : fs.fromRoot q = fs.fromRoot path := by
      refine fromRoot_congr (hsame.trans habsolute) fun before hbefore => ?_
      rw [hleads before (fun hpath => hbefore (habsolute ▸ hpath)), hnames, List.append_nil]
      exact congrArg (fun ns => collapse true [] (before ++ ns)) (names_tidy path)
    rw [hq]
    dsimp only [bind, Except.bind]
    rw [hroot]
    cases fs.fromRoot path with
    | error e => rfl
    | ok full =>
      dsimp only
      cases hasNul full with
      | true => rfl
      | false =>
        rw [if_neg Bool.false_ne_true, if_neg Bool.false_ne_true]
        split
        · rename_i hlocate
          exact absurd hlocate (h.locate_ends true full).1
        · rfl

end FileStore

end ScopeScript
