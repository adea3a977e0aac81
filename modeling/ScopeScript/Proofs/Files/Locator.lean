import ScopeScript.Files.Locator
import ScopeScript.Proofs.Files.Path

/-!
# Locators with a relative path

A relative path may stand in a locator as it is, or after the scheme `file://`. The
scheme should make no difference: both mean the path under the base directory. It does
make one, since a leading `./` is cut off behind the scheme before the path is joined to
the base, and what is left then may begin with a slash. **Such a path is taken for an
absolute one, and the base has no part in where it leads**
(`ScopeScript.Locator.not_forall_resolve_relative`).

This is the only way in which the two can differ
(`ScopeScript.Locator.resolve_relative`). Cutting off the dot is harmless otherwise, as
a dot names nothing (`ScopeScript.Path.normalize_join_dot`).
-/

namespace ScopeScript.Locator

variable {p : String}

/-! ### Paths without a scheme -/

theorem expandHome_of_not_tilde (home : String) (h : Text.startsWith p "~" = false) :
    Path.expandHome home p = p := by
  rw [Path.expandHome]
  split
  · rename_i rest hp
    rw [Text.startsWith, hp] at h
    cases h
  · rfl

/-- **A relative path leads to the place below the base.** -/
theorem resolve_plain (fs : FileStore) (base : Option String)
    (hslash : Path.isAbsolute p = false) (htilde : Text.startsWith p "~" = false)
    (hvirtual : isVirtual p = false) (hfile : Text.startsWith p fileScheme = false) :
    resolve fs p base = (baseOr fs base).map fun b => Path.normalize (Path.join b p) := by
  rw [resolve, hvirtual, hfile, expandHome_of_not_tilde fs.home htilde]
  dsimp only
  rw [hslash]
  rfl

/-! ### Paths after the scheme -/

/-- The scheme is taken off, and nothing else. -/
theorem resolve_file (fs : FileStore) (base : Option String) (p : String) :
    resolve fs (fileScheme ++ p) base = resolveFile fs base p := by
  have hvirtual : isVirtual (fileScheme ++ p) = false := by
    rw [isVirtual, Text.startsWith, String.toList_append]
    rfl
  have hfile : Text.startsWith (fileScheme ++ p) fileScheme = true := by
    rw [Text.startsWith, String.toList_append]
    exact List.isPrefixOf_iff_prefix.mpr (List.prefix_append _ _)
  have hrest : withoutScheme (fileScheme ++ p) = p := by
    rw [withoutScheme, hvirtual, hfile, if_neg Bool.false_ne_true, if_pos rfl, Text.dropChars,
      String.toList_append]
    exact (congrArg String.ofList (List.drop_left' String.length_toList)).trans String.ofList_toList
  rw [resolve, hvirtual, hfile, if_neg Bool.false_ne_true, if_pos rfl, hrest]

/-- **A leading dot is cut off** before the path is joined to the base. -/
theorem resolveFile_dot (fs : FileStore) (base : Option String) (q : String) :
    resolveFile fs base ("./" ++ q)
      = (baseOr fs base).map fun b => Path.normalize (Path.join b q) := by
  have hchars : ("./" ++ q).toList = '.' :: '/' :: q.toList := by simp
  rw [resolveFile, hchars]
  exact congrArg (fun rest => (baseOr fs base).map fun b => Path.normalize (Path.join b rest))
    String.ofList_toList

theorem resolveFile_relative (fs : FileStore) (base : Option String) (hne : p ≠ "")
    (hslash : Path.isAbsolute p = false) (htilde : Text.startsWith p "~" = false)
    (hdot : Text.startsWith p "./" = false) :
    resolveFile fs base p = (baseOr fs base).map fun b => Path.normalize (Path.join b p) := by
  rw [resolveFile]
  rw [Path.isAbsolute, Text.startsWith] at hslash
  rw [Text.startsWith] at htilde hdot
  split
  · rename_i hp
    exact absurd (String.toList_eq_nil_iff.mp hp) hne
  · rename_i hp
    rw [hp] at hslash
    cases hslash
  · rename_i hp
    rw [hp] at htilde
    cases htilde
  · rename_i hp
    rw [hp] at hdot
    cases hdot
  · rfl

/-- A path that begins with another text is that text and what comes after it. -/
theorem eq_append_of_startsWith {start : String} (h : Text.startsWith p start = true) :
    p = start ++ Text.dropChars start.length p := by
  rw [Text.startsWith, List.isPrefixOf_iff_prefix] at h
  obtain ⟨rest, hrest⟩ := h
  refine String.toList_inj.mp ?_
  rw [String.toList_append, Text.dropChars, String.toList_ofList, ← hrest,
    List.drop_left' String.length_toList]

/-! ### Both compared -/

/-- **The scheme makes no difference to a relative path, unless the path begins with a dot
and two slashes.** Such a path is taken from the base where it stands by itself, and after
the scheme it leads to the same place whatever the base is: where the absolute path leads
that is left without the dot. Without any base both fail with the same error. -/
theorem resolve_relative (fs : FileStore) (base : Option String) (p : String) (hne : p ≠ "")
    (hslash : Path.isAbsolute p = false) (htilde : Text.startsWith p "~" = false)
    (hvirtual : isVirtual p = false) (hfile : Text.startsWith p fileScheme = false) :
    resolve fs p base = ((baseOr fs base).map fun b => Path.normalize (Path.join b p)) ∧
      (Text.startsWith p ".//" = false → resolve fs (fileScheme ++ p) base = resolve fs p base) ∧
      (Text.startsWith p ".//" = true →
        Path.isAbsolute (Text.dropChars 2 p) = true ∧
          resolve fs (fileScheme ++ p) base
            = (baseOr fs base).map fun _ => Path.normalize (Text.dropChars 2 p)) := by
  have hplain := resolve_plain fs base hslash htilde hvirtual hfile
  refine ⟨hplain, fun hsafe => ?_, fun hrooted => ?_⟩
  · rw [resolve_file, hplain]
    cases hdot : Text.startsWith p "./" with
    | false => rw [resolveFile_relative fs base hne hslash htilde hdot]
    | true =>
      obtain ⟨q, rfl⟩ : ∃ q, p = "./" ++ q := ⟨_, eq_append_of_startsWith hdot⟩
      have hq : Path.isAbsolute q = false := by
        rw [Text.startsWith, String.toList_append] at hsafe
        exact hsafe
      rw [resolveFile_dot]
      simp only [Path.normalize_join_dot hq]
  · obtain ⟨q, rfl⟩ : ∃ q, p = ".//" ++ q := ⟨_, eq_append_of_startsWith hrooted⟩
    have hsplit : ".//" ++ q = "./" ++ ("/" ++ q) := by
      rw [← String.append_assoc]
      rfl
    have hrest : Text.dropChars 2 (".//" ++ q) = "/" ++ q := by
      rw [Text.dropChars, String.toList_append]
      exact String.toList_inj.mp (by simp)
    have habsolute : Path.isAbsolute ("/" ++ q) = true := by
      rw [Path.isAbsolute, Text.startsWith, String.toList_append]
      rfl
    rw [hrest]
    refine ⟨habsolute, ?_⟩
    rw [resolve_file, hsplit, resolveFile_dot]
    simp only [Path.join_of_isAbsolute habsolute]

/-- The same script is found below the base with and without the scheme. With two slashes
behind the dot, the scheme leads out of the base. -/
theorem resolve_relative_dots :
    resolve {} "file://./b//../c.svm" (some "/a") = resolve {} "./b//../c.svm" (some "/a") ∧
      resolve {} ".//b" (some "/a") = .ok "/a/b" ∧
      resolve {} "file://.//b" (some "/a") = .ok "/b" := by
  obtain ⟨-, hsame, -⟩ := resolve_relative {} (some "/a") "./b//../c.svm" (by decide) (by decide)
    (by decide) (by decide) (by decide)
  obtain ⟨hplain, -, hrooted⟩ := resolve_relative {} (some "/a") ".//b" (by decide) (by decide)
    (by decide) (by decide) (by decide)
  refine ⟨hsame (by decide), hplain.trans (congrArg Except.ok ?_), ?_⟩
  · decide
  · exact (hrooted (by decide)).2.trans (congrArg Except.ok (by decide))

/-- **The scheme does make a difference to relative paths.** -/
theorem not_forall_resolve_relative :
    ¬∀ (fs : FileStore) (base : Option String) (p : String), p ≠ "" →
      Path.isAbsolute p = false → Text.startsWith p "~" = false → isVirtual p = false →
      Text.startsWith p fileScheme = false →
      resolve fs (fileScheme ++ p) base = resolve fs p base := by
  intro h
  have hsame : resolve {} (fileScheme ++ ".//b") (some "/a") = resolve {} ".//b" (some "/a") :=
    h {} (some "/a") ".//b" (by decide) (by decide) (by decide) (by decide) (by decide)
  have hpaths : Path.normalize "/b" = Path.normalize "/a/.//b" := Except.ok.inj hsame
  exact absurd hpaths (by decide)

end ScopeScript.Locator
