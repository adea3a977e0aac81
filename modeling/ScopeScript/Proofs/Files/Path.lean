import ScopeScript.Files.Path

/-!
# Paths as lists of names

A path names something by a root and by the **names** between its slashes: empty parts
and dots say nothing. What is done to a path is therefore told by what it does to the root
and to the names, and two paths that have both in common are the same once they are
normalized (`ScopeScript.Path.normalize_congr`).

Joining a path to a base puts its names behind those of the base, as long as it is
**relative** (`ScopeScript.Path.names_join`, `ScopeScript.Path.root_join`); an absolute
path has no use for a base.
-/

namespace ScopeScript

namespace Text

/-! ### Splitting a text at a character -/

theorem splitWhereFrom_append {α : Type} {p : α → Bool} {c : α} (hc : p c = true)
    (piece xs ys : List α) :
    splitWhereFrom p piece (xs ++ c :: ys)
      = splitWhereFrom p piece xs ++ splitWhereFrom p [] ys := by
  induction xs generalizing piece with
  | nil => simp [splitWhereFrom, hc]
  | cons x xs ih =>
    rw [List.cons_append, splitWhereFrom, splitWhereFrom]
    split
    · rw [ih, List.cons_append]
    · exact ih _

/-- **Of two texts with a separator between them the pieces are those of both.** -/
theorem splitAtChar_append (sep : Char) (s t : String) :
    splitAtChar sep (s ++ String.singleton sep ++ t) = splitAtChar sep s ++ splitAtChar sep t := by
  have hchars : (s ++ String.singleton sep ++ t).toList = s.toList ++ sep :: t.toList := by simp
  have hpieces := splitWhereFrom_append (p := fun c => c == sep) (beq_self_eq_true sep)
    [] s.toList t.toList
  rw [splitAtChar, hchars, hpieces, List.map_append]
  rfl

end Text

namespace Path

/-! ### Names -/

/-- A slash separates names. -/
theorem names_append_slash (s t : String) : names (s ++ "/" ++ t) = names s ++ names t := by
  have hparts : parts (s ++ "/" ++ t) = parts s ++ parts t := Text.splitAtChar_append '/' s t
  rw [names, hparts, List.filter_append]
  rfl

theorem names_empty : names "" = [] := by decide

/-- A text that ends with a slash is some text with a slash behind it. -/
theorem exists_of_getLast_slash {s : String} (h : s.toList.getLast? = some '/') :
    ∃ t, s = t ++ "/" := by
  obtain ⟨cs, hcs⟩ := List.getLast?_eq_some_iff.mp h
  exact ⟨String.ofList cs, String.toList_inj.mp (by simpa using hcs)⟩

/-- **The names of a relative path stand behind those of the base.** -/
theorem names_join {p : String} (hp : isAbsolute p = false) (base : String) :
    names (join base p) = names base ++ names p := by
  rw [join, hp, if_neg Bool.false_ne_true]
  split
  · rename_i hbase
    rcases Bool.or_eq_true_iff.mp hbase with hempty | hslash
    · obtain rfl : base = "" := by simpa using hempty
      rw [names_empty, String.empty_append]
      rfl
    · obtain ⟨t, rfl⟩ := exists_of_getLast_slash (beq_iff_eq.mp hslash)
      have hnames : names (t ++ "/") = names t := by
        have h := names_append_slash t ""
        rwa [String.append_empty, names_empty, List.append_nil] at h
      rw [names_append_slash, hnames]
  · exact names_append_slash base p

/-- A dot names nothing. -/
theorem names_dot (p : String) : names ("./" ++ p) = names p := by
  have h := names_append_slash "." p
  rwa [show "." ++ "/" = "./" from rfl, show names "." = [] from by decide, List.nil_append] at h

/-! ### Roots -/

/-- How many slashes a path begins with is settled before a character that is no slash. -/
theorem slashes_prefix_iff {xs ys : List Char} {i : Nat} (hi : i ≤ xs.length)
    (hne : (xs ++ ys)[i]? ≠ some '/') (n : Nat) :
    List.replicate n '/' <+: xs ++ ys ↔ List.replicate n '/' <+: xs := by
  constructor
  · intro h
    have hle : n ≤ i := by
      refine Nat.le_of_not_lt fun hlt => hne ?_
      have hget := List.prefix_iff_getElem?.mp h i (by simpa using hlt)
      rw [hget, List.getElem_replicate]
    have hlength : (List.replicate n '/').length ≤ xs.length := by
      rw [List.length_replicate]
      exact Nat.le_trans hle hi
    exact List.prefix_of_prefix_length_le h (List.prefix_append xs ys) hlength
  · intro h
    exact h.trans (List.prefix_append xs ys)

/-- The root of a path is settled by the slashes that it begins with. -/
theorem root_congr {p q : String}
    (h : ∀ n, List.replicate n '/' <+: p.toList ↔ List.replicate n '/' <+: q.toList) :
    root p = root q := by
  have hstarts : ∀ n, Text.startsWith p (String.ofList (List.replicate n '/'))
      = Text.startsWith q (String.ofList (List.replicate n '/')) := by
    intro n
    rw [Bool.eq_iff_iff, Text.startsWith, Text.startsWith, String.toList_ofList,
      List.isPrefixOf_iff_prefix, List.isPrefixOf_iff_prefix]
    exact h n
  have hone : Text.startsWith p "/" = Text.startsWith q "/" := hstarts 1
  have htwo : Text.startsWith p "//" = Text.startsWith q "//" := hstarts 2
  have hthree : Text.startsWith p "///" = Text.startsWith q "///" := hstarts 3
  rw [root, root, isAbsolute, isAbsolute, hone, htwo, hthree]

theorem isAbsolute_iff {p : String} : isAbsolute p = true ↔ p.toList[0]? = some '/' := by
  rw [isAbsolute, Text.startsWith, List.isPrefixOf_iff_prefix, show "/".toList = ['/'] from rfl]
  cases p.toList with
  | nil => simp
  | cons c cs => simp [eq_comm]

/-- **The root of a relative path is that of the base.** -/
theorem root_join {p : String} (hp : isAbsolute p = false) (base : String) :
    root (join base p) = root base := by
  have hrelative : p.toList[0]? ≠ some '/' := by
    rw [Ne, ← isAbsolute_iff, hp]
    exact Bool.false_ne_true
  rw [join, hp, if_neg Bool.false_ne_true]
  split
  · refine root_congr fun n => ?_
    rw [String.toList_append]
    refine slashes_prefix_iff (Nat.le_refl base.toList.length) ?_ n
    rwa [List.getElem?_append_right (Nat.le_refl _), Nat.sub_self]
  · rename_i hbase
    -- the base ends with a character that is no slash
    obtain ⟨hne, hlast⟩ : base ≠ "" ∧ base.toList.getLast? ≠ some '/' := by simpa using hbase
    have hpos : 0 < base.toList.length :=
      List.length_pos_iff.mpr fun h => hne (String.toList_eq_nil_iff.mp h)
    refine root_congr fun n => ?_
    rw [String.append_assoc, String.toList_append]
    refine slashes_prefix_iff (i := base.toList.length - 1) (Nat.sub_le _ _) ?_ n
    rwa [List.getElem?_append_left (Nat.sub_lt hpos Nat.one_pos), ← List.getLast?_eq_getElem?]

/-! ### Normal forms -/

/-- **What a path is normalized to is told by its root and its names.** -/
theorem normalize_congr {p q : String} (hroot : root p = root q) (hnames : names p = names q) :
    normalize p = normalize q := by
  rw [normalize, normalize, hroot, hnames]

/-- A dot before a relative path makes no difference under a base. -/
theorem normalize_join_dot {p : String} (hp : isAbsolute p = false) (base : String) :
    normalize (join base ("./" ++ p)) = normalize (join base p) := by
  have hdot : isAbsolute ("./" ++ p) = false := by
    rw [isAbsolute, Text.startsWith, String.toList_append]
    rfl
  refine normalize_congr ?_ ?_
  · rw [root_join hdot, root_join hp]
  · rw [names_join hdot, names_join hp, names_dot]

/-- A base is of no use to an absolute path. -/
theorem join_of_isAbsolute {p : String} (hp : isAbsolute p = true) (base : String) :
    join base p = p := by
  rw [join, hp, if_pos rfl]

end Path

end ScopeScript
