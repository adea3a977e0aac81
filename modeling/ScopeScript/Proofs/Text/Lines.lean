import Mathlib.Data.List.Forall2
import ScopeScript.Proofs.Files.Path
import ScopeScript.Text.Lines

/-!
# Where a character stands among the lines of a text

A text is cut into lines at every line boundary. For each of its characters it can be said
whether a line ends with it (`ScopeScript.Text.boundaries`): a line break does so, but for
a carriage return in front of a newline, where the two end the line together. **The number
of boundaries in front of a character is the number of its line, and what stands between
the last of them and the character is in front of it in the line**
(`ScopeScript.Text.getElem?_splitLines`). Only the line breaks themselves are in no line.

Line and column are counted in the same way wherever lines are said to end
(`ScopeScript.Text.row`, `ScopeScript.Text.column`), so that two notions of a line can be
compared. If the one has every line end of the other and maybe more, **they place a
character in the same line just if they agree on all that stands in front of it**
(`ScopeScript.Text.row_eq_iff`).
-/

namespace ScopeScript.Text

/-! ### Lines and columns -/

/-- For every character of a text, whether a line ends with it. -/
def boundaries : List Char → List Bool
  | [] => []
  | '\r' :: '\n' :: rest => false :: true :: boundaries rest
  | c :: rest => isLineBreak c :: boundaries rest

/-- How many lines have ended. -/
def row (ends : List Bool) : Nat := ends.count true

/-- How many characters there are since the last line ended, if there were so many before
all of these. -/
def column (before : Nat) (ends : List Bool) : Nat :=
  ends.foldl (fun count ended => if ended then 0 else count + 1) before

@[simp] theorem row_cons (ended : Bool) (ends : List Bool) :
    row (ended :: ends) = (if ended then 1 else 0) + row ends := by
  cases ended <;> simp [row, Nat.add_comm]

@[simp] theorem column_cons (before : Nat) (ended : Bool) (ends : List Bool) :
    column before (ended :: ends) = column (if ended then 0 else before + 1) ends := rfl

/-- The column, counted from the end. -/
theorem length_takeWhile_reverse (ends : List Bool) :
    (ends.reverse.takeWhile (!·)).length = column 0 ends := by
  rw [column, ← List.foldr_reverse]
  induction ends.reverse with
  | nil => rfl
  | cons ended rest ih =>
    cases ended with
    | true => rfl
    | false => exact congrArg (· + 1) ih

/-! ### The lines of a text -/

/-- A line that has begun is the first one. -/
theorem head?_splitLinesFrom {line : List Char} (hline : line ≠ []) (cs : List Char) :
    ∃ more, (splitLinesFrom line cs)[0]? = some (line.reverse ++ more) := by
  fun_induction splitLinesFrom line cs with
  | case1 line hempty => exact absurd (by simpa using hempty) hline
  | case2 line _ => exact ⟨[], by simp⟩
  | case3 line rest _ => exact ⟨[], by simp⟩
  | case4 line c rest _ _ _ => exact ⟨[], by simp⟩
  | case5 line c rest _ _ ih =>
    obtain ⟨more, hmore⟩ := ih (List.cons_ne_nil _ _)
    exact ⟨c :: more, by simpa using hmore⟩

/-- **A character that is no line break stands in the line that is told by the boundaries in
front of it.** Of the line, `line` has been read before. -/
theorem getElem?_splitLinesFrom (line : List Char) {cs : List Char} {k : Nat} {c : Char}
    (hk : cs[k]? = some c) (hc : isLineBreak c = false) :
    ∃ text, (splitLinesFrom line cs)[row ((boundaries cs).take k)]? = some text ∧
      text[column line.length ((boundaries cs).take k)]? = some c := by
  fun_induction splitLinesFrom line cs generalizing k with
  | case1 | case2 => simp at hk
  | case3 line rest ih =>
    rcases k with - | - | k
    · obtain rfl := Option.some.inj hk
      exact absurd hc (by decide)
    · obtain rfl := Option.some.inj hk
      exact absurd hc (by decide)
    · obtain ⟨text, htext, hcolumn⟩ := ih hk
      refine ⟨text, ?_, by simpa [boundaries] using hcolumn⟩
      simpa [boundaries, Nat.add_comm 1] using htext
  | case4 line d rest hd hbreak ih =>
    rw [boundaries.eq_3 d rest hd, hbreak]
    rcases k with - | k
    · obtain rfl := Option.some.inj hk
      rw [hbreak] at hc
      cases hc
    · obtain ⟨text, htext, hcolumn⟩ := ih hk
      refine ⟨text, ?_, by simpa using hcolumn⟩
      simpa [Nat.add_comm 1] using htext
  | case5 line d rest hd hbreak ih =>
    rw [boundaries.eq_3 d rest hd, eq_false_of_ne_true hbreak]
    rcases k with - | k
    · obtain rfl := Option.some.inj hk
      obtain ⟨more, hmore⟩ := head?_splitLinesFrom (List.cons_ne_nil d line) rest
      exact ⟨_, by simpa [row] using hmore, by simp [column]⟩
    · obtain ⟨text, htext, hcolumn⟩ := ih hk
      exact ⟨text, by simpa using htext, by simpa using hcolumn⟩

/-- Every character is in front of the end of some line. -/
theorem row_lt_length (line : List Char) {cs : List Char} {k : Nat} (hk : k < cs.length) :
    row ((boundaries cs).take k) < (splitLinesFrom line cs).length := by
  fun_induction splitLinesFrom line cs generalizing k with
  | case1 | case2 => simp at hk
  | case3 line rest ih =>
    rcases k with - | - | k
    · simp [row]
    · simp [row, boundaries]
    · have hlt := ih (k := k) (by simpa using hk)
      simp [boundaries]
      omega
  | case4 line d rest hd hbreak ih =>
    rw [boundaries.eq_3 d rest hd, hbreak]
    rcases k with - | k
    · simp [row]
    · have hlt := ih (k := k) (by simpa using hk)
      simp
      omega
  | case5 line d rest hd hbreak ih =>
    rw [boundaries.eq_3 d rest hd, eq_false_of_ne_true hbreak]
    rcases k with - | k
    · obtain ⟨more, hmore⟩ := head?_splitLinesFrom (List.cons_ne_nil d line) rest
      have hpos := (List.getElem?_eq_some_iff.mp hmore).1
      simpa [row] using hpos
    · have hlt := ih (k := k) (by simpa using hk)
      simpa using hlt

/-- There are no line breaks in a line. -/
theorem not_isLineBreak_of_mem {line cs text : List Char}
    (hline : ∀ c ∈ line, isLineBreak c = false)
    (htext : text ∈ splitLinesFrom line cs) : ∀ c ∈ text, isLineBreak c = false := by
  fun_induction splitLinesFrom line cs with
  | case1 => cases htext
  | case2 line _ =>
    rw [List.mem_singleton.mp htext]
    simpa using hline
  | case3 line rest ih =>
    rcases List.mem_cons.mp htext with rfl | hmem
    · simpa using hline
    · exact ih (by simp) hmem
  | case4 line d rest _ _ ih =>
    rcases List.mem_cons.mp htext with rfl | hmem
    · simpa using hline
    · exact ih (by simp) hmem
  | case5 line d rest _ hbreak ih =>
    refine ih ?_ htext
    intro c hc
    rcases List.mem_cons.mp hc with rfl | hmem
    · exact eq_false_of_ne_true hbreak
    · exact hline c hmem

/-- **A character that is no line break stands in the line of its number, at its column.** -/
theorem getElem?_splitLines {s : String} {k : Nat} {c : Char} (hk : s.toList[k]? = some c)
    (hc : isLineBreak c = false) :
    ∃ text, (splitLines s)[row ((boundaries s.toList).take k)]? = some text ∧
      text.toList[column 0 ((boundaries s.toList).take k)]? = some c := by
  obtain ⟨text, htext, hcolumn⟩ := getElem?_splitLinesFrom [] hk hc
  refine ⟨String.ofList text, ?_, by simpa using hcolumn⟩
  rw [splitLines, List.getElem?_map, htext]
  rfl

/-! ### Two notions of a line -/

/-- Wherever a line ends by the first notion, it does by the second. -/
abbrev Refines : List Bool → List Bool → Prop := List.Forall₂ fun a b => a = true → b = true

theorem Refines.row_le {as bs : List Bool} (h : Refines as bs) : row as ≤ row bs := by
  induction h with
  | nil => exact Nat.le_refl _
  | @cons a b as bs hab _ ih =>
    rw [row_cons, row_cons]
    cases a with
    | true =>
      rw [hab rfl]
      omega
    | false =>
      rw [if_neg Bool.false_ne_true]
      omega

/-- **As many lines have ended by either notion just if they have ended in the same
places.** -/
theorem row_eq_iff {as bs : List Bool} (h : Refines as bs) : row as = row bs ↔ as = bs := by
  refine ⟨fun hrow => ?_, congrArg row⟩
  induction h with
  | nil => rfl
  | @cons a b as bs hab hrest ih =>
    have hle := Refines.row_le hrest
    rw [row_cons, row_cons] at hrow
    cases a with
    | true =>
      rw [hab rfl] at hrow ⊢
      rw [ih (by omega)]
    | false =>
      rw [if_neg Bool.false_ne_true] at hrow
      obtain rfl : b = false := by
        refine eq_false_of_ne_true fun hb => ?_
        rw [hb, if_pos rfl] at hrow
        omega
      rw [if_neg Bool.false_ne_true] at hrow
      rw [ih (by omega)]

/-! ### Texts with separators -/

/-- A text without the separator is one piece. -/
theorem splitAtChar_of_not_mem {sep : Char} {s : String} (h : sep ∉ s.toList) :
    splitAtChar sep s = [s] := by
  have hpiece : ∀ (piece cs : List Char), sep ∉ cs →
      splitWhereFrom (· == sep) piece cs = [piece.reverse ++ cs] := by
    intro piece cs
    induction cs generalizing piece with
    | nil => simp [splitWhereFrom]
    | cons c cs ih =>
      intro hmem
      obtain ⟨hne, hrest⟩ := not_or.mp (mt List.mem_cons.mpr hmem)
      rw [splitWhereFrom, if_neg (by simpa using Ne.symm hne), ih _ hrest]
      simp
  rw [splitAtChar, hpiece [] _ h]
  simp

/-- **Texts without the separator are the pieces of what is made of them.** -/
theorem splitAtChar_intercalate {sep : Char} {s : String} {rest : List String}
    (h : ∀ t ∈ s :: rest, sep ∉ t.toList) :
    splitAtChar sep ((String.singleton sep).intercalate (s :: rest)) = s :: rest := by
  induction rest generalizing s with
  | nil =>
    rw [String.intercalate_singleton]
    exact splitAtChar_of_not_mem (h s List.mem_cons_self)
  | cons t rest ih =>
    rw [String.intercalate_cons_cons, splitAtChar_append,
      splitAtChar_of_not_mem (h s List.mem_cons_self),
      ih fun u hu => h u (List.mem_cons_of_mem s hu)]
    rfl

end ScopeScript.Text
