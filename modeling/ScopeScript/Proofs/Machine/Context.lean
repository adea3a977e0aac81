import ScopeScript.Proofs.Machine.Blame
import ScopeScript.Proofs.Text.Lines
import ScopeScript.Report

/-!
# The line that a report points out

A runner that reports an error shows some lines of the source, and points out one of them
and a character in it (`ScopeScript.pointedOut`). It takes line and column from the place of
the error, where the scanner has counted them, and it takes the lines from a cut of the
source at all line boundaries. **The report points out the character that the error is
about just if the two notions of a line agree up to that character**
(`ScopeScript.Machine.report_points_out`): all line boundaries in front of it have to be
newlines outside quotes, and it must not be a line break itself. Since the scanner counts no
other line ends than these, a line that is reported does exist, if maybe too far up.

The first part is about the text that is shown, for any line and column, and the second
about the places that errors are reported for.
-/

namespace ScopeScript

/-! ### What is pointed out -/

/-- **The entry that is pointed out** in the lines that are shown, with the entry below it,
which holds the caret. -/
def pointedOut (context : String) : Option (String × String) :=
  match (Text.splitAtChar '\n' context).dropWhile fun entry => !Text.startsWith entry ">" with
  | marked :: caret :: _ => some (marked, caret)
  | _ => none

/-- **A line that is pointed out, with its number and the caret under one of its columns.**
Number and caret are aligned if the number fits the width. -/
def mark (width : Nat) (number : Int) (text : String) (column : Nat) : String × String :=
  ("> " ++ padLeft width (toString number) ++ " | " ++ text,
    "  " ++ repeatText width " " ++ " | " ++ repeatText column " " ++ "^")

theorem toList_repeatText (n : Nat) (c : Char) :
    (repeatText n (String.singleton c)).toList = List.replicate n c := by
  rw [repeatText, String.toList_join]
  induction n with
  | zero => rfl
  | succ n ih => rw [List.replicate_succ, List.flatMap_cons, ih, List.replicate_succ]; simp

theorem toList_padLeft (width : Nat) (s : String) :
    (padLeft width s).toList = List.replicate (width - s.length) ' ' ++ s.toList := by
  rw [padLeft, String.toList_append]
  exact congrArg (· ++ s.toList) (toList_repeatText _ ' ')

theorem isDigit_of_mem_repr {n : Nat} {c : Char} (h : c ∈ n.repr.toList) : c.isDigit = true := by
  rw [Nat.toList_repr] at h
  exact Nat.isDigit_of_mem_toDigits (by decide) (by decide) h

/-- A number has no newline in it. -/
theorem newline_not_mem_toString (number : Int) : '\n' ∉ (toString number).toList := by
  have hnat : ∀ n : Nat, '\n' ∉ n.repr.toList :=
    fun n hmem => absurd (isDigit_of_mem_repr hmem) (by decide)
  cases number with
  | ofNat n => exact hnat n
  | negSucc n =>
    have htext : toString (Int.negSucc n) = "-" ++ (n + 1).repr := rfl
    rw [htext, String.toList_append, List.mem_append, not_or]
    exact ⟨by decide, hnat (n + 1)⟩

/-! ### The lines that are shown -/

section Lines

variable {width : Nat} {marked first : Int} {column : Option Int}

/-- A line that is not marked. -/
theorem contextLines_cons_of_ne (h : first ≠ marked) (text : String) (rest : List String) :
    contextLines width marked column first (text :: rest)
      = (" " ++ " " ++ padLeft width (toString first) ++ " | " ++ text)
        :: contextLines width marked column (first + 1) rest := by
  have hne : (first == marked) = false := beq_eq_false_iff_ne.mpr h
  simp [contextLines, hne]

/-- The marked line, with the caret under it. -/
theorem contextLines_cons_self (c : Int) (text : String) (rest : List String) :
    contextLines width marked (some c) marked (text :: rest)
      = (mark width marked text (c - 1).toNat).1 :: (mark width marked text (c - 1).toNat).2
        :: contextLines width marked (some c) (marked + 1) rest := by
  simp [contextLines, mark]

/-- Where the marked line is not among them, no line is pointed out. -/
theorem not_startsWith_contextLines {texts : List String}
    (h : marked < first ∨ first + texts.length ≤ marked) :
    ∀ entry ∈ contextLines width marked column first texts,
      Text.startsWith entry ">" = false := by
  induction texts generalizing first with
  | nil => simp [contextLines]
  | cons text rest ih =>
    simp only [List.length_cons] at h
    rw [contextLines_cons_of_ne (by omega)]
    intro entry hentry
    rcases List.mem_cons.mp hentry with rfl | hrest
    · simp [Text.startsWith, List.isPrefixOf]
    · exact ih (by omega) entry hrest

/-- Lines that come before the marked one are shown in front of it. -/
theorem contextLines_append {above : List String} (h : first + above.length ≤ marked)
    (rest : List String) :
    contextLines width marked column first (above ++ rest)
      = contextLines width marked column first above
        ++ contextLines width marked column (first + above.length) rest := by
  induction above generalizing first with
  | nil => simp [contextLines]
  | cons text above ih =>
    simp only [List.length_cons] at h ⊢
    have hnext : first + 1 + (above.length : Int) = first + ((above.length + 1 : Nat) : Int) := by
      omega
    rw [List.cons_append, contextLines_cons_of_ne (by omega), contextLines_cons_of_ne (by omega),
      ih (by omega), hnext]
    rfl

theorem newline_not_mem_blanks (n : Nat) : '\n' ∉ (repeatText n " ").toList := by
  intro hmem
  have hreplicate : '\n' ∈ List.replicate n ' ' := toList_repeatText n ' ' ▸ hmem
  exact absurd (List.eq_of_mem_replicate hreplicate) (by decide)

theorem newline_not_mem_padLeft (width : Nat) (number : Int) :
    '\n' ∉ (padLeft width (toString number)).toList := by
  rw [padLeft, String.toList_append, List.mem_append, not_or]
  exact ⟨newline_not_mem_blanks _, newline_not_mem_toString number⟩

/-- Lines without newlines are shown without newlines. -/
theorem newline_not_mem_contextLines {texts : List String} {c : Int}
    (h : ∀ text ∈ texts, '\n' ∉ text.toList) :
    ∀ entry ∈ contextLines width marked (some c) first texts, '\n' ∉ entry.toList := by
  induction texts generalizing first with
  | nil => simp [contextLines]
  | cons text rest ih =>
    have htext := h text List.mem_cons_self
    have hnumber := newline_not_mem_padLeft width first
    intro entry hentry
    by_cases hfirst : first = marked
    · subst hfirst
      rw [contextLines_cons_self] at hentry
      rcases List.mem_cons.mp hentry with rfl | hentry
      · simp only [mark, String.toList_append, List.mem_append, not_or]
        exact ⟨⟨⟨by decide, hnumber⟩, by decide⟩, htext⟩
      · rcases List.mem_cons.mp hentry with rfl | hentry
        · simp only [mark, String.toList_append, List.mem_append, not_or]
          exact ⟨⟨⟨⟨by decide, newline_not_mem_blanks _⟩, by decide⟩, newline_not_mem_blanks _⟩,
            by decide⟩
        · exact ih (fun u hu => h u (List.mem_cons_of_mem text hu)) entry hentry
    · rw [contextLines_cons_of_ne hfirst] at hentry
      rcases List.mem_cons.mp hentry with rfl | hentry
      · simp only [String.toList_append, List.mem_append, not_or]
        exact ⟨⟨⟨⟨by decide, by decide⟩, hnumber⟩, by decide⟩, htext⟩
      · exact ih (fun u hu => h u (List.mem_cons_of_mem text hu)) entry hentry

/-- **Of lines that are shown the marked one is pointed out**, with the caret under it. -/
theorem pointedOut_contextLines {above below : List String} {text : String} {c : Int}
    (hmarked : first + above.length = marked)
    (hlines : ∀ u ∈ above ++ text :: below, '\n' ∉ u.toList) :
    pointedOut ("\n".intercalate
        (contextLines width marked (some c) first (above ++ text :: below)))
      = some (mark width marked text (c - 1).toNat) := by
  have hnone : ∀ entry ∈ contextLines width marked (some c) first above,
      Text.startsWith entry ">" = false :=
    not_startsWith_contextLines (Or.inr (Int.le_of_eq hmarked))
  have hshown : contextLines width marked (some c) first (above ++ text :: below)
      = contextLines width marked (some c) first above ++
        (mark width marked text (c - 1).toNat).1 :: (mark width marked text (c - 1).toNat).2 ::
          contextLines width marked (some c) (marked + 1) below := by
    rw [contextLines_append (Int.le_of_eq hmarked), hmarked, contextLines_cons_self]
  have hentries : ∀ entry ∈ contextLines width marked (some c) first (above ++ text :: below),
      '\n' ∉ entry.toList := newline_not_mem_contextLines hlines
  rw [hshown] at hentries ⊢
  -- the entries can be read off the text, and those in front of the marked one are passed
  have hsplit : ∀ entries : List String, entries ≠ [] → (∀ entry ∈ entries, '\n' ∉ entry.toList) →
      Text.splitAtChar '\n' ("\n".intercalate entries) = entries := by
    intro entries hne hnewline
    rcases entries with - | ⟨entry, rest⟩
    · exact absurd rfl hne
    · exact Text.splitAtChar_intercalate hnewline
  have hpass : ∀ entry ∈ contextLines width marked (some c) first above,
      (!Text.startsWith entry ">") = true := fun entry hentry => by rw [hnone entry hentry]; rfl
  rw [pointedOut, hsplit _ (by simp) hentries, List.dropWhile_append_of_pos hpass,
    List.dropWhile_cons_of_neg]
  simp [mark, Text.startsWith, List.isPrefixOf]

end Lines

/-- A number that is not greater is not longer. -/
theorem length_repr_le {m n : Nat} (h : m ≤ n) : m.repr.length ≤ n.repr.length := by
  have hpos := Nat.length_repr_pos (n := n)
  have hn := (Nat.length_repr_le_iff hpos).mp (Nat.le_refl _)
  exact (Nat.length_repr_le_iff hpos).mpr (Nat.lt_of_le_of_lt h hn)

/-- There are no newlines in the lines of a text. -/
theorem newline_not_mem_splitLines {source text : String} (h : text ∈ Text.splitLines source) :
    '\n' ∉ text.toList := by
  intro hmem
  obtain ⟨cs, hcs, rfl⟩ := List.mem_map.mp h
  rw [String.toList_ofList] at hmem
  have hline : ∀ c ∈ ([] : List Char), Text.isLineBreak c = false := fun c hc => nomatch hc
  exact absurd (Text.not_isLineBreak_of_mem hline hcs '\n' hmem) (by decide)

/-- **What is shown of a source** are the lines from some line on up to another, with the
line that is asked for between them. -/
theorem sourceContext_eq {source : String} {n : Nat} (hn : n < (Text.splitLines source).length)
    (c : Int) {radius : Int} (hradius : 0 ≤ radius) :
    ∃ a b : Nat, a ≤ n ∧ n < b ∧
      sourceContext source ((n : Int) + 1) (some c) radius
        = "\n".intercalate (contextLines (toString (b : Int)).length ((n : Int) + 1) (some c)
            ((a : Int) + 1) (((Text.splitLines source).drop a).take (b - a))) := by
  set lines := Text.splitLines source with hlines
  obtain ⟨a, ha, hfirst⟩ : ∃ a : Nat, a ≤ n ∧ max 1 ((n : Int) + 1 - radius) = a + 1 :=
    ⟨(max 1 ((n : Int) + 1 - radius) - 1).toNat, by omega, by omega⟩
  obtain ⟨b, hb, hlast⟩ : ∃ b : Nat,
      n < b ∧ min (lines.length : Int) ((n : Int) + 1 + radius) = b :=
    ⟨(min (lines.length : Int) ((n : Int) + 1 + radius)).toNat, by omega, by omega⟩
  have hexists :
      ¬(((n : Int) + 1 < 1 || decide ((lines.length : Int) < (n : Int) + 1)) = true) := by
    simp
    omega
  refine ⟨a, b, ha, hb, ?_⟩
  rw [sourceContext, ← hlines, if_neg hexists]
  dsimp only
  rw [hfirst, hlast, show ((a : Int) + 1 - 1).toNat = a by omega,
    show ((b : Int) - (a + 1) + 1).toNat = b - a by omega]

/-- **What is shown of a source points out the line that is asked for**, and the column
in it. -/
theorem pointedOut_sourceContext {source text : String} {n : Nat}
    (htext : (Text.splitLines source)[n]? = some text) (c : Int) {radius : Int}
    (hradius : 0 ≤ radius) :
    ∃ width, (toString ((n : Int) + 1)).length ≤ width ∧
      pointedOut (sourceContext source ((n : Int) + 1) (some c) radius)
        = some (mark width ((n : Int) + 1) text (c - 1).toNat) := by
  obtain ⟨hn, -⟩ := List.getElem?_eq_some_iff.mp htext
  obtain ⟨a, b, ha, hb, hcontext⟩ := sourceContext_eq hn c hradius
  set shown := ((Text.splitLines source).drop a).take (b - a)
  have hplain : ∀ u ∈ shown, '\n' ∉ u.toList := fun u hu =>
    newline_not_mem_splitLines (List.mem_of_mem_drop (List.mem_of_mem_take hu))
  -- the marked line among those that are shown
  have hshown : shown[n - a]? = some text := by
    rw [List.getElem?_take_of_lt (by omega), List.getElem?_drop, ← htext]
    congr 1
    omega
  obtain ⟨hlt, hget⟩ := List.getElem?_eq_some_iff.mp hshown
  have hsplit : shown = shown.take (n - a) ++ text :: shown.drop (n - a + 1) := by
    rw [← hget, ← List.drop_eq_getElem_cons hlt, List.take_append_drop]
  have habove : (a : Int) + 1 + (shown.take (n - a)).length = (n : Int) + 1 := by
    rw [List.length_take, Nat.min_eq_left (Nat.le_of_lt hlt)]
    omega
  refine ⟨(toString (b : Int)).length, length_repr_le (m := n + 1) hb, ?_⟩
  rw [hsplit] at hplain hcontext
  rw [hcontext]
  exact pointedOut_contextLines habove hplain

/-- The blanks in front of a caret tell the width, and those behind the bar the column. -/
theorem caret_inj {w w' a a' : Nat}
    (h : "  " ++ repeatText w " " ++ " | " ++ repeatText a " " ++ "^"
      = "  " ++ repeatText w' " " ++ " | " ++ repeatText a' " " ++ "^") : w = w' ∧ a = a' := by
  have hchars : ∀ w a : Nat, ("  " ++ repeatText w " " ++ " | " ++ repeatText a " " ++ "^").toList
      = List.replicate (2 + w + 1) ' ' ++ '|' :: ' ' :: (List.replicate a ' ' ++ ['^']) := by
    intro w a
    have hblanks : ∀ n, (repeatText n " ").toList = List.replicate n ' ' :=
      fun n => toList_repeatText n ' '
    simp [hblanks, List.replicate_add]
  have hlist := congrArg String.toList h
  rw [hchars, hchars] at hlist
  have hindent : ∀ n (rest : List Char),
      ((List.replicate n ' ' ++ '|' :: rest).takeWhile (· == ' ')).length = n := by
    intro n rest
    rw [List.takeWhile_append_of_pos (by simp), List.takeWhile_cons_of_neg (by decide)]
    simp
  have hwidth := congrArg (fun cs => (cs.takeWhile (· == ' ')).length) hlist
  simp only [hindent] at hwidth
  have hlength := congrArg List.length hlist
  simp only [List.length_append, List.length_cons, List.length_replicate,
    List.length_nil] at hlength
  omega

/-- A number can be read off where it is filled up with blanks. -/
theorem padLeft_inj {w m n : Nat} (h : padLeft w m.repr = padLeft w n.repr) : m = n := by
  have hdigits : ∀ n : Nat, (padLeft w n.repr).toList.dropWhile (· == ' ') = n.repr.toList := by
    intro n
    rw [toList_padLeft, List.dropWhile_append_of_pos (by simp), List.dropWhile_eq_self_iff]
    intro hpos hblank
    have hdigit := isDigit_of_mem_repr (List.getElem_mem hpos)
    rw [beq_iff_eq.mp hblank] at hdigit
    exact absurd hdigit (by decide)
  have hsame : m.repr.toList = n.repr.toList := by rw [← hdigits m, h, hdigits n]
  rw [Nat.toList_repr, Nat.toList_repr] at hsame
  rw [← Nat.ofDigitChars_ten_toDigits (n := m), hsame, Nat.ofDigitChars_ten_toDigits]

/-- **Number, line and column can be read off what is pointed out**, where the numbers fit
their widths. -/
theorem mark_inj {w w' n n' a a' : Nat} {text text' : String}
    (hw : (toString ((n : Int) + 1)).length ≤ w) (hw' : (toString ((n' : Int) + 1)).length ≤ w')
    (h : mark w ((n : Int) + 1) text a = mark w' ((n' : Int) + 1) text' a') :
    n = n' ∧ text = text' ∧ a = a' := by
  obtain ⟨hmarked, hcaret⟩ := Prod.mk.inj h
  obtain ⟨rfl, rfl⟩ := caret_inj hcaret
  -- the numbers are filled up to the same width
  have hlength : ∀ {number : Int}, (toString number).length ≤ w →
      (padLeft w (toString number)).toList.length = w := by
    intro number hfits
    rw [toList_padLeft, List.length_append, List.length_replicate, String.length_toList]
    omega
  have hlist := congrArg String.toList hmarked
  simp only [String.toList_append, List.append_assoc] at hlist
  obtain ⟨hnumber, hrest⟩ := List.append_inj (List.append_cancel_left hlist)
    ((hlength hw).trans (hlength hw').symm)
  have hsucc : n + 1 = n' + 1 := padLeft_inj (String.toList_inj.mp hnumber)
  exact ⟨Nat.succ.inj hsucc, String.toList_inj.mp (List.append_cancel_left hrest), rfl⟩

/-! ### Two notions of a line -/

theorem length_lineEnds (quote : Option Char) (cs : List Char) :
    (lineEnds quote cs).length = cs.length := by
  induction cs generalizing quote with
  | nil => rfl
  | cons c cs ih => rw [lineEnds, List.length_cons, ih, List.length_cons]

theorem lineEnds_append (quote : Option Char) (cs ds : List Char) :
    lineEnds quote (cs ++ ds) = lineEnds quote cs ++ lineEnds (cs.foldl quoteAfter quote) ds := by
  induction cs generalizing quote with
  | nil => rfl
  | cons c cs ih => rw [List.cons_append, lineEnds, ih, lineEnds, List.cons_append, List.foldl_cons]

/-- **Where a line ends for a scanner, there is a line boundary.** -/
theorem refines_lineEnds (quote : Option Char) (cs : List Char) :
    Text.Refines (lineEnds quote cs) (Text.boundaries cs) := by
  fun_induction Text.boundaries cs generalizing quote with
  | case1 => exact .nil
  | case2 rest ih =>
    refine .cons (fun hend => ?_) (.cons (fun _ => rfl) (ih _))
    rw [Bool.and_eq_true] at hend
    exact absurd hend.2 (by decide)
  | case3 c rest _ ih =>
    refine .cons (fun hend => ?_) (ih _)
    rw [Bool.and_eq_true, beq_iff_eq] at hend
    rw [hend.2]
    decide

/-- Up to a character of a source. -/
theorem refines_lineEnds_take {source read : List Char} {rest : List Char}
    (h : source = read ++ rest) :
    Text.Refines (lineEnds none read) ((Text.boundaries source).take read.length) := by
  subst h
  have hall := List.forall₂_take read.length (refines_lineEnds none (read ++ rest))
  rwa [lineEnds_append, List.take_left' (length_lineEnds none read)] at hall

theorem line_placeAfter (name : String) (read : List Char) :
    (placeAfter name read).line = (Text.row (lineEnds none read) : Int) + 1 :=
  Int.add_comm _ _

theorem column_placeAfter (name : String) (read : List Char) :
    (placeAfter name read).column = 1 + (Text.column 0 (lineEnds none read) : Int) := by
  rw [placeAfter, Text.length_takeWhile_reverse]

/-- **What is shown points out a character of the source**: the line that it stands in by
the line boundaries in front of it, and its column there. -/
structure PointsAt (context source : String) (k : Nat) (c : Char) : Prop where
  /-- The character is in a line at all. -/
  shows : Text.isLineBreak c = false
  /-- Its line is pointed out, and its column. -/
  marked : ∃ width text,
    (Text.splitLines source)[Text.row ((Text.boundaries source.toList).take k)]? = some text ∧
    text.toList[Text.column 0 ((Text.boundaries source.toList).take k)]? = some c ∧
    (toString ((Text.row ((Text.boundaries source.toList).take k) : Int) + 1)).length ≤ width ∧
    pointedOut context
      = some (mark width ((Text.row ((Text.boundaries source.toList).take k) : Int) + 1) text
          (Text.column 0 ((Text.boundaries source.toList).take k)))

/-- What is shown for the place of a character. -/
def contextAt (source : String) (place : Location) : String :=
  sourceContext source place.line (some place.column) contextRadius

/-- **For every place there is a line to point out**, in which the scanner's count is
followed. -/
theorem pointedOut_contextAt {source : String} {read rest : List Char} {c : Char}
    (h : source.toList = read ++ c :: rest) (name : String) :
    ∃ width text, (Text.splitLines source)[Text.row (lineEnds none read)]? = some text ∧
      (toString ((Text.row (lineEnds none read) : Int) + 1)).length ≤ width ∧
      pointedOut (contextAt source (placeAfter name read))
        = some (mark width ((Text.row (lineEnds none read) : Int) + 1) text
            (Text.column 0 (lineEnds none read))) := by
  have hlt : Text.row (lineEnds none read) < (Text.splitLines source).length := by
    rw [Text.splitLines, List.length_map]
    refine Nat.lt_of_le_of_lt (refines_lineEnds_take h).row_le (Text.row_lt_length [] ?_)
    rw [h]
    simp
  have hradius : 0 ≤ contextRadius := by decide
  obtain ⟨width, hwidth, hpointed⟩ := pointedOut_sourceContext (List.getElem?_eq_getElem hlt)
    (placeAfter name read).column hradius
  refine ⟨width, _, List.getElem?_eq_getElem hlt, hwidth, ?_⟩
  rw [contextAt, line_placeAfter, hpointed, column_placeAfter]
  congr 2
  omega

/-- **The right character is pointed out just if the two notions of a line agree up to
it.** -/
theorem pointsAt_iff {source : String} {read rest : List Char} {c : Char}
    (h : source.toList = read ++ c :: rest) (name : String) :
    PointsAt (contextAt source (placeAfter name read)) source read.length c ↔
      Text.isLineBreak c = false ∧
        lineEnds none read = (Text.boundaries source.toList).take read.length := by
  obtain ⟨width, text, htext, hwidth, hpointed⟩ := pointedOut_contextAt h name
  constructor
  · rintro ⟨hshows, width', text', htext', -, hwidth', hpointed'⟩
    have hmark := Option.some.inj (hpointed.symm.trans hpointed')
    exact ⟨hshows, (Text.row_eq_iff (refines_lineEnds_take h)).mp (mark_inj hwidth hwidth' hmark).1⟩
  · rintro ⟨hshows, hsame⟩
    have hc : source.toList[read.length]? = some c := by rw [h]; simp
    obtain ⟨text', htext', hcolumn⟩ := Text.getElem?_splitLines hc hshows
    rw [hsame] at htext hwidth hpointed
    obtain rfl := Option.some.inj (htext.symm.trans htext')
    exact ⟨hshows, width, text, htext, hcolumn, hwidth, hpointed⟩

/-! ### Reports -/

namespace Machine

variable {m m' : Machine} {source name : String} {report : Report} {e : ScriptError}

/-- A piece of source as a script. -/
def sourceScript (name source : String) : Script :=
  { path := Locator.virtualScheme ++ name, name, content := some source, state := .loaded }

/-- A machine with a piece of source for its only script. -/
def holding (m : Machine) (name source : String) : Machine :=
  { m.reset with scripts := [sourceScript name source] }

/-- **A runner that reports an error has met it in a run of the source.** -/
theorem runSource_error (hrun : m.runSource source name = (.ok report, m'))
    (he : report.error = some e) :
    source ≠ "" ∧ report = .ofError e source ∧
      ((m.holding name source).run {}).1 = .error (.script e) := by
  have hne : source.isEmpty = false := by
    refine eq_false_of_ne_true fun hempty => ?_
    rw [runSource, if_pos hempty] at hrun
    cases hrun
    cases he
  have hadd : m.reset.addScript (Script.named (Locator.virtualScheme ++ name) name (some source))
      = .ok (m.holding name source) := by
    rw [Script.named, hne]
    rfl
  rw [runSource, hne, if_neg Bool.false_ne_true, hadd] at hrun
  dsimp only at hrun
  refine ⟨by simpa using hne, ?_⟩
  split at hrun
  · cases hrun
    cases he
  · rename_i e' _ hr
    cases hrun
    cases he
    exact ⟨rfl, congrArg Prod.fst hr⟩
  · cases hrun

/-- **A piece of source is parsed, and nothing else happens before it is run.** -/
theorem prepare_holding (m : Machine) (name source : String) (files : Nat → FileStore) :
    (∃ e m₁, (m.holding name source).prepare files = (.error e, m₁) ∧
        (({} : Scanner).parse name (some source)).failure? = some e) ∨
      ∃ t m₁, (m.holding name source).prepare files = (.ok (), m₁) ∧
        (sourceScript name source).HasTree t ∧
        m₁.code = ((m.holding name source).addTree t).code ∧
        m₁.scripts = [(sourceScript name source).advance .parsed] := by
  obtain ⟨out, script, m₁, hdeals, -, hprepare⟩ :=
    (m.holding name source).prepareFrom_cons files [] (sourceScript name source) []
  cases hdeals with
  | kept hs => exact absurd hs (by simp [Script.IsParsed, sourceScript, ScriptState.rank])
  | @stuck _ e _ hstuck =>
    rcases hstuck with ⟨hinitial, -⟩ | ⟨hload, -, hfail⟩
    · cases hinitial
    · obtain ⟨-, rfl⟩ := hload.resolve_left (by rintro ⟨hinitial, -⟩; cases hinitial)
      exact Or.inl ⟨e, _, hprepare, hfail {}⟩
  | @parsed s₁ t _ hload _ htree hcode =>
    obtain ⟨-, rfl⟩ := hload.resolve_left (by rintro ⟨hinitial, -⟩; cases hinitial)
    exact Or.inr ⟨t, _, hprepare, htree, hcode, rfl⟩

/-- **An error that a runner reports is at a character of the source**, unless a native
function has reported it. -/
theorem placeOf_error (hne : source ≠ "")
    (hrun : ((m.holding name source).run {}).1 = .error (.script e))
    (hreports : ¬m.code.Reports e) :
    ∃ place, e.location = some place ∧ Scanner.PlaceOf name source place := by
  have hlocated := ({} : Scanner).located_parse name hne
  rcases m.prepare_holding name source fun _ => {} with
    ⟨e', m₁, hprepare, hfail⟩ | ⟨t, m₁, hprepare, htree, hcode, hscripts⟩
  · rw [run, runAmid, hprepare] at hrun
    cases hrun
    exact hlocated.failure hfail
  · have hhas : m₁.HasTrees m₁.scripts := by
      intro i k hi
      rw [hcode, program_addTree] at hi
      obtain ⟨rfl, rfl⟩ : i = 0 ∧ (m.holding name source).code.forest.trees.size = k := by
        rcases i with - | i
        · exact ⟨rfl, Option.some.inj hi⟩
        · cases hi
      rw [hscripts, hcode]
      exact ⟨_, t, rfl, tree?_addTree_new _ t, htree.advance .parsed⟩
    have hnative : ¬m₁.code.Reports e := by
      rw [hcode]
      exact hreports
    obtain ⟨script, source', i, n, hblames⟩ := blamed_call hhas hprepare hrun hnative
    have hscript := hblames.registered
    rw [hscripts, List.mem_singleton] at hscript
    subst hscript
    obtain ⟨x, hx, hn⟩ := hblames.parsed
    obtain rfl : source = source' := Option.some.inj hblames.content
    have hx' : ({} : Scanner).parse name (some source) = .ok x := hx
    rw [hx'] at hlocated
    exact ⟨n.location, hblames.place, hlocated.nodes i n hn⟩

/-- An error at a place of the source is reported with the lines around it. -/
theorem inContext_of_location {read rest : List Char} {c : Char}
    (h : source.toList = read ++ c :: rest) (he : e.location = some (placeAfter name read)) :
    e.inContext source = e.format ++ "\n" ++ contextAt source (placeAfter name read) := by
  have hne : (contextAt source (placeAfter name read)).isEmpty = false := by
    obtain ⟨width, text, -, -, hpointed⟩ := pointedOut_contextAt h name
    refine eq_false_of_ne_true fun hempty => ?_
    rw [String.isEmpty_iff.mp hempty] at hpointed
    cases hpointed
  simp only [contextAt] at hne ⊢
  simp [ScriptError.inContext, he, hne]

/-- **A report points out the character that the error is about just if the scanner and the
cut into lines agree up to it.** Every error that a runner reports, and no native function
has, is at a character of the source, and is reported with the lines around it. The line of
the scanner's count is pointed out, and the column of its count. This is where the
character stands just if the line boundaries in front of it are the newlines outside quotes
and no others, and it is no line break. -/
theorem report_points_out (m : Machine) (source name : String) {report : Report} {m' : Machine}
    {e : ScriptError} (hrun : m.runSource source name = (.ok report, m'))
    (he : report.error = some e) (hreports : ¬m.code.Reports e) :
    ∃ read c rest context, source.toList = read ++ c :: rest ∧
      report.location = some (placeAfter name read) ∧
      report.message = some (e.format ++ "\n" ++ context) ∧
      (∃ width text, (Text.splitLines source)[Text.row (lineEnds none read)]? = some text ∧
        pointedOut context = some (mark width (placeAfter name read).line text
          (Text.column 0 (lineEnds none read)))) ∧
      (PointsAt context source read.length c ↔
        Text.isLineBreak c = false ∧
          lineEnds none read = (Text.boundaries source.toList).take read.length) := by
  obtain ⟨hne, rfl, hfails⟩ := runSource_error hrun he
  obtain ⟨place, hplace, k, hk, rfl⟩ := placeOf_error hne hfails hreports
  have hlt : k < source.toList.length := by rwa [String.length_toList]
  have hsource : source.toList
      = source.toList.take k ++ source.toList[k] :: source.toList.drop (k + 1) := by
    rw [← List.drop_eq_getElem_cons hlt, List.take_append_drop]
  obtain ⟨width, text, htext, -, hpointed⟩ := pointedOut_contextAt hsource name
  refine ⟨_, _, _, contextAt source (placeAfter name (source.toList.take k)), hsource, hplace, ?_,
    ⟨width, text, htext, ?_⟩, pointsAt_iff hsource name⟩
  · exact congrArg some (inContext_of_location hsource hplace)
  · rw [hpointed, line_placeAfter]

/-- The error about a parenthesis that closes nothing. -/
def strayError (read : List Char) : ScriptError :=
  { fault := .unexpected .closeParen, location := some (placeAfter "m" read) }

theorem not_reports_stray (read : List Char) : ¬(new {}).code.Reports (strayError read) := by
  intro h
  obtain ⟨reason, herror⟩ := Code.unwritable_of_reports rfl h
  cases herror

theorem runSource_stray (source : String) (read : List Char) (hne : source ≠ "")
    (hfail : (({} : Scanner).parse "m" (some source)).failure? = some (.script (strayError read))) :
    ∃ m', (new {}).runSource source "m" = (.ok (.ofError (strayError read) source), m') := by
  have hall := fun s : Scanner => (s.failure?_parse "m" (some source)).trans hfail
  exact ⟨_, Prod.ext (runSource_of_failure hne hall (new {})) rfl⟩

/-- The newline in front of the stray parenthesis is outside quotes, and so the report points
out the parenthesis. -/
theorem report_points_out_newline :
    ∃ report m' context, (new {}).runSource ";\n)" "m" = (.ok report, m') ∧
      report.message = some ("Syntax: unexpected ')' at m:2:1\n" ++ context) ∧
      PointsAt context ";\n)" 2 ')' := by
  obtain ⟨m', hrun⟩ := runSource_stray ";\n)" [';', '\n'] (by decide) rfl
  obtain ⟨read, c, rest, context, hsource, hlocation, hmessage, -, hiff⟩ :=
    report_points_out (new {}) ";\n)" "m" hrun rfl (not_reports_stray _)
  have hsource' : [';', '\n'] ++ [')'] = read ++ c :: rest := hsource
  obtain ⟨rfl, hrest⟩ := append_inj_of_placeAfter (Option.some.inj hlocation) hsource'
  obtain ⟨rfl, rfl⟩ := List.cons.inj hrest
  exact ⟨_, m', context, hrun, hmessage, hiff.mpr (by decide)⟩

/-- **Not every report points out the character that the error is about.** -/
theorem not_forall_report_points_out :
    ¬∀ (m : Machine) (source name : String) (report : Report) (m' : Machine) (e : ScriptError)
      (read rest : List Char) (c : Char) (context : String),
      m.runSource source name = (.ok report, m') → report.error = some e → ¬m.code.Reports e →
      source.toList = read ++ c :: rest → report.location = some (placeAfter name read) →
      report.message = some (e.format ++ "\n" ++ context) →
      PointsAt context source read.length c := by
  intro h
  -- the newline is in quotes
  obtain ⟨m', hrun⟩ := runSource_stray "'a\nb';)" "'a\nb';".toList (by decide) rfl
  have hsource : "'a\nb';)".toList = "'a\nb';".toList ++ ')' :: [] := rfl
  have hpoints := h (new {}) _ "m" _ m' _ _ [] ')' _ hrun rfl (not_reports_stray _) hsource rfl
    (congrArg some (inContext_of_location hsource rfl))
  exact absurd ((pointsAt_iff hsource "m").mp hpoints).2 (by decide)

end Machine

end ScopeScript
