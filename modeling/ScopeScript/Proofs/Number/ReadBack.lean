import ScopeScript.Proofs.Number.Shortest

/-!
# The text of a double reads back

Every double, written as a text, is read as the same double, with its sign, its zeros and the
words for what is no number (`ScopeScript.Number.readDouble_text`). So no two doubles have the
same text (`ScopeScript.Number.Double.text_injective`).

That the digits of the shortest decimal read back is the subject of
`ScopeScript.Proofs.Number.Shortest`. What is left is how they are laid out: with the point
among them, behind zeros, before zeros, or with an exponent. Each of these layouts is a case of
`ScopeScript.Number.Placed`, where the digits, the place of the point and the exponent say the
same number.
-/

namespace ScopeScript.Number

open Double

variable {neg : Bool} {e : Fin 2047} {f : Fin (1 <<< 52)} {ds cs rest : List Char} {top : Int}

/-! ### Digits -/

theorem digitsValue_eq (ds : List Char) : digitsValue ds = Nat.ofDigitChars 10 ds 0 := by
  rw [digitsValue, Nat.ofDigitChars_eq_foldl]
  simp only [Nat.mul_comm 10]
  rfl

theorem digitsValue_digitChars (n : Nat) : digitsValue (digitChars n) = n := by
  rw [digitsValue_eq, digitChars, Nat.ofDigitChars_ten_toDigits]

theorem digitsValue_append_zeros (ds : List Char) (n : Nat) :
    digitsValue (ds ++ List.replicate n '0') = digitsValue ds * 10 ^ n := by
  rw [digitsValue_eq, Nat.ofDigitChars_append, Nat.ofDigitChars_replicate_zero, ← digitsValue_eq,
    Nat.mul_comm]

theorem digitsValue_zeros_append (ds : List Char) (n : Nat) :
    digitsValue (List.replicate n '0' ++ ds) = digitsValue ds := by
  rw [digitsValue_eq, Nat.ofDigitChars_append, Nat.ofDigitChars_replicate_zero, Nat.mul_zero,
    ← digitsValue_eq]

theorem isDigit_of_mem_digitChars {n : Nat} : ∀ c ∈ digitChars n, c.isDigit := fun _ hc =>
  Nat.isDigit_of_mem_toDigits (by decide) (by decide) hc

theorem isDigit_of_mem_zeros {n : Nat} : ∀ c ∈ List.replicate n '0', c.isDigit := fun c hc => by
  rw [List.eq_of_mem_replicate hc]
  decide

/-- Reading takes just the digits, if something else follows them. -/
theorem takeDigits_append (hds : ∀ c ∈ ds, c.isDigit) (hrest : ∀ c ∈ rest.head?, ¬ c.isDigit) :
    takeDigits (ds ++ rest) = (ds, rest) := by
  have hnone : takeDigits rest = ([], rest) := by
    cases rest with
    | nil => rfl
    | cons c rest =>
      have hc : ¬ c.isDigit := hrest c rfl
      rw [takeDigits, List.takeWhile_cons_of_neg hc, List.dropWhile_cons_of_neg hc]
  rw [takeDigits, Prod.mk.injEq] at hnone
  rw [takeDigits, List.takeWhile_append_of_pos hds, List.dropWhile_append_of_pos hds, hnone.1,
    hnone.2, List.append_nil]

theorem takeDigits_eq (hds : ∀ c ∈ ds, c.isDigit) : takeDigits ds = (ds, []) := by
  have h := @takeDigits_append ds [] hds nofun
  rwa [List.append_nil] at h

/-! ### Exponents -/

/-- An exponent is written as a sign and digits. -/
theorem exponentChars_eq (top : Int) :
    ∃ ds, exponentChars top = (if top < 0 then '-' else '+') :: ds ∧ ds ≠ [] ∧
      (∀ c ∈ ds, c.isDigit) ∧ digitsValue ds = top.natAbs := by
  have hdigits := @isDigit_of_mem_digitChars top.natAbs
  by_cases hshort : (digitChars top.natAbs).length < 2
  · refine ⟨'0' :: digitChars top.natAbs, ?_, List.cons_ne_nil _ _,
      List.forall_mem_cons.mpr ⟨by decide, hdigits⟩, ?_⟩
    · simp only [exponentChars, if_pos hshort]
    · exact (digitsValue_zeros_append _ 1).trans (digitsValue_digitChars _)
  · refine ⟨digitChars top.natAbs, ?_, Nat.toDigits_ne_nil, hdigits, digitsValue_digitChars _⟩
    simp only [exponentChars, if_neg hshort]

theorem readExponent_exponentChars (top : Int) :
    readExponent ('e' :: exponentChars top) = some top := by
  obtain ⟨ds, htext, hne, hdigits, hvalue⟩ := exponentChars_eq top
  have hnotEmpty : ds.isEmpty = false := List.isEmpty_eq_false_iff.mpr hne
  rw [htext]
  by_cases htop : top < 0
  · rw [if_pos htop]
    simp only [readExponent, takeDigits_eq hdigits, hvalue, hnotEmpty]
    simp only [beq_self_eq_true, Bool.true_or, ↓reduceIte, List.isEmpty_nil, Bool.not_true,
      Bool.or_false, Bool.false_eq_true, Option.some.injEq]
    omega
  · rw [if_neg htop]
    simp only [readExponent, takeDigits_eq hdigits, hvalue, hnotEmpty]
    simp only [beq_self_eq_true, Bool.true_or, ↓reduceIte, List.isEmpty_nil, Bool.not_true,
      Bool.or_false, Bool.false_eq_true, Option.some.injEq]
    omega

/-! ### Layouts -/

/-- **A layout of digits**, of which the first has the weight `10 ^ top`. -/
inductive Placed (ds : List Char) (top : Int) : List Char → Prop
  /-- With a point, and perhaps with zeros before or behind the digits. -/
  | positional {whole frac : List Char} {n : Nat} (hwhole : whole ≠ [])
      (hdigits : ∀ c ∈ whole ++ frac, c.isDigit)
      (hvalue : digitsValue (whole ++ frac) = digitsValue ds * 10 ^ n)
      (hweight : top + 1 - ds.length = n - frac.length) : Placed ds top (whole ++ '.' :: frac)
  /-- One digit with an exponent. -/
  | single {d : Char} (hds : ds = [d]) : Placed ds top (d :: 'e' :: exponentChars top)
  /-- Several digits with an exponent, the point after the first one. -/
  | scientific {d : Char} {rest : List Char} (hds : ds = d :: rest) :
      Placed ds top (d :: '.' :: rest ++ 'e' :: exponentChars top)

theorem placed_behind_zeros {n : Nat} (hds : ∀ c ∈ ds, c.isDigit) (htop : top + 1 = -n) :
    Placed ds top (List.replicate 1 '0' ++ '.' :: (List.replicate n '0' ++ ds)) := by
  refine .positional (n := 0) (List.cons_ne_nil _ _) ?_ ?_ ?_
  · simp only [List.forall_mem_append]
    exact ⟨isDigit_of_mem_zeros, isDigit_of_mem_zeros, hds⟩
  · rw [digitsValue_zeros_append, digitsValue_zeros_append, Nat.pow_zero, Nat.mul_one]
  · rw [List.length_append, List.length_replicate]
    omega

theorem placed_before_zeros {n : Nat} (hds : ∀ c ∈ ds, c.isDigit) (hne : ds ≠ [])
    (htop : top + 1 = ds.length + n) :
    Placed ds top ((ds ++ List.replicate n '0') ++ '.' :: List.replicate 1 '0') := by
  refine .positional (n := n + 1) (by simp [hne]) ?_ ?_ ?_
  · simp only [List.forall_mem_append]
    exact ⟨⟨hds, isDigit_of_mem_zeros⟩, isDigit_of_mem_zeros⟩
  · rw [digitsValue_append_zeros, digitsValue_append_zeros, Nat.mul_assoc, ← Nat.pow_add]
  · rw [List.length_replicate]
    omega

theorem placed_around_point {n : Nat} (hds : ∀ c ∈ ds, c.isDigit) (hn : 0 < n)
    (hlength : n < ds.length) (htop : top + 1 = n) :
    Placed ds top (ds.take n ++ '.' :: ds.drop n) := by
  refine .positional (n := 0) ?_ ?_ ?_ ?_
  · rw [ne_eq, ← List.length_eq_zero_iff, List.length_take]
    omega
  · rw [List.take_append_drop]
    exact hds
  · rw [List.take_append_drop, Nat.pow_zero, Nat.mul_one]
  · rw [List.length_drop]
    omega

/-- Digits are always laid out in one of these ways. -/
theorem placed_placeDigits (hds : ∀ c ∈ ds, c.isDigit) (hne : ds ≠ []) :
    Placed ds top (placeDigits ds top) := by
  unfold placeDigits
  by_cases hrange : -4 ≤ top && top < 16
  · rw [if_pos hrange]
    by_cases hsmall : top < 0
    · rw [if_pos hsmall]
      have hplaced : Placed ds top (List.replicate 1 '0' ++
          '.' :: (List.replicate ((-top).toNat - 1) '0' ++ ds)) :=
        placed_behind_zeros hds (by omega)
      simpa using hplaced
    · rw [if_neg hsmall]
      simp only []
      generalize hpadding : top.toNat + 1 - ds.length = n
      by_cases hfits : ds.length ≤ top.toNat + 1
      · have hlength : (ds ++ List.replicate n '0').length = top.toNat + 1 := by
          rw [List.length_append, List.length_replicate]
          omega
        rw [List.drop_of_length_le hlength.le, List.take_of_length_le hlength.le]
        exact placed_before_zeros hds hne (by omega)
      · obtain rfl : n = 0 := by omega
        have hfrac : (ds.drop (top.toNat + 1)).isEmpty = false := by
          rw [List.isEmpty_eq_false_iff, ne_eq, List.drop_eq_nil_iff]
          omega
        rw [List.replicate_zero, List.append_nil, hfrac]
        exact placed_around_point hds (by omega) (by omega) (by omega)
  · rw [if_neg hrange]
    match ds, hne with
    | [d], _ => exact .single rfl
    | d :: d' :: rest, _ => exact .scientific rfl

/-- **A layout reads back.** -/
theorem Placed.readUnsigned_eq (h : Placed ds top cs) (hds : ∀ c ∈ ds, c.isDigit) :
    readUnsigned neg cs = some (ofDecimal neg (digitsValue ds) (top + 1 - ds.length)) := by
  cases h with
  | @positional whole frac n hwhole hdigits hvalue hweight =>
    rw [List.forall_mem_append] at hdigits
    have hpoint : takeDigits (whole ++ '.' :: frac) = (whole, '.' :: frac) :=
      takeDigits_append hdigits.1 (by simp)
    have hscaled := @ofDecimal_mul_pow neg (digitsValue ds) (top + 1 - ds.length) n
    rw [← hvalue, show top + 1 - ds.length - n = 0 - (frac.length : Int) by omega] at hscaled
    simp [readUnsigned, hpoint, takeDigits_eq hdigits.2, hwhole, readExponent, ← hscaled]
  | @single d hds' =>
    subst hds'
    have hdigit : takeDigits (d :: 'e' :: exponentChars top) = ([d], 'e' :: exponentChars top) :=
      takeDigits_append hds (by simp)
    simp [readUnsigned, hdigit, readExponent_exponentChars]
  | @scientific d rest hds' =>
    subst hds'
    rw [List.forall_mem_cons] at hds
    have hfirst : ∀ c ∈ [d], c.isDigit := List.forall_mem_singleton.mpr hds.1
    have hdigit : takeDigits (d :: '.' :: (rest ++ 'e' :: exponentChars top)) =
        ([d], '.' :: (rest ++ 'e' :: exponentChars top)) :=
      takeDigits_append hfirst (by simp)
    have hrest : takeDigits (rest ++ 'e' :: exponentChars top) =
        (rest, 'e' :: exponentChars top) := takeDigits_append hds.2 (by simp)
    simp [readUnsigned, hdigit, hrest, readExponent_exponentChars]

theorem Placed.exists_cons (h : Placed ds top cs) (hds : ∀ c ∈ ds, c.isDigit) :
    ∃ c rest, cs = c :: rest ∧ c.isDigit := by
  cases h with
  | @positional whole frac n hwhole hdigits hvalue hweight =>
    obtain ⟨c, rest, rfl⟩ := List.exists_cons_of_ne_nil hwhole
    exact ⟨c, _, rfl, hdigits c (by simp)⟩
  | single hds' => exact ⟨_, _, rfl, hds _ (by simp [hds'])⟩
  | scientific hds' => exact ⟨_, _, rfl, hds _ (by simp [hds'])⟩

/-- Beside digits there are only marks. -/
theorem Placed.isDigit_or_mem (h : Placed ds top cs) (hds : ∀ c ∈ ds, c.isDigit) :
    ∀ c ∈ cs, c.isDigit ∨ c ∈ ['.', 'e', '+', '-'] := by
  have hexponent : ∀ c ∈ 'e' :: exponentChars top, c.isDigit ∨ c ∈ ['.', 'e', '+', '-'] := by
    obtain ⟨digits, htext, -, hdigits, -⟩ := exponentChars_eq top
    rw [htext]
    simp only [List.forall_mem_cons]
    refine ⟨.inr (by decide), ?_, fun c hc => .inl (hdigits c hc)⟩
    split <;> exact .inr (by decide)
  cases h with
  | @positional whole frac n hwhole hdigits hvalue hweight =>
    rw [List.forall_mem_append] at hdigits
    rw [List.forall_mem_append, List.forall_mem_cons]
    exact ⟨fun c hc => .inl (hdigits.1 c hc), .inr (by decide), fun c hc => .inl (hdigits.2 c hc)⟩
  | single hds' =>
    subst hds'
    exact List.forall_mem_cons.mpr ⟨.inl (hds _ (by simp)), hexponent⟩
  | scientific hds' =>
    subst hds'
    rw [List.forall_mem_cons] at hds
    rw [List.forall_mem_append, List.forall_mem_cons, List.forall_mem_cons]
    exact ⟨⟨.inl hds.1, .inr (by decide), fun c hc => .inl (hds.2 c hc)⟩, hexponent⟩

/-- There is always a mark that no integer has. -/
theorem Placed.mark_mem (h : Placed ds top cs) : '.' ∈ cs ∨ 'e' ∈ cs := by
  cases h <;> simp

/-! ### Whole texts -/

/-- **The digits of a finite double**, in some layout that says its absolute value. -/
theorem exists_placed (e : Fin 2047) (f : Fin (1 <<< 52)) :
    ∃ ds top, (∀ c ∈ ds, c.isDigit) ∧ Placed ds top (magnitudeChars e f) ∧
      ∀ neg, ofDecimal neg (digitsValue ds) (top + 1 - ds.length) = finite neg e f := by
  by_cases hzero : e.val = 0 && f.val = 0
  · have hdigit : ∀ c ∈ ['0'], c.isDigit := List.forall_mem_singleton.mpr rfl
    refine ⟨['0'], 0, hdigit, ?_, fun neg => ?_⟩
    · rw [magnitudeChars, if_pos hzero]
      exact placed_before_zeros (n := 0) hdigit (List.cons_ne_nil _ _) rfl
    · simp only [Bool.and_eq_true, decide_eq_true_eq] at hzero
      rw [show e = 0 from Fin.ext hzero.1, show f = ⟨0, by decide⟩ from Fin.ext hzero.2]
      exact ofDecimal_zero
  · have hpos : 0 < numerator e f := by
      rw [numerator_eq]
      refine Nat.mul_pos ?_ (Nat.two_pow_pos _)
      simp only [Bool.and_eq_true, decide_eq_true_eq] at hzero
      unfold significand
      split <;> omega
    have hvalue := fun neg => (Decimal.ofDecimal_trim 20 (shortest e f)).trans
      (@ofDecimal_shortest neg e f hpos)
    rw [magnitudeChars, if_neg hzero]
    generalize (shortest e f).trim 20 = d at *
    refine ⟨digitChars d.digits, d.exponent + (digitChars d.digits).length - 1,
      isDigit_of_mem_digitChars, placed_placeDigits isDigit_of_mem_digitChars Nat.toDigits_ne_nil,
      fun neg => ?_⟩
    rw [digitsValue_digitChars, ← hvalue neg]
    congr 1
    omega

/-- A digit begins neither of the words that stand for no number. -/
theorem word_ne_of_isDigit {c : Char} (hc : c.isDigit) (cs : List Char) :
    String.ofList ((c :: cs).map Char.toLower) ≠ "inf" ∧
      String.ofList ((c :: cs).map Char.toLower) ≠ "infinity" ∧
      String.ofList ((c :: cs).map Char.toLower) ≠ "nan" := by
  have hlower : c.toLower = c := by
    refine dif_neg fun hupper => ?_
    simp only [Char.isDigit, Bool.and_eq_true, decide_eq_true_eq] at hc
    exact absurd (UInt32.le_trans hupper.1 hc.2) (by decide)
  have hi : c ≠ 'i' := by
    rintro rfl
    exact absurd hc (by decide)
  have hn : c ≠ 'n' := by
    rintro rfl
    exact absurd hc (by decide)
  simp only [ne_eq, ← String.toList_inj, String.toList_ofList, List.map_cons, hlower]
  simp [hi, hn]

theorem readDouble_of_digit {s : String} {c : Char} (hs : s.toList = c :: rest)
    (hc : c.isDigit) : readDouble s = readUnsigned false (c :: rest) := by
  obtain ⟨hinf, hinfinity, hnan⟩ := word_ne_of_isDigit hc rest
  have hminus : c ≠ '-' := by
    rintro rfl
    exact absurd hc (by decide)
  have hplus : c ≠ '+' := by
    rintro rfl
    exact absurd hc (by decide)
  simp only [readDouble, hs]
  simp [hminus, hplus, hinf, hinfinity, hnan, -List.map_cons]

theorem readDouble_of_minus {s : String} {c : Char} (hs : s.toList = '-' :: c :: rest)
    (hc : c.isDigit) : readDouble s = readUnsigned true (c :: rest) := by
  obtain ⟨hinf, hinfinity, hnan⟩ := word_ne_of_isDigit hc rest
  simp only [readDouble, hs]
  simp [hinf, hinfinity, hnan, -List.map_cons]

/-- **The text of a double is read as this double.** -/
theorem readDouble_text (x : Double) : readDouble x.text = some x := by
  cases x with
  | nan => decide +kernel
  | infinity neg => cases neg <;> decide +kernel
  | finite neg e f =>
    obtain ⟨ds, top, hds, hplaced, hvalue⟩ := exists_placed e f
    obtain ⟨c, rest, htext, hc⟩ := hplaced.exists_cons hds
    have hread : readUnsigned neg (c :: rest) = some (finite neg e f) := by
      rw [← htext, hplaced.readUnsigned_eq hds, hvalue]
    cases neg with
    | false => exact (readDouble_of_digit (by simp [Double.text, htext]) hc).trans hread
    | true => exact (readDouble_of_minus (by simp [Double.text, htext]) hc).trans hread

/-- **The text of a double determines it.** -/
theorem Double.text_injective {x y : Double} (h : x.text = y.text) : x = y := by
  have hx := readDouble_text x
  rw [h, readDouble_text y] at hx
  exact (Option.some.inj hx).symm

/-- What cannot be read as a double is the text of none. -/
theorem Double.text_ne {s : String} (h : readDouble s = none) (x : Double) : x.text ≠ s := by
  rintro rfl
  rw [readDouble_text] at h
  cases h

/-- The characters in the texts of doubles. -/
theorem Double.isDigit_or_mem_text (x : Double) :
    ∀ c ∈ x.text.toList, c.isDigit ∨ c ∈ ['.', 'e', '+', '-', 'n', 'a', 'i', 'f'] := by
  cases x with
  | nan =>
    have hword : nan.text.toList ⊆ ['.', 'e', '+', '-', 'n', 'a', 'i', 'f'] := by decide
    exact fun c hc => .inr (hword hc)
  | infinity neg =>
    have hword : (infinity neg).text.toList ⊆ ['.', 'e', '+', '-', 'n', 'a', 'i', 'f'] := by
      cases neg <;> decide
    exact fun c hc => .inr (hword hc)
  | finite neg e f =>
    obtain ⟨ds, top, hds, hplaced, -⟩ := exists_placed e f
    have hchars : ∀ c ∈ magnitudeChars e f,
        c.isDigit ∨ c ∈ ['.', 'e', '+', '-', 'n', 'a', 'i', 'f'] := fun c hc =>
      (hplaced.isDigit_or_mem hds c hc).imp_right (List.mem_append_left ['n', 'a', 'i', 'f'])
    cases neg with
    | false =>
      simp only [Double.text, String.toList_ofList, Bool.false_eq_true, ↓reduceIte]
      exact hchars
    | true =>
      simp only [Double.text, String.toList_ofList, ↓reduceIte]
      exact List.forall_mem_cons.mpr ⟨.inr (by decide), hchars⟩

/-- **No double is written like an integer**: there is a point, an exponent or a word. -/
theorem Double.exists_mem_text (x : Double) : ∃ c ∈ x.text.toList, ¬ c.isDigit ∧ c ≠ '-' := by
  cases x with
  | nan => exact ⟨'n', by decide⟩
  | infinity neg => exact ⟨'i', by cases neg <;> decide⟩
  | finite neg e f =>
    obtain ⟨ds, top, -, hplaced, -⟩ := exists_placed e f
    have hmem : ∀ c ∈ magnitudeChars e f, c ∈ (finite neg e f).text.toList := fun c hc => by
      cases neg <;> simp [Double.text, hc]
    rcases hplaced.mark_mem with hpoint | hexponent
    · exact ⟨'.', hmem _ hpoint, by decide⟩
    · exact ⟨'e', hmem _ hexponent, by decide⟩

end ScopeScript.Number
