import Mathlib.Tactic.GCongr
import Mathlib.Tactic.Linarith
import Mathlib.Tactic.Ring
import ScopeScript.Number.Shortest

/-!
# Fractions near a double round to it

`ScopeScript.Number.Double.ofRatio` scales a fraction by a power of two until 53 bits are left,
rounds these to an integer, and packs that integer with the scale. A double is not the only
fraction that comes out as this double. This file has a simple measure of how far off a
fraction may be: less than one part in `2 ^ 54`
(`ScopeScript.Number.Double.ofRatio_eq_of_near`), wherever the double is in the range, below
the normal numbers too, and also below a power of two, where the neighbours on one side are
twice as close.

Decimals get the same measure (`ScopeScript.Number.Double.ofDecimal_eq_of_near`). There it must
be seen that nothing is cut short as out of range, and that zeros at the end of a decimal do
not matter (`ScopeScript.Number.Double.ofDecimal_mul_pow`).
-/

namespace ScopeScript.Number.Double

variable {m num den top unit : Nat} {neg : Bool} {e : Fin 2047} {f : Fin (1 <<< 52)}

/-! ### Rounding a quotient -/

/-- What is less than half a unit away from a multiple of the unit rounds to it. -/
theorem roundQuotient_eq (hlow : 2 * m * unit < 2 * top + unit)
    (hhigh : 2 * top < (2 * m + 1) * unit) : roundQuotient top unit = m := by
  have hdiv : unit * (top / unit) + top % unit = top := Nat.div_add_mod top unit
  have hpos : 0 < unit := by
    rcases Nat.eq_zero_or_pos unit with rfl | h
    · simp at hhigh
    · exact h
  have hmod : top % unit < unit := Nat.mod_lt _ hpos
  unfold roundQuotient
  generalize top / unit = q at *
  generalize top % unit = r at *
  -- The multiple is the one below or the one above.
  have hq : q ≤ m := by
    have h : unit * (2 * q) < unit * (2 * m + 1) := by linarith
    have := Nat.lt_of_mul_lt_mul_left h
    omega
  have hm : m ≤ q + 1 := by
    have h : unit * (2 * m) < unit * (2 * q + 3) := by linarith
    have := Nat.lt_of_mul_lt_mul_left h
    omega
  obtain rfl | rfl : m = q ∨ m = q + 1 := by omega
  · have hr : 2 * r < unit := by linarith
    rw [if_pos hr]
  · have hr : unit < 2 * r := by linarith
    rw [if_neg (by omega), if_pos hr]

theorem roundQuotient_mul_right {k : Nat} (hk : 0 < k) :
    roundQuotient (top * k) (unit * k) = roundQuotient top unit := by
  have hlt : ∀ a b : Nat, a * k < b * k ↔ a < b := fun a b => Nat.mul_lt_mul_right hk
  unfold roundQuotient
  simp only [Nat.mul_div_mul_right _ _ hk, Nat.mul_mod_mul_right, ← Nat.mul_assoc, hlt]

/-- **Only the value of a fraction counts.** -/
theorem ofRatio_mul_right {k : Nat} (hk : 0 < k) :
    ofRatio neg (num * k) (den * k) = ofRatio neg num den := by
  have hzero : ∀ a : Nat, a * k = 0 ↔ a = 0 := fun a => by
    rw [Nat.mul_eq_zero]
    omega
  have hshift : ∀ s, (den * k) <<< s = (den <<< s) * k := fun s => by
    rw [Nat.shiftLeft_eq, Nat.shiftLeft_eq]
    ring
  unfold ofRatio
  simp only [hzero, Nat.mul_right_comm num k, Nat.mul_div_mul_right _ _ hk, hshift,
    roundQuotient_mul_right hk]

/-! ### Packing -/

theorem denominator_eq : denominator = 2 ^ 1074 := by
  have h : ∀ k, 1 <<< k = 2 ^ k := Nat.one_shiftLeft
  exact h 1074

theorem denominator_pos : 0 < denominator := by
  have h : ∀ k, 0 < 1 <<< k := fun k => by
    rw [Nat.one_shiftLeft]
    exact Nat.two_pow_pos k
  exact h 1074

theorem fraction_lt (f : Fin (1 <<< 52)) : f.val < 2 ^ 52 := f.isLt

theorem significand_lt : significand e f < 2 ^ 53 := by
  have := fraction_lt f
  unfold significand
  split <;> omega

theorem numerator_eq : numerator e f = significand e f * 2 ^ scale e := Nat.shiftLeft_eq _ _

/-- Where the scale is not the least, the significand has all of its bits. -/
theorem le_significand (h : scale e ≠ 0) : 2 ^ 52 ≤ significand e f := by
  unfold scale at h
  unfold significand
  rw [if_neg (by omega)]
  omega

theorem pack_significand : pack neg (significand e f) (scale e) = finite neg e f := by
  have hf := f.isLt
  have he := e.isLt
  unfold pack
  by_cases h : e.val = 0
  · have hsig : significand e f = f.val := if_pos h
    simp only [hsig, hf, ↓reduceDIte, Fin.eta]
    rw [show (0 : Fin 2047) = e from Fin.ext h.symm]
  · have hsig : significand e f = 1 <<< 52 + f.val := if_neg h
    have hexp : scale e + 1 = e.val := by
      unfold scale
      omega
    have hwide : ¬ 1 <<< 52 + f.val < 1 <<< 52 := by omega
    have hfits : 1 <<< 52 + f.val < 1 <<< 53 := by omega
    simp only [hsig, hwide, hfits, ↓reduceDIte, ↓reduceIte, hexp, he, Nat.add_sub_cancel_left, hf,
      Fin.eta]

/-- A significand that has been rounded up to one bit more is the least one at the next
scale. -/
theorem pack_carry {s : Nat} (hscale : scale e = s + 1) (hsig : significand e f = 2 ^ 52) :
    pack neg (2 ^ 53) s = finite neg e f := by
  rw [← @pack_significand neg e f, hscale, hsig]
  rfl

/-! ### Near fractions -/

/-- **The fraction is less than one part in `2 ^ 54` away from a double**, in absolute
value. -/
structure Near (e : Fin 2047) (f : Fin (1 <<< 52)) (num den : Nat) : Prop where
  low : numerator e f * den * (2 ^ 54 - 1) < num * denominator * 2 ^ 54
  high : num * denominator * 2 ^ 54 < numerator e f * den * (2 ^ 54 + 1)

theorem Near.pos (h : Near e f num den) : 0 < num ∧ 0 < den := by
  constructor
  · refine Nat.pos_of_ne_zero fun hnum => ?_
    have := h.low
    simp [hnum] at this
  · refine Nat.pos_of_ne_zero fun hden => ?_
    have := h.high
    simp [hden] at this

/-- How many bits are dropped, from between which powers of two a fraction is. -/
theorem log2_div_eq {k : Nat} (hden : 0 < den) (hlow : 2 ^ k * den ≤ top)
    (hhigh : top < 2 ^ (k + 1) * den) : (top / den).log2 = k := by
  have hle : 2 ^ k ≤ top / den := (Nat.le_div_iff_mul_le hden).mpr hlow
  have hlt : top / den < 2 ^ (k + 1) := (Nat.div_lt_iff_lt_mul hden).mpr hhigh
  refine (Nat.log2_eq_iff ?_).mpr ⟨hle, hlt⟩
  have := Nat.two_pow_pos k
  omega

theorem log2_div_lt {k : Nat} (hden : 0 < den) (hhigh : top < 2 ^ k * den) (hk : 0 < k) :
    (top / den).log2 < k := by
  have hlt : top / den < 2 ^ k := (Nat.div_lt_iff_lt_mul hden).mpr hhigh
  by_cases hzero : top / den = 0
  · rw [hzero, Nat.log2_zero]
    exact hk
  · exact (Nat.log2_lt hzero).mpr hlt

theorem ofRatio_eq_pack {s : Nat} (hnum : 0 < num) (hden : 0 < den)
    (hdrop : (num * denominator / den).log2 - 52 = s) :
    ofRatio neg num den = pack neg (roundQuotient (num * denominator) (2 ^ s * den)) s := by
  unfold ofRatio
  rw [if_neg (by simp; omega)]
  simp only [hdrop, Nat.shiftLeft_eq, Nat.mul_comm den]

/-- The value at the scale of the double is less than half a unit off its significand. -/
theorem Near.half_unit (h : Near e f num den) :
    2 * significand e f * (2 ^ scale e * den) < 2 * (num * denominator) + 2 ^ scale e * den ∧
      2 * (num * denominator) < (2 * significand e f + 1) * (2 ^ scale e * den) := by
  obtain ⟨hlow, hhigh⟩ := h
  rw [numerator_eq, Nat.mul_assoc (significand e f)] at hlow hhigh
  have hsig := @significand_lt e f
  have hle : significand e f * (2 ^ scale e * den) ≤ (2 ^ 53 - 1) * (2 ^ scale e * den) :=
    Nat.mul_le_mul_right _ (by omega)
  rw [Nat.add_mul, Nat.mul_assoc 2]
  omega

/-- **Just below a power of two** one bit less is dropped than the scale of the double says,
and the rounding makes up for it. -/
theorem ofRatio_eq_of_below {s : Nat} (h : Near e f num den) (hscale : scale e = s + 1)
    (hbelow : num * denominator < 2 ^ 52 * (2 ^ scale e * den)) :
    ofRatio neg num den = finite neg e f := by
  obtain ⟨hnum, hden⟩ := h.pos
  have hunits := h.half_unit.1
  obtain ⟨hlow, -⟩ := h
  rw [numerator_eq, Nat.mul_assoc (significand e f)] at hlow
  have hpower : significand e f = 2 ^ 52 := by
    have hfull := @le_significand e f (by omega)
    by_contra hne
    have := Nat.mul_le_mul_right (2 ^ scale e * den) (show 2 ^ 52 + 1 ≤ significand e f by omega)
    rw [Nat.mul_assoc 2] at hunits
    omega
  have hunit : 2 ^ scale e * den = 2 * (2 ^ s * den) := by
    rw [hscale, Nat.pow_succ]
    ring
  rw [hpower, hunit] at hlow
  rw [hunit] at hbelow
  have hlog : (num * denominator / den).log2 = 52 + s := by
    refine log2_div_eq hden ?_ ?_
    · rw [Nat.pow_add, Nat.mul_assoc]
      omega
    · rw [show 52 + s + 1 = 53 + s by omega, Nat.pow_add, Nat.mul_assoc]
      omega
  rw [ofRatio_eq_pack hnum hden (show _ = s by omega),
    roundQuotient_eq (m := 2 ^ 53) (by omega) (by omega), pack_carry hscale hpower]

/-- **What is near a double rounds to it.** -/
theorem ofRatio_eq_of_near (h : Near e f num den) : ofRatio neg num den = finite neg e f := by
  obtain ⟨hnum, hden⟩ := h.pos
  obtain ⟨hlow, hhigh⟩ := h.half_unit
  have htop : num * denominator < 2 ^ 53 * (2 ^ scale e * den) := by
    have := Nat.mul_le_mul_right (2 ^ scale e * den)
      (show 2 * significand e f + 1 ≤ 2 ^ 54 by have := @significand_lt e f; omega)
    omega
  have hpack : (num * denominator / den).log2 - 52 = scale e →
      ofRatio neg num den = finite neg e f := fun hdrop => by
    rw [ofRatio_eq_pack hnum hden hdrop, roundQuotient_eq hlow hhigh, pack_significand]
  rcases hscale : scale e with - | s
  · refine hpack ?_
    rw [hscale, Nat.pow_zero, Nat.one_mul] at htop
    have := log2_div_lt hden htop (by omega)
    omega
  · by_cases hbelow : num * denominator < 2 ^ 52 * (2 ^ scale e * den)
    · exact ofRatio_eq_of_below h hscale hbelow
    · refine hpack ?_
      rw [hscale] at htop hbelow
      have hlog : (num * denominator / den).log2 = 52 + (s + 1) := by
        refine log2_div_eq hden ?_ ?_
        · rw [Nat.pow_add, Nat.mul_assoc]
          omega
        · rw [show 52 + (s + 1) + 1 = 53 + (s + 1) by omega, Nat.pow_add, Nat.mul_assoc]
          exact htop
      omega

/-! ### Decimals -/

theorem lt_pow_digitCount (n : Nat) : n < 10 ^ digitCount n :=
  (Nat.length_toDigits_le_iff (by decide) Nat.length_toDigits_pos).mp le_rfl

theorem pow_digitCount_le {n : Nat} (hn : n ≠ 0) : 10 ^ (digitCount n - 1) ≤ n := by
  by_contra hlt
  by_cases hone : digitCount n - 1 = 0
  · rw [hone, Nat.pow_zero] at hlt
    omega
  · have := (Nat.length_toDigits_le_iff (b := 10) (by decide) (Nat.pos_of_ne_zero hone)).mpr
      (Nat.lt_of_not_le hlt)
    unfold digitCount at this hone
    omega

theorem digitCount_mul_ten {n : Nat} (hn : n ≠ 0) : digitCount (n * 10) = digitCount n + 1 := by
  have h := Nat.toDigits_append_toDigits (b := 10) (n := n) (d := 0) (by decide) (by omega)
    (by decide)
  unfold digitCount
  rw [show n * 10 = 10 * n + 0 by omega, ← h, Nat.toDigits_zero, List.length_append,
    List.length_singleton]

variable {digits : Nat} {k : Int}

theorem ofDecimal_zero : ofDecimal neg 0 k = zero neg := if_pos rfl

theorem ofDecimal_eq_ofRatio (hdigits : digits ≠ 0) (hlow : -400 ≤ digitCount digits + k)
    (hhigh : digitCount digits + k ≤ 400) :
    ofDecimal neg digits k = ofRatio neg (digits * 10 ^ k.toNat) (10 ^ (-k).toNat) := by
  unfold digitCount at hlow hhigh
  have hsmall : ¬ 400 < ((Nat.toDigits 10 digits).length : Int) + k := by omega
  have hlarge : ¬ ((Nat.toDigits 10 digits).length : Int) + k < -400 := by omega
  simp only [ofDecimal, hdigits, hsmall, hlarge, ↓reduceIte, Nat.pow_eq]
  by_cases hk : 0 ≤ k
  · rw [if_pos hk, show (-k).toNat = 0 by omega, Nat.pow_zero]
  · rw [if_neg hk, show k.toNat = 0 by omega, Nat.pow_zero, Nat.mul_one]

/-- A zero at the end of a decimal does not count. -/
theorem ofDecimal_mul_ten : ofDecimal neg (digits * 10) (k - 1) = ofDecimal neg digits k := by
  by_cases hdigits : digits = 0
  · rw [hdigits, Nat.zero_mul, ofDecimal_zero, ofDecimal_zero]
  · have hcount : ((Nat.toDigits 10 (digits * 10)).length : Int) + (k - 1) =
        (Nat.toDigits 10 digits).length + k := by
      have := digitCount_mul_ten hdigits
      unfold digitCount at this
      omega
    simp only [ofDecimal, hdigits, show digits * 10 ≠ 0 by omega, hcount, ↓reduceIte, Nat.pow_eq]
    congr 2
    rcases lt_trichotomy k 0 with hk | rfl | hk
    · rw [if_neg (by omega), if_neg (by omega), show (-(k - 1)).toNat = (-k).toNat + 1 by omega,
        Nat.pow_succ, ofRatio_mul_right (by decide)]
    · have htenth : ofRatio neg (digits * 10) (1 * 10) = ofRatio neg digits 1 :=
        ofRatio_mul_right (by decide)
      simpa using htenth
    · rw [if_pos (by omega), if_pos (by omega), show k.toNat = (k - 1).toNat + 1 by omega,
        Nat.pow_succ', Nat.mul_assoc]

theorem ofDecimal_mul_pow (n : Nat) :
    ofDecimal neg (digits * 10 ^ n) (k - n) = ofDecimal neg digits k := by
  induction n with
  | zero => simp
  | succ n ih =>
    rw [Nat.pow_succ, ← Nat.mul_assoc, show k - ((n + 1 : Nat) : Int) = k - n - 1 by omega,
      ofDecimal_mul_ten, ih]

/-! ### Signs -/

theorem negate_zero : (zero neg).negate = zero (!neg) := rfl

theorem negate_finite : (finite neg e f).negate = finite (!neg) e f := rfl

theorem pack_negate {s : Nat} : (pack neg m s).negate = pack (!neg) m s := by
  unfold pack
  split
  · rfl
  · generalize (if m < 1 <<< 53 then (m, s) else (m / 2, s + 1)) = packed
    simp only []
    split
    · split <;> rfl
    · rfl

theorem ofRatio_negate : (ofRatio neg num den).negate = ofRatio (!neg) num den := by
  unfold ofRatio
  split
  · exact negate_zero
  · exact pack_negate

/-- **Reading treats the sign apart.** -/
theorem ofDecimal_negate : (ofDecimal neg digits k).negate = ofDecimal (!neg) digits k := by
  unfold ofDecimal
  split
  · exact negate_zero
  · simp only []
    split
    · rfl
    · split
      · exact negate_zero
      · split <;> exact ofRatio_negate

/-! ### Decimals near a double -/

theorem two_pow_mul {a b n : Nat} (h : a + b = n) : 2 ^ a * 2 ^ b = 2 ^ n := by
  rw [← h, Nat.pow_add]

theorem two_pow_le_ten_pow {m n : Nat} (h : m ≤ 3 * n) : 2 ^ m ≤ 10 ^ n :=
  calc 2 ^ m ≤ 2 ^ (3 * n) := Nat.pow_le_pow_right (by decide) h
    _ = 8 ^ n := Nat.pow_mul 2 3 n
    _ ≤ 10 ^ n := Nat.pow_le_pow_left (by decide) n

theorem denominator_le {n : Nat} (hn : 401 ≤ n) : denominator * 2 ≤ 10 ^ n :=
  calc denominator * 2 = 2 ^ 1074 * 2 ^ 1 := by rw [denominator_eq, Nat.pow_one]
    _ = 2 ^ 1075 := two_pow_mul rfl
    _ ≤ 10 ^ n := two_pow_le_ten_pow (by omega)

theorem two_pow_le {n : Nat} (hn : 400 ≤ n) : 2 ^ 1024 * 2 ≤ 10 ^ n :=
  calc 2 ^ 1024 * 2 = 2 ^ 1024 * 2 ^ 1 := by rw [Nat.pow_one]
    _ = 2 ^ 1025 := two_pow_mul rfl
    _ ≤ 10 ^ n := two_pow_le_ten_pow (by omega)

theorem numerator_lt : numerator e f < 2 ^ 1024 * denominator := by
  have hscale : scale e ≤ 2045 := by
    have := e.isLt
    unfold scale
    omega
  calc numerator e f = significand e f * 2 ^ scale e := numerator_eq
    _ < 2 ^ 53 * 2 ^ scale e := Nat.mul_lt_mul_of_pos_right significand_lt (Nat.two_pow_pos _)
    _ ≤ 2 ^ 53 * 2 ^ 2045 := by gcongr; decide
    _ = 2 ^ 1024 * denominator := by
      rw [denominator_eq, two_pow_mul (n := 2098) rfl, two_pow_mul (n := 2098) rfl]

theorem Near.num_lt (h : Near e f num den) : num < 2 ^ 1024 * 2 * den := by
  have hnum := @numerator_lt e f
  generalize 2 ^ 1024 = bound at *
  refine Nat.lt_of_mul_lt_mul_right (a := denominator * 2 ^ 54) ?_
  calc num * (denominator * 2 ^ 54) = num * denominator * 2 ^ 54 := by ring
    _ < numerator e f * den * (2 ^ 54 + 1) := h.high
    _ ≤ bound * denominator * den * (2 * 2 ^ 54) := by gcongr; decide
    _ = bound * 2 * den * (denominator * 2 ^ 54) := by ring

theorem Near.den_lt (h : Near e f num den) : den < num * (denominator * 2) := by
  have hone : 1 ≤ numerator e f := by
    refine Nat.pos_of_ne_zero fun hzero => ?_
    have := h.high
    rw [hzero, Nat.zero_mul, Nat.zero_mul] at this
    exact Nat.not_lt_zero _ this
  refine Nat.lt_of_mul_lt_mul_right (a := 2 ^ 53) ?_
  calc den * 2 ^ 53 = 1 * den * 2 ^ 53 := by ring
    _ ≤ numerator e f * den * (2 ^ 54 - 1) := by gcongr; decide
    _ < num * denominator * 2 ^ 54 := h.low
    _ = num * (denominator * 2) * 2 ^ 53 := by ring

/-- **What is near a double is read as this double**, also as a decimal. -/
theorem ofDecimal_eq_of_near (h : Near e f (digits * 10 ^ k.toNat) (10 ^ (-k).toNat)) :
    ofDecimal neg digits k = finite neg e f := by
  have hdigits : digits ≠ 0 := by
    rintro rfl
    simpa using h.pos.1
  have hlow : -400 ≤ digitCount digits + k := by
    by_contra hout
    have hden := h.den_lt
    rw [show k.toNat = 0 by omega, Nat.pow_zero, Nat.mul_one] at hden
    refine absurd hden (Nat.not_lt.mpr ?_)
    calc digits * (denominator * 2)
        ≤ 10 ^ digitCount digits * 10 ^ ((-k).toNat - digitCount digits) :=
          Nat.mul_le_mul (lt_pow_digitCount digits).le (denominator_le (by omega))
      _ = 10 ^ (-k).toNat := by rw [← Nat.pow_add, Nat.add_sub_of_le (by omega)]
  have hhigh : digitCount digits + k ≤ 400 := by
    by_contra hout
    refine absurd h.num_lt (Nat.not_lt.mpr ?_)
    calc 2 ^ 1024 * 2 * 10 ^ (-k).toNat
        ≤ 10 ^ (digitCount digits - 1 + k.toNat - (-k).toNat) * 10 ^ (-k).toNat :=
          Nat.mul_le_mul_right _ (two_pow_le (by omega))
      _ = 10 ^ (digitCount digits - 1) * 10 ^ k.toNat := by
          rw [← Nat.pow_add, ← Nat.pow_add, Nat.sub_add_cancel (by omega)]
      _ ≤ digits * 10 ^ k.toNat := Nat.mul_le_mul_right _ (pow_digitCount_le hdigits)
  rw [ofDecimal_eq_ofRatio hdigits hlow hhigh, ofRatio_eq_of_near h]

end ScopeScript.Number.Double
