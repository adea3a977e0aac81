import ScopeScript.Number.Written
import ScopeScript.Proofs.Number.Rounding

/-!
# The shortest decimal reads back

The search for the shortest decimal of a double gives up after seventeen digits. This file
shows that it never comes to that: on the grid of decimals with seventeen digits, one neighbour
of the value is at most half a step away from it, a step is at most one part in `10 ^ 16` of
the value, and this is near enough to be read as the double again
(`ScopeScript.Number.exists_near_mem_gridNeighbours`). So there is always a decimal, and
whatever the search finds, **it reads back** (`ScopeScript.Number.ofDecimal_shortest`). Taking
away the zeros at its end changes nothing (`ScopeScript.Number.Decimal.ofDecimal_trim`).
-/

namespace ScopeScript.Number

open Double

variable {num den : Nat} {neg : Bool} {e : Fin 2047} {f : Fin (1 <<< 52)} {k : Int}

/-! ### The decimal logarithm -/

theorem digitCount_pos {n : Nat} : 0 < digitCount n := Nat.length_toDigits_pos

/-- **The logarithm is a lower bound**: `10 ^ k ≤ num / den`, for this `k`. -/
theorem decimalLog_spec (hnum : 0 < num) (hden : 0 < den) :
    den * 10 ^ (decimalLog num den).toNat ≤ num * 10 ^ (-decimalLog num den).toNat := by
  unfold decimalLog
  by_cases hle : den ≤ num
  · have hpos : 0 < num / den := Nat.div_pos hle hden
    have hcount := @digitCount_pos (num / den)
    rw [if_pos hle, show ((digitCount (num / den) : Int) - 1).toNat = digitCount (num / den) - 1 by
      omega, show (-((digitCount (num / den) : Int) - 1)).toNat = 0 by omega, Nat.pow_zero,
      Nat.mul_one]
    calc den * 10 ^ (digitCount (num / den) - 1) ≤ den * (num / den) :=
          Nat.mul_le_mul_left _ (pow_digitCount_le (by omega))
      _ ≤ num := Nat.mul_div_le num den
  · rw [if_neg hle]
    have hcount := @digitCount_pos (den / num)
    have hlt := lt_pow_digitCount (den / num)
    generalize digitCount (den / num) = l at *
    simp only [Nat.pow_eq]
    split
    · rw [show (-(l : Int)).toNat = 0 by omega, show (-(-(l : Int))).toNat = l by omega,
        Nat.pow_zero, Nat.mul_one, Nat.mul_comm]
      exact ((Nat.div_lt_iff_lt_mul hnum).mp hlt).le
    · rw [show (-(l : Int) + 1).toNat = 0 by omega, show (-(-(l : Int) + 1)).toNat = l - 1 by omega,
        Nat.pow_zero, Nat.mul_one]
      omega

/-- What is at least `10 ^ k` is at least `10 ^ j` times `10 ^ (k - j)`. -/
theorem pow_sub_le (j : Nat) (h : den * 10 ^ k.toNat ≤ num * 10 ^ (-k).toNat) :
    den * 10 ^ (k - j).toNat * 10 ^ j ≤ num * 10 ^ (-(k - j)).toNat := by
  -- One of the powers is one on each side, so both sides have gained the same power.
  obtain ⟨t, hleft, hright⟩ : ∃ t, (k - j).toNat + j = k.toNat + t ∧
      (-(k - j)).toNat = (-k).toNat + t := ⟨(k - j).toNat + j - k.toNat, by omega, by omega⟩
  rw [Nat.mul_assoc, ← Nat.pow_add, hleft, hright, Nat.pow_add, Nat.pow_add, ← Nat.mul_assoc,
    ← Nat.mul_assoc]
  exact Nat.mul_le_mul_right _ h

/-! ### Neighbours on a grid -/

theorem shiftDecimal_eq :
    shiftDecimal num den k = (num * 10 ^ (-k).toNat, den * 10 ^ k.toNat) := by
  unfold shiftDecimal
  by_cases hk : 0 ≤ k
  · rw [if_pos hk, show (-k).toNat = 0 by omega, Nat.pow_zero, Nat.mul_one]
    rfl
  · rw [if_neg hk, show k.toNat = 0 by omega, Nat.pow_zero, Nat.mul_one]
    rfl

/-- **A decimal of the grid is at most half a step away.** -/
theorem exists_mem_gridNeighbours (num : Nat) (k : Int) (hden : 0 < den) :
    ∃ c, ⟨c, k⟩ ∈ gridNeighbours num den k ∧
      2 * (num * 10 ^ (-k).toNat) ≤ 2 * (c * (den * 10 ^ k.toNat)) + den * 10 ^ k.toNat ∧
      2 * (c * (den * 10 ^ k.toNat)) ≤ 2 * (num * 10 ^ (-k).toNat) + den * 10 ^ k.toNat := by
  have hstep : 0 < den * 10 ^ k.toNat := Nat.mul_pos hden (Nat.pow_pos (by decide))
  unfold gridNeighbours
  rw [shiftDecimal_eq]
  generalize num * 10 ^ (-k).toNat = value
  generalize den * 10 ^ k.toNat = step at *
  have hdiv : value / step * step + value % step = value := Nat.div_add_mod' value step
  have hmod : value % step < step := Nat.mod_lt _ hstep
  simp only []
  by_cases hbelow : 2 * (value % step) ≤ step
  · refine ⟨value / step, ?_, by omega, by omega⟩
    split
    · exact List.mem_singleton_self _
    · split <;> simp
  · refine ⟨value / step + 1, ?_, ?_, ?_⟩
    · rw [if_neg (by omega)]
      split <;> simp
    · rw [Nat.add_mul, Nat.one_mul]
      omega
    · rw [Nat.add_mul, Nat.one_mul]
      omega

theorem near_of_half_step {value candidate step : Nat} (hlow : 2 * value ≤ 2 * candidate + step)
    (hhigh : 2 * candidate ≤ 2 * value + step) (hfine : step * 2 ^ 53 < value) :
    value * (2 ^ 54 - 1) < candidate * 2 ^ 54 ∧ candidate * 2 ^ 54 < value * (2 ^ 54 + 1) := by
  omega

/-- **On a fine grid there is a neighbour that is near.** -/
theorem exists_near_mem_gridNeighbours
    (h : denominator * 10 ^ k.toNat * 2 ^ 53 < numerator e f * 10 ^ (-k).toNat) :
    ∃ c, ⟨c, k⟩ ∈ gridNeighbours (numerator e f) denominator k ∧
      Near e f (c * 10 ^ k.toNat) (10 ^ (-k).toNat) := by
  obtain ⟨c, hmem, hlow, hhigh⟩ :=
    exists_mem_gridNeighbours (numerator e f) k denominator_pos
  have hcomm : c * 10 ^ k.toNat * denominator = c * (denominator * 10 ^ k.toNat) := by ring
  obtain ⟨habove, hbelow⟩ := near_of_half_step hlow hhigh h
  rw [← hcomm] at habove hbelow
  exact ⟨c, hmem, habove, hbelow⟩

/-! ### The search -/

section Search

variable {reads : Decimal → Bool} {top : Int} {count used : Nat} {d : Decimal}

theorem reads_of_shortestFrom (h : shortestFrom num den reads top count used = some d) :
    reads d := by
  induction count generalizing used with
  | zero => cases h
  | succ count ih =>
    rw [shortestFrom] at h
    split at h
    · next found hfound =>
      obtain rfl := Option.some.inj h
      exact List.find?_some hfound
    · exact ih h

/-- **The search ends** if it comes to a grid where some neighbour reads back. -/
theorem shortestFrom_ne_none {i : Nat} (hi : i < count)
    (hmem : d ∈ gridNeighbours num den (top - ((used + i : Nat) : Int))) (hreads : reads d) :
    shortestFrom num den reads top count used ≠ none := by
  induction count generalizing used i with
  | zero => exact absurd hi (Nat.not_lt_zero i)
  | succ count ih =>
    rw [shortestFrom]
    split
    · exact Option.some_ne_none _
    · next hnone =>
      cases i with
      | zero => exact absurd hreads (List.find?_eq_none.mp hnone d hmem)
      | succ i =>
        refine ih (i := i) (by omega) ?_
        rwa [show used + 1 + i = used + (i + 1) by omega]

/-- **The search ends with a decimal that reads back** if there is one among the neighbours. -/
theorem exists_shortestFrom (reads : Decimal → Bool) {i : Nat} (hi : i < count)
    (hmem : d ∈ gridNeighbours num den (top - ((used + i : Nat) : Int))) (hreads : reads d) :
    ∃ found, shortestFrom num den reads top count used = some found ∧ reads found := by
  obtain ⟨found, hfound⟩ := Option.ne_none_iff_exists'.mp (shortestFrom_ne_none hi hmem hreads)
  exact ⟨found, hfound, reads_of_shortestFrom hfound⟩

end Search

/-- **The shortest decimal of a double reads back as the double.** -/
theorem ofDecimal_shortest (hpos : 0 < numerator e f) :
    ofDecimal neg (shortest e f).digits (shortest e f).exponent = finite neg e f := by
  have hlog := pow_sub_le 16 (decimalLog_spec hpos denominator_pos)
  have hfine : denominator * 10 ^ (decimalLog (numerator e f) denominator - 16).toNat * 2 ^ 53 <
      numerator e f * 10 ^ (-(decimalLog (numerator e f) denominator - 16)).toNat := by
    refine Nat.lt_of_lt_of_le (Nat.mul_lt_mul_of_pos_left (by decide) ?_) hlog
    exact Nat.mul_pos denominator_pos (Nat.pow_pos (by decide))
  obtain ⟨c, hmem, hnear⟩ := exists_near_mem_gridNeighbours hfine
  obtain ⟨d, hd, hreads⟩ := exists_shortestFrom
    (fun d => ofDecimal false d.digits d.exponent == finite false e f) (show 16 < 17 by decide)
    hmem (beq_iff_eq.mpr (ofDecimal_eq_of_near hnear))
  have hpositive := beq_iff_eq.mp hreads
  have hfound : shortest e f = d := by
    rw [shortest, hd]
    rfl
  rw [hfound]
  cases neg with
  | false => exact hpositive
  | true => rw [← Bool.not_false, ← ofDecimal_negate, hpositive, negate_finite]

/-- Taking zeros away from the end of a decimal does not change what is read. -/
theorem Decimal.ofDecimal_trim (fuel : Nat) (d : Decimal) :
    ofDecimal neg (d.trim fuel).digits (d.trim fuel).exponent =
      ofDecimal neg d.digits d.exponent := by
  induction fuel generalizing d with
  | zero => rfl
  | succ fuel ih =>
    rw [Decimal.trim]
    split
    · next hzero =>
      simp only [ne_eq, Bool.and_eq_true, decide_eq_true_eq] at hzero
      rw [ih, ← ofDecimal_mul_ten, Int.add_sub_cancel,
        Nat.div_mul_cancel (Nat.dvd_of_mod_eq_zero hzero.1)]
    · rfl

end ScopeScript.Number
