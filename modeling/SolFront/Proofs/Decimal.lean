import Mathlib.Algebra.Order.Field.Power
import Mathlib.Tactic.Linarith
import SolFront.Decimal.Text

/-!
# The shortest digits

The digits are positive if any are found, and the decimal is not larger than what still rounds to
the float. That twenty grids are enough to find one is not needed here.
-/

namespace SolFront.Decimal

/-- The rational itself. -/
def Ratio.value (r : Ratio) : ℚ :=
  r.num / r.den

/-- The number that a decimal denotes. -/
def Scientific.value (s : Scientific) : ℚ :=
  s.digits * 10 ^ s.exponent

theorem value_ofBinary (m : Nat) (q : Int) : (Ratio.ofBinary m q).value = m * 2 ^ q := by
  unfold Ratio.ofBinary Ratio.value
  split
  · rename_i hq
    obtain ⟨k, rfl⟩ := Int.eq_ofNat_of_zero_le hq
    rw [Int.toNat_natCast, zpow_natCast, Nat.pow_eq, Nat.cast_mul, Nat.cast_pow, Nat.cast_one,
      div_one]
    rfl
  · obtain ⟨k, hk⟩ := Int.eq_ofNat_of_zero_le (show 0 ≤ -q by omega)
    obtain rfl : q = -(k : Int) := by omega
    rw [Int.neg_neg, Int.toNat_natCast, zpow_neg, zpow_natCast, Nat.pow_eq, Nat.cast_pow]
    rfl

theorem value_inUnits (r : Ratio) (k : Int) : (r.inUnits k).value = r.value / 10 ^ k := by
  unfold Ratio.inUnits Ratio.value
  split
  · rename_i hk
    obtain ⟨n, rfl⟩ := Int.eq_ofNat_of_zero_le hk
    rw [Int.toNat_natCast, zpow_natCast, Nat.pow_eq, Nat.cast_mul, Nat.cast_pow,
      div_mul_eq_div_div]
    rfl
  · obtain ⟨n, hn⟩ := Int.eq_ofNat_of_zero_le (show 0 ≤ -k by omega)
    obtain rfl : k = -(n : Int) := by omega
    rw [Int.neg_neg, Int.toNat_natCast, zpow_neg, zpow_natCast, Nat.pow_eq, Nat.cast_mul,
      Nat.cast_pow, div_inv_eq_mul, div_mul_eq_mul_div]
    rfl

theorem den_ofBinary (m : Nat) (q : Int) : 0 < (Ratio.ofBinary m q).den := by
  unfold Ratio.ofBinary
  split
  · exact Nat.one_pos
  · exact Nat.two_pow_pos _

theorem den_inUnits {r : Ratio} (h : 0 < r.den) (k : Int) : 0 < (r.inUnits k).den := by
  unfold Ratio.inUnits
  split
  · exact Nat.mul_pos h (Nat.pow_pos (by decide))
  · exact h

theorem le_of_compareNat {r : Ratio} (hden : 0 < r.den) {n : Nat} (h : r.compareNat n ≠ .lt) :
    (n : ℚ) ≤ r.value := by
  have hle : n * r.den ≤ r.num := by
    by_contra hlt
    exact h (Nat.compare_eq_lt.mpr (Nat.lt_of_not_le hlt))
  have hpos : (0 : ℚ) < r.den := by exact_mod_cast hden
  rw [Ratio.value, le_div_iff₀ hpos]
  exact_mod_cast hle

theorem le_of_holds {i : Interval} (hden : 0 < i.high.den) {n : Nat} {k : Int}
    (h : i.holds n k = true) : (n : ℚ) * 10 ^ k ≤ i.high.value := by
  have hne : (i.high.inUnits k).compareNat n ≠ .lt := by
    intro hlt
    unfold Interval.holds at h
    rw [hlt] at h
    exact absurd (Bool.and_eq_true_iff.mp h).2 Bool.false_ne_true
  have hle := le_of_compareNat (den_inUnits hden k) hne
  rw [value_inUnits, le_div_iff₀ (by positivity)] at hle
  exact hle

theorem onGrid?_spec {i : Interval} {value : Ratio} {k : Int} {s : Scientific}
    (h : onGrid? i value k = some s) :
    0 < s.digits ∧ i.holds s.digits s.exponent = true ∧ s.exponent = k := by
  -- which of the two neighbours is the nearer one does not matter
  have hboth : ∀ near far : Nat,
      (if 0 < near && i.holds near k then some ⟨near, k⟩
        else if 0 < far && i.holds far k then some ⟨far, k⟩ else none) = some s →
      0 < s.digits ∧ i.holds s.digits s.exponent = true ∧ s.exponent = k := by
    intro near far h
    split at h
    · rename_i hnear
      cases h
      obtain ⟨hpos, hholds⟩ := Bool.and_eq_true_iff.mp hnear
      exact ⟨of_decide_eq_true hpos, hholds, rfl⟩
    · split at h
      · rename_i hfar
        cases h
        obtain ⟨hpos, hholds⟩ := Bool.and_eq_true_iff.mp hfar
        exact ⟨of_decide_eq_true hpos, hholds, rfl⟩
      · cases h
  exact hboth _ _ h

theorem searchGrids_spec {i : Interval} {value : Ratio} {count : Nat} {k : Int} {s : Scientific}
    (h : searchGrids i value count k = some s) :
    0 < s.digits ∧ i.holds s.digits s.exponent = true ∧ k - count < s.exponent := by
  induction count generalizing k with
  | zero => cases h
  | succ count ih =>
      rw [searchGrids] at h
      cases hgrid : onGrid? i value k with
      | some s' =>
          rw [hgrid] at h
          cases h
          obtain ⟨hpos, hholds, hexponent⟩ := onGrid?_spec hgrid
          exact ⟨hpos, hholds, by omega⟩
      | none =>
          rw [hgrid] at h
          obtain ⟨hpos, hholds, hexponent⟩ := ih h
          exact ⟨hpos, hholds, by omega⟩

theorem exponent_le_trim (count : Nat) (s : Scientific) :
    s.exponent ≤ (s.trim count).exponent := by
  induction count generalizing s with
  | zero => exact le_refl _
  | succ count ih =>
      rw [Scientific.trim]
      split
      · exact le_trans (Int.le_add_one (le_refl _)) (ih _)
      · exact le_refl _

theorem trim_pos {count : Nat} {s : Scientific} (h : 0 < s.digits) : 0 < (s.trim count).digits := by
  induction count generalizing s with
  | zero => exact h
  | succ count ih =>
      rw [Scientific.trim]
      split
      · exact ih (show 0 < s.digits / 10 by omega)
      · exact h

/-- Zeros at the end do not count. -/
theorem value_trim (count : Nat) (s : Scientific) : (s.trim count).value = s.value := by
  induction count generalizing s with
  | zero => rfl
  | succ count ih =>
      rw [Scientific.trim]
      split
      · rename_i hzero
        have hdigits : s.digits = s.digits / 10 * 10 := by omega
        rw [ih, Scientific.value, Scientific.value, zpow_add₀ (by norm_num), zpow_one]
        have hcast : (s.digits : ℚ) = (s.digits / 10 : Nat) * 10 := by exact_mod_cast hdigits
        rw [hcast]
        show ((s.digits / 10 : Nat) : ℚ) * (10 ^ s.exponent * 10) = _
        rw [mul_assoc, mul_comm (10 : ℚ)]
      · rfl

/-- The shortest digits are positive, unless no digits are found. -/
theorem shortest_pos (m : Nat) (q : Int) : 0 < (shortest m q).digits ∨ shortest m q = ⟨0, 0⟩ := by
  unfold shortest
  split
  · rename_i hsearch
    exact Or.inl (trim_pos (searchGrids_spec hsearch).1)
  · exact Or.inr rfl

/-- No grid is much finer than the float is small. -/
theorem exponent_shortest (m : Nat) {q : Int} (hq : -1074 ≤ q) :
    -400 ≤ (shortest m q).exponent := by
  unfold shortest
  split
  · rename_i s hsearch
    have hgrid := (searchGrids_spec hsearch).2.2
    have htrim := exponent_le_trim 17 s
    unfold leadingExponent at hgrid
    omega
  · decide

/-- **The shortest decimal is at most halfway to the next float.** -/
theorem value_shortest_le (m : Nat) (q : Int) :
    (shortest m q).value ≤ (2 * m + 1) * 2 ^ (q - 1) := by
  unfold shortest
  split
  · rename_i s hsearch
    have hhigh : (Interval.ofFloat m q).high = .ofBinary (2 * m + 1) (q - 1) := rfl
    have hle := le_of_holds (hhigh ▸ den_ofBinary _ _) (searchGrids_spec hsearch).2.1
    rw [hhigh, value_ofBinary] at hle
    rw [value_trim]
    exact_mod_cast hle
  · have hnone : (⟨0, 0⟩ : Scientific).value = 0 := zero_mul _
    rw [hnone]
    positivity

end SolFront.Decimal
