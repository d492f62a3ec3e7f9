import SolFront.Json.Lexeme
import SolFront.Proofs.Binary64

/-!
# Scaling by powers of ten

The float of a numeral comes from its significand by a multiplication or a division for each power
of ten. It is finite, and there is one unless the number is close to infinity or beyond: the
significand, the power and their product are each rounded, so the last two floats are too close.
-/

open Float.Model Float.Model.UnpackedFloat

namespace SolFront.Json

open Binary64

/-- What the word of a float holds. -/
def held (x : Float) : UnpackedFloat :=
  x.toModel.unpack

/-! ## Powers of ten -/

/-- Whether the float of a power of ten has 53 digits and is hardly larger than the power. -/
def powerFits (k : Nat) : Bool :=
  match held (powerOfTen k) with
  | .finite _ m e _ =>
    Nat.pow 2 52 ≤ m && m < Nat.pow 2 53 && -52 ≤ e && (k = 0 || -49 ≤ e)
      && m * Nat.pow 2 e.toNat * Nat.pow 2 53
        ≤ Nat.pow 10 k * Nat.pow 2 (-e).toNat * (Nat.pow 2 53 + 1)
  | _ => false

theorem powerFits_of_lt : ∀ k < 23, powerFits k = true := by decide +kernel

theorem powerFits_greatest : powerFits 308 = true := by decide +kernel

theorem pow_ten_lt {k : Nat} (h : k ≤ 307) : 10 ^ k < 2 ^ 1023 := by
  refine lt_of_le_of_lt (Nat.pow_le_pow_right (by decide) h) ?_
  decide +kernel

theorem powerOfTen_large {k : Nat} (hk : 22 < k) (hmax : k ≤ 308) :
    held (powerOfTen k)
      = stored (roundWithAccuracy .binary64 .positive (2 ^ 53 * 10 ^ k) (-53) .exact) := by
  have hzero : ¬ (k : Int) < -((2 ^ 11 : Int) + Nat.log2 1) := by
    have hlog : Nat.log2 1 = 0 := by decide
    rw [hlog]
    omega
  unfold held powerOfTen Float.ofScientific
  rw [dif_neg (by omega)]
  show stored (UnpackedFloat.ofScientific .binary64 1 k) = _
  unfold UnpackedFloat.ofScientific
  rw [dif_neg (by decide), if_neg (by show ¬ (k : Int) > 2 ^ 11; omega), if_neg hzero,
    if_pos (by omega)]
  rfl

/-- The float of the power of ten has 53 digits, and it is larger by at most one part in `2 ^ 53`. -/
def PowerClose (k : Nat) : Prop :=
  ∃ m e, Normal m e (held (powerOfTen k)) ∧ -52 ≤ e ∧ (k ≠ 0 → -49 ≤ e)
    ∧ (m : ℚ) * 2 ^ e ≤ 10 ^ k * (1 + 2 ^ (-53 : Int))

theorem powerClose_of_fits {k : Nat} (h : powerFits k = true) : PowerClose k := by
  unfold powerFits at h
  split at h
  · rename_i s m e hm heq
    simp only [Bool.and_eq_true, Bool.or_eq_true, decide_eq_true_eq] at h
    obtain ⟨⟨⟨⟨hlow, hhigh⟩, hleast⟩, hfirst⟩, hle⟩ := h
    refine ⟨m, e, ⟨hlow, hhigh, s, hm, heq⟩, hleast, fun hne => hfirst.resolve_left hne, ?_⟩
    have hrational : (m : ℚ) * 2 ^ e.toNat * 2 ^ 53
        ≤ 10 ^ k * 2 ^ (-e).toNat * (2 ^ 53 + 1) := by exact_mod_cast hle
    have hexponent : e = (e.toNat : Int) - ((-e).toNat : Nat) := by omega
    have hpart : (2 : ℚ) ^ (-53 : Int) = 1 / 2 ^ 53 := by norm_num
    rw [hpart, hexponent, zpow_sub₀ (by norm_num), zpow_natCast, zpow_natCast,
      ← mul_div_assoc, div_le_iff₀ (by positivity)]
    linarith
  · cases h

/-- The large powers are rounded from a number with 53 digits more. -/
theorem powerClose_of_large {k : Nat} (hk : 22 < k) (hmax : k ≤ 307) : PowerClose k := by
  have hlow : 2 ^ 52 ≤ 2 ^ 53 * 10 ^ k := by
    have hone : 1 ≤ 10 ^ k := Nat.one_le_pow _ _ (by decide)
    omega
  have hpos : 2 ^ 53 * 10 ^ k ≠ 0 := by omega
  have hleast : 105 ≤ (2 ^ 53 * 10 ^ k).log2 := by
    refine (Nat.le_log2 hpos).mpr ?_
    have hpow : 10 ^ 23 ≤ 10 ^ k := Nat.pow_le_pow_right (by decide) hk
    omega
  have hbelow : ∀ t, 10 ^ k < 2 ^ t → (2 ^ 53 * 10 ^ k).log2 < 53 + t := by
    intro t ht
    refine (Nat.log2_lt hpos).mpr ?_
    rw [pow_add]
    exact Nat.mul_lt_mul_of_pos_left ht (by decide)
  have hgreatest := hbelow 1023 (pow_ten_lt hmax)
  have hround := @normal_round _ (-53) hlow
  generalize (2 ^ 53 * 10 ^ k).log2 = digits at hleast hgreatest hround
  obtain ⟨m, e, hm, hfirst, hlast, hle⟩ := hround (by omega) (by omega)
  rw [← powerOfTen_large hk (by omega)] at hm
  refine ⟨m, e, hm, by omega, by omega, le_trans hle (le_of_eq ?_)⟩
  rw [Nat.cast_mul, Nat.cast_pow, Nat.cast_pow, zpow_neg]
  norm_num
  ring

/-- **The float of a power of ten** is hardly larger than the power. -/
theorem powerClose {k : Nat} (hmax : k ≤ 308) : PowerClose k := by
  by_cases hsmall : k < 23
  · exact powerClose_of_fits (powerFits_of_lt k hsmall)
  · by_cases hgreatest : k = 308
    · rw [hgreatest]
      exact powerClose_of_fits powerFits_greatest
    · exact powerClose_of_large (by omega) (by omega)

/-! ## Scaling -/

theorem held_mul (x y : Float) : held (x * y) = stored (mul .binary64 (held x) (held y)) := rfl

theorem held_div (x y : Float) : held (x / y) = stored (div .binary64 (held x) (held y)) := rfl

theorem small_of_normal {x : Float} {m : Nat} {e : Int} (h : Normal m e (held x)) :
    Small 1024 (held x) := by
  obtain ⟨-, -, s, hm, heq⟩ := h
  have hfinite : (held x).isFinite = true := by
    rw [heq]
    rfl
  exact small_of_isFinite hfinite

theorem small_div_powerOfTen {x : Float} {k : Nat} (hx : Small 65 (held x)) (hpos : k ≠ 0)
    (hk : k ≤ 308) : Small 65 (held (x / powerOfTen k)) := by
  obtain ⟨m, e, hm, -, he, -⟩ := powerClose hk
  rw [held_div]
  exact small_div hx hm (he hpos) (by decide) (by decide)

/-- **A scaled float is finite.** -/
theorem small_of_scale {x y : Float} {exponent : Int} (hx : Small 65 (held x))
    (h : scale x exponent = some y) : Small 1024 (held y) := by
  fun_induction scale x exponent with
  | case1 => cases h
  | case2 x exponent hle hup product hinf =>
      rw [← Option.some.inj h]
      obtain ⟨m, e, hm, -⟩ := powerClose hle
      exact mul_small_of_not_isInf hx (small_of_normal hm) (Bool.eq_false_iff.mpr hinf)
  | case3 x exponent hle hdown =>
      cases h
      exact (small_div_powerOfTen hx (by omega) hle).mono (by decide)
  | case4 =>
      cases h
      exact hx.mono (by decide)
  | case5 => cases h
  | case6 x exponent hgt hne hdown ih =>
      exact ih (small_div_powerOfTen hx (by decide) (Nat.le_refl _)) h

theorem isSome_scale_of_neg {x : Float} {exponent : Int} (h : exponent < 0) :
    (scale x exponent).isSome = true := by
  fun_induction scale x exponent with
  | case1 => omega
  | case2 => omega
  | case3 => rfl
  | case4 => rfl
  | case5 => omega
  | case6 x exponent hgt hne hdown ih =>
      refine ih ?_
      have hmax : maxPower = 308 := rfl
      omega

/-! ## The float of a significand -/

variable {n : Nat}

theorem held_toFloat (hn : n < UInt64.size) :
    held n.toUInt64.toFloat = stored (UnpackedFloat.ofNat .binary64 n) := by
  have hword : n.toUInt64.toNat = n := Nat.mod_eq_of_lt hn
  show stored (UnpackedFloat.ofNat .binary64 n.toUInt64.toNat) = _
  rw [hword]

theorem small_toFloat (hn : n < UInt64.size) : Small 65 (held n.toUInt64.toFloat) := by
  rw [held_toFloat hn]
  rcases Nat.eq_zero_or_pos n with rfl | hpos
  · exact small_stored_zero .positive (by decide)
  · obtain ⟨m, e, ⟨-, hm, s, h, heq⟩, -, he, -⟩ := normal_ofNat hpos hn
    rw [heq]
    exact ⟨hm, by omega⟩

theorem two_pow_lt_pow_ten : (2 : ℚ) ^ 1024 < 10 ^ 309 := by
  have hnat : 2 ^ 1024 < 10 ^ 309 := by decide +kernel
  exact_mod_cast hnat

/-- What is not far above the largest float has at most 309 digits. -/
theorem exponent_le_of_bound {k : Nat} (hpos : 0 < n)
    (hbound : (n : ℚ) * 10 ^ k * 2 ^ (-970 : Int) ≤ 2 ^ 54 - 5) : k ≤ 308 := by
  by_contra hk
  have hone : (1 : ℚ) ≤ n := by exact_mod_cast hpos
  have hpow : (10 : ℚ) ^ 309 ≤ 10 ^ k := pow_le_pow_right₀ (by norm_num) (by omega)
  have hle : (10 : ℚ) ^ 309 ≤ n * 10 ^ k := le_trans hpow (le_mul_of_one_le_left (by positivity) hone)
  have hscaled : (2 : ℚ) ^ 1024 * 2 ^ (-970 : Int) < n * 10 ^ k * 2 ^ (-970 : Int) :=
    mul_lt_mul_of_pos_right (lt_of_lt_of_le two_pow_lt_pow_ten hle) (by positivity)
  have hexact : (2 : ℚ) ^ 1024 * 2 ^ (-970 : Int) = 2 ^ 54 := by
    rw [← zpow_natCast, ← zpow_add₀ (by norm_num)]
    norm_num
  rw [hexact] at hscaled
  linarith

theorem scale_of_le {x : Float} {k : Nat} (hk : k ≤ maxPower)
    (hinf : (x * powerOfTen k).isInf = false) : scale x k = some (x * powerOfTen k) := by
  rw [scale, Int.natAbs_natCast, if_pos hk, if_pos (Int.natCast_nonneg k)]
  dsimp only
  rw [hinf]
  rfl

theorem isFinite_signed (negative : Bool) {x : Float} (h : Small 1024 (held x)) :
    (signed negative x).isFinite = true := by
  have hsmall : Small 1024 (held (signed negative x)) := by
    cases negative with
    | false => exact h
    | true =>
        show Small 1024 (stored (held x).neg)
        cases hx : held x with
        | zero => exact small_stored_zero _ (by decide)
        | finite s m e hm =>
            rw [hx] at h
            exact small_stored _ _ h.2 (by decide) (by decide)
        | infinity | notANumber =>
            rw [hx] at h
            exact h.elim
  exact hsmall.isFinite

theorem isFinite_signed_zero (negative : Bool) : (signed negative 0).isFinite = true := by
  cases negative <;> decide +kernel

/-- **A number that is well below infinity can be scaled.** The bound is what rounds to the largest
float but two. -/
theorem isSome_scale {k : Nat} (hn : n < UInt64.size)
    (hbound : (n : ℚ) * 10 ^ k * 2 ^ (-970 : Int) ≤ 2 ^ 54 - 5) :
    (scale n.toUInt64.toFloat k).isSome = true := by
  rcases Nat.eq_zero_or_pos n with rfl | hpos
  · have hzero : held (Nat.toUInt64 0).toFloat = .zero .positive := rfl
    by_cases hk : k ≤ maxPower
    · obtain ⟨m, e, ⟨-, -, s, h, heq⟩, -⟩ := powerClose hk
      have hsmall : Small 1024 (held ((Nat.toUInt64 0).toFloat * powerOfTen k)) := by
        rw [held_mul, hzero, heq]
        exact small_stored_zero _ (by decide)
      rw [scale_of_le hk hsmall.isInf]
      rfl
    · have hbeq : ((Nat.toUInt64 0).toFloat == 0) = true := by decide +kernel
      rw [scale, Int.natAbs_natCast, if_neg hk, if_pos hbeq]
      rfl
  · have hk := exponent_le_of_bound hpos hbound
    obtain ⟨m, e, hm, hme, -, hmle⟩ := normal_ofNat hpos hn
    obtain ⟨r, f, hr, hrf, -, hrle⟩ := powerClose hk
    have hsmall : Small 1024 (held (n.toUInt64.toFloat * powerOfTen k)) := by
      rw [held_mul, held_toFloat hn]
      refine small_mul hm hr (by omega) ?_
      have hexponent : e + f - 970 = e + f + (-970) := by omega
      -- both factors are a little too large, and the bound leaves room for that
      calc (m * r : ℚ) * 2 ^ (e + f - 970)
          = (m * 2 ^ e) * (r * 2 ^ f) * 2 ^ (-970 : Int) := by
            rw [hexponent, zpow_add₀ (by norm_num), zpow_add₀ (by norm_num)]
            ring
        _ ≤ (n * (1 + 2 ^ (-53 : Int))) * (10 ^ k * (1 + 2 ^ (-53 : Int))) * 2 ^ (-970 : Int) := by
            refine mul_le_mul_of_nonneg_right ?_ (by positivity)
            exact mul_le_mul hmle hrle (by positivity) (by positivity)
        _ = (n * 10 ^ k * 2 ^ (-970 : Int)) * (1 + 2 ^ (-53 : Int)) ^ 2 := by ring
        _ ≤ (2 ^ 54 - 5) * (1 + 2 ^ (-53 : Int)) ^ 2 :=
            mul_le_mul_of_nonneg_right hbound (by positivity)
        _ < 2 ^ 54 - 1 := by norm_num
    rw [scale_of_le hk hsmall.isInf]
    rfl

end SolFront.Json
