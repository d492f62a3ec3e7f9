import Mathlib.Algebra.Order.Field.Power
import Mathlib.Tactic.FieldSimp
import Mathlib.Tactic.Linarith
import Mathlib.Tactic.Ring

/-!
# Floats

What is needed of the arithmetic of floats: how far a number is rounded up at most, that a float
is stored in a word as it is, and that products below the halfway point to infinity, and quotients
by eight or more, are finite.
-/

open Float.Model Float.Model.UnpackedFloat

namespace SolFront.Binary64

/-! ## Rounding -/

theorem mantissa_shift (em : ExtendedMantissa) (k : Nat) :
    (em >>> k).mantissa = em.mantissa / 2 ^ k := by
  show (Nat.repeat ExtendedMantissa.shiftRightOne k em).mantissa = _
  induction k with
  | zero => exact (Nat.div_one _).symm
  | succ k ih =>
      have hstep : (Nat.repeat ExtendedMantissa.shiftRightOne (k + 1) em).mantissa
          = (Nat.repeat ExtendedMantissa.shiftRightOne k em).mantissa / 2 := rfl
      rw [hstep, ih, Nat.div_div_eq_div_mul, pow_succ]

/-- A half that is rounded up is there. -/
theorem half_of_roundBit {n k : Nat}
    (h : (ExtendedMantissa.ofMantissaAndAccuracy n .exact >>> k).roundBit = true) :
    2 ^ k ≤ 2 * (n % 2 ^ k) := by
  cases k with
  | zero => cases h
  | succ k =>
      have hbit : ((ExtendedMantissa.ofMantissaAndAccuracy n .exact >>> k).mantissa % 2 != 0)
          = true := h
      rw [mantissa_shift, bne_iff_ne] at hbit
      have hmantissa : (ExtendedMantissa.ofMantissaAndAccuracy n .exact).mantissa = n := rfl
      rw [hmantissa] at hbit
      have hone : n / 2 ^ k % 2 = 1 := by omega
      rw [pow_succ, Nat.mod_mul, hone]
      omega

theorem roundedMantissa_cases (em : ExtendedMantissa) :
    em.roundedMantissa = em.mantissa
      ∨ em.roundedMantissa = em.mantissa + 1 ∧ em.roundBit = true := by
  obtain ⟨m, roundBit, stickyBit⟩ := em
  cases roundBit <;> cases stickyBit
  · exact Or.inl rfl
  · exact Or.inl rfl
  · have hodd : m % 2 = 0 ∨ m % 2 = 1 := by omega
    -- a tie goes to the even neighbour
    rcases hodd with hodd | hodd
    · left
      show m + m % 2 = m
      omega
    · right
      refine ⟨?_, rfl⟩
      show m + m % 2 = m + 1
      omega
  · exact Or.inr ⟨rfl, rfl⟩

/-- **What is added in rounding is at most a half.** -/
theorem roundedMantissa_shift_le (n k : Nat) :
    2 * ((ExtendedMantissa.ofMantissaAndAccuracy n .exact >>> k).roundedMantissa * 2 ^ k)
      ≤ 2 * n + 2 ^ k := by
  have hdiv : n / 2 ^ k * 2 ^ k + n % 2 ^ k = n := Nat.div_add_mod' n (2 ^ k)
  have hmantissa : (ExtendedMantissa.ofMantissaAndAccuracy n .exact >>> k).mantissa = n / 2 ^ k :=
    mantissa_shift _ k
  rcases roundedMantissa_cases (ExtendedMantissa.ofMantissaAndAccuracy n .exact >>> k) with
    hdown | ⟨hup, hbit⟩
  · rw [hdown, hmantissa]
    omega
  · have hhalf := half_of_roundBit hbit
    rw [hup, hmantissa, Nat.add_mul]
    omega

/-! ## Carrying -/

theorem shiftToTargetExponent_eq (m : Nat) (e : Int) (accuracy : Accuracy) :
    shiftToTargetExponent .binary64 m e accuracy
      = (ExtendedMantissa.ofMantissaAndAccuracy m accuracy
            >>> (max (m.log2 + 1 + e - 53) (-1074) - e).toNat,
          e + (max (m.log2 + 1 + e - 53) (-1074) - e).toNat) := rfl

/-- The float of a mantissa and an exponent. -/
def ofMantissa (s : Sign) (m : Nat) (e : Int) : UnpackedFloat :=
  if h : m = 0 then .zero s else .finite s m e (Nat.pos_of_ne_zero h)

theorem ofMantissa_of_pos (s : Sign) {m : Nat} (h : 0 < m) (e : Int) :
    ofMantissa s m e = .finite s m e h :=
  dif_neg (Nat.ne_of_gt h)

/-- The float of a mantissa that has been rounded. -/
def carried (s : Sign) (r : Nat) (e : Int) : UnpackedFloat :=
  let final := shiftToTargetExponent .binary64 r e .exact
  ofMantissa s final.1.mantissa final.2

theorem roundWithAccuracy_eq (s : Sign) (n : Nat) (e : Int) (accuracy : Accuracy) :
    roundWithAccuracy .binary64 s n e accuracy
      = carried s (shiftToTargetExponent .binary64 n e accuracy).1.roundedMantissa
          (shiftToTargetExponent .binary64 n e accuracy).2 := rfl

/-- A mantissa within its width stays. -/
theorem carried_of_lt (s : Sign) {r : Nat} {e : Int} (hpos : 0 < r) (hr : r < 2 ^ 53)
    (he : -1074 ≤ e) : carried s r e = .finite s r e hpos := by
  have hlog : r.log2 < 53 := (Nat.log2_lt (Nat.ne_of_gt hpos)).mpr hr
  have hshift : (max ((r.log2 : Int) + 1 + e - 53) (-1074) - e).toNat = 0 := by omega
  have hfinal : shiftToTargetExponent .binary64 r e .exact = (⟨r, false, false⟩, e) := by
    rw [shiftToTargetExponent_eq, hshift]
    exact Prod.ext rfl (Int.add_zero e)
  unfold carried
  dsimp only
  rw [hfinal]
  exact ofMantissa_of_pos s hpos e

/-- A mantissa that has grown by a digit loses its last one, which is zero. -/
theorem carried_of_eq (s : Sign) {e : Int} (he : -1074 ≤ e) :
    carried s (2 ^ 53) e = .finite s (2 ^ 52) (e + 1) (Nat.two_pow_pos 52) := by
  have hlog : Nat.log2 (2 ^ 53) = 53 := Nat.log2_two_pow
  have hshift : (max ((Nat.log2 (2 ^ 53) : Int) + 1 + e - 53) (-1074) - e).toNat = 1 := by
    rw [hlog]
    omega
  have hfinal : shiftToTargetExponent .binary64 (2 ^ 53) e .exact
      = (⟨2 ^ 52, false, false⟩, e + 1) := by
    rw [shiftToTargetExponent_eq, hshift]
    rfl
  unfold carried
  dsimp only
  rw [hfinal]
  exact ofMantissa_of_pos s (Nat.two_pow_pos 52) (e + 1)

/-- **Rounding to 53 digits.** A mantissa of 53 digits and `k` more is rounded to 53 digits; a carry
may raise the exponent by one more. -/
theorem roundWithAccuracy_normal (s : Sign) {n k : Nat} {e : Int} (hlow : 2 ^ (52 + k) ≤ n)
    (hhigh : n < 2 ^ (53 + k)) (he : -1074 ≤ e + k) :
    ∃ m j h, roundWithAccuracy .binary64 s n e .exact = .finite s m (e + k + (j : Nat)) h
      ∧ 2 ^ 52 ≤ m ∧ m < 2 ^ 53 ∧ j ≤ 1 ∧ 2 * (m * 2 ^ (k + j)) ≤ 2 * n + 2 ^ k := by
  have hk : 0 < 2 ^ k := Nat.two_pow_pos k
  have hlog : n.log2 = 52 + k := by
    refine (Nat.log2_eq_iff ?_).mpr ⟨hlow, ?_⟩
    · rintro rfl
      exact absurd hlow (Nat.not_le.mpr (Nat.two_pow_pos _))
    · rw [Nat.add_right_comm]
      exact hhigh
  have hshift : (max ((n.log2 : Int) + 1 + e - 53) (-1074) - e).toNat = k := by omega
  have hfirst : shiftToTargetExponent .binary64 n e .exact
      = (ExtendedMantissa.ofMantissaAndAccuracy n .exact >>> k, e + k) := by
    rw [shiftToTargetExponent_eq, hshift]
  have hle := roundedMantissa_shift_le n k
  have hmantissa : (ExtendedMantissa.ofMantissaAndAccuracy n .exact >>> k).mantissa = n / 2 ^ k :=
    mantissa_shift _ k
  have hdigits : 2 ^ 52 ≤ n / 2 ^ k := by
    rw [Nat.le_div_iff_mul_le hk, ← pow_add]
    exact hlow
  rw [roundWithAccuracy_eq, hfirst]
  dsimp only
  generalize hr : (ExtendedMantissa.ofMantissaAndAccuracy n .exact >>> k).roundedMantissa = r
    at hle
  have hge : 2 ^ 52 ≤ r := by
    rcases roundedMantissa_cases (ExtendedMantissa.ofMantissaAndAccuracy n .exact >>> k) with
      hdown | ⟨hup, -⟩
    · omega
    · omega
  have hbound : r ≤ 2 ^ 53 := by
    by_contra hgt
    have hmul : (2 ^ 53 + 1) * 2 ^ k ≤ r * 2 ^ k := Nat.mul_le_mul_right _ (by omega)
    rw [pow_add] at hhigh
    omega
  rcases Nat.lt_or_eq_of_le hbound with hlt | rfl
  · refine ⟨r, 0, by omega, ?_, hge, hlt, by omega, by simpa using hle⟩
    rw [carried_of_lt s (by omega) hlt he]
    exact congrArg (fun exponent => UnpackedFloat.finite s r exponent _) (Int.add_zero _).symm
  · refine ⟨2 ^ 52, 1, by decide, ?_, Nat.le_refl _, by decide, Nat.le_refl _, ?_⟩
    · exact carried_of_eq s he
    · rw [pow_succ]
      omega

/-! ## Words -/

/-- A finite float whose mantissa has at most 53 digits and which is below the power of two. -/
def Small (bound : Int) : UnpackedFloat → Prop
  | .zero _ => True
  | .finite _ m e _ => m < 2 ^ 53 ∧ e + 53 ≤ bound
  | .infinity _ => False
  | .notANumber => False

theorem Small.mono {a b : Int} (h : a ≤ b) {f : UnpackedFloat} (hf : Small a f) : Small b f := by
  cases f with
  | zero s => trivial
  | finite s m e hm => exact ⟨hf.1, le_trans hf.2 h⟩
  | infinity s => exact hf
  | notANumber => exact hf

theorem Small.isFinite {b : Int} {f : UnpackedFloat} (hf : Small b f) : f.isFinite = true := by
  cases f with
  | zero s => rfl
  | finite s m e hm => rfl
  | infinity s => exact hf.elim
  | notANumber => exact hf.elim

theorem Small.isInf {b : Int} {f : UnpackedFloat} (hf : Small b f) : f.isInf = false := by
  cases f with
  | infinity s => exact hf.elim
  | _ => rfl

/-- A word whose exponent is not the largest one is a finite float. -/
theorem small_unpack {w : BitVec 64} {x : Nat} {bound : Int}
    (hx : (@unpackExponent .binary64 w).toNat = x) (hlast : x ≠ 2047)
    (hbound : (x : Int) - 1022 ≤ bound) (hleast : -1021 ≤ bound) :
    Small bound (UnpackedFloat.unpack .binary64 w) := by
  have hones : @unpackExponent .binary64 w ≠ -1#_ := by
    intro h
    rw [h] at hx
    exact hlast hx.symm
  unfold UnpackedFloat.unpack
  dsimp only
  rw [if_neg hones]
  by_cases hzero : @unpackExponent .binary64 w = 0#_
  · rw [if_pos hzero]
    by_cases hmantissa : @unpackMantissa .binary64 w = 0#_
    · rw [dif_pos hmantissa]
      trivial
    · rw [dif_neg hmantissa]
      refine ⟨?_, ?_⟩
      · have hlt := (@unpackMantissa .binary64 w).isLt
        exact lt_trans hlt (by decide)
      · rw [hzero]
        exact hleast
  · rw [if_neg hzero]
    refine ⟨?_, ?_⟩
    · exact (1#1 ++ @unpackMantissa .binary64 w).isLt
    · rw [hx]
      show (x : Int) - 1075 + 53 ≤ bound
      omega

/-- The largest exponent stands for no finite float. -/
theorem unpackExponent_ne_of_isFinite {w : BitVec 64}
    (h : (UnpackedFloat.unpack .binary64 w).isFinite = true) :
    (@unpackExponent .binary64 w).toNat ≠ 2047 := by
  intro hlast
  have hones : @unpackExponent .binary64 w = -1#_ := BitVec.eq_of_toNat_eq hlast
  unfold UnpackedFloat.unpack at h
  dsimp only at h
  rw [if_pos hones] at h
  split at h
  · cases h
  · cases h

/-- **A finite float is in its range.** -/
theorem small_of_isFinite {w : BitVec 64}
    (h : (UnpackedFloat.unpack .binary64 w).isFinite = true) :
    Small 1024 (UnpackedFloat.unpack .binary64 w) := by
  have hne := unpackExponent_ne_of_isFinite h
  have hlt : (@unpackExponent .binary64 w).toNat < 2048 := (@unpackExponent .binary64 w).isLt
  exact small_unpack rfl hne (by omega) (by decide)

theorem toNat_unpackExponent (w : BitVec 64) :
    (@unpackExponent .binary64 w).toNat = w.toNat / 2 ^ 52 % 2 ^ 11 := by
  unfold unpackExponent
  rw [BitVec.toNat_cast, BitVec.extractLsb_toNat, Nat.shiftRight_eq_div_pow]
  rfl

theorem pack_finite (s : Sign) {m : Nat} {e : Int} (h : 0 < m) (he : e ≤ 971) :
    UnpackedFloat.pack .binary64 (.finite s m e h)
      = if m.log2 + 1 = 53 then
          packComponents .binary64 s (BitVec.ofNat 11 (e + 1075).toNat) (BitVec.ofNat 52 m)
        else packComponents .binary64 s 0#11 (BitVec.ofNat 52 m) := by
  have hbias : (e + ((Format.binary64.exponentBias : Nat) : Int) + (52 : Nat)).toNat
      = (e + 1075).toNat := by
    have hvalue : Format.binary64.exponentBias = 1023 := rfl
    rw [hvalue]
    omega
  have hbits : 2 ^ Format.binary64.exponentBits = 2048 := rfl
  unfold UnpackedFloat.pack
  dsimp only
  rw [hbias, hbits, if_neg (by omega)]
  rfl

/-- What a word holds into which the float is packed. -/
def stored (f : UnpackedFloat) : UnpackedFloat :=
  UnpackedFloat.unpack .binary64 (UnpackedFloat.pack .binary64 f)

/-- **A finite float in its range is packed as one.** -/
theorem small_stored (s : Sign) {m : Nat} {e bound : Int} (h : 0 < m) (he : e + 53 ≤ bound)
    (hleast : -1021 ≤ bound) (hgreatest : bound ≤ 1024) :
    Small bound (stored (.finite s m e h)) := by
  unfold stored
  rw [pack_finite s h (by omega)]
  split
  · refine small_unpack (x := (e + 1075).toNat) ?_ (by omega) (by omega) hleast
    have hlt : (e + 1075).toNat < 2048 := by omega
    rw [unpackExponent_packComponents, BitVec.toNat_ofNat]
    exact Nat.mod_eq_of_lt hlt
  · refine small_unpack (x := 0) ?_ (by decide) (by omega) hleast
    rw [unpackExponent_packComponents]
    rfl

theorem small_stored_zero (s : Sign) {bound : Int} (hleast : -1021 ≤ bound) :
    Small bound (stored (.zero s)) := by
  refine small_unpack (x := 0) ?_ (by decide) (by omega) hleast
  show (@unpackExponent .binary64 (packComponents .binary64 s 0 0)).toNat = 0
  rw [unpackExponent_packComponents]
  rfl

/-- A finite float is stored as one or as infinity. -/
theorem small_of_not_isInf (s : Sign) {m : Nat} {e : Int} (h : 0 < m)
    (hinf : (stored (.finite s m e h)).isInf = false) : Small 1024 (stored (.finite s m e h)) := by
  by_cases he : e ≤ 971
  · exact small_stored s h (by omega) (by decide) (le_refl _)
  · -- the exponent is too large for a word
    have hpack : UnpackedFloat.pack .binary64 (.finite s m e h) = packedInfinity .binary64 s := by
      unfold UnpackedFloat.pack
      dsimp only
      have hvalue : Format.binary64.exponentBias = 1023 := rfl
      rw [hvalue]
      exact if_pos (by omega)
    unfold stored at hinf
    rw [hpack] at hinf
    cases s <;> exact absurd hinf (by decide +kernel)

/-- The float has a mantissa of 53 digits. -/
structure Normal (m : Nat) (e : Int) (f : UnpackedFloat) : Prop where
  low : 2 ^ 52 ≤ m
  high : m < 2 ^ 53
  eq : ∃ s h, f = .finite s m e h

theorem finite_of_unpackExponent {w : BitVec 64} {m : Nat} {e : Int}
    (hones : @unpackExponent .binary64 w ≠ -1#_) (hzero : @unpackExponent .binary64 w ≠ 0#_)
    (hm : (1#1 ++ @unpackMantissa .binary64 w).toNat = m)
    (he : ((@unpackExponent .binary64 w).toNat : Int) - 1075 = e) :
    ∃ s h, UnpackedFloat.unpack .binary64 w = .finite s m e h := by
  subst hm he
  have hpos : 0 < (1#1 ++ @unpackMantissa .binary64 w).toNat := by
    rw [BitVec.toNat_append]
    exact lt_of_lt_of_le (by decide) Nat.left_le_or
  unfold UnpackedFloat.unpack
  dsimp only
  rw [if_neg hones, if_neg hzero]
  exact ⟨Sign.ofBitVec (@unpackSign .binary64 w), hpos, rfl⟩

/-- **A float of 53 digits is stored as it is.** -/
theorem normal_stored (s : Sign) {m : Nat} {e : Int} (h : 0 < m) (hlow : 2 ^ 52 ≤ m)
    (hhigh : m < 2 ^ 53) (hleast : -1074 ≤ e) (hgreatest : e ≤ 971) :
    Normal m e (stored (.finite s m e h)) := by
  have hlog : m.log2 + 1 = 53 := by
    rw [(Nat.log2_eq_iff (Nat.ne_of_gt h)).mpr ⟨hlow, hhigh⟩]
  have hlt : (e + 1075).toNat < 2048 := by omega
  have hexponent : (BitVec.ofNat 11 (e + 1075).toNat).toNat = (e + 1075).toNat := by
    rw [BitVec.toNat_ofNat]
    exact Nat.mod_eq_of_lt hlt
  have hones : BitVec.ofNat 11 (e + 1075).toNat ≠ -1#_ := by
    intro heq
    have hlast : (BitVec.ofNat 11 (e + 1075).toNat).toNat = 2047 := by
      rw [heq]
      rfl
    omega
  have hzero : BitVec.ofNat 11 (e + 1075).toNat ≠ 0#_ := by
    intro heq
    have hfirst : (BitVec.ofNat 11 (e + 1075).toNat).toNat = 0 := by
      rw [heq]
      rfl
    omega
  have hmantissa : (1#1 ++ BitVec.ofNat 52 m).toNat = m := by
    rw [BitVec.toNat_append, BitVec.toNat_ofNat, ← Nat.shiftLeft_add_eq_or_of_lt (by omega)]
    simp only [BitVec.toNat_ofNat, Nat.shiftLeft_eq]
    omega
  refine ⟨hlow, hhigh, ?_⟩
  unfold stored
  rw [pack_finite s h hgreatest, if_pos hlog]
  refine finite_of_unpackExponent ?_ ?_ ?_ ?_
  · rw [unpackExponent_packComponents]
    exact hones
  · rw [unpackExponent_packComponents]
    exact hzero
  · rw [unpackMantissa_packComponents]
    exact hmantissa
  · rw [unpackExponent_packComponents]
    show ((BitVec.ofNat 11 (e + 1075).toNat).toNat : Int) - 1075 = e
    rw [hexponent]
    omega

/-! ## Operations -/

/-- **A product below the halfway point to infinity is finite.** The halfway point lies in the
middle of the largest float and the next power of two. -/
theorem small_mul {x y : UnpackedFloat} {m n : Nat} {e f : Int} (hx : Normal m e x)
    (hy : Normal n f y) (hleast : -1074 ≤ e + f)
    (hproduct : (m * n : ℚ) * 2 ^ (e + f - 970) < 2 ^ 54 - 1) :
    Small 1024 (stored (mul .binary64 x y)) := by
  obtain ⟨hm, hm', s, hs, rfl⟩ := hx
  obtain ⟨hn, hn', t, ht, rfl⟩ := hy
  have hlow : 2 ^ 52 * 2 ^ 52 ≤ m * n := Nat.mul_le_mul hm hn
  have hhigh : m * n < 2 ^ 53 * 2 ^ 53 := Nat.mul_lt_mul'' hm' hn'
  -- the product has 105 or 106 digits
  obtain ⟨k, hk, hlow, hhigh⟩ : ∃ k, 52 ≤ k ∧ 2 ^ (52 + k) ≤ m * n ∧ m * n < 2 ^ (53 + k) := by
    by_cases hlt : m * n < 2 ^ 105
    · exact ⟨52, by decide, hlow, hlt⟩
    · exact ⟨53, by decide, Nat.le_of_not_lt hlt, hhigh⟩
  obtain ⟨r, j, hr, hround, hrlow, -, hj, hle⟩ :=
    roundWithAccuracy_normal (s * t) hlow hhigh (e := e + f) (by omega)
  have hmul : mul .binary64 (.finite s m e hs) (.finite t n f ht)
      = .finite (s * t) r (e + f + k + (j : Nat)) hr := hround
  rw [hmul]
  refine small_stored _ hr ?_ (by decide) (le_refl _)
  -- an exponent that is too large by `c + 1` puts the product beyond the bound
  by_contra hgt
  obtain ⟨c, hc⟩ : ∃ c : Nat, e + f - 970 = (c + 1 : Nat) - (k : Int) :=
    ⟨(e + f + k - 971).toNat, by omega⟩
  have hhalfway : (2 : ℚ) ^ 54 - 1 = (18014398509481983 : Nat) := by norm_num
  have hscaled : m * n * 2 ^ (c + 1) < 18014398509481983 * 2 ^ k := by
    rw [hhalfway, hc, zpow_sub₀ (by norm_num), zpow_natCast, zpow_natCast, ← mul_div_assoc,
      div_lt_iff₀ (by positivity)] at hproduct
    exact_mod_cast hproduct
  rw [pow_add] at hlow
  by_cases hcarry : c = 0
  · -- only a carry can have raised the exponent, but the mantissa is too small for one
    subst hcarry
    obtain rfl : j = 1 := by omega
    have hmul : 2 ^ 52 * 2 ^ (k + 1) ≤ r * 2 ^ (k + 1) := Nat.mul_le_mul_right _ hrlow
    rw [pow_succ 2 k] at hmul hle
    omega
  · have hfour : m * n * 2 ^ 2 ≤ m * n * 2 ^ (c + 1) :=
      Nat.mul_le_mul_left _ (Nat.pow_le_pow_right (by decide) (by omega))
    omega

theorem small_ofMantissa_of_not_isInf {s : Sign} {m : Nat} {e : Int}
    (hinf : (stored (ofMantissa s m e)).isInf = false) : Small 1024 (stored (ofMantissa s m e)) := by
  by_cases hm : m = 0
  · rw [hm]
    exact small_stored_zero s (by decide)
  · rw [ofMantissa_of_pos s (Nat.pos_of_ne_zero hm)] at hinf ⊢
    exact small_of_not_isInf s _ hinf

/-- A product of finite floats is finite if it is not infinite. -/
theorem mul_small_of_not_isInf {a b : Int} {x y : UnpackedFloat} (hx : Small a x) (hy : Small b y)
    (hinf : (stored (mul .binary64 x y)).isInf = false) :
    Small 1024 (stored (mul .binary64 x y)) := by
  cases x with
  | infinity s => exact hx.elim
  | notANumber => exact hx.elim
  | zero s =>
      cases y with
      | infinity t => exact hy.elim
      | notANumber => exact hy.elim
      | zero t => exact small_stored_zero _ (by decide)
      | finite t n f ht => exact small_stored_zero _ (by decide)
  | finite s m e hs =>
      cases y with
      | infinity t => exact hy.elim
      | notANumber => exact hy.elim
      | zero t => exact small_stored_zero _ (by decide)
      | finite t n f ht =>
          have hmul : mul .binary64 (.finite s m e hs) (.finite t n f ht)
              = roundWithAccuracy .binary64 (s * t) (m * n) (e + f) .exact := rfl
          rw [hmul, roundWithAccuracy_eq] at hinf ⊢
          unfold carried at hinf ⊢
          exact small_ofMantissa_of_not_isInf hinf

theorem small_stored_ofMantissa (s : Sign) (m : Nat) {e bound : Int} (he : e + 53 ≤ bound)
    (hleast : -1021 ≤ bound) (hgreatest : bound ≤ 1024) :
    Small bound (stored (ofMantissa s m e)) := by
  by_cases hm : m = 0
  · rw [hm]
    exact small_stored_zero s hleast
  · rw [ofMantissa_of_pos s (Nat.pos_of_ne_zero hm)]
    exact small_stored s _ he hleast hgreatest

/-- Rounding raises an exponent by one at most. -/
theorem small_round (s : Sign) (q : Nat) {e bound : Int} (accuracy : Accuracy)
    (he : e + 54 ≤ bound) (hq : q.log2 + 2 + e ≤ bound) (hleast : -1020 ≤ bound)
    (hgreatest : bound ≤ 1024) :
    Small bound (stored (roundWithAccuracy .binary64 s q e accuracy)) := by
  rw [roundWithAccuracy_eq, shiftToTargetExponent_eq]
  dsimp only
  generalize hk : (max ((q.log2 : Int) + 1 + e - 53) (-1074) - e).toNat = k
  have hmantissa : (ExtendedMantissa.ofMantissaAndAccuracy q accuracy >>> k).mantissa
      = q / 2 ^ k := by
    rw [mantissa_shift]
    cases accuracy with
    | exact => rfl
    | inexact half => cases half <;> rfl
  have hdigits : q / 2 ^ k < 2 ^ 53 := by
    rw [Nat.div_lt_iff_lt_mul (Nat.two_pow_pos k), ← pow_add]
    exact lt_of_lt_of_le Nat.lt_log2_self (Nat.pow_le_pow_right (by decide) (by omega))
  generalize hr : (ExtendedMantissa.ofMantissaAndAccuracy q accuracy >>> k).roundedMantissa = r
  -- rounding up can give one digit too many
  have hlog : r.log2 < 54 := by
    by_cases hzero : r = 0
    · rw [hzero]
      decide
    · refine (Nat.log2_lt hzero).mpr ?_
      rcases roundedMantissa_cases (ExtendedMantissa.ofMantissaAndAccuracy q accuracy >>> k) with
        hdown | ⟨hup, -⟩
      · omega
      · omega
  unfold carried
  rw [shiftToTargetExponent_eq]
  exact small_stored_ofMantissa s _ (by omega) (by omega) hgreatest

theorem log2_div_le (m k : Nat) {n : Nat} (hn : 2 ^ 52 ≤ n) :
    ((m <<< k) / n).log2 ≤ m.log2 + k - 52 := by
  by_cases hzero : (m <<< k) / n = 0
  · rw [hzero]
    exact Nat.zero_le _
  · have hdividend : m <<< k < 2 ^ (m.log2 + k + 1) := by
      rw [Nat.shiftLeft_eq, Nat.add_right_comm, pow_add]
      exact Nat.mul_lt_mul_of_pos_right Nat.lt_log2_self (Nat.two_pow_pos k)
    have hquotient : (m <<< k) / n * 2 ^ 52 < 2 ^ (m.log2 + k + 1) :=
      calc (m <<< k) / n * 2 ^ 52
          ≤ (m <<< k) / n * n := Nat.mul_le_mul_left _ hn
        _ ≤ m <<< k := Nat.div_mul_le_self _ _
        _ < 2 ^ (m.log2 + k + 1) := hdividend
    have hdigits : 52 < m.log2 + k + 1 := by
      refine (Nat.pow_lt_pow_iff_right (Nat.lt_succ_self 1)).mp (lt_of_le_of_lt ?_ hquotient)
      exact Nat.le_mul_of_pos_left _ (Nat.pos_of_ne_zero hzero)
    refine Nat.lt_succ_iff.mp ((Nat.log2_lt hzero).mpr ?_)
    have hsplit : m.log2 + k + 1 = (m.log2 + k - 52 + 1) + 52 := by omega
    rw [hsplit, pow_add] at hquotient
    exact Nat.lt_of_mul_lt_mul_right hquotient

/-- **A quotient is not larger than what is divided**, if the divisor is at least eight. -/
theorem small_div {x y : UnpackedFloat} {n : Nat} {f bound : Int} (hx : Small bound x)
    (hy : Normal n f y) (hf : -49 ≤ f) (hleast : 0 ≤ bound) (hgreatest : bound ≤ 1024) :
    Small bound (stored (div .binary64 x y)) := by
  obtain ⟨hn, hn', t, ht, rfl⟩ := hy
  cases x with
  | infinity s => exact hx.elim
  | notANumber => exact hx.elim
  | zero s => exact small_stored_zero _ (by omega)
  | finite s m e hm =>
      obtain ⟨hm', he⟩ := hx
      have hlogm : m.log2 < 53 := (Nat.log2_lt (Nat.ne_of_gt hm)).mpr hm'
      have hlogn : n.log2 = 52 := (Nat.log2_eq_iff (by omega)).mpr ⟨hn, hn'⟩
      -- the dividend is shifted so far that the last digit of the quotient has the exponent `g`
      obtain ⟨g, hg⟩ : ∃ g : Int,
          min (e - f) (max ((m.log2 : Int) + 1 + e - (n.log2 + 1 + f) - 53) (-1074)) = g :=
        ⟨_, rfl⟩
      have hdiv : div .binary64 (.finite s m e hm) (.finite t n f ht)
          = roundWithAccuracy .binary64 (s / t) ((m <<< (e - f - g).toNat) / n) g
              (accuracyOfFraction ((m <<< (e - f - g).toNat) % n) n) := by
        rw [← hg]
        rfl
      rw [hdiv]
      generalize hshift : (e - f - g).toNat = k
      have hlog := log2_div_le m k hn
      exact small_round _ _ _ (by omega) (by omega) (by omega) hgreatest

/-- **A number is rounded up by at most one part in `2 ^ 53`.** The number is given with at least 53
binary digits, and its last one has the exponent `e`. -/
theorem normal_round {n : Nat} {e : Int} (hn : 2 ^ 52 ≤ n) (hleast : -1022 ≤ e + n.log2)
    (hgreatest : e + n.log2 ≤ 1022) :
    ∃ m f, Normal m f (stored (roundWithAccuracy .binary64 .positive n e .exact))
      ∧ e + n.log2 - 52 ≤ f ∧ f ≤ e + n.log2 - 51
      ∧ (m : ℚ) * 2 ^ f ≤ n * 2 ^ e * (1 + 2 ^ (-53 : Int)) := by
  have hpos : n ≠ 0 := by omega
  have hdigits : 52 ≤ n.log2 := (Nat.le_log2 hpos).mpr hn
  -- there are `k` digits to be rounded off
  obtain ⟨k, hk⟩ : ∃ k, n.log2 = 52 + k := ⟨n.log2 - 52, by omega⟩
  have hlow : 2 ^ (52 + k) ≤ n := hk ▸ Nat.log2_self_le hpos
  have hhigh : n < 2 ^ (53 + k) := by
    have hlt : n < 2 ^ (n.log2 + 1) := Nat.lt_log2_self
    rw [hk, Nat.add_right_comm] at hlt
    exact hlt
  obtain ⟨m, j, hm, hfloat, hmlow, hmhigh, hj, hle⟩ :=
    roundWithAccuracy_normal .positive hlow hhigh (e := e) (by omega)
  rw [hfloat]
  refine ⟨m, _, normal_stored _ hm hmlow hmhigh (by omega) (by omega), by omega, by omega, ?_⟩
  rw [pow_add] at hlow
  have hscaled : m * 2 ^ (k + j) * 2 ^ 53 ≤ n * (2 ^ 53 + 1) := by omega
  have hrational : (m : ℚ) * 2 ^ (k + j) * 2 ^ 53 ≤ n * (2 ^ 53 + 1) := by exact_mod_cast hscaled
  have hexponent : e + (k : Nat) + (j : Nat) = e + (k + j : Nat) := by omega
  have hpart : (2 : ℚ) ^ (-53 : Int) = 1 / 2 ^ 53 := by norm_num
  rw [hexponent, zpow_add₀ (by norm_num), zpow_natCast, hpart]
  calc (m : ℚ) * (2 ^ e * 2 ^ (k + j))
      = m * 2 ^ (k + j) * 2 ^ e := by ring
    _ ≤ n * (1 + 1 / 2 ^ 53) * 2 ^ e :=
        mul_le_mul_of_nonneg_right (by linarith) (zpow_nonneg (by norm_num) e)
    _ = n * 2 ^ e * (1 + 1 / 2 ^ 53) := by ring

theorem log2_shiftLeft {n : Nat} (hn : n ≠ 0) (k : Nat) : (n <<< k).log2 = n.log2 + k := by
  have hpos : n <<< k ≠ 0 := by
    rw [Nat.shiftLeft_eq]
    exact Nat.mul_ne_zero hn (Nat.two_pow_pos k).ne'
  refine (Nat.log2_eq_iff hpos).mpr ⟨?_, ?_⟩
  · rw [Nat.shiftLeft_eq, pow_add]
    exact Nat.mul_le_mul_right _ (Nat.log2_self_le hn)
  · rw [Nat.shiftLeft_eq, Nat.add_right_comm, pow_add]
    exact Nat.mul_lt_mul_of_pos_right Nat.lt_log2_self (Nat.two_pow_pos k)

/-- **The float of a natural number.** -/
theorem normal_ofNat {n : Nat} (hpos : 0 < n) (hn : n < 2 ^ 64) :
    ∃ m e, Normal m e (stored (UnpackedFloat.ofNat .binary64 n)) ∧ -52 ≤ e ∧ e ≤ 12
      ∧ (m : ℚ) * 2 ^ e ≤ n * (1 + 2 ^ (-53 : Int)) := by
  have hlog : n.log2 < 64 := (Nat.log2_lt (Nat.ne_of_gt hpos)).mpr hn
  have hshift : (0 - max ((n.log2 : Int) + 1 + 0 - 53) (-1074)).toNat = 52 - n.log2 := by omega
  -- a number with fewer than 53 digits gets zeros at its end
  have hround : UnpackedFloat.ofNat .binary64 n
      = roundWithAccuracy .binary64 .positive (n <<< (52 - n.log2)) (0 - (52 - n.log2 : Nat))
          .exact := by
    have hnormalize : UnpackedFloat.ofNat .binary64 n = round .binary64 .positive n 0 := by
      unfold UnpackedFloat.ofNat UnpackedFloat.ofInt UnpackedFloat.normalize
      rw [Int.compare_eq_gt.mpr (by omega)]
      rfl
    have hdecrease : round .binary64 .positive n 0
        = roundWithAccuracy .binary64 .positive
            (n <<< (0 - max ((n.log2 : Int) + 1 + 0 - 53) (-1074)).toNat)
            (0 - ((0 - max ((n.log2 : Int) + 1 + 0 - 53) (-1074)).toNat : Nat)) .exact := rfl
    rw [hnormalize, hdecrease, hshift]
  have hlogs : (n <<< (52 - n.log2)).log2 = n.log2 + (52 - n.log2) := log2_shiftLeft (by omega) _
  have hdigits : 2 ^ 52 ≤ n <<< (52 - n.log2) := by
    have hle : 2 ^ (n <<< (52 - n.log2)).log2 ≤ n <<< (52 - n.log2) := by
      refine Nat.log2_self_le ?_
      rw [Nat.shiftLeft_eq]
      exact Nat.mul_ne_zero (by omega) (Nat.two_pow_pos _).ne'
    rw [hlogs] at hle
    exact le_trans (Nat.pow_le_pow_right (by decide) (by omega)) hle
  obtain ⟨m, f, hm, hleast, hgreatest, hle⟩ :=
    normal_round (e := 0 - (52 - n.log2 : Nat)) hdigits (by omega) (by omega)
  rw [hround]
  refine ⟨m, f, hm, by omega, by omega, le_trans hle (le_of_eq ?_)⟩
  rw [zero_sub, zpow_neg, zpow_natCast, Nat.shiftLeft_eq, Nat.cast_mul, Nat.cast_pow]
  field_simp
  norm_num

end SolFront.Binary64
