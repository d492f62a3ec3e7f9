import SolFront.Proofs.Json.Values

/-!
# Printed floats

A finite float is printed so that it can be read again, if not always as the same float. The only
fault there could be is that the number is out of range, and the digits, which are at most halfway
to the next float, are scaled to infinity for none of them.
-/

namespace SolFront.Json

open Decimal

/-! ## Significands -/

/-- The digits taken into a significand and those left over are all digits. -/
theorem ofDigitChars_absorb (ds : List Char) (significand : Nat) :
    Nat.ofDigitChars 10 (absorb significand ds).2 (absorb significand ds).1
      = Nat.ofDigitChars 10 ds significand := by
  induction ds generalizing significand with
  | nil => rfl
  | cons d ds ih =>
      unfold absorb
      dsimp only
      split
      · rw [ih, Nat.ofDigitChars_cons, digitValue, Nat.mul_comm]
      · rfl

theorem length_absorb_le (ds : List Char) (significand : Nat) :
    (absorb significand ds).2.length ≤ ds.length := by
  induction ds generalizing significand with
  | nil => exact Nat.le_refl _
  | cons d ds ih =>
      unfold absorb
      dsimp only
      split
      · exact Nat.le_succ_of_le (ih _)
      · exact Nat.le_refl _

/-- A digit for which there is room is taken. -/
theorem length_absorb_lt {d : Char} (ds : List Char) {significand : Nat}
    (h : significand * 10 + digitValue d < UInt64.size) :
    (absorb significand (d :: ds)).2.length < (d :: ds).length := by
  unfold absorb
  dsimp only
  rw [if_pos h]
  exact Nat.lt_succ_of_le (length_absorb_le ds _)

theorem mul_pow_le_ofDigitChars (ds : List Char) (significand : Nat) :
    significand * 10 ^ ds.length ≤ Nat.ofDigitChars 10 ds significand := by
  induction ds generalizing significand with
  | nil => exact Nat.le_of_eq (Nat.mul_one _)
  | cons d ds ih =>
      rw [Nat.ofDigitChars_cons, List.length_cons, pow_succ, Nat.mul_comm _ 10, ← Nat.mul_assoc]
      refine le_trans (Nat.mul_le_mul_right _ ?_) (ih _)
      omega

theorem digitValue_le {d : Char} (h : d.isDigit = true) : digitValue d ≤ 9 := by
  simp only [Char.isDigit, Bool.and_eq_true, decide_eq_true_eq] at h
  have hgreatest : d.toNat ≤ 57 := UInt32.le_iff_toNat_le.mp h.2
  have hzero : '0'.toNat = 48 := rfl
  unfold digitValue
  omega

theorem digitValue_pos {d : Char} (h : d.isDigit = true) (hne : d ≠ '0') : 0 < digitValue d := by
  simp only [Char.isDigit, Bool.and_eq_true, decide_eq_true_eq] at h
  have hleast : 48 ≤ d.toNat := UInt32.le_iff_toNat_le.mp h.1
  have hzero : '0'.toNat = 48 := rfl
  have hother : d.toNat ≠ '0'.toNat := fun heq => hne (Char.toNat_inj.mp heq)
  unfold digitValue
  omega

theorem ofDigitChars_lt {ds : List Char} (hds : ∀ d ∈ ds, d.isDigit = true) (significand : Nat) :
    Nat.ofDigitChars 10 ds significand < (significand + 1) * 10 ^ ds.length := by
  induction ds generalizing significand with
  | nil =>
      rw [Nat.ofDigitChars_nil]
      simp
  | cons d ds ih =>
      obtain ⟨hd, hds⟩ := List.forall_mem_cons.mp hds
      have hle : d.toNat - '0'.toNat ≤ 9 := digitValue_le hd
      rw [Nat.ofDigitChars_cons, List.length_cons, pow_succ, Nat.mul_comm _ 10, ← Nat.mul_assoc]
      refine lt_of_lt_of_le (ih hds _) (Nat.mul_le_mul_right _ ?_)
      omega

/-! ## Exponents -/

theorem exponentDigits_of_le {ds : List Char} (hds : ∀ d ∈ ds, d.isDigit = true) {value : Nat}
    (hle : Nat.ofDigitChars 10 ds value ≤ maxExponent) {rest : List Char} (hrest : NoDigit rest) :
    exponentDigits value (ds ++ rest) = (Nat.ofDigitChars 10 ds value, rest) := by
  induction ds generalizing value with
  | nil =>
      cases rest with
      | nil => rfl
      | cons c rest =>
          rw [List.nil_append, exponentDigits, hrest c rfl]
          rfl
  | cons d ds ih =>
      obtain ⟨hd, hds⟩ := List.forall_mem_cons.mp hds
      have hnext : value * 10 + digitValue d = 10 * value + (d.toNat - '0'.toNat) := by
        rw [digitValue, Nat.mul_comm]
      rw [Nat.ofDigitChars_cons] at hle ⊢
      have hsmall : ¬ maxExponent < 10 * value + (d.toNat - '0'.toNat) :=
        Nat.not_lt.mpr (le_trans (le_ofDigitChars ds _) hle)
      rw [List.cons_append, exponentDigits, hd, hnext]
      exact (if_neg hsmall).trans (ih hds hle)

/-- An exponent that is not too large ends the number. -/
theorem exponentPart_of_le (negative : Bool) (significand : Nat) (exponent : Int) {value : Int}
    (hle : value.natAbs ≤ maxExponent) :
    exponentPart negative significand exponent
        ((if value < 0 then '-' else '+') :: Nat.toDigits 10 value.natAbs)
      = float negative significand (exponent + value) [] := by
  have hvalue : Nat.ofDigitChars 10 (Nat.toDigits 10 value.natAbs) 0 = value.natAbs :=
    Nat.ofDigitChars_toDigits (by decide) (by decide)
  have hdigits := digits_toDigits value.natAbs
  have hread := exponentDigits_of_le hdigits.2 (hvalue.symm ▸ hle) stops_nil.noDigit
  obtain ⟨d, ds, heq⟩ := List.exists_cons_of_ne_nil hdigits.1
  have hd : d.isDigit = true := hdigits.2 d (heq ▸ List.mem_cons_self)
  rw [List.append_nil, hvalue] at hread
  rw [heq] at hread ⊢
  have hsign : exponentSign ((if value < 0 then '-' else '+') :: d :: ds)
      = (decide (value < 0), d :: ds) := by
    by_cases hneg : value < 0
    · rw [if_pos hneg, decide_eq_true hneg]
      rfl
    · rw [if_neg hneg, decide_eq_false hneg]
      rfl
  rw [exponentPart_eq, hsign, exponentEnd, hd]
  dsimp only
  rw [hread]
  dsimp only
  rw [if_neg (by simp), if_neg (Nat.not_lt.mpr hle)]
  congr 1
  by_cases hneg : value < 0
  · rw [decide_eq_true hneg, if_pos rfl]
    omega
  · rw [decide_eq_false hneg, if_neg Bool.false_ne_true]
    omega

/-! ## Floats -/

variable {negative : Bool} {significand : Nat} {exponent : Int}

theorem isSome_float (h : (scale significand.toUInt64.toFloat exponent).isSome = true)
    (rest : List Char) : (float negative significand exponent rest).toOption.isSome = true := by
  unfold float
  cases hscale : scale significand.toUInt64.toFloat exponent with
  | none =>
      rw [hscale] at h
      cases h
  | some x => rfl

/-- **Digits with a point are in range**, if not too many stand before the point. -/
theorem isSome_number_point (negative : Bool) {whole ds : List Char} (hwhole : Whole whole)
    (hshort : whole.length ≤ 18) (hds : Digits ds) :
    (number negative (whole ++ '.' :: ds)).toOption.isSome = true := by
  have hlt : Nat.ofDigitChars 10 whole 0 < 10 ^ 18 := by
    have hlt := ofDigitChars_lt (digits_of_whole hwhole).2 0
    rw [Nat.zero_add, Nat.one_mul] at hlt
    exact lt_of_lt_of_le hlt (Nat.pow_le_pow_right (by decide) hshort)
  have hsize : UInt64.size = 18446744073709551616 := rfl
  have habsorb : absorb 0 whole = (Nat.ofDigitChars 10 whole 0, []) := absorb_eq (by omega)
  obtain ⟨hne, hds⟩ := hds
  obtain ⟨d, ds, rfl⟩ := List.exists_cons_of_ne_nil hne
  have hd : digitValue d ≤ 9 := digitValue_le (hds d List.mem_cons_self)
  -- there is room for one digit of the fraction, so the exponent is negative
  have htaken : (absorb (Nat.ofDigitChars 10 whole 0) (d :: ds)).2.length < (d :: ds).length :=
    length_absorb_lt ds (by omega)
  have hread := fractionPart_append negative (Nat.ofDigitChars 10 whole 0) 0 ⟨hne, hds⟩ .none
    stops_nil
  rw [number_whole negative hwhole (noDigit_cons (by decide) _)]
  unfold afterWhole
  rw [habsorb]
  dsimp only
  rw [List.append_nil, List.append_nil] at hread
  show (fractionPart negative _ 0 (d :: ds)).toOption.isSome = true
  rw [hread, List.append_nil, afterFraction_stops _ _ _ stops_nil]
  refine isSome_float (isSome_scale_of_neg ?_) []
  omega

/-- **The number of a digit with a fraction and an exponent.** Digits for which there is no room are
dropped. -/
theorem number_exponential (negative : Bool) {d : Char} {ds : List Char}
    (hds : ∀ c ∈ d :: ds, c.isDigit = true) {exponent : Int} (hle : exponent.natAbs ≤ maxExponent) :
    number negative (exponential (d :: ds) exponent)
      = float negative (absorb (digitValue d) ds).1
          (exponent - (ds.length - (absorb (digitValue d) ds).2.length : Nat)) [] := by
  obtain ⟨hd, hds⟩ := List.forall_mem_cons.mp hds
  have hdigit : digitValue d ≤ 9 := digitValue_le hd
  have hone : absorb 0 [d] = (digitValue d, []) := by
    unfold absorb
    dsimp only
    rw [Nat.zero_mul, Nat.zero_add, if_pos (lt_of_le_of_lt hdigit (by decide))]
    rfl
  have hexponent : Exponent ('e' :: (if exponent < 0 then '-' else '+') ::
      Nat.toDigits 10 exponent.natAbs) := exponent_signed exponent
  cases ds with
  | nil =>
      have heq : exponential [d] exponent = [d] ++ 'e' ::
          (if exponent < 0 then '-' else '+') :: Nat.toDigits 10 exponent.natAbs := rfl
      rw [heq, number_whole negative (whole_singleton hd) (noDigit_cons (by decide) _)]
      unfold afterWhole
      rw [hone]
      show exponentPart negative (digitValue d) 0 _ = _
      rw [exponentPart_of_le negative (digitValue d) 0 hle, Int.zero_add]
      show _ = float negative (digitValue d) (exponent - 0) []
      rw [Int.sub_zero]
  | cons c cs =>
      have heq : exponential (d :: c :: cs) exponent = [d] ++ '.' :: (c :: cs ++ 'e' ::
          (if exponent < 0 then '-' else '+') :: Nat.toDigits 10 exponent.natAbs) := by
        simp [exponential]
      have hread := fractionPart_append negative (digitValue d) 0
        ⟨List.cons_ne_nil c cs, hds⟩ hexponent stops_nil
      rw [List.append_nil, List.append_nil] at hread
      rw [heq, number_whole negative (whole_singleton hd) (noDigit_cons (by decide) _)]
      unfold afterWhole
      rw [hone]
      show fractionPart negative (digitValue d) 0 (c :: cs ++ _) = _
      rw [hread]
      show exponentPart negative _ _ _ = _
      rw [exponentPart_of_le negative _ _ hle]
      congr 1
      omega

/-- A decimal with fewer digits is not larger. -/
theorem le_value {s : Scientific} {n j k : Nat} (hn : n * 10 ^ j ≤ s.digits)
    (hk : (k : Int) = s.exponent + j) : (n : ℚ) * 10 ^ k ≤ s.value := by
  have hdigits : (n : ℚ) * 10 ^ j ≤ s.digits := by exact_mod_cast hn
  calc (n : ℚ) * 10 ^ k
      = n * 10 ^ j * 10 ^ s.exponent := by
        rw [← zpow_natCast, hk, zpow_add₀ (by norm_num), zpow_natCast, mul_assoc,
          mul_comm ((10 : ℚ) ^ s.exponent)]
    _ ≤ s.value := mul_le_mul_of_nonneg_right hdigits (by positivity)

/-- **A decimal that is well below infinity is in range.** -/
theorem isSome_exponential (negative : Bool) {s : Scientific} {d : Char} {ds : List Char}
    (hdigits : Nat.toDigits 10 s.digits = d :: ds) (hd : d ≠ '0') (hleast : -400 ≤ s.exponent)
    (hbound : s.value * 2 ^ (-970 : Int) ≤ 2 ^ 54 - 5) :
    (number negative (exponential (d :: ds) (s.exponent + ds.length))).toOption.isSome = true := by
  have hall : ∀ c ∈ d :: ds, c.isDigit = true := hdigits ▸ (digits_toDigits s.digits).2
  have hscale : ∀ {n j k : Nat}, n * 10 ^ j ≤ s.digits → (k : Int) = s.exponent + j →
      (n : ℚ) * 10 ^ k * 2 ^ (-970 : Int) ≤ 2 ^ 54 - 5 := fun hn hk =>
    le_trans (mul_le_mul_of_nonneg_right (le_value hn hk) (by positivity)) hbound
  have hvalue : Nat.ofDigitChars 10 ds (digitValue d) = s.digits := by
    have hback : Nat.ofDigitChars 10 (Nat.toDigits 10 s.digits) 0 = s.digits :=
      Nat.ofDigitChars_toDigits (by decide) (by decide)
    rw [hdigits, Nat.ofDigitChars_cons, Nat.mul_zero, Nat.zero_add] at hback
    exact hback
  have hpos : 0 < digitValue d := digitValue_pos (hall d List.mem_cons_self) hd
  have hone : 1 * 10 ^ ds.length ≤ s.digits :=
    le_trans (Nat.mul_le_mul_right _ hpos) (hvalue ▸ mul_pow_le_ofDigitChars ds (digitValue d))
  have hle : (s.exponent + ds.length).natAbs ≤ maxExponent := by
    have hmax : maxExponent = 2147483647 := rfl
    by_cases hneg : s.exponent + ds.length < 0
    · omega
    · obtain ⟨k, hk⟩ := Int.eq_ofNat_of_zero_le (Int.not_lt.mp hneg)
      have hk308 := exponent_le_of_bound (n := 1) Nat.one_pos (hscale hone hk.symm)
      omega
  rw [number_exponential negative hall hle]
  -- the digits that are left over are replaced by zeros, which makes the number no larger
  refine isSome_float ?_ []
  have hleft := length_absorb_le ds (digitValue d)
  by_cases hneg : s.exponent + ds.length - (ds.length - (absorb (digitValue d) ds).2.length : Nat) < 0
  · exact isSome_scale_of_neg hneg
  · obtain ⟨k, hk⟩ := Int.eq_ofNat_of_zero_le (Int.not_lt.mp hneg)
    rw [hk]
    refine isSome_scale (absorb_lt ds ?_) (hscale (j := (absorb (digitValue d) ds).2.length) ?_ ?_)
    · exact lt_of_le_of_lt (digitValue_le (hall d List.mem_cons_self)) (by decide)
    · rw [← hvalue, ← ofDigitChars_absorb ds]
      exact mul_pow_le_ofDigitChars _ _
    · omega

theorem value_shortest_bound {m : Nat} {q : Int} (hm : m < 9007199254740992) (hq : q ≤ 971)
    (hsmall : ¬ (q = 971 ∧ 9007199254740990 ≤ m)) :
    (shortest m q).value * 2 ^ (-970 : Int) ≤ 2 ^ 54 - 5 := by
  have hle := mul_le_mul_of_nonneg_right (value_shortest_le m q)
    (show (0 : ℚ) ≤ 2 ^ (-970 : Int) by positivity)
  have hexponent : q - 971 = q - 1 + -970 := by omega
  have hscaled : (2 * m + 1 : ℚ) * 2 ^ (q - 1) * 2 ^ (-970 : Int) = (2 * m + 1) * 2 ^ (q - 971) := by
    rw [hexponent, zpow_add₀ (by norm_num), mul_assoc]
  rw [hscaled] at hle
  refine le_trans hle ?_
  by_cases hlast : q = 971
  · have hm' : m ≤ 9007199254740989 := by omega
    have hcast : (m : ℚ) ≤ 9007199254740989 := by exact_mod_cast hm'
    rw [hlast]
    norm_num
    linarith
  · have hcast : (m : ℚ) ≤ 9007199254740991 := by exact_mod_cast Nat.le_of_lt_succ hm
    have hhalf : (2 : ℚ) ^ (q - 971) ≤ 2 ^ (-1 : Int) :=
      zpow_le_zpow_right₀ (by norm_num) (by omega)
    calc (2 * m + 1 : ℚ) * 2 ^ (q - 971)
        ≤ (2 * m + 1) * 2 ^ (-1 : Int) := mul_le_mul_of_nonneg_left hhalf (by positivity)
      _ ≤ 2 ^ 54 - 5 := by
        norm_num
        linarith

/-- The two largest floats are printed within the range, too. -/
theorem isSome_magnitude_largest (negative : Bool) {m : Nat}
    (hm : m = 9007199254740990 ∨ m = 9007199254740991) :
    (number negative (magnitude m 971)).toOption.isSome = true := by
  rcases hm with rfl | rfl <;> cases negative <;> decide +kernel

/-- **The text of a finite float is in range.** -/
theorem isSome_magnitude (negative : Bool) {m : Nat} {q : Int} (hm : m < 9007199254740992)
    (hleast : -1074 ≤ q) (hgreatest : q ≤ 971) :
    (number negative (magnitude m q)).toOption.isSome = true := by
  by_cases hlarge : q = 971 ∧ 9007199254740990 ≤ m
  · rw [hlarge.1]
    exact isSome_magnitude_largest negative (by omega)
  · have hbound := value_shortest_bound hm hgreatest hlarge
    have hexponent := exponent_shortest m hleast
    have hwritten := written_magnitude m q
    generalize magnitude m q = cs at hwritten
    cases hwritten with
    | point hwhole hshort hds => exact isSome_number_point negative hwhole (by omega) hds
    | exponential hdigits hd => exact isSome_exponential negative hdigits hd hexponent hbound

/-- **A finite float is a mantissa of 53 digits with an exponent in its range.** -/
theorem decompose_bounds {x : Float} (h : x.isFinite = true) :
    (decompose x).1 < 9007199254740992 ∧ -1074 ≤ (decompose x).2 ∧ (decompose x).2 ≤ 971 := by
  have hne : x.toBits.toNat / 4503599627370496 % 2048 ≠ 2047 := by
    have hexponent := Binary64.unpackExponent_ne_of_isFinite (w := x.toBits.toBitVec) h
    rw [Binary64.toNat_unpackExponent] at hexponent
    exact hexponent
  have hfraction : x.toBits.toNat % 9223372036854775808 % 4503599627370496 < 4503599627370496 :=
    Nat.mod_lt _ (by decide)
  have hword : Nat.pow 2 63 = 9223372036854775808 ∧ Nat.pow 2 52 = 4503599627370496 := ⟨rfl, rfl⟩
  unfold decompose
  dsimp only
  rw [hword.1, hword.2]
  split
  · exact ⟨by omega, by omega, by omega⟩
  · exact ⟨by omega, by omega, by omega⟩

/-! ## Values -/

theorem isSome_value_float (n : Nat) {x : Float} (h : x.isFinite = true) :
    (decode (value n) (.num (.float x))).isSome = true := by
  obtain ⟨hm, hleast, hgreatest⟩ := decompose_bounds h
  have hnumber := fun negative => isSome_magnitude negative hm hleast hgreatest
  have hprint : print .compact 0 (.num (.float x))
      = (if isNegative x then ['-'] else []) ++ magnitude (decompose x).1 (decompose x).2 :=
    text_eq x
  unfold decode
  rw [hprint, Option.isSome_map]
  split
  · show (value n ('-' :: magnitude _ _)).toOption.isSome = true
    rw [value_minus, toOption_bind]
    obtain ⟨result, hresult⟩ := Option.isSome_iff_exists.mp (hnumber true)
    rw [hresult]
    rfl
  · obtain ⟨d, ds, heq, hd⟩ := (numeral_magnitude (decompose x).1 (decompose x).2).head
    have hnumber := hnumber false
    rw [List.nil_append]
    rw [heq] at hnumber ⊢
    obtain ⟨result, hresult⟩ := Option.isSome_iff_exists.mp hnumber
    rw [value_digit n hd, toOption_bind, hresult]
    rfl

theorem isSome_mapM {β γ : Type} {f : β → Option γ} {xs : List β}
    (h : ∀ x ∈ xs, (f x).isSome = true) : (xs.mapM f).isSome = true := by
  induction xs with
  | nil => rfl
  | cons x xs ih =>
      obtain ⟨hx, hxs⟩ := List.forall_mem_cons.mp h
      obtain ⟨y, hy⟩ := Option.isSome_iff_exists.mp hx
      obtain ⟨ys, hys⟩ := Option.isSome_iff_exists.mp (ih hxs)
      rw [List.mapM_cons, hy, hys]
      rfl

/-- **A value in canonical form can be read again.** -/
theorem isSome_value {n : Nat} {v : Json} (hv : Canonical n v) :
    (decode (value n) v).isSome = true := by
  induction hv with
  | null => rw [(value_null _).decode_eq]; rfl
  | bool b => rw [(value_bool _ b).decode_eq]; rfl
  | @num n x h =>
      cases x with
      | int i => rw [(value_int n h).decode_eq]; rfl
      | float x => exact isSome_value_float n h
  | str s => rw [(value_str _ s).decode_eq]; rfl
  | @arr n xs _ ih =>
      rw [(value_arr (value_faithful n) xs).decode_eq, Option.isSome_map]
      exact isSome_mapM ih
  | @obj n ms _ _ ih =>
      rw [(value_obj (value_faithful n) ms).decode_eq, Option.isSome_map, Option.isSome_map]
      refine isSome_mapM fun e he => ?_
      rw [decodeMember, Option.isSome_map]
      exact ih e he

/-- A printed value in canonical form is JSON. -/
theorem exists_read_render {v : Json} (hv : Canonical maxNesting v) (pretty : Bool) :
    ∃ value, read (v.render pretty) = .ok value := by
  obtain ⟨value, hvalue⟩ := Option.isSome_iff_exists.mp (isSome_value hv)
  have hread := toOption_read_render v pretty
  exact ⟨value, eq_ok_of_toOption (hread.trans hvalue)⟩

end SolFront.Json
