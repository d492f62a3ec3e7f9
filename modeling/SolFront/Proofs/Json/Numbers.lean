import SolFront.Json.Printer
import SolFront.Proofs.Decimal
import SolFront.Proofs.Json.Numerals

/-!
# Printed numbers

A number is printed as a numeral, perhaps with a minus before it: an integer in its decimal digits,
a float in its shortest digits, whatever those are. An integer that fits a 64-bit word is read as
itself.
-/

namespace SolFront.Json

/-! ## Integers -/

theorem toDigits_head {n : Nat} (hn : 0 < n) :
    ∃ d ds, Nat.toDigits 10 n = d :: ds ∧ d ≠ '0' := by
  induction n using Nat.strongRecOn with
  | ind n ih =>
    rw [Nat.toDigits_eq_if (by decide)]
    by_cases hlt : n < 10
    · rw [if_pos hlt]
      exact ⟨_, [], rfl, fun h => absurd (Nat.digitChar_eq_zero.mp h) (by omega)⟩
    · rw [if_neg hlt]
      obtain ⟨d, ds, hdigits, hd⟩ := ih (n / 10) (by omega) (by omega)
      exact ⟨d, ds ++ [Nat.digitChar (n % 10)], by rw [hdigits, List.cons_append], hd⟩

theorem whole_toDigits (n : Nat) : Whole (Nat.toDigits 10 n) := by
  by_cases hn : n = 0
  · subst hn
    exact .zero
  · obtain ⟨d, ds, hdigits, hd⟩ := toDigits_head (Nat.pos_of_ne_zero hn)
    have hall := (digits_toDigits n).2
    rw [hdigits] at hall ⊢
    exact .digits (hall d List.mem_cons_self) hd fun d' hd' => hall d' (List.mem_cons_of_mem d hd')

theorem Whole.numeral {whole : List Char} (h : Whole whole) : Numeral whole := by
  have hmk := Numeral.mk h .none .none
  rwa [List.append_nil, List.append_nil] at hmk

theorem le_ofDigitChars (ds : List Char) (significand : Nat) :
    significand ≤ Nat.ofDigitChars 10 ds significand := by
  induction ds generalizing significand with
  | nil => exact Nat.le_refl _
  | cons d ds ih =>
      rw [Nat.ofDigitChars_cons]
      exact Nat.le_trans (by omega) (ih _)

theorem absorb_eq {ds : List Char} {significand : Nat}
    (h : Nat.ofDigitChars 10 ds significand < UInt64.size) :
    absorb significand ds = (Nat.ofDigitChars 10 ds significand, []) := by
  induction ds generalizing significand with
  | nil => rfl
  | cons d ds ih =>
      rw [Nat.ofDigitChars_cons] at h ⊢
      have hnext : significand * 10 + digitValue d = 10 * significand + (d.toNat - '0'.toNat) := by
        rw [digitValue, Nat.mul_comm]
      have hlt : 10 * significand + (d.toNat - '0'.toNat) < UInt64.size :=
        Nat.lt_of_le_of_lt (le_ofDigitChars ds _) h
      rw [absorb, hnext]
      exact (if_pos hlt).trans (ih h)

theorem number_toDigits (negative : Bool) {n : Nat} (hn : n < UInt64.size) {rest : List Char}
    (hrest : Stops rest) :
    number negative (Nat.toDigits 10 n ++ rest)
      = if !negative then .ok (.int n, rest)
        else if 0 < n && n ≤ Nat.pow 2 63 then .ok (.int (-n), rest)
        else .ok (.float (signed true n.toUInt64.toFloat), rest) := by
  have hvalue : Nat.ofDigitChars 10 (Nat.toDigits 10 n) 0 = n :=
    Nat.ofDigitChars_toDigits (by decide) (by decide)
  have habsorb : absorb 0 (Nat.toDigits 10 n) = (n, []) := by
    rw [absorb_eq (hvalue.symm ▸ hn), hvalue]
  rw [number_whole negative (whole_toDigits n) hrest.noDigit, afterWhole_stops negative _ hrest,
    wholeNumber, habsorb]
  rfl

/-! ## Floats -/

theorem digits_replicate_append (count : Nat) {ds : List Char} (hds : Digits ds) :
    Digits (List.replicate count '0' ++ ds) := by
  refine ⟨by simp [hds.1], fun d hd => ?_⟩
  rcases List.mem_append.mp hd with hd | hd
  · rw [List.eq_of_mem_replicate hd]
    decide
  · exact hds.2 d hd

section

open Decimal

theorem digits_or_zero {ds : List Char} (hds : ∀ d ∈ ds, d.isDigit = true) :
    Digits (if ds.isEmpty then ['0'] else ds) := by
  cases ds with
  | nil => exact ⟨by simp, by simp⟩
  | cons d ds => exact ⟨by simp, hds⟩

/-- Digits with a point among them: what stands before it and what stands behind it. -/
theorem positional_parts {d : Char} {ds : List Char} {exponent : Int}
    (hds : ∀ c ∈ d :: ds, c.isDigit = true) (hhead : d ≠ '0' ∨ exponent = 0) :
    ∃ whole fraction, positional (d :: ds) exponent = whole ++ '.' :: fraction ∧ Whole whole
      ∧ whole.length ≤ exponent.toNat + 1 ∧ Digits fraction := by
  unfold positional
  split
  · refine ⟨['0'], List.replicate (-exponent - 1).toNat '0' ++ d :: ds, rfl, .zero, ?_, ?_⟩
    · simp
    · exact digits_replicate_append _ ⟨List.cons_ne_nil d ds, hds⟩
  · dsimp only
    generalize (exponent.toNat + 1 - (d :: ds).length) = zeros
    have hpadded : ∀ c ∈ d :: ds ++ List.replicate zeros '0', c.isDigit = true := by
      intro c hc
      rcases List.mem_append.mp hc with hc | hc
      · exact hds c hc
      · rw [List.eq_of_mem_replicate hc]
        decide
    refine ⟨_, _, rfl, ?_, List.length_take_le _ _, ?_⟩
    · rw [List.cons_append, List.take_succ_cons]
      by_cases hzero : d = '0'
      · -- no other digit stands before the point
        rw [hhead.resolve_left (not_not_intro hzero), hzero]
        exact .zero
      · exact .digits (hds d List.mem_cons_self) hzero fun c hc =>
          hpadded c (List.mem_cons_of_mem d (List.mem_of_mem_take hc))
    · exact digits_or_zero fun c hc => hpadded c (List.mem_of_mem_drop hc)

theorem whole_singleton {d : Char} (hd : d.isDigit = true) : Whole [d] := by
  by_cases hzero : d = '0'
  · rw [hzero]
    exact .zero
  · exact .digits hd hzero (by simp)

theorem exponent_signed (exponent : Int) :
    Exponent ('e' :: (if exponent < 0 then '-' else '+') :: Nat.toDigits 10 exponent.natAbs) := by
  refine .signed ?_ (digits_toDigits _)
  split
  · exact Or.inr rfl
  · exact Or.inl rfl

theorem numeral_exponential {d : Char} {ds : List Char} (hds : ∀ c ∈ d :: ds, c.isDigit = true)
    (exponent : Int) : Numeral (exponential (d :: ds) exponent) := by
  have hfraction : Fraction (if ds.isEmpty then [] else '.' :: ds) := by
    cases ds with
    | nil => exact .none
    | cons c cs => exact .point ⟨List.cons_ne_nil c cs, (List.forall_mem_cons.mp hds).2⟩
  have hnumeral := Numeral.mk (whole_singleton (hds d List.mem_cons_self)) hfraction
    (exponent_signed exponent)
  unfold exponential
  simpa using hnumeral

/-- The text of a finite float without its sign. -/
def magnitude (m : Nat) (q : Int) : List Char :=
  if m = 0 then ['0', '.', '0']
  else
    let s := shortest m q
    let digits := Nat.toDigits 10 s.digits
    let exponent := s.exponent + digits.length - 1
    if document.least ≤ exponent && exponent < document.bound then positional digits exponent
    else exponential digits exponent

theorem text_eq (x : Float) :
    Decimal.text document x
      = (if isNegative x then ['-'] else []) ++ magnitude (decompose x).1 (decompose x).2 := by
  unfold Decimal.text magnitude
  dsimp only
  split <;> rfl

/-- The forms of the text of a float: with a point, where at most sixteen digits stand before it, or
with an exponent behind the shortest digits. -/
inductive Written (s : Scientific) : List Char → Prop where
  | point {whole ds : List Char} (hwhole : Whole whole) (hshort : whole.length ≤ 16)
      (hds : Digits ds) : Written s (whole ++ '.' :: ds)
  | exponential {d : Char} {ds : List Char} (hdigits : Nat.toDigits 10 s.digits = d :: ds)
      (hd : d ≠ '0') : Written s (exponential (d :: ds) (s.exponent + ds.length))

theorem written_magnitude (m : Nat) (q : Int) : Written (shortest m q) (magnitude m q) := by
  have hpoint : ∀ {s : Scientific} {d : Char} {ds : List Char} {exponent : Int},
      (∀ c ∈ d :: ds, c.isDigit = true) → d ≠ '0' ∨ exponent = 0 → exponent < 16 →
      Written s (positional (d :: ds) exponent) := by
    intro s d ds exponent hds hhead hlt
    obtain ⟨whole, fraction, heq, hwhole, hlength, hfraction⟩ := positional_parts hds hhead
    rw [heq]
    exact .point hwhole (by omega) hfraction
  unfold magnitude
  dsimp only
  by_cases hm : m = 0
  · rw [if_pos hm]
    exact .point .zero (by decide) ⟨by simp, by simp⟩
  · rw [if_neg hm]
    rcases shortest_pos m q with hpos | hnone
    · have hdigits := (digits_toDigits (shortest m q).digits).2
      obtain ⟨d, ds, heq, hd⟩ := toDigits_head hpos
      have hleading : (shortest m q).exponent + ((d :: ds).length : Nat) - 1
          = (shortest m q).exponent + ds.length := by
        rw [List.length_cons]
        omega
      rw [heq] at hdigits ⊢
      rw [hleading]
      split
      · rename_i hstyle
        have hlt : (shortest m q).exponent + ds.length < 16 :=
          of_decide_eq_true (Bool.and_eq_true_iff.mp hstyle).2
        exact hpoint hdigits (Or.inl hd) hlt
      · exact .exponential heq hd
    · -- without digits the text is that of zero
      rw [hnone]
      show Written ⟨0, 0⟩ (positional ['0'] 0)
      exact hpoint (by simp) (Or.inr rfl) (by decide)

theorem Written.numeral {s : Scientific} {cs : List Char} (h : Written s cs) : Numeral cs := by
  cases h with
  | @point whole ds hwhole _ hds =>
      have hnumeral := Numeral.mk hwhole (.point hds) .none
      rw [List.append_nil] at hnumeral
      exact hnumeral
  | exponential hdigits _ =>
      have hall := (digits_toDigits s.digits).2
      rw [hdigits] at hall
      exact numeral_exponential hall _

theorem numeral_magnitude (m : Nat) (q : Int) : Numeral (magnitude m q) :=
  (written_magnitude m q).numeral

/-- **The text of a float is a numeral**, perhaps with a minus before it. -/
theorem text_numeral (x : Float) :
    ∃ cs, Numeral cs ∧ (Decimal.text Decimal.document x = cs
      ∨ Decimal.text Decimal.document x = '-' :: cs) := by
  refine ⟨_, numeral_magnitude (decompose x).1 (decompose x).2, ?_⟩
  rw [text_eq]
  split
  · exact Or.inr rfl
  · exact Or.inl rfl

end

/-- **A number is printed as a numeral**, perhaps with a minus before it. -/
theorem printNumber_numeral (x : Number) :
    ∃ cs, Numeral cs ∧ (printNumber x = cs ∨ printNumber x = '-' :: cs) := by
  cases x with
  | float x => exact text_numeral x
  | int i =>
      refine ⟨Nat.toDigits 10 i.natAbs, (whole_toDigits _).numeral, ?_⟩
      rw [printNumber, printInt]
      by_cases hneg : i < 0
      · exact Or.inr (if_pos hneg)
      · exact Or.inl (if_neg hneg)

end SolFront.Json
