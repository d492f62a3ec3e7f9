import SolFront.Json.Reader
import SolFront.Proofs.Dict
import SolFront.Proofs.Json.Scale

/-!
# What is read

A value that comes out of a text is in canonical form: the keys of an object ascend, a whole number
fits a 64-bit word, any other number is a finite float, and no more brackets are open inside one
another than may be.
-/

namespace SolFront

/-- A whole number that fits a 64-bit word, signed or unsigned, or a finite float. -/
def Number.InRange : Number → Prop
  | .int i => -0x8000000000000000 ≤ i ∧ i < UInt64.size
  | .float x => x.isFinite = true

namespace Json

/-- What a computation with a result that goes on has gone through. -/
theorem bind_eq_ok {ε α β : Type} {x : Except ε α} {f : α → Except ε β} {b : β}
    (h : x >>= f = .ok b) : ∃ a, x = .ok a ∧ f a = .ok b := by
  cases x with
  | error e => cases h
  | ok a => exact ⟨a, rfl, h⟩

theorem eq_ok_of_toOption {ε α : Type} {x : Except ε α} {a : α} (h : x.toOption = some a) :
    x = .ok a := by
  cases x with
  | error e => cases h
  | ok b => exact congrArg Except.ok (Option.some.inj h)

theorem mapError_eq_ok {ε ε' α : Type} {f : ε → ε'} {x : Except ε α} {a : α}
    (h : x.mapError f = .ok a) : x = .ok a := by
  cases x with
  | error e => cases h
  | ok b => exact congrArg Except.ok (Except.ok.inj h)

/-- A value in canonical form, which opens at most the given number of brackets inside one
another. -/
inductive Canonical : Nat → Json → Prop where
  | null {n : Nat} : Canonical n .null
  | bool {n : Nat} (b : Bool) : Canonical n (.bool b)
  | num {n : Nat} {x : Number} (h : Number.InRange x) : Canonical n (.num x)
  | str {n : Nat} (s : String) : Canonical n (.str s)
  | arr {n : Nat} {xs : List Json} (h : ∀ x ∈ xs, Canonical n x) : Canonical (n + 1) (.arr xs)
  | obj {n : Nat} {ms : Dict Json} (sorted : ms.Sorted) (h : ∀ e ∈ ms, Canonical n e.2) :
      Canonical (n + 1) (.obj ms)

/-! ## Numbers -/

theorem absorb_lt (digits : List Char) {significand : Nat} (h : significand < UInt64.size) :
    (absorb significand digits).1 < UInt64.size := by
  induction digits generalizing significand with
  | nil => exact h
  | cons d digits ih =>
      unfold absorb
      dsimp only
      split
      · rename_i hlt
        exact ih hlt
      · exact h

theorem inRange_of_float {negative : Bool} {significand : Nat} {exponent : Int}
    {cs rest : List Char} {x : Number} (hlt : significand < UInt64.size)
    (h : float negative significand exponent cs = .ok (x, rest)) : x.InRange := by
  unfold float at h
  split at h
  · rename_i y hscale
    cases h
    exact isFinite_signed negative (small_of_scale (small_toFloat hlt) hscale)
  · cases h

/-- Whether an exponent is negative, and its digits with what follows them. -/
def exponentSign : List Char → Bool × List Char
  | '+' :: cs => (false, cs)
  | '-' :: cs => (true, cs)
  | cs => (false, cs)

/-- Ends a number with the digits of its exponent. -/
def exponentEnd (negative : Bool) (significand : Nat) (exponent : Int) :
    Bool × List Char → Except Fault (Number × List Char)
  | (_, []) => .error (.here (.ends .value) [])
  | (down, c :: cs) =>
    if !c.isDigit then .error (.next .invalidNumber (c :: cs))
    else
      let (value, rest) := exponentDigits 0 (c :: cs)
      if maxExponent < value then
        if significand ≠ 0 && !down then .error (.here .numberOutOfRange rest)
        else .ok (.float (signed negative 0), rest.dropWhile Char.isDigit)
      else float negative significand (if down then exponent - value else exponent + value) rest

theorem exponentPart_eq (negative : Bool) (significand : Nat) (exponent : Int) (cs : List Char) :
    exponentPart negative significand exponent cs
      = exponentEnd negative significand exponent (exponentSign cs) := by
  cases cs with
  | nil => rfl
  | cons c cs =>
      by_cases hplus : c = '+'
      · subst hplus
        cases cs <;> rfl
      · by_cases hminus : c = '-'
        · subst hminus
          cases cs <;> rfl
        · simp [exponentPart, exponentSign, exponentEnd, hplus, hminus]

theorem inRange_of_exponentPart {negative : Bool} {significand : Nat} {exponent : Int}
    {cs rest : List Char} {x : Number} (hlt : significand < UInt64.size)
    (h : exponentPart negative significand exponent cs = .ok (x, rest)) : x.InRange := by
  rw [exponentPart_eq] at h
  unfold exponentEnd at h
  split at h
  · cases h
  · split at h
    · cases h
    · dsimp only at h
      split at h
      · split at h
        · cases h
        · cases h
          exact isFinite_signed_zero negative
      · exact inRange_of_float hlt h

theorem inRange_of_fractionPart {negative : Bool} {significand : Nat} {exponent : Int}
    {cs rest : List Char} {x : Number} (hlt : significand < UInt64.size)
    (h : fractionPart negative significand exponent cs = .ok (x, rest)) : x.InRange := by
  have habsorb : (absorb significand (cs.takeWhile Char.isDigit)).1 < UInt64.size :=
    absorb_lt _ hlt
  unfold fractionPart at h
  dsimp only at h
  split at h
  · cases h
  · unfold afterFraction at h
    split at h
    · exact inRange_of_exponentPart habsorb h
    · exact inRange_of_exponentPart habsorb h
    · exact inRange_of_float habsorb h

theorem inRange_of_afterWhole {negative : Bool} {digits cs rest : List Char} {x : Number}
    (h : afterWhole negative digits cs = .ok (x, rest)) : x.InRange := by
  have hlt : (absorb 0 digits).1 < UInt64.size := absorb_lt digits (by decide)
  unfold afterWhole at h
  dsimp only at h
  split at h
  · exact inRange_of_fractionPart hlt h
  · exact inRange_of_exponentPart hlt h
  · exact inRange_of_exponentPart hlt h
  · split at h
    · exact inRange_of_float hlt h
    · split at h
      · cases h
        exact ⟨by omega, by omega⟩
      · split at h
        · rename_i hfits
          have hle : (absorb 0 digits).1 ≤ 0x8000000000000000 :=
            of_decide_eq_true (Bool.and_eq_true_iff.mp hfits).2
          cases h
          exact ⟨by omega, by omega⟩
        · cases h
          exact isFinite_signed true ((small_toFloat hlt).mono (by decide))

theorem inRange_of_number {negative : Bool} {cs rest : List Char} {x : Number}
    (h : number negative cs = .ok (x, rest)) : x.InRange := by
  unfold number at h
  split at h
  · cases h
  · split at h
    · cases h
    · exact inRange_of_afterWhole h
  · split at h
    · exact inRange_of_afterWhole h
    · cases h

/-! ## Lists and objects -/

variable {α : Type} {P : α → Prop}

theorem forall_of_items {item : List Char → Except Fault (α × List Char)}
    (hitem : ∀ cs x rest, item cs = .ok (x, rest) → P x) :
    ∀ (bound : List Char) (first : Bool) (cs rest : List Char) (xs : List α),
      items item bound first cs = .ok (xs, rest) → ∀ x ∈ xs, P x
  | [], _, _, _, _, h => by cases h
  | _ :: bound, first, cs, rest, xs, h => by
      rw [items] at h
      obtain ⟨⟨more, rest₁⟩, -, h⟩ := bind_eq_ok h
      dsimp only at h
      split at h
      · obtain ⟨⟨y, rest₂⟩, hy, h⟩ := bind_eq_ok h
        obtain ⟨⟨ys, rest₃⟩, hys, h⟩ := bind_eq_ok h
        cases h
        exact List.forall_mem_cons.mpr
          ⟨hitem _ _ _ hy, forall_of_items hitem bound false rest₂ rest₃ ys hys⟩
      · cases h
        exact fun _ hx => absurd hx List.not_mem_nil

theorem forall_of_list {item : List Char → Except Fault (α × List Char)}
    (hitem : ∀ cs x rest, item cs = .ok (x, rest) → P x) {cs rest : List Char} {xs : List α}
    (h : list item cs = .ok (xs, rest)) : ∀ x ∈ xs, P x := by
  unfold list at h
  obtain ⟨⟨ys, rest₁⟩, hys, h⟩ := bind_eq_ok h
  obtain ⟨rest₂, -, h⟩ := bind_eq_ok h
  cases h
  exact forall_of_items hitem _ _ _ _ _ hys

theorem forall_of_members {value : List Char → Except Fault (α × List Char)}
    (hvalue : ∀ cs x rest, value cs = .ok (x, rest) → P x) :
    ∀ (bound : List Char) (first : Bool) (cs rest : List Char) (ms : List (String × α)),
      members value bound first cs = .ok (ms, rest) → ∀ e ∈ ms, P e.2
  | [], _, _, _, _, h => by cases h
  | _ :: bound, first, cs, rest, ms, h => by
      rw [members] at h
      obtain ⟨⟨key, rest₁⟩, -, h⟩ := bind_eq_ok h
      dsimp only at h
      split at h
      · obtain ⟨rest₂, -, h⟩ := bind_eq_ok h
        obtain ⟨⟨y, rest₃⟩, hy, h⟩ := bind_eq_ok h
        obtain ⟨⟨ys, rest₄⟩, hys, h⟩ := bind_eq_ok h
        cases h
        exact List.forall_mem_cons.mpr
          ⟨hvalue _ _ _ hy, forall_of_members hvalue bound false rest₃ rest₄ ys hys⟩
      · cases h
        exact fun _ he => absurd he List.not_mem_nil

theorem sorted_of_object {value : List Char → Except Fault (α × List Char)}
    (hvalue : ∀ cs x rest, value cs = .ok (x, rest) → P x) {cs rest : List Char} {ms : Dict α}
    (h : object value cs = .ok (ms, rest)) : ms.Sorted ∧ ∀ e ∈ ms, P e.2 := by
  unfold object at h
  obtain ⟨⟨entries, rest₁⟩, hentries, h⟩ := bind_eq_ok h
  obtain ⟨rest₂, -, h⟩ := bind_eq_ok h
  cases h
  exact ⟨Dict.sorted_ofList entries,
    fun e he => forall_of_members hvalue _ _ _ _ _ hentries e (Dict.mem_ofList he)⟩

/-! ## Values -/

/-- **A value that is read is in canonical form.** -/
theorem canonical_of_value (n : Nat) :
    ∀ (cs rest : List Char) (v : Json), value n cs = .ok (v, rest) → Canonical n v := by
  induction n using Nat.strongRecOn with
  | ind n ih =>
    intro cs rest v h
    unfold value at h
    split at h
    · cases h
    -- one case for each character that a value can start with
    split at h
    · obtain ⟨_, -, h⟩ := bind_eq_ok h
      cases h
      exact .null
    split at h
    · obtain ⟨_, -, h⟩ := bind_eq_ok h
      cases h
      exact .bool true
    split at h
    · obtain ⟨_, -, h⟩ := bind_eq_ok h
      cases h
      exact .bool false
    split at h
    · obtain ⟨⟨x, _⟩, hx, h⟩ := bind_eq_ok h
      cases h
      exact .num (inRange_of_number hx)
    split at h
    · obtain ⟨⟨x, _⟩, hx, h⟩ := bind_eq_ok h
      cases h
      exact .num (inRange_of_number hx)
    split at h
    · obtain ⟨⟨s, _⟩, -, h⟩ := bind_eq_ok h
      cases h
      exact .str s
    split at h
    · split at h
      · cases h
      · rename_i n
        obtain ⟨⟨xs, _⟩, hxs, h⟩ := bind_eq_ok h
        cases h
        exact .arr (forall_of_list (fun cs x rest => ih n (Nat.lt_succ_self n) cs rest x) hxs)
    split at h
    · split at h
      · cases h
      · rename_i n
        obtain ⟨⟨ms, _⟩, hms, h⟩ := bind_eq_ok h
        cases h
        obtain ⟨hsorted, hall⟩ :=
          sorted_of_object (fun cs x rest => ih n (Nat.lt_succ_self n) cs rest x) hms
        exact .obj hsorted hall
    · cases h

theorem readWith_eq_ok {α : Type} {reader : Reader α} {text : String} {x : α}
    (h : readWith reader text = .ok x) :
    ∃ rest, reader maxNesting text.toList = .ok (x, rest) ∧ dropSpace rest = [] := by
  unfold readWith at h
  dsimp only at h
  cases hread : reader maxNesting text.toList with
  | error fault =>
      rw [hread] at h
      cases h
  | ok result =>
      obtain ⟨y, rest⟩ := result
      rw [hread] at h
      have hwhole := mapError_eq_ok h
      cases hrest : dropSpace rest with
      | nil =>
          simp [hrest, bind, Except.bind] at hwhole
          exact ⟨rest, hwhole ▸ rfl, hrest⟩
      | cons c rest => simp [hrest, bind, Except.bind] at hwhole

/-- **A text denotes a value in canonical form.** -/
theorem canonical_of_read {text : String} {v : Json} (h : read text = .ok v) :
    Canonical maxNesting v := by
  obtain ⟨rest, hvalue, -⟩ := readWith_eq_ok h
  exact canonical_of_value maxNesting text.toList rest v hvalue

end Json

end SolFront
