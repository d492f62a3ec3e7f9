import SolFront.Proofs.Json.Canonical
import SolFront.Proofs.Text
import SolFront.Json.Skip

/-!
# Reading numerals

A numeral is a whole part, perhaps a fraction and perhaps an exponent. It is read up to its end
whatever follows, if only what follows does not go on with it. The number may be out of range, which
shows in the numeral alone.
-/

namespace SolFront.Json

variable {α β ε : Type}

theorem toOption_bind (x : Except ε α) (f : α → Except ε β) :
    (x >>= f).toOption = x.toOption.bind fun a => (f a).toOption := by
  cases x <;> rfl

/-- What may follow a numeral: nothing that goes on with it. -/
def Stops (rest : List Char) : Prop :=
  ∀ c, rest.head? = some c → c.isDigit = false ∧ c ≠ '.' ∧ c ≠ 'e' ∧ c ≠ 'E'

theorem stops_nil : Stops [] := fun _ h => by cases h

theorem stops_cons {c : Char} (hdigit : c.isDigit = false) (hpoint : c ≠ '.') (he : c ≠ 'e')
    (hE : c ≠ 'E') (rest : List Char) : Stops (c :: rest) := by
  intro d hd
  cases hd
  exact ⟨hdigit, hpoint, he, hE⟩

/-- What is read of a piece of text is the same whatever follows it; `none` stands for a fault. -/
def ReadsAs (reader : List Char → Except Fault (α × List Char)) (cs : List Char)
    (result : Option α) : Prop :=
  ∀ rest, Stops rest → (reader (cs ++ rest)).toOption = result.map (·, rest)

/-! ## Digits -/

/-- The next character is no digit. -/
def NoDigit (rest : List Char) : Prop :=
  ∀ c, rest.head? = some c → c.isDigit = false

theorem Stops.noDigit {rest : List Char} (h : Stops rest) : NoDigit rest :=
  fun c hc => (h c hc).1

theorem noDigit_cons {c : Char} (h : c.isDigit = false) (rest : List Char) :
    NoDigit (c :: rest) :=
  Text.notNext_cons h rest

/-- Digits, at least one. -/
def Digits (ds : List Char) : Prop :=
  ds ≠ [] ∧ ∀ d ∈ ds, d.isDigit = true

theorem digits_toDigits (n : Nat) : Digits (Nat.toDigits 10 n) :=
  ⟨Nat.toDigits_ne_nil, fun _ hd => Nat.isDigit_of_mem_toDigits (by decide) (by decide) hd⟩

theorem head?_any_of_noDigit {rest : List Char} (h : NoDigit rest) :
    rest.head?.any Char.isDigit = false := by
  cases rest with
  | nil => rfl
  | cons c rest => exact h c rfl

section

variable {ds rest : List Char} (hds : ∀ d ∈ ds, d.isDigit = true) (hrest : NoDigit rest)

include hds hrest

theorem dropWhile_digits : (ds ++ rest).dropWhile Char.isDigit = rest :=
  (Text.cut_append hds hrest).2

theorem takeWhile_digits : (ds ++ rest).takeWhile Char.isDigit = ds :=
  (Text.cut_append hds hrest).1

end

/-! ## Parts of a numeral -/

/-- The part before the point: a zero, or digits of which the first is not zero. -/
inductive Whole : List Char → Prop where
  | zero : Whole ['0']
  | digits {d : Char} {ds : List Char} (hd : d.isDigit = true) (hne : d ≠ '0')
      (hds : ∀ d ∈ ds, d.isDigit = true) : Whole (d :: ds)

theorem digits_of_whole {whole : List Char} (h : Whole whole) : Digits whole := by
  cases h with
  | zero => exact ⟨List.cons_ne_nil _ _, List.forall_mem_singleton.mpr (by decide)⟩
  | digits hd _ hds => exact ⟨List.cons_ne_nil _ _, List.forall_mem_cons.mpr ⟨hd, hds⟩⟩

/-- The part from the point on. -/
inductive Fraction : List Char → Prop where
  | none : Fraction []
  | point {ds : List Char} (h : Digits ds) : Fraction ('.' :: ds)

/-- The part from the `e` on. -/
inductive Exponent : List Char → Prop where
  | none : Exponent []
  | signed {sign : Char} {ds : List Char} (hsign : sign = '+' ∨ sign = '-') (h : Digits ds) :
      Exponent ('e' :: sign :: ds)

/-- A numeral without its sign. -/
inductive Numeral : List Char → Prop where
  | mk {whole fraction exponent : List Char} (hwhole : Whole whole) (hfraction : Fraction fraction)
      (hexponent : Exponent exponent) : Numeral (whole ++ (fraction ++ exponent))

theorem Exponent.noDigit {exponent rest : List Char} (h : Exponent exponent) (hrest : Stops rest) :
    NoDigit (exponent ++ rest) := by
  cases h with
  | none => exact hrest.noDigit
  | signed _ _ => exact noDigit_cons (by decide) _

theorem Fraction.noDigit {fraction exponent rest : List Char} (hf : Fraction fraction)
    (he : Exponent exponent) (hrest : Stops rest) : NoDigit (fraction ++ exponent ++ rest) := by
  cases hf with
  | none => exact he.noDigit hrest
  | point _ => exact noDigit_cons (by decide) _

/-! ## Reading -/

section

variable (negative : Bool) (significand : Nat) (exponent : Int)

theorem float_reads : ∃ result, ReadsAs (float negative significand exponent) [] result := by
  unfold ReadsAs float
  cases scale significand.toUInt64.toFloat exponent with
  | none => exact ⟨none, fun _ _ => rfl⟩
  | some x => exact ⟨some (.float (signed negative x)), fun _ _ => rfl⟩

/-- Digits that make an exponent too large are left; they are followed by what follows all. -/
theorem exponentDigits_append {ds : List Char} (hds : ∀ d ∈ ds, d.isDigit = true) (value : Nat) :
    ∃ value' unread, (∀ d ∈ unread, d.isDigit = true) ∧ (value' ≤ maxExponent → unread = [])
      ∧ ∀ rest, NoDigit rest → exponentDigits value (ds ++ rest) = (value', unread ++ rest) := by
  induction ds generalizing value with
  | nil =>
      refine ⟨value, [], fun _ hd => absurd hd List.not_mem_nil, fun _ => rfl, ?_⟩
      intro rest hrest
      cases rest with
      | nil => rfl
      | cons c rest =>
          rw [List.nil_append, exponentDigits, hrest c rfl]
          rfl
  | cons d ds ih =>
      obtain ⟨hd, hds⟩ := List.forall_mem_cons.mp hds
      by_cases hlarge : maxExponent < value * 10 + digitValue d
      · refine ⟨value * 10 + digitValue d, ds, hds, fun hle => absurd hlarge (by omega), ?_⟩
        intro rest _
        rw [List.cons_append, exponentDigits, hd]
        exact if_pos hlarge
      · obtain ⟨value', unread, hunread, hall, happend⟩ := ih hds (value * 10 + digitValue d)
        refine ⟨value', unread, hunread, hall, ?_⟩
        intro rest hrest
        rw [List.cons_append, exponentDigits, hd]
        exact (if_neg hlarge).trans (happend rest hrest)

theorem exponentPart_reads {sign : Char} {ds : List Char} (hsign : sign = '+' ∨ sign = '-')
    (hds : Digits ds) :
    ∃ result, ReadsAs (exponentPart negative significand exponent) (sign :: ds) result := by
  obtain ⟨hne, hds⟩ := hds
  obtain ⟨value, unread, hunread, hall, happend⟩ := exponentDigits_append hds 0
  have hsigned : ∀ rest, exponentSign (sign :: ds ++ rest) = (sign == '-', ds ++ rest) := by
    rcases hsign with rfl | rfl <;> exact fun _ => rfl
  have hend : ∀ rest, Stops rest →
      exponentEnd negative significand exponent (exponentSign (sign :: ds ++ rest))
        = if maxExponent < value then
            if significand ≠ 0 && !(sign == '-') then
              .error (.here .numberOutOfRange (unread ++ rest))
            else .ok (.float (signed negative 0), rest)
          else float negative significand
            (if sign == '-' then exponent - value else exponent + value) rest := by
    intro rest hrest
    obtain ⟨d, ds, rfl⟩ := List.exists_cons_of_ne_nil hne
    have hd : d.isDigit = true := hds d List.mem_cons_self
    rw [hsigned, List.cons_append, exponentEnd, hd, ← List.cons_append,
      happend rest hrest.noDigit]
    dsimp only
    rw [dropWhile_digits hunread hrest.noDigit]
    by_cases hlarge : maxExponent < value
    · rw [if_pos hlarge, if_pos hlarge]
      rfl
    · rw [if_neg hlarge, if_neg hlarge, hall (Nat.not_lt.mp hlarge)]
      rfl
  by_cases hlarge : maxExponent < value
  · by_cases hrange : (significand ≠ 0 && !(sign == '-')) = true
    · refine ⟨none, fun rest hrest => ?_⟩
      rw [exponentPart_eq, hend rest hrest, if_pos hlarge, if_pos hrange]
      rfl
    · refine ⟨some (.float (signed negative 0)), fun rest hrest => ?_⟩
      rw [exponentPart_eq, hend rest hrest, if_pos hlarge, if_neg hrange]
      rfl
  · obtain ⟨result, hresult⟩ := float_reads negative significand
      (if sign == '-' then exponent - value else exponent + value)
    refine ⟨result, fun rest hrest => ?_⟩
    rw [exponentPart_eq, hend rest hrest, if_neg hlarge]
    exact hresult rest hrest

theorem afterFraction_stops {rest : List Char} (hrest : Stops rest) :
    afterFraction negative significand exponent rest
      = float negative significand exponent rest := by
  unfold afterFraction
  split
  · exact absurd rfl (hrest _ rfl).2.2.1
  · exact absurd rfl (hrest _ rfl).2.2.2
  · rfl

theorem afterFraction_reads {cs : List Char} (hcs : Exponent cs) :
    ∃ result, ReadsAs (afterFraction negative significand exponent) cs result := by
  cases hcs with
  | none =>
      obtain ⟨result, hresult⟩ := float_reads negative significand exponent
      refine ⟨result, fun rest hrest => ?_⟩
      rw [List.nil_append, afterFraction_stops negative significand exponent hrest]
      exact hresult rest hrest
  | signed hsign hds =>
      obtain ⟨result, hresult⟩ := exponentPart_reads negative significand exponent hsign hds
      exact ⟨result, fun rest hrest => hresult rest hrest⟩

theorem fractionPart_append {ds cs rest : List Char} (hds : Digits ds) (hcs : Exponent cs)
    (hrest : Stops rest) :
    fractionPart negative significand exponent (ds ++ cs ++ rest)
      = afterFraction negative (absorb significand ds).1
          (exponent - (ds.length - (absorb significand ds).2.length : Nat)) (cs ++ rest) := by
  unfold fractionPart
  dsimp only
  rw [List.append_assoc, takeWhile_digits hds.2 (hcs.noDigit hrest),
    dropWhile_digits hds.2 (hcs.noDigit hrest), if_neg (by simpa using hds.1)]

theorem fractionPart_reads {ds cs : List Char} (hds : Digits ds) (hcs : Exponent cs) :
    ∃ result, ReadsAs (fractionPart negative significand exponent) (ds ++ cs) result := by
  obtain ⟨result, hresult⟩ := afterFraction_reads negative (absorb significand ds).1
    (exponent - (ds.length - (absorb significand ds).2.length : Nat)) hcs
  refine ⟨result, fun rest hrest => ?_⟩
  rw [fractionPart_append negative significand exponent hds hcs hrest]
  exact hresult rest hrest

end

/-- Ends a whole number. -/
def wholeNumber (negative : Bool) (digits rest : List Char) : Except Fault (Number × List Char) :=
  if !(absorb 0 digits).2.isEmpty then
    float negative (absorb 0 digits).1 (absorb 0 digits).2.length rest
  else if !negative then .ok (.int (absorb 0 digits).1, rest)
  else if 0 < (absorb 0 digits).1 && (absorb 0 digits).1 ≤ Nat.pow 2 63 then
    .ok (.int (-(absorb 0 digits).1), rest)
  else .ok (.float (signed true (absorb 0 digits).1.toUInt64.toFloat), rest)

theorem wholeNumber_reads (negative : Bool) (digits : List Char) :
    ∃ result, ReadsAs (wholeNumber negative digits) [] result := by
  unfold wholeNumber ReadsAs
  split
  · exact float_reads negative _ _
  · split
    · exact ⟨some _, fun _ _ => rfl⟩
    · split
      · exact ⟨some _, fun _ _ => rfl⟩
      · exact ⟨some _, fun _ _ => rfl⟩

theorem afterWhole_stops (negative : Bool) (digits : List Char) {rest : List Char}
    (hrest : Stops rest) :
    afterWhole negative digits rest = wholeNumber negative digits rest := by
  unfold afterWhole
  dsimp only
  split
  · exact absurd rfl (hrest _ rfl).2.1
  · exact absurd rfl (hrest _ rfl).2.2.1
  · exact absurd rfl (hrest _ rfl).2.2.2
  · rfl

theorem number_whole (negative : Bool) {whole : List Char} (h : Whole whole) {rest : List Char}
    (hrest : NoDigit rest) : number negative (whole ++ rest) = afterWhole negative whole rest := by
  cases h with
  | zero =>
      show (if rest.head?.any Char.isDigit then _ else _) = _
      rw [head?_any_of_noDigit hrest]
      rfl
  | @digits d ds hd hne hds =>
      rw [List.cons_append, number, if_pos hd, takeWhile_digits hds hrest,
        dropWhile_digits hds hrest]
      exact hne

theorem afterWhole_reads (negative : Bool) (digits : List Char) {fraction exponent : List Char}
    (hf : Fraction fraction) (he : Exponent exponent) :
    ∃ result, ReadsAs (afterWhole negative digits) (fraction ++ exponent) result := by
  cases hf with
  | point hds =>
      obtain ⟨result, hresult⟩ := fractionPart_reads negative (absorb 0 digits).1
        (absorb 0 digits).2.length hds he
      exact ⟨result, hresult⟩
  | none =>
      cases he with
      | signed hsign hds =>
          obtain ⟨result, hresult⟩ := exponentPart_reads negative (absorb 0 digits).1
            (absorb 0 digits).2.length hsign hds
          exact ⟨result, hresult⟩
      | none =>
          obtain ⟨result, hresult⟩ := wholeNumber_reads negative digits
          refine ⟨result, fun rest hrest => ?_⟩
          rw [← hresult rest hrest]
          exact congrArg Except.toOption (afterWhole_stops negative digits hrest)

/-- **A numeral is read up to its end.** -/
theorem number_reads (negative : Bool) {cs : List Char} (h : Numeral cs) :
    ∃ result, ReadsAs (number negative) cs result := by
  cases h with
  | @mk whole fraction exponent hwhole hf he =>
    obtain ⟨result, hresult⟩ := afterWhole_reads negative whole hf he
    refine ⟨result, fun rest hrest => ?_⟩
    rw [← hresult rest hrest, List.append_assoc]
    exact congrArg Except.toOption (number_whole negative hwhole (hf.noDigit he hrest))

/-! ## Passing over -/

theorem skipDigits_append {ds rest : List Char} (hds : Digits ds) (hrest : NoDigit rest) :
    skipDigits (ds ++ rest) = .ok rest := by
  obtain ⟨hne, hds⟩ := hds
  have hdrop := dropWhile_digits hds hrest
  obtain ⟨d, ds, rfl⟩ := List.exists_cons_of_ne_nil hne
  have hd : d.isDigit = true := hds d List.mem_cons_self
  rw [skipDigits, hdrop]
  exact if_pos hd

theorem skipExponent_append {cs rest : List Char} (h : Exponent cs) (hrest : Stops rest) :
    skipExponent (cs ++ rest) = .ok rest := by
  cases h with
  | none =>
      rw [List.nil_append]
      unfold skipExponent
      split
      any_goals exact absurd rfl (hrest _ rfl).2.2.1
      any_goals exact absurd rfl (hrest _ rfl).2.2.2
      rfl
  | signed hsign hds =>
      rcases hsign with rfl | rfl
      · exact skipDigits_append hds hrest.noDigit
      · exact skipDigits_append hds hrest.noDigit

/-- Passes over the part before the point. -/
def skipWhole : List Char → Except Fault (List Char)
  | '0' :: rest =>
    if rest.head?.any Char.isDigit then .error (.next .invalidNumber rest) else .ok rest
  | cs => skipDigits cs

/-- Passes over what stands behind the part before the point. -/
def skipFraction : List Char → Except Fault (List Char)
  | '.' :: rest => skipDigits rest >>= skipExponent
  | rest => skipExponent rest

theorem skipNumber_eq (cs : List Char) : skipNumber cs = skipWhole cs >>= skipFraction := by
  have hfraction : skipFraction = fun rest => match rest with
      | '.' :: rest => do skipExponent (← skipDigits rest)
      | rest => skipExponent rest := by
    funext rest
    unfold skipFraction
    split <;> rfl
  rw [hfraction]
  unfold skipNumber
  split
  · rename_i rest
    by_cases h : rest.head?.any Char.isDigit = true
    · rewrite [skipWhole, if_pos h, if_pos h]
      rfl
    · rewrite [skipWhole, if_neg h, if_neg h]
      rfl
  · rename_i hzero
    rewrite [skipWhole.eq_2 _ hzero]
    rfl

theorem skipWhole_append {whole rest : List Char} (h : Whole whole) (hrest : NoDigit rest) :
    skipWhole (whole ++ rest) = .ok rest := by
  cases h with
  | zero =>
      show (if rest.head?.any Char.isDigit then _ else _) = _
      rw [head?_any_of_noDigit hrest]
      rfl
  | @digits d ds hd hne hds =>
      have hall : Digits (d :: ds) := digits_of_whole (.digits hd hne hds)
      rw [← skipDigits_append hall hrest, List.cons_append, skipWhole]
      rintro _ ⟨⟩
      exact hne rfl

theorem skipFraction_append {fraction exponent rest : List Char} (hf : Fraction fraction)
    (he : Exponent exponent) (hrest : Stops rest) :
    skipFraction (fraction ++ exponent ++ rest) = .ok rest := by
  cases hf with
  | none =>
      have hpoint : ∀ cs, exponent ++ rest ≠ '.' :: cs := by
        intro cs heq
        cases he with
        | none =>
            rw [List.nil_append] at heq
            exact (hrest '.' (heq ▸ rfl)).2.1 rfl
        | signed _ _ => cases heq
      rw [List.nil_append, ← skipExponent_append he hrest, skipFraction]
      exact hpoint
  | @point ds hds =>
      show skipDigits (ds ++ exponent ++ rest) >>= skipExponent = _
      rw [List.append_assoc, skipDigits_append hds (he.noDigit hrest)]
      exact skipExponent_append he hrest

/-- **A numeral is passed over up to its end.** -/
theorem skipNumber_append {cs : List Char} (h : Numeral cs) {rest : List Char} (hrest : Stops rest) :
    skipNumber (cs ++ rest) = .ok rest := by
  cases h with
  | mk hwhole hf he =>
      rw [List.append_assoc, skipNumber_eq, skipWhole_append hwhole (hf.noDigit he hrest)]
      exact skipFraction_append hf he hrest

end SolFront.Json
