import SolFront.Proofs.Json.Canonical

/-!
# What is wrong with a text that is no JSON

A text is read as a value whatever value it is, so a value never has the wrong shape. If a text
cannot be read, it is because it stops too early or because it is no JSON, and there is a place in
it where that shows. In words that is one of a few sentences, with the place.
-/

namespace SolFront.Json

/-- The fault is about the text, not about the shape of a value, and has a place in the text. -/
structure Fault.AtPlace (fault : Fault) : Prop where
  kind : fault.cause.kind ≠ .mismatch
  place : ∃ after, fault.after = some after

/-- Whatever goes wrong is about the text at some place. -/
def FailsAtPlace {α : Type} (x : Except Fault α) : Prop :=
  ∀ fault, x = .error fault → fault.AtPlace

variable {α β : Type}

theorem failsAtPlace_ok (a : α) : FailsAtPlace (.ok a) :=
  fun _ h => by cases h

theorem failsAtPlace_ahead {bytes : Nat} {cause : Cause} {rest : List Char}
    (h : cause.kind ≠ .mismatch) :
    FailsAtPlace (.error (.ahead bytes cause rest) : Except Fault α) := by
  intro fault hfault
  cases hfault
  exact ⟨h, _, rfl⟩

theorem FailsAtPlace.bind {x : Except Fault α} {f : α → Except Fault β} (hx : FailsAtPlace x)
    (hf : ∀ a, FailsAtPlace (f a)) : FailsAtPlace (x >>= f) := by
  cases x with
  | error fault =>
      intro fault' h
      cases h
      exact hx fault rfl
  | ok a => exact hf a

theorem mapError_eq_error {ε ε' : Type} {f : ε → ε'} {x : Except ε α} {e : ε'}
    (h : x.mapError f = .error e) : ∃ e', x = .error e' ∧ f e' = e := by
  cases x with
  | error e' => exact ⟨e', rfl, Except.error.inj h⟩
  | ok a => cases h

/-! ## Lexemes -/

theorem letters_atPlace : ∀ word cs : List Char, FailsAtPlace (letters word cs)
  | [], _ => failsAtPlace_ok _
  | _ :: _, [] => failsAtPlace_ahead (by decide)
  | w :: word, c :: cs => by
      unfold letters
      split
      · exact letters_atPlace word cs
      · exact failsAtPlace_ahead (by decide)

theorem float_atPlace (negative : Bool) (significand : Nat) (exponent : Int) (cs : List Char) :
    FailsAtPlace (float negative significand exponent cs) := by
  unfold float
  split
  · exact failsAtPlace_ok _
  · exact failsAtPlace_ahead (by decide)

theorem exponentPart_atPlace (negative : Bool) (significand : Nat) (exponent : Int)
    (cs : List Char) : FailsAtPlace (exponentPart negative significand exponent cs) := by
  rw [exponentPart_eq]
  unfold exponentEnd
  split
  · exact failsAtPlace_ahead (by decide)
  · split
    · exact failsAtPlace_ahead (by decide)
    · dsimp only
      split
      · split
        · exact failsAtPlace_ahead (by decide)
        · exact failsAtPlace_ok _
      · exact float_atPlace _ _ _ _

theorem fractionPart_atPlace (negative : Bool) (significand : Nat) (exponent : Int)
    (cs : List Char) : FailsAtPlace (fractionPart negative significand exponent cs) := by
  unfold fractionPart afterFraction
  dsimp only
  split
  · refine failsAtPlace_ahead ?_
    split <;> decide
  · split
    · exact exponentPart_atPlace _ _ _ _
    · exact exponentPart_atPlace _ _ _ _
    · exact float_atPlace _ _ _ _

theorem afterWhole_atPlace (negative : Bool) (digits cs : List Char) :
    FailsAtPlace (afterWhole negative digits cs) := by
  unfold afterWhole
  dsimp only
  split
  · exact fractionPart_atPlace _ _ _ _
  · exact exponentPart_atPlace _ _ _ _
  · exact exponentPart_atPlace _ _ _ _
  · split
    · exact float_atPlace _ _ _ _
    · -- a whole number that fits, or minus zero
      split
      · exact failsAtPlace_ok _
      · split <;> exact failsAtPlace_ok _

theorem number_atPlace (negative : Bool) (cs : List Char) : FailsAtPlace (number negative cs) := by
  unfold number
  split
  · exact failsAtPlace_ahead (by decide)
  · split
    · exact failsAtPlace_ahead (by decide)
    · exact afterWhole_atPlace _ _ _
  · split
    · exact afterWhole_atPlace _ _ _
    · exact failsAtPlace_ahead (by decide)

theorem badHex_atPlace (rest : List Char) :
    FailsAtPlace (.error (badHex rest) : Except Fault α) := by
  unfold badHex
  split <;> exact failsAtPlace_ahead (by decide)

theorem stringFrom_atPlace (before : List Char) (high : Option Nat) (cs : List Char) :
    FailsAtPlace (stringFrom before high cs) := by
  fun_induction stringFrom before high cs with
  | _ => first | assumption | exact failsAtPlace_ok _ | exact badHex_atPlace _
               | exact failsAtPlace_ahead (by decide)

/-! ## Punctuation -/

theorem nextItem_atPlace (first : Bool) (cs : List Char) : FailsAtPlace (nextItem first cs) := by
  fun_cases nextItem first cs <;>
    first | exact failsAtPlace_ok _ | exact failsAtPlace_ahead (by decide)

theorem endItems_atPlace (cs : List Char) : FailsAtPlace (endItems cs) := by
  fun_cases endItems cs with
  | case3 =>
      -- whether the comma is one too many only changes the words
      refine failsAtPlace_ahead ?_
      split <;> decide
  | _ => first | exact failsAtPlace_ok _ | exact failsAtPlace_ahead (by decide)

theorem key_atPlace (cs : List Char) : FailsAtPlace (nextKey.key cs) := by
  unfold nextKey.key
  cases hstring : string cs with
  | error fault =>
      intro fault' h
      cases h
      exact stringFrom_atPlace [] none cs fault hstring
  | ok result => exact failsAtPlace_ok _

theorem nextKey_atPlace (first : Bool) (cs : List Char) : FailsAtPlace (nextKey first cs) := by
  fun_cases nextKey first cs <;>
    first | exact failsAtPlace_ok _ | exact key_atPlace _ | exact failsAtPlace_ahead (by decide)

theorem colon_atPlace (cs : List Char) : FailsAtPlace (colon cs) := by
  fun_cases colon cs <;> first | exact failsAtPlace_ok _ | exact failsAtPlace_ahead (by decide)

theorem endMembers_atPlace (cs : List Char) : FailsAtPlace (endMembers cs) := by
  fun_cases endMembers cs with
  | case3 =>
      refine failsAtPlace_ahead ?_
      split <;> decide
  | _ => first | exact failsAtPlace_ok _ | exact failsAtPlace_ahead (by decide)

/-! ## Lists and objects -/

theorem items_atPlace {item : List Char → Except Fault (α × List Char)}
    (hitem : ∀ cs, FailsAtPlace (item cs)) :
    ∀ (bound : List Char) (first : Bool) (cs : List Char),
      FailsAtPlace (items item bound first cs)
  | [], _, _ => failsAtPlace_ahead (by decide)
  | _ :: bound, first, cs => by
      rw [items]
      refine (nextItem_atPlace first cs).bind ?_
      rintro ⟨more, rest⟩
      dsimp only
      split
      · refine (hitem rest).bind fun _ => ?_
        exact (items_atPlace hitem bound false _).bind fun _ => failsAtPlace_ok _
      · exact failsAtPlace_ok _

theorem list_atPlace {item : List Char → Except Fault (α × List Char)}
    (hitem : ∀ cs, FailsAtPlace (item cs)) (cs : List Char) : FailsAtPlace (list item cs) := by
  unfold list
  refine (items_atPlace hitem _ true cs).bind fun _ => ?_
  exact (endItems_atPlace _).bind fun _ => failsAtPlace_ok _

theorem members_atPlace {value : List Char → Except Fault (α × List Char)}
    (hvalue : ∀ cs, FailsAtPlace (value cs)) :
    ∀ (bound : List Char) (first : Bool) (cs : List Char),
      FailsAtPlace (members value bound first cs)
  | [], _, _ => failsAtPlace_ahead (by decide)
  | _ :: bound, first, cs => by
      rw [members]
      refine (nextKey_atPlace first cs).bind ?_
      rintro ⟨key, rest⟩
      cases key with
      | none => exact failsAtPlace_ok _
      | some key =>
          refine (colon_atPlace rest).bind fun rest => (hvalue rest).bind fun _ => ?_
          exact (members_atPlace hvalue bound false _).bind fun _ => failsAtPlace_ok _

theorem object_atPlace {value : List Char → Except Fault (α × List Char)}
    (hvalue : ∀ cs, FailsAtPlace (value cs)) (cs : List Char) : FailsAtPlace (object value cs) := by
  unfold object
  refine (members_atPlace hvalue _ true cs).bind fun _ => ?_
  exact (endMembers_atPlace _).bind fun _ => failsAtPlace_ok _

/-! ## Values -/

theorem value_atPlace (nesting : Nat) (cs : List Char) : FailsAtPlace (value nesting cs) := by
  induction nesting using Nat.strongRecOn generalizing cs with
  | ind nesting ih =>
    unfold value
    split
    · exact failsAtPlace_ahead (by decide)
    -- one case for each character that a value can start with
    split
    · exact (letters_atPlace _ _).bind fun _ => failsAtPlace_ok _
    split
    · exact (letters_atPlace _ _).bind fun _ => failsAtPlace_ok _
    split
    · exact (letters_atPlace _ _).bind fun _ => failsAtPlace_ok _
    split
    · exact (number_atPlace _ _).bind fun _ => failsAtPlace_ok _
    split
    · exact (number_atPlace _ _).bind fun _ => failsAtPlace_ok _
    split
    · exact (stringFrom_atPlace _ _ _).bind fun _ => failsAtPlace_ok _
    split
    · split
      · exact failsAtPlace_ahead (by decide)
      · rename_i n
        exact (list_atPlace (ih n (Nat.lt_succ_self n)) _).bind fun _ => failsAtPlace_ok _
    split
    · split
      · exact failsAtPlace_ahead (by decide)
      · rename_i n
        exact (object_atPlace (ih n (Nat.lt_succ_self n)) _).bind fun _ => failsAtPlace_ok _
    · exact failsAtPlace_ahead (by decide)

/-- **What is wrong with a text that is no JSON** is no matter of shape, and it has a place. -/
theorem atPlace_of_read {text : String} {e : ReadError} (h : read text = .error e) :
    e.cause.kind ≠ .mismatch ∧ ∃ place, e.place = some place := by
  obtain ⟨fault, hfault, rfl⟩ := mapError_eq_error h
  obtain ⟨hkind, after, hafter⟩ : fault.AtPlace := by
    refine (value_atPlace maxNesting text.toList).bind ?_ fault hfault
    rintro ⟨x, rest⟩
    dsimp only
    -- what is behind the value is blank, or it is too much
    split
    · exact failsAtPlace_ok _
    · exact failsAtPlace_ahead (by decide)
  exact ⟨hkind, _, congrArg (Option.map _) hafter⟩

/-! ## In words -/

/-- What is said of a text that is no JSON. -/
def sayings : List (Cause × String) :=
  [(.ends .value, "EOF while parsing a value"), (.ends .string, "EOF while parsing a string"),
    (.ends .list, "EOF while parsing a list"), (.ends .object, "EOF while parsing an object"),
    (.expectedValue, "expected value"), (.expectedIdent, "expected ident"),
    (.expectedColon, "expected `:`"), (.expectedListEnd, "expected `,` or `]`"),
    (.expectedObjectEnd, "expected `,` or `\x7d`"), (.keyNotString, "key must be a string"),
    (.trailingComma, "trailing comma"), (.trailingCharacters, "trailing characters"),
    (.invalidNumber, "invalid number"), (.numberOutOfRange, "number out of range"),
    (.invalidEscape, "invalid escape"),
    (.controlCharacter, "control character (\\u0000-\\u001F) found while parsing a string"),
    (.loneSurrogate, "lone leading surrogate in hex escape"),
    (.unfinishedSurrogate, "unexpected end of hex escape"), (.tooDeep, "recursion limit exceeded")]

theorem mem_sayings {cause : Cause} (h : cause.kind ≠ .mismatch) :
    (cause, cause.message) ∈ sayings := by
  cases cause with
  | ends part => cases part <;> decide
  | _ => first | decide | exact absurd rfl h

end SolFront.Json
