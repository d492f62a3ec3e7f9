import SolFront.Proofs.Json.Records

/-!
# Reading printed values as flags, words and choices

A choice is printed as the name of a variant, or as an object with the name as its only key. What is
read of any printed value depends on the value alone here too: an object with another number of
members is no choice.
-/

namespace SolFront.Json

theorem Opens.ne_bool {v : Json} {c : Char} (h : Opens v c) (hv : ∀ b, v ≠ .bool b) :
    c ≠ 't' ∧ c ≠ 'f' := by
  cases h with
  | yes => exact absurd rfl (hv true)
  | no => exact absurd rfl (hv false)
  | digit x h => exact ⟨(digit_ne h).2.1, (digit_ne h).2.2.1⟩
  | _ => exact ⟨by decide, by decide⟩

namespace Reader

variable {α β : Type}

/-! ## Flags and words -/

theorem bool_bool (n : Nat) (b : Bool) : Decodes (bool n) (.bool b) (some b) := by
  intro l _ depth before hbefore rest _
  rw [List.append_assoc]
  unfold bool
  cases b with
  | true => exact congrArg Except.toOption (startingWith_cons _ hbefore (by decide) _)
  | false => exact congrArg Except.toOption (startingWith_cons _ hbefore (by decide) _)

theorem bool_faithful (n : Nat) : Faithful (bool n) := by
  intro v
  cases v with
  | bool b => exact ⟨_, bool_bool n b⟩
  | _ =>
      refine ⟨none, startingWith_none fun c cs hopens => ?_⟩
      obtain ⟨htrue, hfalse⟩ := hopens.ne_bool (by simp)
      rw [if_neg htrue, if_neg hfalse]
      rfl

theorem integer_int {least greatest i : Int} (h : Number.InRange (.int i)) (hleast : least ≤ i)
    (hgreatest : i ≤ greatest) (wanted : String) (n : Nat) :
    Decodes (integer least greatest wanted n) (.num (.int i)) (some i) := by
  intro l _ depth before hbefore rest hrest
  have hnumber := number_int h hrest
  have hbounded : bounded least greatest wanted (.int i, rest) = .ok (i, rest) :=
    if_pos (Bool.and_eq_true_iff.mpr ⟨decide_eq_true hleast, decide_eq_true hgreatest⟩)
  rw [integer_eq, List.append_assoc, print, printNumber, printInt]
  by_cases hneg : i < 0
  · rw [decide_eq_true hneg] at hnumber
    rw [if_pos hneg, List.cons_append, startingWith_cons _ hbefore (by decide), if_pos rfl, hnumber]
    exact congrArg Except.toOption hbounded
  · obtain ⟨c, cs, hdigits, hc⟩ := (whole_toDigits i.natAbs).head
    have hopens : Opens (.num (.int i)) c := .digit _ hc
    rw [decide_eq_false hneg] at hnumber
    rw [if_neg hneg, hdigits, List.cons_append, startingWith_cons _ hbefore hopens.not_space,
      if_neg (digit_ne hc).2.2.2, if_pos hc, ← List.cons_append, ← hdigits, hnumber]
    exact congrArg Except.toOption hbounded

theorem word_nat (n : Nat) (w : UInt64) : Decodes (word n) (.nat w.toNat) (some w) := by
  have hlt : w.toNat < UInt64.size := w.toNat_lt
  have hinteger : Decodes (integer 0 ((UInt64.size : Int) - 1) "usize" n) (.nat w.toNat)
      (some (w.toNat : Int)) :=
    integer_int ⟨by omega, by omega⟩ (by omega) (by omega) "usize" n
  have hread := map_decodes (f := fun i : Int => UInt64.ofNat i.toNat) hinteger
  rwa [Option.map_some, Int.toNat_natCast, UInt64.ofNat_toNat] at hread

theorem signedWord_int (n : Nat) (w : Int64) :
    Decodes (signedWord n) (.num (.int w.toInt)) (some w) := by
  have hrange : Number.InRange (.int w.toInt) := by
    have hleast : -2 ^ 63 ≤ w.toInt := w.le_toInt
    have hgreatest : w.toInt < 2 ^ 63 := w.toInt_lt
    have hsize : (UInt64.size : Int) = 2 ^ 64 := rfl
    exact ⟨by omega, by omega⟩
  have hread := map_decodes (f := Int64.ofInt)
    (integer_int hrange w.minValue_le_toInt w.toInt_le "isize" n)
  rwa [Option.map_some, Int64.ofInt_toInt] at hread

/-! ## Choices -/

variable (variants : List (String × β)) (bare : β → Except Fault α) {payload : β → Reader α}

theorem variant_str (n : Nat) (s : String) :
    Decodes (variant variants n) (.str s) (variants.lookup s) := by
  intro l _ depth before hbefore rest _
  rw [List.append_assoc, print, printString_append]
  unfold variant
  rw [startingWith_cons _ hbefore (by decide), if_pos rfl, string_stringBody]
  rw [toOption_bind]
  show Option.bind (some (s, rest)) _ = _
  rw [Option.bind_some]
  dsimp only
  cases variants.lookup s <;> rfl

theorem choice_str (n : Nat) (s : String) :
    Decodes (choice variants bare payload n) (.str s)
      ((variants.lookup s).bind fun b => (bare b).toOption) := by
  intro l hl depth before hbefore rest hrest
  have hread := variant_str variants n s l hl depth [] spaces_nil rest hrest
  rw [List.append_assoc, print, printString_append] at hread ⊢
  unfold choice
  rw [startingWith_cons _ hbefore (by decide), if_pos rfl]
  rw [List.nil_append] at hread
  rw [toOption_bind, hread]
  cases variants.lookup s with
  | none => rfl
  | some b =>
      show Except.toOption (bare b >>= fun x => .ok (x, rest)) = (bare b).toOption.map (·, rest)
      cases bare b <;> rfl

/-- An object is a choice if it has a single member. -/
theorem choice_obj_cons {k : Nat} (hpayload : ∀ b, Faithful (payload b k)) (key : String)
    (v : Json) (ms : Dict Json) :
    Decodes (choice variants bare payload (k + 1)) (.obj ((key, v) :: ms))
      (if ms.isEmpty then (variants.lookup key).bind fun b => decode (payload b k) v
        else none) := by
  intro l hl depth before hbefore rest _
  have hcolon : ∀ cs, Stops (':' :: cs) :=
    stops_cons (by decide) (by decide) (by decide) (by decide)
  have hkey := variant_str variants k key l hl (depth + 1) (l.line (depth + 1)) (hl.line _)
    (':' :: (l.gap ++ (print l (depth + 1) v ++ membersEnd l (depth + 1) depth ms rest)))
    (hcolon _)
  rw [List.append_assoc, print_obj, List.cons_append, objectBody_cons]
  unfold choice
  rw [startingWith_cons _ hbefore (by decide), if_neg (by decide), if_pos rfl]
  rw [List.append_assoc, print] at hkey
  unfold nested
  dsimp only
  rw [toOption_bind, hkey]
  cases variants.lookup key with
  | none => cases ms <;> rfl
  | some b =>
      have hread := (hpayload b).decodes v l hl (depth + 1) l.gap hl.gap _
        (stops_membersEnd hl (depth + 1) depth ms rest)
      rw [List.append_assoc] at hread
      simp only [Option.map_some, Option.bind_some]
      rw [colon_cons]
      show Except.toOption (payload b k _ >>= fun x => _) = _
      rw [toOption_bind, hread]
      cases decode (payload b k) v with
      | none => cases ms <;> rfl
      | some x =>
          rw [Option.map_some, Option.bind_some]
          dsimp only
          cases ms with
          | nil =>
              have hdrop : dropSpace (membersEnd l (depth + 1) depth [] rest) = '\x7d' :: rest := by
                rw [membersEnd, printMembers, List.nil_append, dropSpace_append (hl.line depth),
                  dropSpace_cons (by decide)]
              rw [hdrop]
              rfl
          | cons e ms =>
              rw [membersEnd_cons, dropSpace_cons (by decide)]
              rfl

/-- A member with the name of a variant chooses it. -/
theorem choice_member {k : Nat} (hpayload : ∀ b, Faithful (payload b k)) {key : String} {b : β}
    (hlookup : variants.lookup key = some b) {v : Json} {x : α}
    (hv : Decodes (payload b k) v (some x)) :
    Decodes (choice variants bare payload (k + 1)) (.obj [(key, v)]) (some x) := by
  have hread := choice_obj_cons variants bare hpayload key v []
  rwa [hlookup, List.isEmpty_nil, if_pos rfl, Option.bind_some, hv.decode_eq] at hread

theorem choice_faithful (hpayload : ∀ b n, Faithful (payload b n)) (n : Nat) :
    Faithful (choice variants bare payload n) := by
  intro v
  cases v with
  | str s => exact ⟨_, choice_str variants bare n s⟩
  | obj ms =>
      cases n with
      | zero =>
          refine ⟨none, startingWith_none fun c cs hopens => ?_⟩
          cases hopens with
          | obj _ => rfl
      | succ k =>
          cases ms with
          | nil =>
              refine ⟨none, fun l hl depth before hbefore rest _ => ?_⟩
              rw [List.append_assoc, print_obj, List.cons_append]
              unfold choice
              rw [startingWith_cons _ hbefore (by decide)]
              rfl
          | cons e ms => exact ⟨_, choice_obj_cons variants bare (fun b => hpayload b k) e.1 e.2 ms⟩
  | _ =>
      refine ⟨none, startingWith_none fun c cs hopens => ?_⟩
      rw [if_neg (hopens.ne_quote (by simp)), if_neg (hopens.ne_brace (by simp))]
      rfl

theorem noPayload_faithful (n : Nat) : Faithful (noPayload n) := by
  intro v
  cases v with
  | null =>
      refine ⟨some (), fun l _ depth before hbefore rest _ => ?_⟩
      rw [List.append_assoc]
      exact congrArg Except.toOption (startingWith_cons _ hbefore (by decide) _)
  | _ =>
      refine ⟨none, startingWith_none fun c cs hopens => ?_⟩
      rw [if_neg (hopens.ne_null (by simp))]
      rfl

theorem constant_faithful (variants : List (String × α)) (n : Nat) :
    Faithful (constant variants n) :=
  choice_faithful variants _ (fun _ n => map_faithful (noPayload_faithful n) _) n

end Reader

end SolFront.Json
