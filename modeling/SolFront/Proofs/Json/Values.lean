import SolFront.Proofs.Json.Reading

/-!
# Printed values

Any reading of a printed value depends on the value alone, and it is of the same kind as the value.
A value in canonical form without floats is read as itself: floats may lose their last digit on the
way, as their decimal digits are scaled in floating point. Among them is a negative zero, which is
what is read of an integer with a sign and no other digit than zeros; it does come back.
-/

namespace SolFront.Json

/-! ## Any value -/

theorem digit_ne {c : Char} (h : c.isDigit = true) :
    c ≠ 'n' ∧ c ≠ 't' ∧ c ≠ 'f' ∧ c ≠ '-' := by
  refine ⟨?_, ?_, ?_, ?_⟩ <;> (rintro rfl; exact absurd h (by decide))

/-- A value is read without the blanks before it. -/
theorem value_before (n : Nat) {before : List Char} (h : Spaces before) (cs : List Char) :
    value n (before ++ cs) = value n cs := by
  unfold value
  rw [dropSpace_append h]

theorem value_digit (n : Nat) {c : Char} (h : c.isDigit = true) (cs : List Char) :
    value n (c :: cs) = number false (c :: cs) >>= fun x => .ok (.num x.1, x.2) := by
  have hspace : isSpace c = false := (Opens.digit (.int 0) h).not_space
  obtain ⟨hn, ht, hf, hminus⟩ := digit_ne h
  unfold value
  rw [dropSpace_cons hspace]
  dsimp only
  rw [if_neg hn, if_neg ht, if_neg hf, if_neg hminus, if_pos h]

theorem value_minus (n : Nat) (cs : List Char) :
    value n ('-' :: cs) = number true cs >>= fun x => .ok (.num x.1, x.2) := by
  unfold value
  rfl

theorem value_quote (n : Nat) (cs : List Char) :
    value n ('"' :: cs) = string cs >>= fun x => .ok (.str x.1, x.2) := by
  unfold value
  rfl

/-- What is read of a number. -/
theorem value_num (n : Nat) (x : Number) :
    ∃ result : Option Number, Decodes (value n) (.num x) (result.map .num) := by
  obtain ⟨cs, hcs, hprint⟩ := printNumber_numeral x
  have hbind : ∀ {result : Option Number} {rest : List Char}
      {reader : Except Fault (Number × List Char)}, reader.toOption = result.map (·, rest) →
      (reader >>= fun x => (.ok (Json.num x.1, x.2) : Except Fault _)).toOption
        = (result.map Json.num).map (·, rest) := by
    intro result rest reader h
    rw [toOption_bind, h]
    cases result <;> rfl
  rcases hprint with hprint | hprint
  · obtain ⟨result, hresult⟩ := number_reads false hcs
    refine ⟨result, fun l _ depth before hbefore rest hrest => ?_⟩
    have hread := hresult rest hrest
    obtain ⟨c, cs, rfl, hc⟩ := hcs.head
    rw [List.append_assoc, value_before n hbefore, print, hprint, List.cons_append,
      value_digit n hc]
    exact hbind hread
  · obtain ⟨result, hresult⟩ := number_reads true hcs
    refine ⟨result, fun l _ depth before hbefore rest hrest => ?_⟩
    rw [List.append_assoc, value_before n hbefore, print, hprint, List.cons_append, value_minus]
    exact hbind (hresult rest hrest)

theorem value_arr {n : Nat} (h : Faithful (value n)) (xs : List Json) :
    Decodes (value (n + 1)) (.arr xs) ((xs.mapM (decode (value n))).map .arr) := by
  intro l hl depth before hbefore rest hrest
  have hread := list_listBody h hl depth xs rest hrest
  rw [List.append_assoc, value_before _ hbefore, print_arr, List.cons_append]
  show Except.toOption (list (value n) _ >>= fun x => _) = _
  rw [toOption_bind, hread]
  cases xs.mapM (decode (value n)) <;> rfl

theorem value_obj {n : Nat} (h : Faithful (value n)) (ms : Dict Json) :
    Decodes (value (n + 1)) (.obj ms)
      (((ms.mapM (decodeMember (value n))).map Dict.ofList).map .obj) := by
  intro l hl depth before hbefore rest hrest
  have hread := object_objectBody h hl depth ms rest hrest
  rw [List.append_assoc, value_before _ hbefore, print_obj, List.cons_append]
  show Except.toOption (object (value n) _ >>= fun x => _) = _
  rw [toOption_bind, hread]
  cases (ms.mapM (decodeMember (value n))).map Dict.ofList <;> rfl

theorem value_null (n : Nat) : Decodes (value n) .null (some .null) := by
  intro l _ depth before hbefore rest _
  rw [List.append_assoc, value_before n hbefore]
  unfold value
  rfl

theorem value_bool (n : Nat) (b : Bool) : Decodes (value n) (.bool b) (some (.bool b)) := by
  intro l _ depth before hbefore rest _
  rw [List.append_assoc, value_before n hbefore]
  unfold value
  cases b <;> rfl

theorem value_str (n : Nat) (s : String) : Decodes (value n) (.str s) (some (.str s)) := by
  intro l _ depth before hbefore rest _
  rw [List.append_assoc, value_before n hbefore, print, printString_append, value_quote,
    string_stringBody]
  rfl

/-- No bracket may be opened any more. -/
theorem value_arr_zero (xs : List Json) : Decodes (value 0) (.arr xs) none := by
  intro l _ depth before hbefore rest _
  rw [List.append_assoc, value_before 0 hbefore, print_arr]
  rfl

theorem value_obj_zero (ms : Dict Json) : Decodes (value 0) (.obj ms) none := by
  intro l _ depth before hbefore rest _
  rw [List.append_assoc, value_before 0 hbefore, print_obj]
  rfl

/-- **What is read of a printed value depends on the value alone.** -/
theorem value_faithful (n : Nat) : Faithful (value n) := by
  induction n with
  | zero =>
      intro v
      cases v with
      | null => exact ⟨_, value_null 0⟩
      | bool b => exact ⟨_, value_bool 0 b⟩
      | num x =>
          obtain ⟨result, hresult⟩ := value_num 0 x
          exact ⟨_, hresult⟩
      | str s => exact ⟨_, value_str 0 s⟩
      | arr xs => exact ⟨_, value_arr_zero xs⟩
      | obj ms => exact ⟨_, value_obj_zero ms⟩
  | succ n ih =>
      intro v
      cases v with
      | null => exact ⟨_, value_null _⟩
      | bool b => exact ⟨_, value_bool _ b⟩
      | num x =>
          obtain ⟨result, hresult⟩ := value_num (n + 1) x
          exact ⟨_, hresult⟩
      | str s => exact ⟨_, value_str _ s⟩
      | arr xs => exact ⟨_, value_arr ih xs⟩
      | obj ms => exact ⟨_, value_obj ih ms⟩

/-! ## Kinds -/

/-- Two values of one kind, which are the same unless they are numbers or have parts. -/
inductive SameKind : Json → Json → Prop where
  | null : SameKind .null .null
  | bool (b : Bool) : SameKind (.bool b) (.bool b)
  | num (x y : Number) : SameKind (.num x) (.num y)
  | str (s : String) : SameKind (.str s) (.str s)
  | arr (xs ys : List Json) : SameKind (.arr xs) (.arr ys)
  | obj (ms ms' : Dict Json) : SameKind (.obj ms) (.obj ms')

/-- **A printed value is read as one of its own kind.** -/
theorem sameKind_of_decode {n : Nat} {v w : Json} (h : decode (value n) v = some w) :
    SameKind v w := by
  cases v with
  | null =>
      rw [(value_null n).decode_eq] at h
      cases h
      exact .null
  | bool b =>
      rw [(value_bool n b).decode_eq] at h
      cases h
      exact .bool b
  | num x =>
      obtain ⟨result, hresult⟩ := value_num n x
      rw [hresult.decode_eq] at h
      obtain ⟨y, -, rfl⟩ := Option.map_eq_some_iff.mp h
      exact .num x y
  | str s =>
      rw [(value_str n s).decode_eq] at h
      cases h
      exact .str s
  | arr xs =>
      cases n with
      | zero =>
          rw [(value_arr_zero xs).decode_eq] at h
          cases h
      | succ n =>
          rw [(value_arr (value_faithful n) xs).decode_eq] at h
          obtain ⟨ys, -, rfl⟩ := Option.map_eq_some_iff.mp h
          exact .arr xs ys
  | obj ms =>
      cases n with
      | zero =>
          rw [(value_obj_zero ms).decode_eq] at h
          cases h
      | succ n =>
          rw [(value_obj (value_faithful n) ms).decode_eq] at h
          obtain ⟨ms', -, rfl⟩ := Option.map_eq_some_iff.mp h
          exact .obj ms ms'

/-- An object is read member by member. -/
theorem mapM_of_decode {n : Nat} {ms ms' : Dict Json}
    (h : decode (value n) (.obj ms) = some (.obj ms')) :
    ∃ k read, n = k + 1 ∧ ms.mapM (decodeMember (value k)) = some read
      ∧ ms' = Dict.ofList read := by
  cases n with
  | zero =>
      rw [(value_obj_zero ms).decode_eq] at h
      cases h
  | succ n =>
      rw [(value_obj (value_faithful n) ms).decode_eq] at h
      obtain ⟨found, hfound, hms'⟩ := Option.map_eq_some_iff.mp h
      obtain ⟨read, hread, rfl⟩ := Option.map_eq_some_iff.mp hfound
      cases hms'
      exact ⟨n, read, rfl, hread, rfl⟩

/-- What is found among the members is what is read of the member of the same name. -/
theorem get?_of_mapM {n : Nat} {ms read : Dict Json}
    (h : ms.mapM (decodeMember (value n)) = some read) (key : String) :
    Dict.get? read key = (Dict.get? ms key).bind (decode (value n)) := by
  induction ms generalizing read with
  | nil =>
      cases h
      rfl
  | cons e ms ih =>
      rw [List.mapM_cons] at h
      obtain ⟨e', he', h⟩ := Option.bind_eq_some_iff.mp h
      obtain ⟨read', hread', h⟩ := Option.bind_eq_some_iff.mp h
      obtain ⟨v, hv, rfl⟩ := Option.map_eq_some_iff.mp he'
      cases h
      rw [Dict.get?_cons, Dict.get?_cons, ih hread']
      by_cases hkey : key = e.1
      · rw [if_pos hkey, if_pos hkey, Option.bind_some, hv]
      · rw [if_neg hkey, if_neg hkey]

theorem keys_of_mapM {n : Nat} {ms read : Dict Json}
    (h : ms.mapM (decodeMember (value n)) = some read) : Dict.keys read = Dict.keys ms := by
  induction ms generalizing read with
  | nil =>
      cases h
      rfl
  | cons e ms ih =>
      rw [List.mapM_cons] at h
      obtain ⟨e', he', h⟩ := Option.bind_eq_some_iff.mp h
      obtain ⟨read', hread', h⟩ := Option.bind_eq_some_iff.mp h
      obtain ⟨v, hv, rfl⟩ := Option.map_eq_some_iff.mp he'
      cases h
      exact congrArg (e.1 :: ·) (ih hread')

/-- Members in order stay in order. -/
theorem ofList_of_mapM {n : Nat} {ms read : Dict Json} (hsorted : ms.Sorted)
    (h : ms.mapM (decodeMember (value n)) = some read) : Dict.ofList read = read := by
  refine Dict.ofList_of_sorted (List.pairwise_map.mp ?_)
  show (Dict.keys read).Pairwise (· < ·)
  rw [keys_of_mapM h]
  exact List.pairwise_map.mpr hsorted

/-! ## Values of integers -/

/-- All numbers of the value are integers. -/
inductive Integral : Json → Prop where
  | null : Integral .null
  | bool (b : Bool) : Integral (.bool b)
  | int (i : Int) : Integral (.num (.int i))
  | str (s : String) : Integral (.str s)
  | arr {xs : List Json} (h : ∀ x ∈ xs, Integral x) : Integral (.arr xs)
  | obj {ms : Dict Json} (h : ∀ e ∈ ms, Integral e.2) : Integral (.obj ms)

/-- All numbers of the value are read of integers that fit a 64-bit word: a negative zero is what
is read of a zero with a sign. -/
inductive Integers : Json → Prop where
  | null : Integers .null
  | bool (b : Bool) : Integers (.bool b)
  | int (i : Int) : Integers (.num (.int i))
  | negativeZero : Integers (.num (.float (-0)))
  | str (s : String) : Integers (.str s)
  | arr {xs : List Json} (h : ∀ x ∈ xs, Integers x) : Integers (.arr xs)
  | obj {ms : Dict Json} (h : ∀ e ∈ ms, Integers e.2) : Integers (.obj ms)

attribute [simp] Integers.null Integers.bool Integers.int Integers.negativeZero Integers.str

@[simp] theorem integers_arr {xs : List Json} : Integers (.arr xs) ↔ ∀ x ∈ xs, Integers x :=
  ⟨fun | .arr h => h, .arr⟩

@[simp] theorem integers_obj {ms : Dict Json} : Integers (.obj ms) ↔ ∀ e ∈ ms, Integers e.2 :=
  ⟨fun | .obj h => h, .obj⟩

theorem Integral.integers {v : Json} (h : Integral v) : Integers v := by
  induction h with
  | null => exact .null
  | bool b => exact .bool b
  | int i => exact .int i
  | str s => exact .str s
  | arr _ ih => exact .arr ih
  | obj _ ih => exact .obj ih

/-- The digits of an integer behind its sign are read as the integer. -/
theorem number_int {i : Int} (h : Number.InRange (.int i)) {rest : List Char}
    (hrest : Stops rest) :
    number (decide (i < 0)) (Nat.toDigits 10 i.natAbs ++ rest) = .ok (.int i, rest) := by
  obtain ⟨hleast, hgreatest⟩ := h
  have hword : i.natAbs < UInt64.size := by
    have hsize : UInt64.size = 18446744073709551616 := rfl
    omega
  rw [number_toDigits _ hword hrest]
  by_cases hneg : i < 0
  · have hpos : 0 < i.natAbs := by omega
    have hle : i.natAbs ≤ Nat.pow 2 63 := by
      show i.natAbs ≤ 9223372036854775808
      omega
    have hback : -(i.natAbs : Int) = i := by omega
    simp only [hneg, decide_true, Bool.not_true, Bool.false_eq_true, if_false, hpos, hle,
      Bool.and_self, if_true, hback]
  · have hback : (i.natAbs : Int) = i := by omega
    simp only [hneg, decide_false, Bool.not_false, if_true, hback]

theorem value_int (n : Nat) {i : Int} (h : Number.InRange (.int i)) :
    Decodes (value n) (.num (.int i)) (some (.num (.int i))) := by
  intro l _ depth before hbefore rest hrest
  have hnumber := number_int h hrest
  rw [List.append_assoc, value_before n hbefore, print, printNumber, printInt]
  by_cases hneg : i < 0
  · rw [decide_eq_true hneg] at hnumber
    rw [if_pos hneg, List.cons_append, value_minus, hnumber]
    rfl
  · obtain ⟨c, cs, hdigits, hc⟩ := (whole_toDigits i.natAbs).head
    rw [decide_eq_false hneg] at hnumber
    rw [if_neg hneg, hdigits, List.cons_append, value_digit n hc, ← List.cons_append, ← hdigits,
      hnumber]
    rfl

theorem value_negativeZero (n : Nat) :
    Decodes (value n) (.num (.float (-0))) (some (.num (.float (-0)))) := by
  obtain ⟨result, hresult⟩ := value_num n (.float (-0))
  -- what is read does not depend on the brackets that may be opened
  have hread := hresult .compact (blank_of false) 0 [] spaces_nil [] stops_nil
  have hprint : print .compact 0 (.num (.float (-0))) = ['-', '0', '.', '0'] := by decide +kernel
  have hnumber : (number true ['0', '.', '0']).toOption = some (.float (-0), []) := by
    decide +kernel
  rw [List.nil_append, List.append_nil, hprint, value_minus, toOption_bind, hnumber] at hread
  cases result with
  | none => cases hread
  | some x =>
      cases hread
      exact hresult

theorem mapM_eq_some {β : Type} {f : β → Option β} {xs : List β} (h : ∀ x ∈ xs, f x = some x) :
    xs.mapM f = some xs := by
  induction xs with
  | nil => rfl
  | cons x xs ih =>
      obtain ⟨hx, hxs⟩ := List.forall_mem_cons.mp h
      rw [List.mapM_cons, hx, ih hxs]
      rfl

/-- **A value whose numbers are integers is read as itself.** -/
theorem value_integers {n : Nat} {v : Json} (hv : Canonical n v) (hint : Integers v) :
    Decodes (value n) v (some v) := by
  induction hv with
  | null => exact value_null _
  | bool b => exact value_bool _ b
  | num h =>
      cases hint with
      | int _ => exact value_int _ h
      | negativeZero => exact value_negativeZero _
  | str s => exact value_str _ s
  | @arr n xs h ih =>
      cases hint with
      | arr hxs =>
          have hall : xs.mapM (decode (value n)) = some xs :=
            mapM_eq_some fun x hx => (ih x hx (hxs x hx)).decode_eq
          have harr := value_arr (value_faithful n) xs
          rwa [hall] at harr
  | @obj n ms hsorted h ih =>
      cases hint with
      | obj hms =>
          have hall : ms.mapM (decodeMember (value n)) = some ms :=
            mapM_eq_some fun e he => by
              rw [decodeMember, (ih e he (hms e he)).decode_eq]
              rfl
          have hobj := value_obj (value_faithful n) ms
          rw [hall] at hobj
          simpa [Dict.ofList_of_sorted hsorted] using hobj

/-! ## Whole texts -/

theorem readWith_render {α : Type} {reader : Reader α} (h : Faithful (reader maxNesting))
    (v : Json) (pretty : Bool) :
    (readWith reader (v.render pretty)).toOption = decode (reader maxNesting) v := by
  have hread := h.decodes v (.of pretty) (blank_of pretty) 0 [] spaces_nil [] stops_nil
  rw [List.nil_append, List.append_nil] at hread
  unfold readWith render
  rw [String.toList_ofList]
  dsimp only
  cases hreader : reader maxNesting (print (.of pretty) 0 v) with
  | error fault =>
      rw [hreader] at hread
      cases hdecode : decode (reader maxNesting) v with
      | none => rfl
      | some x =>
          rw [hdecode] at hread
          cases hread
  | ok result =>
      rw [hreader] at hread
      cases hdecode : decode (reader maxNesting) v with
      | none =>
          rw [hdecode] at hread
          cases hread
      | some x =>
          rw [hdecode] at hread
          cases hread
          rfl

theorem toOption_read_render (v : Json) (pretty : Bool) :
    (read (v.render pretty)).toOption = decode (value maxNesting) v :=
  @readWith_render _ value (value_faithful maxNesting) v pretty

/-- **A value whose numbers are integers can be printed and read again.** -/
theorem read_render_integers {v : Json} (hv : Canonical maxNesting v) (hint : Integers v)
    (pretty : Bool) : read (v.render pretty) = .ok v :=
  eq_ok_of_toOption ((toOption_read_render v pretty).trans (value_integers hv hint).decode_eq)

/-- A value in canonical form whose numbers are integers. -/
structure Regular (n : Nat) (v : Json) : Prop where
  canonical : Canonical n v
  integers : Integers v

theorem Regular.read_render {v : Json} (h : Regular maxNesting v) (pretty : Bool) :
    read (v.render pretty) = .ok v :=
  read_render_integers h.canonical h.integers pretty

theorem Regular.str (n : Nat) (s : String) : Regular n (.str s) :=
  ⟨.str s, .str s⟩

theorem Regular.obj {n : Nat} {ms : Dict Json} (hsorted : ms.Sorted)
    (h : ∀ e ∈ ms, Regular n e.2) : Regular (n + 1) (.obj ms) :=
  ⟨.obj hsorted fun e he => (h e he).canonical, .obj fun e he => (h e he).integers⟩

theorem Regular.members {n : Nat} {ms : Dict Json} (h : Regular (n + 1) (.obj ms)) :
    ms.Sorted ∧ ∀ e ∈ ms, Regular n e.2 := by
  obtain ⟨hcanonical, hintegers⟩ := h
  cases hcanonical with
  | obj hsorted hall =>
      cases hintegers with
      | obj hints => exact ⟨hsorted, fun e he => ⟨hall e he, hints e he⟩⟩

theorem Regular.insert {n : Nat} {ms : Dict Json} {v : Json} (h : Regular (n + 1) (.obj ms))
    (hv : Regular n v) (key : String) : Regular (n + 1) (.obj (Dict.insert key v ms)) := by
  obtain ⟨hsorted, hall⟩ := h.members
  refine .obj (Dict.sorted_insert hsorted key v) fun e he => ?_
  rcases Dict.mem_insert he with rfl | he
  · exact hv
  · exact hall e he

/-- **A value without floats can be printed and read again.** -/
theorem read_render {v : Json} (hv : Canonical maxNesting v) (hint : Integral v) (pretty : Bool) :
    read (v.render pretty) = .ok v :=
  read_render_integers hv hint.integers pretty

end SolFront.Json
