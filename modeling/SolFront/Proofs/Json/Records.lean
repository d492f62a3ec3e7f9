import SolFront.Json.Record
import SolFront.Proofs.Json.Skipping
import SolFront.Proofs.Json.Values

/-!
# Reading printed values as records

The readers for texts of a known shape read a printed value by the value alone. A list is read item
by item; a record is filled field by field, from the members of an object or from the items of a
list, and what a member fills in stays.
-/

namespace SolFront.Json

variable {α β δ : Type}

/-! ## First characters -/

section

variable {v : Json} {c : Char}

theorem Opens.ne_bracket (h : Opens v c) (hv : ∀ xs, v ≠ .arr xs) : c ≠ '[' := by
  rintro rfl
  cases h with
  | digit _ h => exact absurd h (by decide)
  | arr xs => exact hv xs rfl

theorem Opens.ne_brace (h : Opens v c) (hv : ∀ ms, v ≠ .obj ms) : c ≠ '\x7b' := by
  rintro rfl
  cases h with
  | digit _ h => exact absurd h (by decide)
  | obj ms => exact hv ms rfl

theorem Opens.ne_quote (h : Opens v c) (hv : ∀ s, v ≠ .str s) : c ≠ '"' := by
  rintro rfl
  cases h with
  | digit _ h => exact absurd h (by decide)
  | str s => exact hv s rfl

theorem Opens.ne_null (h : Opens v c) (hv : v ≠ .null) : c ≠ 'n' := by
  rintro rfl
  cases h with
  | null => exact hv rfl
  | digit _ h => exact absurd h (by decide)

theorem Opens.ne_number (h : Opens v c) (hv : ∀ x, v ≠ .num x) : c ≠ '-' ∧ c.isDigit = false := by
  cases h with
  | minus x => exact absurd rfl (hv x)
  | digit x h => exact absurd rfl (hv x)
  | _ => exact ⟨by decide, by decide⟩

end

namespace Reader

theorem startingWith_cons (start : Char → List Char → Except Fault (α × List Char))
    {before : List Char} (hbefore : Spaces before) {c : Char} (hc : isSpace c = false)
    (cs : List Char) : startingWith start (before ++ c :: cs) = start c cs := by
  unfold startingWith
  rw [dropSpace_append hbefore, dropSpace_cons hc]

/-- A value that the reader has no use for. -/
theorem startingWith_none {start : Char → List Char → Except Fault (α × List Char)} {v : Json}
    (h : ∀ c cs, Opens v c → (start c cs).toOption = none) : Decodes (startingWith start) v none := by
  intro l _ depth before hbefore rest _
  obtain ⟨c, cs, hprint, hopens⟩ := print_opens l depth v
  rw [List.append_assoc, hprint, List.cons_append,
    startingWith_cons start hbefore hopens.not_space]
  exact h c _ hopens

/-! ## Simple values -/

theorem map_decodes {f : α → β} {reader : Reader α} {n : Nat} {v : Json} {result : Option α}
    (h : Decodes (reader n) v result) : Decodes (map f reader n) v (result.map f) := by
  intro l hl depth before hbefore rest hrest
  have hread := h l hl depth before hbefore rest hrest
  unfold map
  rw [toOption_bind, hread]
  cases result <;> rfl

theorem map_faithful {reader : Reader α} {n : Nat} (h : Faithful (reader n)) (f : α → β) :
    Faithful (map f reader n) := by
  intro v
  obtain ⟨result, hresult⟩ := h v
  exact ⟨_, map_decodes hresult⟩

theorem decode_map (f : α → β) (reader : Reader α) (n : Nat) (v : Json) :
    decode (map f reader n) v = (decode (reader n) v).map f := by
  unfold decode map
  rw [toOption_bind]
  cases (reader n (print .compact 0 v)).toOption <;> rfl

theorem string_str (n : Nat) (s : String) : Decodes (string n) (.str s) (some s) := by
  intro l _ depth before hbefore rest _
  rw [List.append_assoc, print, printString_append]
  unfold string
  rw [startingWith_cons _ hbefore (by decide)]
  exact congrArg Except.toOption (string_stringBody s rest)

theorem string_none (n : Nat) {v : Json} (hv : ∀ s, v ≠ .str s) : Decodes (string n) v none := by
  refine startingWith_none fun c cs hopens => ?_
  rw [if_neg (hopens.ne_quote hv)]
  rfl

theorem string_faithful (n : Nat) : Faithful (string n) := by
  intro v
  cases v with
  | str s => exact ⟨_, string_str n s⟩
  | _ => exact ⟨none, string_none n (by simp)⟩

/-- What an integer reader makes of a number. -/
def bounded (least greatest : Int) (wanted : String) :
    Number × List Char → Except Fault (Int × List Char)
  | (.int i, rest) =>
    if least ≤ i && i ≤ greatest then .ok (i, rest) else .error (.here (.wrongRange i wanted) rest)
  | (.float x, rest) => .error (.here (.wrongType (.float x) wanted) rest)

theorem bounded_toOption (least greatest : Int) (wanted : String) (x : Number) :
    ∃ result : Option Int, ∀ rest,
      (bounded least greatest wanted (x, rest)).toOption = result.map (·, rest) := by
  cases x with
  | float x => exact ⟨none, fun _ => rfl⟩
  | int i =>
      by_cases h : (least ≤ i && i ≤ greatest) = true
      · exact ⟨some i, fun rest => congrArg Except.toOption (if_pos h)⟩
      · exact ⟨none, fun rest => congrArg Except.toOption (if_neg h)⟩

theorem bounded_reads {reader : List Char → Except Fault (Number × List Char)} {cs : List Char}
    (h : ∃ result, ReadsAs reader cs result) (least greatest : Int) (wanted : String) :
    ∃ result, ReadsAs (fun cs => reader cs >>= bounded least greatest wanted) cs result := by
  obtain ⟨result, hresult⟩ := h
  cases result with
  | none =>
      refine ⟨none, fun rest hrest => ?_⟩
      rw [toOption_bind, hresult rest hrest]
      rfl
  | some x =>
      obtain ⟨result, hbounded⟩ := bounded_toOption least greatest wanted x
      refine ⟨result, fun rest hrest => ?_⟩
      rw [toOption_bind, hresult rest hrest]
      exact hbounded rest

theorem integer_eq (least greatest : Int) (wanted : String) (n : Nat) :
    integer least greatest wanted n = startingWith fun c rest =>
      (if c = '-' then number true rest
        else if c.isDigit then number false (c :: rest)
        else .error (wrongType wanted (c :: rest))) >>= bounded least greatest wanted := by
  unfold integer
  refine congrArg startingWith (funext fun c => funext fun rest => ?_)
  by_cases hminus : c = '-'
  · rewrite [if_pos hminus, if_pos hminus]
    exact bind_congr fun (y, rest) => by cases y <;> rfl
  · rewrite [if_neg hminus, if_neg hminus]
    by_cases hdigit : c.isDigit = true
    · rewrite [if_pos hdigit, if_pos hdigit]
      exact bind_congr fun (y, rest) => by cases y <;> rfl
    · rewrite [if_neg hdigit, if_neg hdigit]
      rfl

theorem integer_faithful (least greatest : Int) (wanted : String) (n : Nat) :
    Faithful (integer least greatest wanted n) := by
  rw [integer_eq]
  intro v
  cases v with
  | num x =>
      obtain ⟨cs, hcs, hprint⟩ := printNumber_numeral x
      rcases hprint with hprint | hprint
      · obtain ⟨result, hresult⟩ :=
          bounded_reads (number_reads false hcs) least greatest wanted
        refine ⟨result, fun l _ depth before hbefore rest hrest => ?_⟩
        have hread := hresult rest hrest
        obtain ⟨c, cs, rfl, hc⟩ := hcs.head
        have hopens : Opens (.num x) c := .digit x hc
        rw [List.append_assoc, print, hprint, List.cons_append,
          startingWith_cons _ hbefore hopens.not_space, if_neg (digit_ne hc).2.2.2, if_pos hc]
        exact hread
      · obtain ⟨result, hresult⟩ :=
          bounded_reads (number_reads true hcs) least greatest wanted
        refine ⟨result, fun l _ depth before hbefore rest hrest => ?_⟩
        rw [List.append_assoc, print, hprint, List.cons_append,
          startingWith_cons _ hbefore (by decide)]
        exact hresult rest hrest
  | _ =>
      refine ⟨none, startingWith_none fun c cs hopens => ?_⟩
      obtain ⟨hminus, hdigit⟩ := hopens.ne_number (by simp)
      rw [if_neg hminus, if_neg (by rw [hdigit]; exact Bool.false_ne_true)]
      rfl

theorem word_faithful (n : Nat) : Faithful (word n) :=
  map_faithful (integer_faithful _ _ _ n) _

theorem signedWord_faithful (n : Nat) : Faithful (signedWord n) :=
  map_faithful (integer_faithful _ _ _ n) _

theorem nullable_null (reader : Reader α) (n : Nat) :
    Decodes (nullable reader n) .null (some none) := by
  intro l _ depth before hbefore rest _
  rw [List.append_assoc]
  unfold nullable
  rw [dropSpace_append hbefore]
  rfl

theorem nullable_decodes {reader : Reader α} {n : Nat} {v : Json} {result : Option α}
    (hv : v ≠ .null) (h : Decodes (reader n) v result) :
    Decodes (nullable reader n) v (result.map some) := by
  intro l hl depth before hbefore rest hrest
  have hread := h l hl depth [] spaces_nil rest hrest
  obtain ⟨c, cs, hprint, hopens⟩ := print_opens l depth v
  rw [hprint, List.nil_append, List.cons_append] at hread
  rw [List.append_assoc, hprint, List.cons_append]
  unfold nullable
  rw [dropSpace_append hbefore, dropSpace_cons hopens.not_space]
  split
  · rename_i heq
    exact absurd (List.cons.inj heq).1 (hopens.ne_null hv)
  · rw [toOption_bind, hread]
    cases result <;> rfl

theorem nullable_faithful {reader : Reader α} {n : Nat} (h : Faithful (reader n)) :
    Faithful (nullable reader n) := by
  intro v
  by_cases hv : v = .null
  · exact ⟨_, hv ▸ nullable_null reader n⟩
  · exact ⟨_, nullable_decodes hv (h.decodes v)⟩

/-! ## Lists and dictionaries -/

theorem list_arr {item : Reader α} {n : Nat} (h : Faithful (item n)) (xs : List Json) :
    Decodes (list item (n + 1)) (.arr xs) (xs.mapM (decode (item n))) := by
  intro l hl depth before hbefore rest hrest
  rw [List.append_assoc, print_arr, List.cons_append]
  unfold list
  rw [startingWith_cons _ hbefore (by decide)]
  exact list_listBody h hl depth xs rest hrest

theorem list_zero (item : Reader α) (v : Json) : Decodes (list item 0) v none := by
  refine startingWith_none fun c cs _ => ?_
  split <;> rfl

theorem list_faithful {item : Reader α} (h : ∀ n, Faithful (item n)) (n : Nat) :
    Faithful (list item n) := by
  intro v
  cases n with
  | zero => exact ⟨none, list_zero item v⟩
  | succ n =>
      cases v with
      | arr xs => exact ⟨_, list_arr (h n) xs⟩
      | _ =>
          refine ⟨none, startingWith_none fun c cs hopens => ?_⟩
          rw [if_neg (hopens.ne_bracket (by simp))]
          rfl

theorem dict_obj {item : Reader α} {n : Nat} (h : Faithful (item n)) (ms : Dict Json) :
    Decodes (dict item (n + 1)) (.obj ms) ((ms.mapM (decodeMember (item n))).map Dict.ofList) := by
  intro l hl depth before hbefore rest hrest
  rw [List.append_assoc, print_obj, List.cons_append]
  unfold dict
  rw [startingWith_cons _ hbefore (by decide)]
  exact object_objectBody h hl depth ms rest hrest

theorem dict_faithful {item : Reader α} (h : ∀ n, Faithful (item n)) (n : Nat) :
    Faithful (dict item n) := by
  intro v
  cases n with
  | zero =>
      refine ⟨none, startingWith_none fun c cs _ => ?_⟩
      split <;> rfl
  | succ n =>
      cases v with
      | obj ms => exact ⟨_, dict_obj (h n) ms⟩
      | _ =>
          refine ⟨none, startingWith_none fun c cs hopens => ?_⟩
          rw [if_neg (hopens.ne_brace (by simp))]
          rfl

/-! ## Records -/

section

variable (n : Nat)

/-- The draft that the members of an object fill in. -/
def fillMembers (fields : List (RecordField δ)) : δ → List (String × Json) → Option δ
  | draft, [] =>
    if (fields.find? fun field => field.required && !field.given draft).isSome then none
    else some draft
  | draft, (key, v) :: ms =>
    match fields.find? fun field => field.name == key with
    | some field =>
      if field.given draft then none
      else (decode (field.fill draft n) v).bind fun draft => fillMembers fields draft ms
    | none => fillMembers fields draft ms

/-- The draft that the items of a list fill in. -/
def fillItems : List (RecordField δ) → δ → List Json → Option δ
  | [], draft, [] => some draft
  | [], _, _ :: _ => none
  | field :: fields, draft, [] => if field.required then none else fillItems fields draft []
  | field :: fields, draft, x :: xs =>
    (decode (field.fill draft n) x).bind fun draft => fillItems fields draft xs

end

/-- All fields are read by the value alone. -/
def FaithfulFields (fields : List (RecordField δ)) : Prop :=
  ∀ field ∈ fields, ∀ draft n, Faithful (field.fill draft n)

section

variable {fields : List (RecordField δ)} (hfields : FaithfulFields fields) {l : Layout}
  (hl : l.Blank) (n : Nat)

theorem fillByName_end (bound : List Char) (first : Bool) (draft : δ)
    {cs rest : List Char} (b : Char) (h : nextKey first cs = .ok (none, rest)) :
    (fillByName n fields (b :: bound) first draft cs).toOption
      = (fillMembers n fields draft []).map (·, rest) := by
  rw [fillByName, h, fillMembers]
  show Except.toOption (match fields.find? fun field => field.required && !field.given draft with
    | some field => _ | none => _) = _
  cases fields.find? fun field => field.required && !field.given draft <;> rfl

include hfields hl in
/-- One more member, when its key has been read. -/
theorem fillByName_cons {depth depth' : Nat} {key : String} {x : Json} {ms : Dict Json}
    {rest : List Char} {first : Bool} {b : Char} {bound cs : List Char} (draft : δ)
    (hnext : nextKey first cs = .ok (some key, ':' :: (l.gap ++ (print l depth x ++
      membersEnd l depth depth' ms rest))))
    (hrest : ∀ draft, (fillByName n fields bound false draft
        (membersEnd l depth depth' ms rest)).toOption
      = (fillMembers n fields draft ms).map (·, '\x7d' :: rest)) :
    (fillByName n fields (b :: bound) first draft cs).toOption
      = (fillMembers n fields draft ((key, x) :: ms)).map (·, '\x7d' :: rest) := by
  have hstops := stops_membersEnd hl depth depth' ms rest
  rw [fillByName, hnext, fillMembers]
  show Except.toOption (match fields.find? fun field => field.name == key with
    | some field => _ | none => _) = _
  cases hfind : fields.find? fun field => field.name == key with
  | none =>
      show Except.toOption (colon _ >>= fun rest => skip rest >>= fun rest => _) = _
      rw [colon_cons]
      show Except.toOption (skip _ >>= fun rest => _) = _
      rw [skip_print hl depth x hl.gap hstops]
      exact hrest draft
  | some field =>
      have hread := (hfields field (List.mem_of_find?_eq_some hfind) draft n).decodes x l hl depth
        l.gap hl.gap _ hstops
      rw [List.append_assoc] at hread
      dsimp only
      by_cases hgiven : field.given draft = true
      · rw [if_pos hgiven, if_pos hgiven]
        rfl
      · rw [if_neg hgiven, if_neg hgiven]
        show Except.toOption (colon _ >>= fun rest => field.fill draft n rest >>= fun x => _) = _
        rw [colon_cons]
        show Except.toOption (field.fill draft n _ >>= fun x => _) = _
        rw [toOption_bind, hread]
        cases decode (field.fill draft n) x with
        | none => rfl
        | some draft => exact hrest draft

include hfields hl in
theorem fillByName_membersEnd (depth depth' : Nat) (rest : List Char) :
    ∀ (ms : Dict Json) (bound : List Char) (draft : δ), ms.length < bound.length →
      (fillByName n fields bound false draft (membersEnd l depth depth' ms rest)).toOption
        = (fillMembers n fields draft ms).map (·, '\x7d' :: rest)
  | _, [], _, h => absurd h (Nat.not_lt_zero _)
  | [], b :: bound, draft, _ => by
      rw [membersEnd, printMembers, List.nil_append]
      exact fillByName_end n bound false draft b (nextKey_end false (hl.line depth') rest)
  | (key, x) :: ms, b :: bound, draft, h => by
      refine fillByName_cons hfields hl n draft ?_ fun draft =>
        fillByName_membersEnd depth depth' rest ms bound draft (Nat.lt_of_succ_lt_succ h)
      rw [membersEnd_cons]
      exact nextKey_comma (hl.line depth) key _

include hfields hl in
/-- **An object fills a record member by member.** -/
theorem fillByName_objectBody (depth : Nat) (ms : Dict Json) (draft : δ) (rest : List Char) :
    (fillByName n fields (' ' :: (objectBody l depth ms ++ rest)) true draft
        (objectBody l depth ms ++ rest)).toOption
      = (fillMembers n fields draft ms).map (·, '\x7d' :: rest) := by
  cases ms with
  | nil => exact fillByName_end n _ true draft ' ' (nextKey_end true spaces_nil rest)
  | cons e ms =>
      obtain ⟨key, x⟩ := e
      have hlength := length_membersEnd l (depth + 1) depth ms rest
      rw [objectBody_cons]
      refine fillByName_cons hfields hl n draft (nextKey_first (hl.line _) key _) fun draft => ?_
      refine fillByName_membersEnd hfields hl n (depth + 1) depth rest ms _ draft ?_
      simp only [List.length_append, List.length_cons]
      omega

/-- Reads the fields of a record from the items of a list, and the end of the list. -/
def fillList (wanted : String) (fields : List (RecordField δ)) (count : Nat) (draft : δ)
    (cs : List Char) : Except Fault (δ × List Char) := do
  let (draft, rest) ← fillInOrder wanted n fields count draft cs
  .ok (draft, ← endItems rest)

theorem endItems_end {before : List Char} (h : Spaces before) (rest : List Char) :
    endItems (before ++ ']' :: rest) = .ok rest := by
  unfold endItems
  rw [dropSpace_append h, dropSpace_cons (by decide)]
  rfl

theorem endItems_other {before cs : List Char} {c : Char} (h : Spaces before)
    (hc : isSpace c = false) (hend : c ≠ ']') : (endItems (before ++ c :: cs)).toOption = none := by
  unfold endItems
  rw [dropSpace_append h, dropSpace_cons hc]
  dsimp only
  rw [if_neg hend]
  split <;> rfl

theorem fillList_nil (wanted : String) (count : Nat) (draft : δ) (cs : List Char) :
    (fillList n wanted [] count draft cs).toOption
      = (endItems cs).toOption.map fun rest => (draft, rest) := by
  show Except.toOption (endItems cs >>= fun rest => .ok (draft, rest)) = _
  rw [toOption_bind, Option.map_eq_bind]
  rfl

/-- A list that ends before its fields. -/
theorem fillList_end (wanted : String) (field : RecordField δ) (fields : List (RecordField δ))
    (count : Nat) (draft : δ) {cs rest : List Char}
    (hnext : nextItem (count == 0) cs = .ok (false, ']' :: rest))
    (hrest : (fillList n wanted fields (count + 1) draft (']' :: rest)).toOption
      = (fillItems n fields draft []).map (·, rest)) :
    (fillList n wanted (field :: fields) count draft cs).toOption
      = (fillItems n (field :: fields) draft []).map (·, rest) := by
  unfold fillList
  rw [fillInOrder, hnext, fillItems]
  show Except.toOption ((if field.required then _ else _) >>= fun x => _) = _
  by_cases hrequired : field.required = true
  · rw [if_pos hrequired, if_pos hrequired]
    rfl
  · rw [if_neg hrequired, if_neg hrequired]
    exact hrest

include hl in
/-- An item for the next field. -/
theorem fillList_cons (wanted : String) {field : RecordField δ} {fields : List (RecordField δ)}
    {count : Nat} (draft : δ) {depth : Nat} {x : Json} {xs : List Json} {cs before rest : List Char}
    (hfield : ∀ draft, Faithful (field.fill draft n)) (hbefore : Spaces before)
    (hnext : nextItem (count == 0) cs = .ok (true, print l depth x ++
      (printItems l depth xs ++ (before ++ ']' :: rest))))
    (hrest : ∀ draft, (fillList n wanted fields (count + 1) draft
        (printItems l depth xs ++ (before ++ ']' :: rest))).toOption
      = (fillItems n fields draft xs).map (·, rest)) :
    (fillList n wanted (field :: fields) count draft cs).toOption
      = (fillItems n (field :: fields) draft (x :: xs)).map (·, rest) := by
  have hread := (hfield draft).decodes x l hl depth [] spaces_nil _
    (stops_items l depth xs hbefore rest)
  rw [List.nil_append] at hread
  unfold fillList
  rw [fillInOrder, hnext, fillItems]
  show Except.toOption ((field.fill draft n _ >>= fun x => _) >>= fun x => _) = _
  rw [toOption_bind, toOption_bind, hread]
  cases decode (field.fill draft n) x with
  | none => rfl
  | some draft =>
      have hfill := hrest draft
      unfold fillList at hfill
      rwa [toOption_bind] at hfill

include hl in
theorem fillList_printItems (wanted : String) (depth : Nat) (rest : List Char) :
    ∀ (fields : List (RecordField δ)) (count : Nat) (draft : δ) (xs : List Json)
      (before : List Char), FaithfulFields fields → Spaces before →
      (fillList n wanted fields (count + 1) draft
          (printItems l depth xs ++ (before ++ ']' :: rest))).toOption
        = (fillItems n fields draft xs).map (·, rest)
  | [], count, draft, [], before, _, hbefore => by
      rw [fillList_nil, printItems, List.nil_append, endItems_end hbefore]
      rfl
  | [], count, draft, x :: xs, before, _, _ => by
      have hcomma : ∀ cs, (endItems (',' :: cs)).toOption = none := fun cs =>
        endItems_other spaces_nil (by decide) (by decide)
      rw [fillList_nil]
      exact congrArg _ (hcomma _)
  | field :: fields, count, draft, [], before, hfields, hbefore => by
      refine fillList_end n wanted field fields (count + 1) draft
        (nextItem_end false hbefore rest) ?_
      exact fillList_printItems wanted depth rest fields (count + 1) draft [] []
        (fun f hf => hfields f (List.mem_cons_of_mem field hf)) spaces_nil
  | field :: fields, count, draft, x :: xs, before, hfields, hbefore => by
      have hnext := nextItem_comma (hl.line depth) (print_starts l depth x
        (printItems l depth xs ++ (before ++ ']' :: rest)))
      refine fillList_cons hl n wanted draft
        (fun draft => hfields field List.mem_cons_self draft n) hbefore ?_ fun draft =>
        fillList_printItems wanted depth rest fields (count + 1) draft xs before
          (fun f hf => hfields f (List.mem_cons_of_mem field hf)) hbefore
      rw [← hnext]
      simp [printItems]

include hl hfields in
/-- **A list fills a record item by item.** -/
theorem fillList_listBody (wanted : String) (depth : Nat) (xs : List Json) (draft : δ)
    (rest : List Char) :
    (fillList n wanted fields 0 draft (listBody l depth xs ++ rest)).toOption
      = (fillItems n fields draft xs).map (·, rest) := by
  cases fields with
  | nil =>
      rw [fillList_nil]
      cases xs with
      | nil =>
          have hend := endItems_end spaces_nil rest
          exact congrArg (fun result => result.toOption.map fun rest => (draft, rest)) hend
      | cons x xs =>
          obtain ⟨c, cs, hprint, hspace, hend⟩ := print_starts l (depth + 1) x
            (printItems l (depth + 1) xs ++ (l.line depth ++ ']' :: rest))
          have hbody : listBody l depth (x :: xs) ++ rest = l.line (depth + 1) ++ c :: cs := by
            rw [← hprint]
            simp [listBody]
          rw [hbody, endItems_other (hl.line _) hspace hend]
          rfl
  | cons field fields =>
      have hrest : FaithfulFields fields :=
        fun f hf => hfields f (List.mem_cons_of_mem field hf)
      cases xs with
      | nil =>
          refine fillList_end n wanted field fields 0 draft (nextItem_end true spaces_nil rest) ?_
          exact fillList_printItems hl n wanted depth rest fields 0 draft [] [] hrest spaces_nil
      | cons x xs =>
          have hbody : listBody l depth (x :: xs) ++ rest
              = l.line (depth + 1) ++ (print l (depth + 1) x ++
                  (printItems l (depth + 1) xs ++ (l.line depth ++ ']' :: rest))) := by
            simp [listBody]
          rw [hbody]
          refine fillList_cons hl n wanted draft
            (fun draft => hfields field List.mem_cons_self draft n) (hl.line depth)
            (nextItem_first (hl.line _) (print_starts l _ x _)) fun draft => ?_
          exact fillList_printItems hl n wanted (depth + 1) rest fields 0 draft xs _ hrest
            (hl.line depth)

end

theorem record_obj {title : String} {fields : List (RecordField δ)}
    (hfields : FaithfulFields fields) (empty : δ) (n : Nat) (ms : Dict Json) :
    Decodes (record title fields empty (n + 1)) (.obj ms) (fillMembers n fields empty ms) := by
  intro l hl depth before hbefore rest _
  have hread := fillByName_objectBody hfields hl n depth ms empty rest
  rw [List.append_assoc, print_obj, List.cons_append]
  unfold record
  rw [startingWith_cons _ hbefore (by decide)]
  show Except.toOption (fillByName n fields _ true empty _ >>= fun x => _) = _
  rw [toOption_bind, hread]
  cases fillMembers n fields empty ms <;> rfl

theorem record_arr {title : String} {fields : List (RecordField δ)}
    (hfields : FaithfulFields fields) (empty : δ) (n : Nat) (xs : List Json) :
    Decodes (record title fields empty (n + 1)) (.arr xs) (fillItems n fields empty xs) := by
  intro l hl depth before hbefore rest _
  have hread := fillList_listBody hfields hl n (fieldCount title fields) depth xs empty rest
  rw [List.append_assoc, print_arr, List.cons_append]
  unfold record
  rw [startingWith_cons _ hbefore (by decide)]
  exact hread

theorem record_zero (title : String) (fields : List (RecordField δ)) (empty : δ) (v : Json) :
    Decodes (record title fields empty 0) v none := by
  refine startingWith_none fun c cs _ => ?_
  split
  · rfl
  · split <;> rfl

theorem record_faithful {title : String} {fields : List (RecordField δ)}
    (hfields : FaithfulFields fields) (empty : δ) (n : Nat) :
    Faithful (record title fields empty n) := by
  intro v
  cases n with
  | zero => exact ⟨none, record_zero title fields empty v⟩
  | succ n =>
      cases v with
      | arr xs => exact ⟨_, record_arr hfields empty n xs⟩
      | obj ms => exact ⟨_, record_obj hfields empty n ms⟩
      | _ =>
          refine ⟨none, startingWith_none fun c cs hopens => ?_⟩
          rw [if_neg (hopens.ne_bracket (by simp)), if_neg (hopens.ne_brace (by simp))]
          rfl

theorem decode_record_obj {title : String} {fields : List (RecordField δ)}
    (hfields : FaithfulFields fields) {empty draft : δ} {n : Nat} {ms : Dict Json}
    (h : decode (record title fields empty n) (.obj ms) = some draft) :
    ∃ k, n = k + 1 ∧ fillMembers k fields empty ms = some draft := by
  cases n with
  | zero =>
      rw [(record_zero title fields empty _).decode_eq] at h
      cases h
  | succ k =>
      rw [(record_obj hfields empty k ms).decode_eq] at h
      exact ⟨k, rfl, h⟩

theorem decode_list_arr {item : Reader α} (hitem : ∀ n, Faithful (item n)) {n : Nat}
    {xs : List Json} {ys : List α} (h : decode (list item n) (.arr xs) = some ys) :
    ∃ k, n = k + 1 ∧ xs.mapM (decode (item k)) = some ys := by
  cases n with
  | zero =>
      rw [(list_zero item _).decode_eq] at h
      cases h
  | succ k =>
      rw [(list_arr (hitem k) xs).decode_eq] at h
      exact ⟨k, rfl, h⟩

theorem decode_string {n : Nat} {v : Json} {s : String} (h : decode (string n) v = some s) :
    v = .str s := by
  cases v with
  | str t =>
      rw [(string_str n t).decode_eq] at h
      exact congrArg Json.str (Option.some.inj h)
  | _ =>
      rw [(string_none n (by simp)).decode_eq] at h
      cases h

/-! ## Fields -/

theorem RecordField.of_faithful {reader : Reader α} (h : ∀ n, Faithful (reader n)) (name : String)
    (required : Bool) (get : δ → Option α) (set : δ → α → δ) (draft : δ) (n : Nat) :
    Faithful ((RecordField.of name required reader get set).fill draft n) :=
  map_faithful (h n) (set draft)

theorem RecordField.fill_eq {name : String} {required : Bool} {reader : Reader α}
    {get : δ → Option α} {set : δ → α → δ} {draft draft' : δ} {n : Nat} {v : Json}
    (h : decode ((RecordField.of name required reader get set).fill draft n) v = some draft') :
    ∃ x, set draft x = draft' := by
  change decode (map (set draft) reader n) v = some draft' at h
  rw [decode_map] at h
  obtain ⟨x, -, hx⟩ := Option.map_eq_some_iff.mp h
  exact ⟨x, hx⟩

theorem faithfulFields_nil : FaithfulFields ([] : List (RecordField δ)) :=
  fun _ hfield => absurd hfield List.not_mem_nil

theorem faithfulFields_cons {name : String} {required : Bool} {reader : Reader α}
    {get : δ → Option α} {set : δ → α → δ} {fields : List (RecordField δ)}
    (h : ∀ n, Faithful (reader n)) (hfields : FaithfulFields fields) :
    FaithfulFields (.of name required reader get set :: fields) := by
  intro field hfield draft n
  rcases List.mem_cons.mp hfield with rfl | hfield
  · exact RecordField.of_faithful h name required get set draft n
  · exact hfields field hfield draft n

/-- No field but the named one changes what `get` gets. -/
def Keeps (n : Nat) (name : String) (get : δ → β) (fields : List (RecordField δ)) : Prop :=
  ∀ field ∈ fields, field.name ≠ name → ∀ draft v draft',
    decode (field.fill draft n) v = some draft' → get draft' = get draft

theorem keeps_nil (n : Nat) (name : String) (get : δ → β) :
    Keeps n name get ([] : List (RecordField δ)) :=
  fun _ hfield => absurd hfield List.not_mem_nil

theorem keeps_self {n : Nat} {name : String} {get : δ → β} {required : Bool} {reader : Reader α}
    {own : δ → Option α} {set : δ → α → δ} {fields : List (RecordField δ)}
    (hfields : Keeps n name get fields) :
    Keeps n name get (.of name required reader own set :: fields) := by
  intro field hfield hname
  rcases List.mem_cons.mp hfield with rfl | hfield
  · exact absurd rfl hname
  · exact hfields field hfield hname

theorem keeps_other {n : Nat} {name name' : String} {get : δ → β} {required : Bool}
    {reader : Reader α} {own : δ → Option α} {set : δ → α → δ} {fields : List (RecordField δ)}
    (hset : ∀ draft x, get (set draft x) = get draft) (hfields : Keeps n name get fields) :
    Keeps n name get (.of name' required reader own set :: fields) := by
  intro field hfield hname draft v draft' h
  rcases List.mem_cons.mp hfield with rfl | hfield
  · obtain ⟨x, rfl⟩ := RecordField.fill_eq h
    exact hset draft x
  · exact hfields field hfield hname draft v draft' h

section

variable {n : Nat} {fields : List (RecordField δ)} {name : String} {required : Bool}
  {reader : Reader α} {get : δ → Option α} {set : δ → α → δ}
  (hfind : fields.find? (fun field => field.name == name)
    = some (.of name required reader get set))
  (hset : ∀ draft x, get (set draft x) = some x)
  (hothers : Keeps n name get fields)

theorem fillMembers_nil {fields : List (RecordField δ)} {draft draft' : δ}
    (h : fillMembers n fields draft [] = some draft') : draft = draft' := by
  rw [fillMembers] at h
  split at h
  · cases h
  · exact Option.some.inj h

/-- A member is passed over, or it fills in its field, which is not given before. -/
theorem fillMembers_cons {fields : List (RecordField δ)} {draft draft' : δ} {key : String}
    {v : Json} {ms : List (String × Json)}
    (h : fillMembers n fields draft ((key, v) :: ms) = some draft') :
    ((fields.find? fun field => field.name == key) = none
        ∧ fillMembers n fields draft ms = some draft')
      ∨ ∃ field draft₁, (fields.find? fun field => field.name == key) = some field
        ∧ field.given draft = false ∧ decode (field.fill draft n) v = some draft₁
        ∧ fillMembers n fields draft₁ ms = some draft' := by
  rw [fillMembers] at h
  cases hfind : fields.find? fun field => field.name == key with
  | none =>
      rw [hfind] at h
      exact Or.inl ⟨rfl, h⟩
  | some field =>
      rw [hfind] at h
      dsimp only at h
      by_cases hgiven : field.given draft = true
      · rw [if_pos hgiven] at h
        cases h
      · rw [if_neg hgiven] at h
        obtain ⟨draft₁, hdecode, h⟩ := Option.bind_eq_some_iff.mp h
        exact Or.inr ⟨field, draft₁, rfl, Bool.eq_false_iff.mpr hgiven, hdecode, h⟩

include hothers in
/-- A member with another key leaves the field as it is. -/
theorem get_fillMembers_cons_of_ne {key : String} {v : Json} {ms : List (String × Json)}
    {draft draft' : δ} (hne : key ≠ name)
    (h : fillMembers n fields draft ((key, v) :: ms) = some draft') :
    ∃ draft₁, get draft₁ = get draft ∧ fillMembers n fields draft₁ ms = some draft' := by
  rcases fillMembers_cons h with ⟨-, h⟩ | ⟨field, draft₁, hfound, -, hdecode, h⟩
  · exact ⟨draft, rfl, h⟩
  · have hname : field.name = key := by simpa using List.find?_some hfound
    exact ⟨draft₁, hothers field (List.mem_of_find?_eq_some hfound) (hname ▸ hne) draft v draft₁
      hdecode, h⟩

include hothers in
/-- A field without a member stays as it is. -/
theorem get_fillMembers_of_absent (ms : List (String × Json)) (draft draft' : δ)
    (hv : Dict.get? ms name = none) (h : fillMembers n fields draft ms = some draft') :
    get draft' = get draft := by
  induction ms generalizing draft with
  | nil => exact congrArg get (fillMembers_nil h).symm
  | cons e ms ih =>
      obtain ⟨key, v⟩ := e
      rw [Dict.get?_cons] at hv
      by_cases hkey : name = key
      · rw [if_pos hkey] at hv
        cases hv
      · rw [if_neg hkey] at hv
        obtain ⟨draft₁, hdraft, h⟩ := get_fillMembers_cons_of_ne hothers (Ne.symm hkey) h
        exact (ih draft₁ hv h).trans hdraft

include hfind hothers

/-- What is filled in stays. -/
theorem get_fillMembers_of_some {x : α} (ms : List (String × Json)) (draft draft' : δ)
    (hget : get draft = some x) (h : fillMembers n fields draft ms = some draft') :
    get draft' = some x := by
  induction ms generalizing draft with
  | nil => exact fillMembers_nil h ▸ hget
  | cons e ms ih =>
      obtain ⟨key, v⟩ := e
      by_cases hkey : key = name
      · -- the field is given already, so the member is a fault
        rcases fillMembers_cons h with ⟨hnone, -⟩ | ⟨field, draft₁, hfound, hgiven, -⟩
        · rw [hkey, hfind] at hnone
          cases hnone
        · rw [hkey, hfind] at hfound
          cases hfound
          have hsome : (get draft).isSome = true := by rw [hget, Option.isSome_some]
          rw [show (get draft).isSome = false from hgiven] at hsome
          cases hsome
      · obtain ⟨draft₁, hdraft, h⟩ := get_fillMembers_cons_of_ne hothers hkey h
        exact ih draft₁ (hdraft.trans hget) h

include hset

/-- **What a record reads of a field** is what the field's reader reads of the member's value. -/
theorem get_fillMembers {v : Json} (ms : List (String × Json)) (draft draft' : δ)
    (hv : Dict.get? ms name = some v) (h : fillMembers n fields draft ms = some draft') :
    ∃ x, decode (reader n) v = some x ∧ get draft' = some x := by
  induction ms generalizing draft with
  | nil => cases hv
  | cons e ms ih =>
      obtain ⟨key, w⟩ := e
      rw [Dict.get?_cons] at hv
      by_cases hkey : name = key
      · rw [if_pos hkey] at hv
        cases hv
        rcases fillMembers_cons h with ⟨hnone, -⟩ | ⟨field, draft₁, hfound, -, hdecode, h⟩
        · rw [← hkey, hfind] at hnone
          cases hnone
        · rw [← hkey, hfind] at hfound
          cases hfound
          change decode (map (set draft) reader n) w = some draft₁ at hdecode
          rw [decode_map] at hdecode
          obtain ⟨x, hx, rfl⟩ := Option.map_eq_some_iff.mp hdecode
          exact ⟨x, hx, get_fillMembers_of_some hfind hothers ms _ draft' (hset draft x) h⟩
      · rw [if_neg hkey] at hv
        obtain ⟨draft₁, -, h⟩ := get_fillMembers_cons_of_ne hothers (Ne.symm hkey) h
        exact ih draft₁ hv h

end

end Reader

end SolFront.Json
