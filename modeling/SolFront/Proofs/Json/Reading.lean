import SolFront.Proofs.Json.Numbers
import SolFront.Proofs.Json.Strings

/-!
# Reading what is printed

What is read of a printed value depends on the value alone, not on the layout, on blanks before it
or on what follows it. So a reader can be seen as a partial function on values, its decoding.
-/

namespace SolFront.Json

variable {α : Type}

/-! ## Blanks -/

/-- Nothing but blanks. -/
def Spaces (cs : List Char) : Prop :=
  ∀ c ∈ cs, isSpace c = true

/-- The layout has nothing but blanks. -/
structure Layout.Blank (l : Layout) : Prop where
  line : ∀ depth, Spaces (l.line depth)
  gap : Spaces l.gap

theorem blank_of (pretty : Bool) : (Layout.of pretty).Blank := by
  cases pretty with
  | false => exact ⟨fun _ _ hc => absurd hc List.not_mem_nil, fun _ hc => absurd hc List.not_mem_nil⟩
  | true =>
      refine ⟨fun depth c hc => ?_, fun c hc => ?_⟩
      · rcases List.mem_cons.mp hc with hc | hc
        · rw [hc]
          rfl
        · rw [List.eq_of_mem_replicate hc]
          rfl
      · rw [List.mem_singleton.mp hc]
        rfl

theorem spaces_nil : Spaces [] := fun _ hc => absurd hc List.not_mem_nil

theorem dropSpace_append {before : List Char} (h : Spaces before) (cs : List Char) :
    dropSpace (before ++ cs) = dropSpace cs :=
  List.dropWhile_append_of_pos h

theorem dropSpace_cons {c : Char} (h : isSpace c = false) (cs : List Char) :
    dropSpace (c :: cs) = c :: cs :=
  List.dropWhile_cons_of_neg (by rw [h]; exact Bool.false_ne_true)

theorem isSpace_cases {c : Char} (h : isSpace c = true) :
    c = ' ' ∨ c = '\n' ∨ c = '\t' ∨ c = '\r' := by
  simpa [isSpace, or_assoc] using h

/-- Blanks do not go on with a numeral. -/
theorem stops_spaces {before rest : List Char} (h : Spaces before) (hrest : Stops rest) :
    Stops (before ++ rest) := by
  cases before with
  | nil => exact hrest
  | cons c before =>
      rcases isSpace_cases (h c List.mem_cons_self) with rfl | rfl | rfl | rfl <;>
        exact stops_cons (by decide) (by decide) (by decide) (by decide) _

/-! ## The first character -/

/-- The first character of a printed value tells its type. -/
inductive Opens : Json → Char → Prop where
  | null : Opens .null 'n'
  | yes : Opens (.bool true) 't'
  | no : Opens (.bool false) 'f'
  | minus (x : Number) : Opens (.num x) '-'
  | digit (x : Number) {c : Char} (h : c.isDigit = true) : Opens (.num x) c
  | str (s : String) : Opens (.str s) '"'
  | arr (xs : List Json) : Opens (.arr xs) '['
  | obj (ms : Dict Json) : Opens (.obj ms) '\x7b'

theorem Whole.head {whole : List Char} (h : Whole whole) :
    ∃ d ds, whole = d :: ds ∧ d.isDigit = true := by
  cases h with
  | zero => exact ⟨'0', [], rfl, by decide⟩
  | digits hd _ _ => exact ⟨_, _, rfl, hd⟩

theorem Numeral.head {cs : List Char} (h : Numeral cs) :
    ∃ d ds, cs = d :: ds ∧ d.isDigit = true := by
  cases h with
  | mk hwhole _ _ =>
      obtain ⟨d, ds, rfl, hd⟩ := hwhole.head
      exact ⟨d, _, rfl, hd⟩

theorem print_opens (l : Layout) (d : Nat) (v : Json) :
    ∃ c cs, print l d v = c :: cs ∧ Opens v c := by
  cases v with
  | null => exact ⟨'n', _, rfl, .null⟩
  | bool b =>
      cases b with
      | true => exact ⟨'t', _, rfl, .yes⟩
      | false => exact ⟨'f', _, rfl, .no⟩
  | num x =>
      obtain ⟨cs, hcs, hprint⟩ := printNumber_numeral x
      rcases hprint with hprint | hprint
      · obtain ⟨c, cs, rfl, hc⟩ := hcs.head
        exact ⟨c, cs, hprint, .digit x hc⟩
      · exact ⟨'-', cs, hprint, .minus x⟩
  | str s => exact ⟨'"', _, rfl, .str s⟩
  | arr xs =>
      cases xs with
      | nil => exact ⟨'[', _, rfl, .arr []⟩
      | cons x xs => exact ⟨'[', _, rfl, .arr (x :: xs)⟩
  | obj ms =>
      cases ms with
      | nil => exact ⟨'\x7b', _, rfl, .obj []⟩
      | cons e ms => exact ⟨'\x7b', _, rfl, .obj (e :: ms)⟩

theorem Opens.not_space {v : Json} {c : Char} (h : Opens v c) : isSpace c = false := by
  cases h with
  | digit x h =>
      rw [Bool.eq_false_iff]
      intro hspace
      rcases isSpace_cases hspace with rfl | rfl | rfl | rfl <;> cases h
  | _ => rfl

/-! ## Decoding -/

/-- The item is what is read of the printed value, however it is laid out. -/
def Decodes (item : List Char → Except Fault (α × List Char)) (v : Json) (result : Option α) :
    Prop :=
  ∀ l : Layout, l.Blank → ∀ depth before, Spaces before →
    ReadsAs item (before ++ print l depth v) result

/-- What is read of a printed value depends on the value alone. -/
def Faithful (item : List Char → Except Fault (α × List Char)) : Prop :=
  ∀ v, ∃ result, Decodes item v result

/-- What is read of a value that is printed without blanks. -/
def decode (item : List Char → Except Fault (α × List Char)) (v : Json) : Option α :=
  (item (print .compact 0 v)).toOption.map (·.1)

theorem Decodes.decode_eq {item : List Char → Except Fault (α × List Char)} {v : Json}
    {result : Option α} (h : Decodes item v result) : decode item v = result := by
  have hcompact := h .compact (blank_of false) 0 [] spaces_nil [] stops_nil
  rw [List.nil_append, List.append_nil] at hcompact
  rw [decode, hcompact]
  cases result <;> rfl

theorem Faithful.decodes {item : List Char → Except Fault (α × List Char)} (h : Faithful item)
    (v : Json) : Decodes item v (decode item v) := by
  obtain ⟨result, hresult⟩ := h v
  rwa [hresult.decode_eq]

/-! ## Lists -/

/-- A list behind its opening bracket. -/
def listBody (l : Layout) (depth : Nat) : List Json → List Char
  | [] => [']']
  | x :: xs => l.line (depth + 1) ++ print l (depth + 1) x ++ printItems l (depth + 1) xs ++
      l.line depth ++ [']']

theorem print_arr (l : Layout) (depth : Nat) (xs : List Json) :
    print l depth (.arr xs) = '[' :: listBody l depth xs := by
  cases xs with
  | nil => rfl
  | cons x xs => simp [print, listBody]

/-- The text starts with a value. -/
def Starts (cs : List Char) : Prop :=
  ∃ c rest, cs = c :: rest ∧ isSpace c = false ∧ c ≠ ']'

theorem print_starts (l : Layout) (depth : Nat) (v : Json) (rest : List Char) :
    Starts (print l depth v ++ rest) := by
  obtain ⟨c, cs, hprint, hopens⟩ := print_opens l depth v
  refine ⟨c, cs ++ rest, by rw [hprint, List.cons_append], hopens.not_space, ?_⟩
  rintro rfl
  cases hopens with
  | digit _ h => exact absurd h (by decide)

theorem Starts.dropSpace_append {before cs : List Char} (h : Spaces before) (hcs : Starts cs) :
    dropSpace (before ++ cs) = cs := by
  obtain ⟨c, rest, rfl, hc, -⟩ := hcs
  rw [Json.dropSpace_append h, dropSpace_cons hc]

theorem nextItem_first {before cs : List Char} (h : Spaces before) (hcs : Starts cs) :
    nextItem true (before ++ cs) = .ok (true, cs) := by
  unfold nextItem
  rw [hcs.dropSpace_append h]
  obtain ⟨c, rest, rfl, -, hend⟩ := hcs
  exact (if_neg hend).trans (if_pos rfl)

theorem nextItem_comma {before cs : List Char} (h : Spaces before) (hcs : Starts cs) :
    nextItem false (',' :: (before ++ cs)) = .ok (true, cs) := by
  have hdrop := hcs.dropSpace_append h
  obtain ⟨c, rest, rfl, -, hend⟩ := hcs
  unfold nextItem
  rw [dropSpace_cons (by decide)]
  dsimp only
  rw [if_neg (by decide), if_neg Bool.false_ne_true, if_pos rfl, hdrop]
  exact if_neg hend

theorem nextItem_end (first : Bool) {before : List Char} (h : Spaces before) (rest : List Char) :
    nextItem first (before ++ ']' :: rest) = .ok (false, ']' :: rest) := by
  unfold nextItem
  rw [dropSpace_append h, dropSpace_cons (by decide)]
  rfl

section

variable {item : List Char → Except Fault (α × List Char)} {l : Layout} (hl : l.Blank)

theorem items_next (b : Char) (bound : List Char) {first : Bool} {cs rest : List Char}
    (h : nextItem first cs = .ok (true, rest)) :
    (items item (b :: bound) first cs).toOption
      = (item rest).toOption.bind fun x =>
          (items item bound false x.2).toOption.map fun xs => (x.1 :: xs.1, xs.2) := by
  rw [items, h]
  show ((item rest >>= fun x => _) : Except Fault _).toOption = _
  rw [toOption_bind]
  refine congrArg _ (funext fun x => ?_)
  show ((items item bound false x.2 >>= fun xs => _) : Except Fault _).toOption = _
  rw [toOption_bind, Option.map_eq_bind]
  rfl

theorem items_end (b : Char) (bound : List Char) {first : Bool} {cs rest : List Char}
    (h : nextItem first cs = .ok (false, rest)) :
    items item (b :: bound) first cs = .ok ([], rest) := by
  rw [items, h]
  rfl

/-- What follows an item does not go on with a numeral. -/
theorem stops_items (l : Layout) (depth : Nat) (xs : List Json) {before : List Char}
    (h : Spaces before) (rest : List Char) :
    Stops (printItems l depth xs ++ (before ++ ']' :: rest)) := by
  cases xs with
  | nil =>
      have hbracket : Stops (']' :: rest) :=
        stops_cons (by decide) (by decide) (by decide) (by decide) rest
      rw [printItems, List.nil_append]
      exact stops_spaces h hbracket
  | cons x xs => exact stops_cons (by decide) (by decide) (by decide) (by decide) _

include hl in
/-- One more item, when it stands behind its comma. -/
theorem items_cons (hitem : Faithful item) {depth depth' : Nat} {x : Json} {xs : List Json}
    {rest : List Char} {first : Bool} {b : Char} {bound cs : List Char}
    (hnext : nextItem first cs = .ok (true, print l depth x ++
      (printItems l depth xs ++ (l.line depth' ++ ']' :: rest))))
    (hrest : (items item bound false
        (printItems l depth xs ++ (l.line depth' ++ ']' :: rest))).toOption
      = (xs.mapM (decode item)).map (·, ']' :: rest)) :
    (items item (b :: bound) first cs).toOption
      = ((x :: xs).mapM (decode item)).map (·, ']' :: rest) := by
  have hread := hitem.decodes x l hl depth [] spaces_nil _ 
    (stops_items l depth xs (hl.line depth') rest)
  rw [List.nil_append] at hread
  rw [items_next b bound hnext, hread, List.mapM_cons]
  cases decode item x with
  | none => rfl
  | some y =>
      show (items item bound false _).toOption.map _ = _
      rw [hrest]
      cases xs.mapM (decode item) <;> rfl

include hl in
theorem items_printItems (hitem : Faithful item) (depth depth' : Nat) (rest : List Char) :
    ∀ (xs : List Json) (bound : List Char), xs.length < bound.length →
      (items item bound false
        (printItems l depth xs ++ (l.line depth' ++ ']' :: rest))).toOption
        = (xs.mapM (decode item)).map (·, ']' :: rest)
  | _, [], h => absurd h (Nat.not_lt_zero _)
  | [], b :: bound, _ => by
      rw [printItems, List.nil_append,
        items_end b bound (nextItem_end false (hl.line depth') rest)]
      rfl
  | x :: xs, b :: bound, h => by
      have hnext := nextItem_comma (hl.line depth) (print_starts l depth x
        (printItems l depth xs ++ (l.line depth' ++ ']' :: rest)))
      refine items_cons hl hitem ?_ (items_printItems hitem depth depth' rest xs bound
        (Nat.lt_of_succ_lt_succ h))
      rw [← hnext]
      simp [printItems]

theorem length_printItems (l : Layout) (depth : Nat) (xs : List Json) :
    xs.length ≤ (printItems l depth xs).length := by
  induction xs with
  | nil => exact Nat.zero_le _
  | cons x xs ih =>
      simp only [printItems, List.length_append, List.length_cons]
      omega

theorem list_of_items {cs rest : List Char} {result : Option (List α)}
    (h : (items item (' ' :: cs) true cs).toOption = result.map (·, ']' :: rest)) :
    (list item cs).toOption = result.map (·, rest) := by
  unfold list
  rw [toOption_bind, h]
  cases result <;> rfl

/-- **A printed list is read item by item.** -/
theorem list_listBody (hitem : Faithful item) (hl : l.Blank) (depth : Nat) (xs : List Json) :
    ReadsAs (list item) (listBody l depth xs) (xs.mapM (decode item)) := by
  intro rest _
  apply list_of_items
  cases xs with
  | nil =>
      have hend := nextItem_end true spaces_nil rest
      exact congrArg Except.toOption (items_end ' ' _ hend)
  | cons x xs =>
      have hcs : listBody l depth (x :: xs) ++ rest
          = l.line (depth + 1) ++ (print l (depth + 1) x ++
              (printItems l (depth + 1) xs ++ (l.line depth ++ ']' :: rest))) := by
        simp [listBody]
      have hlength := length_printItems l (depth + 1) xs
      rw [hcs]
      refine items_cons hl hitem (nextItem_first (hl.line _) (print_starts l _ x _)) ?_
      refine items_printItems hl hitem (depth + 1) depth rest xs _ ?_
      simp only [List.length_append, List.length_cons]
      omega

end

/-! ## Objects -/

/-- An object behind its opening brace. -/
def objectBody (l : Layout) (depth : Nat) : Dict Json → List Char
  | [] => ['\x7d']
  | (key, x) :: ms => l.line (depth + 1) ++ printString key ++ ':' :: l.gap ++
      print l (depth + 1) x ++ printMembers l (depth + 1) ms ++ l.line depth ++ ['\x7d']

theorem print_obj (l : Layout) (depth : Nat) (ms : Dict Json) :
    print l depth (.obj ms) = '\x7b' :: objectBody l depth ms := by
  cases ms with
  | nil => rfl
  | cons e ms => simp [print, objectBody]

/-- What stands behind the value of a member up to the end of the object, and what follows it. -/
def membersEnd (l : Layout) (depth depth' : Nat) (ms : Dict Json) (rest : List Char) : List Char :=
  printMembers l depth ms ++ (l.line depth' ++ '\x7d' :: rest)

theorem nextKey_first {before : List Char} (h : Spaces before) (key : String) (rest : List Char) :
    nextKey true (before ++ (printString key ++ rest)) = .ok (some key, rest) := by
  unfold nextKey
  rw [dropSpace_append h, printString_append, dropSpace_cons (by decide)]
  show nextKey.key (stringBody key rest) = _
  unfold nextKey.key
  rw [string_stringBody]

theorem nextKey_comma {before : List Char} (h : Spaces before) (key : String) (rest : List Char) :
    nextKey false (',' :: (before ++ (printString key ++ rest))) = .ok (some key, rest) := by
  have hdrop : dropSpace (before ++ (printString key ++ rest)) = '"' :: stringBody key rest := by
    rw [dropSpace_append h, printString_append, dropSpace_cons (by decide)]
  unfold nextKey
  rw [dropSpace_cons (by decide)]
  dsimp only
  rw [if_neg (by decide), if_neg Bool.false_ne_true, if_pos rfl, hdrop]
  dsimp only
  rw [if_pos rfl, nextKey.key, string_stringBody]

theorem nextKey_end (first : Bool) {before : List Char} (h : Spaces before) (rest : List Char) :
    nextKey first (before ++ '\x7d' :: rest) = .ok (none, '\x7d' :: rest) := by
  unfold nextKey
  rw [dropSpace_append h, dropSpace_cons (by decide)]
  rfl

theorem colon_cons (rest : List Char) : colon (':' :: rest) = .ok rest := by
  unfold colon
  rw [dropSpace_cons (by decide)]
  rfl

/-- What is read of a member: its key and what is read of its value. -/
def decodeMember (item : List Char → Except Fault (α × List Char)) (e : String × Json) :
    Option (String × α) :=
  (decode item e.2).map (e.1, ·)

section

variable {item : List Char → Except Fault (α × List Char)} {l : Layout} (hl : l.Blank)

theorem members_next (b : Char) (bound : List Char) {first : Bool} {cs rest : List Char}
    {key : String} (h : nextKey first cs = .ok (some key, ':' :: rest)) :
    (members item (b :: bound) first cs).toOption
      = (item rest).toOption.bind fun x =>
          (members item bound false x.2).toOption.map fun ms => ((key, x.1) :: ms.1, ms.2) := by
  rw [members, h]
  show Except.toOption (colon (':' :: rest) >>= fun rest => item rest >>= fun x =>
    members item bound false x.2 >>= fun ms => .ok ((key, x.1) :: ms.1, ms.2)) = _
  rw [colon_cons]
  show Except.toOption (item rest >>= fun x => _) = _
  rw [toOption_bind]
  refine congrArg _ (funext fun x => ?_)
  show ((members item bound false x.2 >>= fun ms => _) : Except Fault _).toOption = _
  rw [toOption_bind, Option.map_eq_bind]
  rfl

theorem members_end (b : Char) (bound : List Char) {first : Bool} {cs rest : List Char}
    (h : nextKey first cs = .ok (none, rest)) :
    members item (b :: bound) first cs = .ok ([], rest) := by
  rw [members, h]
  rfl

include hl in
/-- What follows the value of a member does not go on with a numeral. -/
theorem stops_membersEnd (depth depth' : Nat) (ms : Dict Json) (rest : List Char) :
    Stops (membersEnd l depth depth' ms rest) := by
  cases ms with
  | nil =>
      have hbrace : Stops ('\x7d' :: rest) :=
        stops_cons (by decide) (by decide) (by decide) (by decide) rest
      rw [membersEnd, printMembers, List.nil_append]
      exact stops_spaces (hl.line depth') hbrace
  | cons e ms => exact stops_cons (by decide) (by decide) (by decide) (by decide) _

theorem membersEnd_cons (depth depth' : Nat) (key : String) (x : Json) (ms : Dict Json)
    (rest : List Char) :
    membersEnd l depth depth' ((key, x) :: ms) rest
      = ',' :: (l.line depth ++ (printString key ++
          ':' :: (l.gap ++ (print l depth x ++ membersEnd l depth depth' ms rest)))) := by
  simp [membersEnd, printMembers]

theorem objectBody_cons (depth : Nat) (key : String) (x : Json) (ms : Dict Json)
    (rest : List Char) :
    objectBody l depth ((key, x) :: ms) ++ rest
      = l.line (depth + 1) ++ (printString key ++
          ':' :: (l.gap ++ (print l (depth + 1) x ++ membersEnd l (depth + 1) depth ms rest))) := by
  simp [membersEnd, objectBody]

theorem length_membersEnd (l : Layout) (depth depth' : Nat) (ms : Dict Json) (rest : List Char) :
    ms.length < (membersEnd l depth depth' ms rest).length := by
  induction ms with
  | nil =>
      simp only [membersEnd, List.length_append, List.length_cons, List.length_nil]
      omega
  | cons e ms ih =>
      rw [membersEnd_cons]
      simp only [List.length_append, List.length_cons]
      omega

include hl in
/-- One more member, when its key has been read. -/
theorem members_cons (hitem : Faithful item) {depth depth' : Nat} {key : String} {x : Json}
    {ms : Dict Json} {rest : List Char} {first : Bool} {b : Char} {bound cs : List Char}
    (hnext : nextKey first cs = .ok (some key, ':' :: (l.gap ++ (print l depth x ++
      membersEnd l depth depth' ms rest))))
    (hrest : (members item bound false (membersEnd l depth depth' ms rest)).toOption
      = (ms.mapM (decodeMember item)).map (·, '\x7d' :: rest)) :
    (members item (b :: bound) first cs).toOption
      = (((key, x) :: ms).mapM (decodeMember item)).map (·, '\x7d' :: rest) := by
  have hread := hitem.decodes x l hl depth l.gap hl.gap _ (stops_membersEnd hl depth depth' ms rest)
  rw [List.append_assoc] at hread
  rw [members_next b bound hnext, hread, List.mapM_cons]
  unfold decodeMember
  cases decode item x with
  | none => rfl
  | some y =>
      show (members item bound false _).toOption.map _ = _
      rw [hrest]
      unfold decodeMember
      cases ms.mapM fun e : String × Json => (decode item e.2).map (e.1, ·) <;> rfl

include hl in
theorem members_membersEnd (hitem : Faithful item) (depth depth' : Nat) (rest : List Char) :
    ∀ (ms : Dict Json) (bound : List Char), ms.length < bound.length →
      (members item bound false (membersEnd l depth depth' ms rest)).toOption
        = (ms.mapM (decodeMember item)).map (·, '\x7d' :: rest)
  | _, [], h => absurd h (Nat.not_lt_zero _)
  | [], b :: bound, _ => by
      rw [membersEnd, printMembers, List.nil_append,
        members_end b bound (nextKey_end false (hl.line depth') rest)]
      rfl
  | (key, x) :: ms, b :: bound, h => by
      refine members_cons hl hitem ?_ (members_membersEnd hitem depth depth' rest ms bound
        (Nat.lt_of_succ_lt_succ h))
      rw [membersEnd_cons]
      exact nextKey_comma (hl.line depth) key _

theorem object_of_members {cs rest : List Char} {result : Option (List (String × α))}
    (h : (members item (' ' :: cs) true cs).toOption = result.map (·, '\x7d' :: rest)) :
    (object item cs).toOption = (result.map Dict.ofList).map (·, rest) := by
  unfold object
  rw [toOption_bind, h]
  cases result <;> rfl

/-- **A printed object is read member by member.** -/
theorem object_objectBody (hitem : Faithful item) (hl : l.Blank) (depth : Nat) (ms : Dict Json) :
    ReadsAs (object item) (objectBody l depth ms)
      ((ms.mapM (decodeMember item)).map Dict.ofList) := by
  intro rest _
  apply object_of_members
  cases ms with
  | nil =>
      have hend := nextKey_end true spaces_nil rest
      exact congrArg Except.toOption (members_end ' ' _ hend)
  | cons e ms =>
      obtain ⟨key, x⟩ := e
      have hlength := length_membersEnd l (depth + 1) depth ms rest
      rw [objectBody_cons]
      refine members_cons hl hitem (nextKey_first (hl.line _) key _) ?_
      refine members_membersEnd hl hitem (depth + 1) depth rest ms _ ?_
      simp only [List.length_append, List.length_cons]
      omega

end

end SolFront.Json
