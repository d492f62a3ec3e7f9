import SolFront.Proofs.Json.Reading

/-!
# Passing over what is printed

A record passes over the values it does not know. A printed value is passed over up to its end, and
no brackets stay open behind it. The rounds that this takes are as many as the values that start
inside it, so no more than its characters.
-/

namespace SolFront.Json

/-- What opens the bracket. -/
def Bracket.opener : Bracket → Char
  | .list => '['
  | .object => '\x7b'

/-- Goes on with the brackets still open and the rest of the text. -/
def proceed (bound : List Char) (state : List Bracket × List Char) : Except Fault (List Char) :=
  if state.1.isEmpty then .ok state.2 else skipFrom bound state.1 state.2

/-- Goes on behind a value. -/
def resume (bound : List Char) (opened : List Bracket) (cs : List Char) :
    Except Fault (List Char) :=
  skipClosers opened cs >>= proceed bound

theorem skipFrom_cons (b : Char) (bound : List Char) (opened : List Bracket) (cs : List Char) :
    skipFrom (b :: bound) opened cs = skipStart opened cs >>= proceed bound := rfl

/-- The text is a value that is passed over in a number of rounds. -/
def Skips (cs : List Char) : Prop :=
  ∃ rounds ≤ cs.length, ∀ bs bound opened before rest, bs.length = rounds → Spaces before →
    Stops rest → skipFrom (bs ++ bound) opened (before ++ (cs ++ rest)) = resume bound opened rest

/-- The text stands between a value inside a bracket and the end of the bracket, and it is passed
over in a number of rounds. -/
structure SkipsTail (b : Bracket) (cs : List Char) : Prop where
  stops : ∀ before rest, Spaces before → Stops (cs ++ (before ++ b.closer :: rest))
  skips : ∃ rounds ≤ cs.length, ∀ bs bound opened before rest, bs.length = rounds →
    Spaces before → resume (bs ++ bound) (b :: opened) (cs ++ (before ++ b.closer :: rest))
      = resume bound opened rest

/-! ## Inside a bracket -/

theorem isSpace_closer (b : Bracket) : isSpace b.closer = false := by
  cases b <;> rfl

theorem stops_closer (b : Bracket) (rest : List Char) : Stops (b.closer :: rest) := by
  cases b <;> exact stops_cons (by decide) (by decide) (by decide) (by decide) rest

theorem skipClosers_closer (b : Bracket) (opened : List Bracket) {before : List Char}
    (h : Spaces before) (rest : List Char) :
    skipClosers (b :: opened) (before ++ b.closer :: rest) = skipClosers opened rest := by
  rw [skipClosers, dropSpace_append h, dropSpace_cons (isSpace_closer b)]
  exact if_pos rfl

theorem skipClosers_comma (b : Bracket) (opened : List Bracket) (cs : List Char) :
    skipClosers (b :: opened) (',' :: cs)
      = b.skipToValue cs >>= fun rest => .ok (b :: opened, rest) := by
  rw [skipClosers, dropSpace_cons (by decide)]
  cases b <;> rfl

theorem skipsTail_nil (b : Bracket) : SkipsTail b [] where
  stops before rest h := by
    rw [List.nil_append]
    exact stops_spaces h (stops_closer b rest)
  skips := by
    refine ⟨0, Nat.le_refl 0, fun bs bound opened before rest hbs hbefore => ?_⟩
    rw [List.eq_nil_of_length_eq_zero hbs, List.nil_append, List.nil_append, resume,
      skipClosers_closer b opened hbefore]
    rfl

/-- Another value behind a comma and what precedes values inside the bracket. -/
theorem skipsTail_cons {b : Bracket} {front gap cs tail : List Char} (hgap : Spaces gap)
    (hfront : ∀ rest, b.skipToValue (front ++ (cs ++ rest)) = .ok (gap ++ (cs ++ rest)))
    (hcs : Skips cs) (htail : SkipsTail b tail) :
    SkipsTail b (',' :: (front ++ (cs ++ tail))) where
  stops before rest _ := stops_cons (by decide) (by decide) (by decide) (by decide) _
  skips := by
    obtain ⟨first, hfirst, hskips⟩ := hcs
    obtain ⟨others, hothers, hrest⟩ := htail.skips
    refine ⟨first + others, ?_, fun bs bound opened before rest hbs hbefore => ?_⟩
    · simp only [List.length_cons, List.length_append]
      omega
    · have htext : ',' :: (front ++ (cs ++ tail)) ++ (before ++ b.closer :: rest)
          = ',' :: (front ++ (cs ++ (tail ++ (before ++ b.closer :: rest)))) := by simp
      have hsplit : bs ++ bound = bs.take first ++ (bs.drop first ++ bound) := by
        rw [← List.append_assoc, List.take_append_drop]
      have htake : (bs.take first).length = first := by
        rw [List.length_take]
        omega
      have hdrop : (bs.drop first).length = others := by
        rw [List.length_drop]
        omega
      rw [htext, resume, skipClosers_comma, hfront]
      show skipFrom (bs ++ bound) (b :: opened) _ = _
      rw [hsplit, hskips _ _ _ _ _ htake hgap (htail.stops before rest hbefore)]
      exact hrest _ bound opened before rest hdrop hbefore

/-! ## Brackets -/

theorem skipStart_opener (b : Bracket) (opened : List Bracket) {before : List Char}
    (h : Spaces before) (cs : List Char) :
    skipStart opened (before ++ b.opener :: cs) = skipOpener b opened cs := by
  unfold skipStart
  cases b with
  | list =>
      rw [dropSpace_append h, dropSpace_cons (by decide)]
      rfl
  | object =>
      rw [dropSpace_append h, dropSpace_cons (by decide)]
      rfl

theorem skips_empty (b : Bracket) : Skips [b.opener, b.closer] := by
  refine ⟨1, by simp, fun bs bound opened before rest hbs hbefore _ => ?_⟩
  obtain ⟨c, rfl⟩ := List.length_eq_one_iff.mp hbs
  have hopener : skipOpener b opened (b.closer :: rest) = skipClosers opened rest := by
    rw [skipOpener, dropSpace_cons (isSpace_closer b)]
    exact if_pos rfl
  show skipFrom (c :: bound) opened (before ++ b.opener :: b.closer :: rest) = _
  rw [skipFrom_cons, skipStart_opener b opened hbefore, hopener]
  rfl

/-- A bracket with at least one value. -/
theorem skips_bracket {b : Bracket} {front gap cs tail last : List Char} (hgap : Spaces gap)
    (hlast : Spaces last)
    (hfront : ∀ opened rest, skipOpener b opened (front ++ (cs ++ rest))
      = .ok (b :: opened, gap ++ (cs ++ rest)))
    (hcs : Skips cs) (htail : SkipsTail b tail) :
    Skips (b.opener :: (front ++ (cs ++ (tail ++ (last ++ [b.closer]))))) := by
  obtain ⟨first, hfirst, hskips⟩ := hcs
  obtain ⟨others, hothers, hrest⟩ := htail.skips
  refine ⟨first + others + 1, ?_, fun bs bound opened before rest hbs hbefore _ => ?_⟩
  · simp only [List.length_cons, List.length_append]
    omega
  · obtain ⟨c, bs, rfl⟩ := List.exists_cons_of_length_eq_add_one hbs
    rw [List.length_cons] at hbs
    have htext : before ++ (b.opener :: (front ++ (cs ++ (tail ++ (last ++ [b.closer])))) ++ rest)
        = before ++ b.opener ::
            (front ++ (cs ++ (tail ++ (last ++ b.closer :: rest)))) := by simp
    have hsplit : bs ++ bound = bs.take first ++ (bs.drop first ++ bound) := by
      rw [← List.append_assoc, List.take_append_drop]
    have htake : (bs.take first).length = first := by
      rw [List.length_take]
      omega
    have hdrop : (bs.drop first).length = others := by
      rw [List.length_drop]
      omega
    rw [htext, List.cons_append, skipFrom_cons, skipStart_opener b opened hbefore, hfront]
    show skipFrom (bs ++ bound) (b :: opened) _ = _
    rw [hsplit, hskips _ _ _ _ _ htake hgap (htail.stops last rest hlast)]
    exact hrest _ bound opened last rest hdrop hlast

/-! ## Values that open no bracket -/

/-- A value that is passed over at once. -/
theorem skips_scalar {c : Char} {cs : List Char}
    (h : ∀ opened rest, Stops rest →
      skipStart opened (c :: (cs ++ rest)) = skipClosers opened rest) :
    Skips (c :: cs) := by
  refine ⟨1, by simp, fun bs bound opened before rest hbs hbefore hrest => ?_⟩
  obtain ⟨b, rfl⟩ := List.length_eq_one_iff.mp hbs
  have hbefore' : skipStart opened (before ++ (c :: cs ++ rest))
      = skipStart opened (c :: (cs ++ rest)) := by
    unfold skipStart
    rw [dropSpace_append hbefore, List.cons_append]
  show skipFrom (b :: bound) opened (before ++ (c :: cs ++ rest)) = _
  rw [skipFrom_cons, hbefore', h opened rest hrest]
  rfl

theorem skipStart_digit (opened : List Bracket) {c : Char} (h : c.isDigit = true)
    (cs : List Char) :
    skipStart opened (c :: cs) = skipNumber (c :: cs) >>= skipClosers opened := by
  have hspace : isSpace c = false := (Opens.digit (.int 0) h).not_space
  have hne : c ≠ '[' ∧ c ≠ '\x7b' ∧ c ≠ 'n' ∧ c ≠ 't' ∧ c ≠ 'f' ∧ c ≠ '-' := by
    refine ⟨?_, ?_, ?_, ?_, ?_, ?_⟩ <;> (rintro rfl; exact absurd h (by decide))
  obtain ⟨hlist, hobject, hn, ht, hf, hminus⟩ := hne
  unfold skipStart
  rw [dropSpace_cons hspace]
  dsimp only
  rw [if_neg hlist, if_neg hobject, if_neg hn, if_neg ht, if_neg hf, if_neg hminus, if_pos h]

theorem skips_num (l : Layout) (depth : Nat) (x : Number) : Skips (print l depth (.num x)) := by
  obtain ⟨cs, hcs, hprint⟩ := printNumber_numeral x
  rw [print]
  rcases hprint with hprint | hprint
  · have hskip : ∀ rest, Stops rest → skipNumber (cs ++ rest) = .ok rest :=
      fun rest hrest => skipNumber_append hcs hrest
    obtain ⟨c, cs, rfl, hc⟩ := hcs.head
    rw [hprint]
    refine skips_scalar fun opened rest hrest => ?_
    rw [skipStart_digit opened hc, ← List.cons_append, hskip rest hrest]
    rfl
  · rw [hprint]
    refine skips_scalar fun opened rest hrest => ?_
    show skipNumber (cs ++ rest) >>= skipClosers opened = _
    rw [skipNumber_append hcs hrest]
    rfl

theorem skips_str (l : Layout) (depth : Nat) (s : String) : Skips (print l depth (.str s)) := by
  have hprint : print l depth (.str s) = '"' :: stringBody s [] := by
    rw [print, ← printString_append, List.append_nil]
  rw [hprint]
  refine skips_scalar fun opened rest _ => ?_
  have hbody : stringBody s [] ++ rest = stringBody s rest := by simp [stringBody]
  show skipString (stringBody s [] ++ rest) >>= skipClosers opened = _
  rw [hbody, skipString_stringBody]
  rfl

/-! ## Any value -/

theorem skipOpener_list (opened : List Bracket) {before cs : List Char} (h : Spaces before)
    (hcs : Starts cs) : skipOpener .list opened (before ++ cs) = .ok (.list :: opened, cs) := by
  unfold skipOpener
  rw [hcs.dropSpace_append h]
  obtain ⟨c, rest, rfl, -, hend⟩ := hcs
  exact if_neg hend

theorem skipKey_member {before : List Char} (h : Spaces before) (key : String)
    (rest : List Char) :
    skipKey (before ++ (printString key ++ ':' :: rest)) = .ok rest := by
  unfold skipKey
  rw [dropSpace_append h, printString_append, dropSpace_cons (by decide)]
  show skipString (stringBody key (':' :: rest)) >>= colon = _
  rw [skipString_stringBody]
  exact colon_cons rest

theorem skipOpener_object (opened : List Bracket) {before : List Char} (h : Spaces before)
    (key : String) (rest : List Char) :
    skipOpener .object opened (before ++ (printString key ++ ':' :: rest))
      = .ok (.object :: opened, rest) := by
  have hkey := skipKey_member spaces_nil key rest
  rw [List.nil_append, printString_append] at hkey
  unfold skipOpener
  rw [dropSpace_append h, printString_append, dropSpace_cons (by decide)]
  show (skipKey ('"' :: stringBody key (':' :: rest)) >>= fun rest => _) = _
  rw [hkey]
  rfl

section

variable {l : Layout} (hl : l.Blank)

include hl

mutual

theorem skips_print (depth : Nat) : ∀ v : Json, Skips (print l depth v)
  | .null => skips_scalar fun _ _ _ => rfl
  | .bool true => skips_scalar fun _ _ _ => rfl
  | .bool false => skips_scalar fun _ _ _ => rfl
  | .num x => skips_num l depth x
  | .str s => skips_str l depth s
  | .arr [] => skips_empty .list
  | .arr (x :: xs) => by
      have hfront : ∀ opened rest,
          skipOpener .list opened (l.line (depth + 1) ++ (print l (depth + 1) x ++ rest))
            = .ok (.list :: opened, [] ++ (print l (depth + 1) x ++ rest)) :=
        fun opened rest => skipOpener_list opened (hl.line (depth + 1)) (print_starts l _ x rest)
      have hbracket := skips_bracket spaces_nil (hl.line depth) hfront
        (skips_print (depth + 1) x) (skipsTail_printItems (depth + 1) xs)
      simpa [print, Bracket.opener, Bracket.closer] using hbracket
  | .obj [] => skips_empty .object
  | .obj ((key, x) :: ms) => by
      have hfront : ∀ opened rest,
          skipOpener .object opened (l.line (depth + 1) ++ (printString key ++ ':' :: l.gap) ++
            (print l (depth + 1) x ++ rest))
            = .ok (.object :: opened, l.gap ++ (print l (depth + 1) x ++ rest)) := by
        intro opened rest
        have hopener := skipOpener_object opened (hl.line (depth + 1)) key
          (l.gap ++ (print l (depth + 1) x ++ rest))
        simpa using hopener
      have hbracket := skips_bracket hl.gap (hl.line depth) hfront
        (skips_print (depth + 1) x) (skipsTail_printMembers (depth + 1) ms)
      simpa [print, Bracket.opener, Bracket.closer] using hbracket

theorem skipsTail_printItems (depth : Nat) :
    ∀ xs : List Json, SkipsTail .list (printItems l depth xs)
  | [] => skipsTail_nil .list
  | x :: xs => by
      have hcons := skipsTail_cons (b := .list) (hl.line depth) (fun _ => rfl)
        (skips_print depth x) (skipsTail_printItems depth xs)
      simpa [printItems] using hcons

theorem skipsTail_printMembers (depth : Nat) :
    ∀ ms : List (String × Json), SkipsTail .object (printMembers l depth ms)
  | [] => skipsTail_nil .object
  | (key, x) :: ms => by
      have hfront : ∀ rest, Bracket.object.skipToValue
          (l.line depth ++ (printString key ++ ':' :: l.gap) ++ (print l depth x ++ rest))
            = .ok (l.gap ++ (print l depth x ++ rest)) := by
        intro rest
        have hkey := skipKey_member (hl.line depth) key (l.gap ++ (print l depth x ++ rest))
        simpa [Bracket.skipToValue] using hkey
      have hcons := skipsTail_cons hl.gap hfront (skips_print depth x)
        (skipsTail_printMembers depth ms)
      simpa [printMembers] using hcons

end

/-- **A printed value is passed over up to its end.** -/
theorem skip_print (depth : Nat) (v : Json) {before rest : List Char} (hbefore : Spaces before)
    (hrest : Stops rest) : skip (before ++ (print l depth v ++ rest)) = .ok rest := by
  obtain ⟨rounds, hrounds, hskips⟩ := skips_print hl depth v
  -- the bound is the text itself and one character more
  generalize hbound : ' ' :: (before ++ (print l depth v ++ rest)) = bound
  have hlength : rounds ≤ bound.length := by
    rw [← hbound]
    simp only [List.length_cons, List.length_append]
    omega
  have htake : (bound.take rounds).length = rounds := by
    rw [List.length_take]
    omega
  rw [skip, hbound, ← List.take_append_drop rounds bound,
    hskips _ _ [] before rest htake hbefore hrest]
  rfl

end

end SolFront.Json
