import SolFront.Proofs.Import.Layout

/-!
# Literals and comments of a source

A source is read without regard to its directives: what stands in literals and comments is set apart
from the places where code stands. The comments can be blanked out then. That makes no new literals
and comments of what is left, and no new words.
-/

namespace SolFront.Import

/-! ## Blanking comments out -/

/-- What is no code. -/
inductive Lexeme where
  | literal
  | comment
  deriving DecidableEq, Repr

/-- The literal or comment that the text starts with and what follows it. -/
def lexeme? : List Char → Option (Lexeme × List Char)
  | '"' :: cs => (pastLiteral? '"' cs).map (.literal, ·)
  | '\'' :: cs => (pastLiteral? '\'' cs).map (.literal, ·)
  | '/' :: '/' :: cs => some (.comment, pastLine cs)
  | '/' :: '*' :: cs => (pastBlock? cs).map (.comment, ·)
  | _ => none

/-- The lexeme as an item of a source. -/
def Lexeme.item : Lexeme → Item
  | literal => .literal
  | comment => .comment

/-- The scanner finds a literal or a comment wherever there is one. -/
theorem at?_of_lexeme? {cs rest : List Char} {lexeme : Lexeme}
    (h : lexeme? cs = some (lexeme, rest)) (before : Option Char) :
    Item.at? before cs = some (lexeme.item, rest) := by
  unfold lexeme? at h
  split at h
  · obtain ⟨_, hpast, heq⟩ := Option.map_eq_some_iff.mp h
    cases heq
    show (pastLiteral? '"' _).map _ = _
    rw [hpast]
    rfl
  · obtain ⟨_, hpast, heq⟩ := Option.map_eq_some_iff.mp h
    cases heq
    show (pastLiteral? '\'' _).map _ = _
    rw [hpast]
    rfl
  · cases h
    rfl
  · obtain ⟨_, hpast, heq⟩ := Option.map_eq_some_iff.mp h
    cases heq
    show (pastBlock? _).map _ = _
    rw [hpast]
    rfl
  · cases h

theorem length_lexeme?_lt {cs rest : List Char} {lexeme : Lexeme}
    (h : lexeme? cs = some (lexeme, rest)) : rest.length < cs.length :=
  Item.length_at?_lt (at?_of_lexeme? h none)

/-- The text with a blank in the place of each comment that is in no literal. -/
def blankOut (cs : List Char) : List Char :=
  match cs with
  | [] => []
  | c :: rest =>
    match _found : lexeme? (c :: rest) with
    | none => c :: blankOut rest
    | some (.literal, after) =>
      (c :: rest).take ((c :: rest).length - after.length) ++ blankOut after
    | some (.comment, after) => ' ' :: blankOut after
termination_by cs.length
decreasing_by
  · exact Nat.lt_succ_self _
  · exact length_lexeme?_lt _found
  · exact length_lexeme?_lt _found

/-- The source with a blank in the place of each comment. -/
def blankComments (source : String) : String :=
  String.ofList (blankOut source.toList)

/-! ## Lexemes -/

/-- Where there is no literal and no comment, the scanner finds a directive or nothing. -/
theorem at?_of_no_lexeme {cs : List Char} (h : lexeme? cs = none) (before : Option Char) :
    Item.at? before cs
      = (directive? before cs).map fun (path, rest) => (.directive path, rest) := by
  unfold lexeme? at h
  split at h
  · rw [directive?_eq_none (startsWith_cons_of_ne (by decide))]
    show (pastLiteral? '"' _).map _ = none
    rw [Option.map_eq_none_iff.mp h]
    rfl
  · rw [directive?_eq_none (startsWith_cons_of_ne (by decide))]
    show (pastLiteral? '\'' _).map _ = none
    rw [Option.map_eq_none_iff.mp h]
    rfl
  · cases h
  · rw [directive?_eq_none (startsWith_cons_of_ne (by decide))]
    show (pastBlock? _).map _ = none
    rw [Option.map_eq_none_iff.mp h]
    rfl
  · rename_i hdouble hsingle hline hblock
    unfold Item.at?
    split
    · exact absurd rfl (hdouble _)
    · exact absurd rfl (hsingle _)
    · exact absurd rfl (hline _)
    · exact absurd rfl (hblock _)
    · rfl

theorem lexeme?_cons_eq_none {c : Char} {cs : List Char} :
    lexeme? (c :: cs) = none ↔ (IsMark c → pastLiteral? c cs = none)
      ∧ (c = '/' → cs.head? ≠ some '/' ∧ ∀ rest, cs = '*' :: rest → pastBlock? rest = none) := by
  unfold lexeme?
  split
  · rename_i heq
    cases heq
    rw [Option.map_eq_none_iff]
    exact ⟨fun h => ⟨fun _ => h, fun heq => absurd heq (by decide)⟩, fun h => h.1 (.inl rfl)⟩
  · rename_i heq
    cases heq
    rw [Option.map_eq_none_iff]
    exact ⟨fun h => ⟨fun _ => h, fun heq => absurd heq (by decide)⟩, fun h => h.1 (.inr rfl)⟩
  · rename_i heq
    cases heq
    exact ⟨fun h => (by cases h), fun h => absurd rfl (h.2 rfl).1⟩
  · rename_i heq
    cases heq
    rw [Option.map_eq_none_iff]
    constructor
    · intro h
      refine ⟨fun hmark => absurd hmark (by unfold IsMark; decide), fun _ => ⟨by simp, ?_⟩⟩
      rintro rest heq
      cases heq
      exact h
    · exact fun h => (h.2 rfl).2 _ rfl
  · rename_i hdouble hsingle hline hblock
    refine ⟨fun _ => ⟨fun hmark => ?_, fun heq => ⟨fun hhead => ?_, fun rest hrest => ?_⟩⟩,
      fun _ => rfl⟩
    · rcases hmark with rfl | rfl
      · exact absurd rfl (hdouble _)
      · exact absurd rfl (hsingle _)
    · obtain ⟨ds, rfl⟩ := List.head?_eq_some_iff.mp hhead
      exact absurd (by rw [heq]) (hline ds)
    · exact absurd (by rw [heq, hrest]) (hblock rest)

theorem exists_literalBody {mark : Char} {cs rest : List Char}
    (h : pastLiteral? mark cs = some rest) :
    ∃ body, LiteralBody mark body ∧ cs = body ++ mark :: rest := by
  fun_induction pastLiteral? mark cs with
  | case1 => cases h
  | case2 cs =>
      cases h
      exact ⟨[], .nil, rfl⟩
  | case3 => cases h
  | case4 => cases h
  | case5 => cases h
  | case6 d ds hline _ _ ih =>
      obtain ⟨body, hbody, rfl⟩ := ih h
      exact ⟨'\\' :: d :: body, .escape hline hbody, rfl⟩
  | case7 c cs hmark hline hback ih =>
      obtain ⟨body, hbody, rfl⟩ := ih h
      exact ⟨c :: body, .plain hmark hback hline hbody, rfl⟩

theorem lexeme?_literal {text after : List Char} (h : lexeme? text = some (.literal, after)) :
    ∃ mark body, IsMark mark ∧ LiteralBody mark body ∧ text = mark :: (body ++ mark :: after) := by
  unfold lexeme? at h
  split at h
  · obtain ⟨_, hpast, heq⟩ := Option.map_eq_some_iff.mp h
    cases heq
    obtain ⟨body, hbody, rfl⟩ := exists_literalBody hpast
    exact ⟨_, body, .inl rfl, hbody, rfl⟩
  · obtain ⟨_, hpast, heq⟩ := Option.map_eq_some_iff.mp h
    cases heq
    obtain ⟨body, hbody, rfl⟩ := exists_literalBody hpast
    exact ⟨_, body, .inr rfl, hbody, rfl⟩
  · cases h
  · obtain ⟨_, _, heq⟩ := Option.map_eq_some_iff.mp h
    cases heq
  · cases h

theorem lexeme?_of_literal {mark : Char} {body : List Char} (hmark : IsMark mark)
    (hbody : LiteralBody mark body) (after : List Char) :
    lexeme? (mark :: (body ++ mark :: after)) = some (.literal, after) := by
  have hne : mark ≠ '\\' := hmark.both (P := (· ≠ '\\')) (by decide) (by decide)
  have hpast := pastLiteral?_body hbody hne after
  rcases hmark with rfl | rfl
  · show (pastLiteral? '"' _).map _ = _
    rw [hpast]
    rfl
  · show (pastLiteral? '\'' _).map _ = _
    rw [hpast]
    rfl

theorem exists_blockBody {cs rest : List Char} (h : pastBlock? cs = some rest) :
    ∃ body, cs = body ++ '*' :: '/' :: rest := by
  fun_induction pastBlock? cs with
  | case1 => cases h
  | case2 cs =>
      cases h
      exact ⟨[], rfl⟩
  | case3 c cs _ ih =>
      obtain ⟨body, rfl⟩ := ih h
      exact ⟨c :: body, rfl⟩

/-- The text of a comment, in front of what follows it. A comment ends in a slash, or the line's end
follows if anything does. -/
structure IsComment (comment after : List Char) : Prop where
  head : comment.head? = some '/'
  last : comment.getLast? = some '/' ∨ ∀ c ∈ after.head?, c = '\n'

theorem lexeme?_comment {text after : List Char} (h : lexeme? text = some (.comment, after)) :
    ∃ comment, IsComment comment after ∧ text = comment ++ after := by
  unfold lexeme? at h
  split at h
  · obtain ⟨_, _, heq⟩ := Option.map_eq_some_iff.mp h
    cases heq
  · obtain ⟨_, _, heq⟩ := Option.map_eq_some_iff.mp h
    cases heq
  · rename_i cs
    cases h
    refine ⟨'/' :: '/' :: cs.takeWhile (· != '\n'), ⟨rfl, .inr fun c hc => ?_⟩, ?_⟩
    · have hstop := List.head?_dropWhile_not (· != '\n') cs
      unfold pastLine at hc
      rw [Option.mem_def.mp hc] at hstop
      simpa using hstop
    · exact congrArg ('/' :: '/' :: ·) (List.takeWhile_append_dropWhile).symm
  · obtain ⟨_, hpast, heq⟩ := Option.map_eq_some_iff.mp h
    cases heq
    obtain ⟨body, rfl⟩ := exists_blockBody hpast
    refine ⟨('/' :: '*' :: body) ++ ['*', '/'], ⟨rfl, .inl ?_⟩, ?_⟩
    · rw [List.getLast?_append]
      rfl
    · simp
  · cases h

/-! ## The text without its comments -/

theorem blankOut_nil : blankOut [] = [] := by
  rw [blankOut]

theorem blankOut_pass {c : Char} {cs : List Char} (h : lexeme? (c :: cs) = none) :
    blankOut (c :: cs) = c :: blankOut cs := by
  rw [blankOut]
  split
  · rfl
  · rename_i heq
    rw [h] at heq
    cases heq
  · rename_i heq
    rw [h] at heq
    cases heq

theorem blankOut_comment {text after : List Char} (h : lexeme? text = some (.comment, after)) :
    blankOut text = ' ' :: blankOut after := by
  cases text with
  | nil => cases h
  | cons c cs =>
      rw [blankOut]
      split
      · rename_i heq
        rw [h] at heq
        cases heq
      · rename_i heq
        rw [h] at heq
        cases heq
      · rename_i heq
        rw [h] at heq
        cases heq
        rfl

theorem blankOut_literal {mark : Char} {body : List Char} (hmark : IsMark mark)
    (hbody : LiteralBody mark body) (after : List Char) :
    blankOut (mark :: (body ++ mark :: after)) = mark :: (body ++ mark :: blankOut after) := by
  have hlexeme := lexeme?_of_literal hmark hbody after
  have hsplit : mark :: (body ++ mark :: after) = (mark :: (body ++ [mark])) ++ after := by simp
  rw [blankOut]
  split
  · rename_i heq
    rw [hlexeme] at heq
    cases heq
  · rename_i heq
    rw [hlexeme] at heq
    cases heq
    rw [hsplit, List.length_append, Nat.add_sub_cancel, List.take_left]
    simp
  · rename_i heq
    rw [hlexeme] at heq
    cases heq

/-- The second text is the first with its comments blanked out. -/
inductive Blanked : List Char → List Char → Prop where
  | nil : Blanked [] []
  | literal {mark : Char} {body after after' : List Char} :
      IsMark mark → LiteralBody mark body → Blanked after after' →
      Blanked (mark :: (body ++ mark :: after)) (mark :: (body ++ mark :: after'))
  | comment {comment after after' : List Char} :
      IsComment comment after → lexeme? (comment ++ after) = some (.comment, after) →
      Blanked after after' → Blanked (comment ++ after) (' ' :: after')
  | pass {c : Char} {cs cs' : List Char} :
      lexeme? (c :: cs) = none → Blanked cs cs' → Blanked (c :: cs) (c :: cs')

theorem blanked (cs : List Char) : Blanked cs (blankOut cs) := by
  induction cs using blankOut.induct with
  | case1 =>
      rw [blankOut_nil]
      exact .nil
  | case2 c cs hnone ih =>
      rw [blankOut_pass hnone]
      exact .pass hnone ih
  | case3 c cs after hliteral ih =>
      obtain ⟨mark, body, hmark, hbody, heq⟩ := lexeme?_literal hliteral
      rw [heq, blankOut_literal hmark hbody]
      exact .literal hmark hbody ih
  | case4 c cs after hcomment ih =>
      rw [blankOut_comment hcomment]
      obtain ⟨comment, hspan, heq⟩ := lexeme?_comment hcomment
      rw [heq] at hcomment ⊢
      exact .comment hspan hcomment ih

/-- The second text is the first with blanks in the place of some parts. -/
inductive Thinned : List Char → List Char → Prop where
  | nil : Thinned [] []
  | keep {cs cs' : List Char} (c : Char) : Thinned cs cs' → Thinned (c :: cs) (c :: cs')
  | blank {cs cs' : List Char} (left : List Char) :
      Thinned cs cs' → Thinned (left ++ cs) (' ' :: cs')

theorem Thinned.keepAll {cs cs' : List Char} (h : Thinned cs cs') :
    ∀ front, Thinned (front ++ cs) (front ++ cs')
  | [] => h
  | c :: front => .keep c (h.keepAll front)

theorem Blanked.thinned {cs cs' : List Char} (h : Blanked cs cs') : Thinned cs cs' := by
  induction h with
  | nil => exact .nil
  | literal _ _ _ ih => exact .keep _ ((ih.keep _).keepAll _)
  | comment _ _ _ ih => exact .blank _ ih
  | pass _ _ ih => exact .keep _ ih

/-- A word that is left was there before. -/
theorem Thinned.of_startsWith {cs cs' word : List Char} (h : Thinned cs cs') (hword : ' ' ∉ word)
    (hfirst : word <+: cs') : word <+: cs := by
  induction h generalizing word with
  | nil => exact hfirst
  | keep c _ ih =>
      cases word with
      | nil => exact List.nil_prefix
      | cons d word =>
          obtain ⟨rfl, hrest⟩ := List.cons_prefix_cons.mp hfirst
          exact List.cons_prefix_cons.mpr
            ⟨rfl, ih (fun hmem => hword (List.mem_cons_of_mem _ hmem)) hrest⟩
  | blank left _ ih =>
      cases word with
      | nil => exact List.nil_prefix
      | cons d word =>
          obtain ⟨rfl, -⟩ := List.cons_prefix_cons.mp hfirst
          exact absurd List.mem_cons_self hword

theorem Thinned.of_contains {cs cs' word : List Char} (h : Thinned cs cs') (hword : ' ' ∉ word)
    (hinside : word <:+: cs') : word <:+: cs := by
  induction h with
  | nil => exact hinside
  | @keep cs cs' c h ih =>
      rcases List.infix_cons_iff.mp hinside with hfirst | hinside
      · exact ((h.keep c).of_startsWith hword hfirst).isInfix
      · exact List.infix_cons (ih hinside)
  | @blank cs cs' left h ih =>
      rcases List.infix_cons_iff.mp hinside with hfirst | hinside
      · exact ((h.blank left).of_startsWith hword hfirst).isInfix
      · exact (ih hinside).trans (List.suffix_append left cs).isInfix

/-- A character that is left was there before. -/
theorem Thinned.of_mem {cs cs' : List Char} {c : Char} (h : Thinned cs cs') (hc : c ≠ ' ')
    (hmem : c ∈ cs') : c ∈ cs := by
  obtain ⟨front, back, heq⟩ := List.append_of_mem hmem
  have hinside : [c] <:+: cs' := ⟨front, back, by rw [heq]; simp⟩
  have hword : ' ' ∉ [c] := fun hin => hc (List.mem_singleton.mp hin).symm
  exact (h.of_contains hword hinside).subset List.mem_cons_self

theorem pastBlock?_eq_none_iff {cs : List Char} :
    pastBlock? cs = none ↔ ¬ ['*', '/'] <:+: cs := by
  constructor
  · intro hnone hinside
    fun_induction pastBlock? cs with
    | case1 => exact absurd (List.infix_nil.mp hinside) (by decide)
    | case2 => cases hnone
    | case3 c cs hother ih =>
        rcases List.infix_cons_iff.mp hinside with hfirst | hinside
        · obtain ⟨rest, hrest⟩ := hfirst
          cases hrest
          exact hother rest rfl rfl
        · exact ih hnone hinside
  · intro hnot
    rw [Option.eq_none_iff_forall_ne_some]
    intro rest hrest
    obtain ⟨body, rfl⟩ := exists_blockBody hrest
    exact hnot ⟨body, rest, by simp⟩

/-- **What is no literal and no comment is none without the comments behind it either**, if a mark
does not become a literal. -/
theorem lexeme?_blanked {c : Char} {cs cs' : List Char} (h : Blanked cs cs')
    (hnone : lexeme? (c :: cs) = none)
    (hmark : IsMark c → pastLiteral? c cs = none → pastLiteral? c cs' = none) :
    lexeme? (c :: cs') = none := by
  obtain ⟨hliteral, hslash⟩ := lexeme?_cons_eq_none.mp hnone
  refine lexeme?_cons_eq_none.mpr ⟨fun hc => hmark hc (hliteral hc), fun hc => ⟨?_, ?_⟩⟩
  · intro hhead
    obtain ⟨rest, rfl⟩ := List.head?_eq_some_iff.mp hhead
    have hfirst : ['/'] <+: cs :=
      h.thinned.of_startsWith (by decide) (List.prefix_append ['/'] rest)
    obtain ⟨back, rfl⟩ := hfirst
    exact (hslash hc).1 rfl
  · intro rest' heq
    cases h with
    | nil => cases heq
    | literal hstar =>
        cases heq
        exact absurd hstar (by unfold IsMark; decide)
    | comment => cases heq
    | pass _ hrest =>
        cases heq
        have hopen := (hslash hc).2 _ rfl
        rw [pastBlock?_eq_none_iff] at hopen ⊢
        exact fun hin => hopen (hrest.thinned.of_contains (by decide) hin)

/-! ## Places -/


/-- The places of a text that are in no literal and no comment, each with the character before it:
none if that is the end of a literal or of a comment. -/
def places (before : Option Char) (cs : List Char) : List (Option Char × List Char) :=
  match cs with
  | [] => [(before, [])]
  | c :: rest =>
    match _found : lexeme? (c :: rest) with
    | none => (before, c :: rest) :: places (some c) rest
    | some (_, after) => (before, c :: rest) :: places none after
termination_by cs.length
decreasing_by
  · exact Nat.lt_succ_self _
  · exact length_lexeme?_lt _found

theorem places_pass {before : Option Char} {c : Char} {cs : List Char}
    (h : lexeme? (c :: cs) = none) :
    places before (c :: cs) = (before, c :: cs) :: places (some c) cs := by
  rw [places]
  split
  · rfl
  · rename_i heq
    rw [h] at heq
    cases heq

theorem places_lexeme {before : Option Char} {text after : List Char} {lexeme : Lexeme}
    (h : lexeme? text = some (lexeme, after)) :
    places before text = (before, text) :: places none after := by
  cases text with
  | nil => cases h
  | cons c cs =>
      rw [places]
      split
      · rename_i heq
        rw [h] at heq
        cases heq
      · rename_i heq
        rw [h] at heq
        cases heq
        rfl

theorem mem_places_self (before : Option Char) (cs : List Char) :
    (before, cs) ∈ places before cs := by
  cases cs with
  | nil => rw [places]; exact List.mem_cons_self
  | cons c cs =>
      rw [places]
      split <;> exact List.mem_cons_self

/-- The places from a place on are places of the text. -/
theorem places_subset {before : Option Char} {cs : List Char} {p : Option Char × List Char}
    (h : p ∈ places before cs) : places p.1 p.2 ⊆ places before cs := by
  induction before, cs using places.induct with
  | case1 before =>
      rw [places] at h
      rw [List.mem_singleton.mp h]
      exact List.Subset.refl _
  | case2 before c cs hnone ih =>
      rw [places_pass hnone] at h ⊢
      rcases List.mem_cons.mp h with rfl | h
      · rw [places_pass hnone]
        exact List.Subset.refl _
      · exact List.subset_cons_of_subset _ (ih h)
  | case3 before c cs lexeme after hsome ih =>
      rw [places_lexeme hsome] at h ⊢
      rcases List.mem_cons.mp h with rfl | h
      · rw [places_lexeme hsome]
        exact List.Subset.refl _
      · exact List.subset_cons_of_subset _ (ih h)

end SolFront.Import
