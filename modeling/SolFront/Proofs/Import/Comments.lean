import SolFront.Proofs.Import.Lexemes

/-!
# Sources without their comments

A comment is there for the reader, and so a source should import the same whether its comments are
there or are replaced by blanks. Outside of directives this is so. Inside of one the scanner takes a
comment for a part of the clause: between the word `import` and a path it hides the directive, and
if it holds the word `from` and a path itself, its path is taken.

What is proved here is that nothing else goes wrong. A comment may stand in the names of a clause if
it holds no semicolon and no mark; it may not touch the word `import`, and between it and the path
there must be more than blanks.
-/

namespace SolFront.Import

open Text (isBlank wordCanStart wordCanStart_of_isBlank)

/-! ## Clear sources -/

/-- The comments of a clause, each with what follows it. -/
def clauseComments (cs : List Char) : List (List Char × List Char) :=
  match cs with
  | [] => []
  | c :: rest =>
    match _found : lexeme? (c :: rest) with
    | none => if endsClause c then [] else clauseComments rest
    | some (.literal, _) => []
    | some (.comment, after) =>
      ((c :: rest).take ((c :: rest).length - after.length), after) :: clauseComments after
termination_by cs.length
decreasing_by
  · exact Nat.lt_succ_self _
  · exact length_lexeme?_lt _found

/-- Nothing in the text ends a clause. -/
def Free (cs : List Char) : Prop :=
  ∀ c ∈ cs, endsClause c = false

/-- The text behind a word `import` has comments only in the names of a clause, and the path is a
literal if there is any. -/
structure ClearDirective (cs : List Char) : Prop where
  /-- No comment touches the word. -/
  apart : (lexeme? cs).map (·.1) ≠ some .comment
  /-- A comment of the clause does not end it, and it is not all that is left of the clause. -/
  clause : cs.head?.any isBlank = true → ∀ e ∈ clauseComments cs,
    Free e.1 ∧ ∃ c ∈ e.2.takeWhile fun c => !endsClause c, isBlank c = false
  /-- The path ends where the literal does. -/
  path : ∀ found ∈ directiveTail? cs, '\\' ∉ found.1 ∧ '\n' ∉ found.1

/-- Comments do no harm to the text, if `before` is the character before it. -/
structure Clear (before : Option Char) (cs : List Char) : Prop where
  /-- The directives of the text are clear. -/
  directive : ∀ p ∈ places before cs, wordCanStart p.1 = true →
    Text.startsWith importWord p.2 = true → ClearDirective (p.2.drop importWord.length)
  /-- A mark that opens no literal opens none without the comments either. -/
  mark : ∀ p ∈ places before cs, ∀ mark ∈ p.2.head?, IsMark mark →
    pastLiteral? mark p.2.tail = none → pastLiteral? mark (blankOut p.2.tail) = none

instance (c : Char) : Decidable (IsMark c) :=
  inferInstanceAs (Decidable (c = '"' ∨ c = '\''))

-- only the characters of a text are tried, and not all that there are
instance (cs : List Char) : Decidable (Free cs) :=
  List.decidableBAll (fun c => endsClause c = false) cs

instance decidableExistsChar (p : Char → Prop) [DecidablePred p] (cs : List Char) :
    Decidable (∃ c ∈ cs, p c) :=
  List.decidableBEx p cs

instance decidableForallChar (p : Char → Prop) [DecidablePred p] (c? : Option Char) :
    Decidable (∀ c ∈ c?, p c) :=
  Option.decidableForallMem c?

instance (cs : List Char) : Decidable (ClearDirective cs) :=
  decidable_of_iff (_ ∧ _ ∧ _)
    ⟨fun h => ⟨h.1, h.2.1, h.2.2⟩, fun h => ⟨h.apart, h.clause, h.path⟩⟩

instance (before : Option Char) (cs : List Char) : Decidable (Clear before cs) :=
  decidable_of_iff (_ ∧ _) ⟨fun h => ⟨h.1, h.2⟩, fun h => ⟨h.directive, h.mark⟩⟩

theorem Clear.of_mem {before : Option Char} {cs : List Char} (h : Clear before cs)
    {p : Option Char × List Char} (hp : p ∈ places before cs) : Clear p.1 p.2 where
  directive := fun q hq => h.directive q (places_subset hp hq)
  mark := fun q hq => h.mark q (places_subset hp hq)

/-! ## Clauses -/

/-- The word `from` does not go on behind the character. -/
def Parted (c : Char) : Prop :=
  wordCanStart (some c) = true ∧ c ∉ fromWordReversed

theorem parted_of_isBlank {c : Char} (h : isBlank c = true) : Parted c := by
  refine ⟨wordCanStart_of_isBlank h, fun hmem => ?_⟩
  have hnone : (fromWordReversed.all fun d => !isBlank d) = true := by decide
  have hnot := List.all_eq_true.mp hnone c hmem
  rw [h] at hnot
  cases hnot

/-- Whether a text starts with a word, and the word ends there, is seen in its part up to a
character that parts words. -/
theorem startsWord_append {more : List Char}
    (hmore : ∀ c ∈ more.head?, wordCanStart (some c) = true) (word cs : List Char)
    (hword : ∀ c ∈ more.head?, c ∉ word) :
    (Text.startsWith word (cs ++ more) && wordCanStart ((cs ++ more).drop word.length).head?)
      = (Text.startsWith word cs && wordCanStart (cs.drop word.length).head?) := by
  induction word generalizing cs with
  | nil =>
      cases cs with
      | cons c cs => rfl
      | nil =>
          cases more with
          | nil => rfl
          | cons c more => exact hmore c rfl
  | cons d word ih =>
      cases cs with
      | cons c cs =>
          have hrest := ih cs fun e he hmem => hword e he (List.mem_cons_of_mem _ hmem)
          show ((d == c && _) && _) = ((d == c && _) && _)
          rw [Bool.and_assoc, Bool.and_assoc]
          exact congrArg (d == c && ·) hrest
      | nil =>
          cases more with
          | nil => rfl
          | cons c more =>
              have hne : c ≠ d := fun heq => hword c rfl (heq ▸ List.mem_cons_self)
              rw [List.nil_append, startsWith_cons_of_ne hne]
              rfl

/-- Whether a text is a clause is seen behind a character that parts words, if there is more than
blanks. -/
theorem isClause_append {front back : List Char} {c : Char} (hc : isBlank c = false)
    (hfront : ∀ d ∈ front.getLast?, Parted d) :
    isClause (front ++ c :: back) = isClause (c :: back) := by
  have hhead : ∀ d ∈ front.reverse.head?, Parted d := by
    rw [List.head?_reverse]
    exact hfront
  have hstarts := startsWord_append (fun d hd => (hhead d hd).1) fromWordReversed
    (back.reverse.dropWhile isBlank ++ [c]) fun d hd => (hhead d hd).2
  -- both are read from the end
  have hrev : (front ++ c :: back).reverse = back.reverse ++ c :: front.reverse := by simp
  have hrev' : (c :: back).reverse = back.reverse ++ [c] := by simp
  have hfirst : (back.reverse ++ c :: front.reverse).head? = (back.reverse ++ [c]).head? := by
    cases back.reverse <;> rfl
  have hempty : (front ++ c :: back).isEmpty = false := by cases front <;> rfl
  unfold isClause
  dsimp only
  rw [hempty, hrev, hrev', hfirst, dropWhile_append_cons hc, dropWhile_append_cons hc,
    Bool.and_assoc, Bool.and_assoc]
  rw [List.append_assoc, List.singleton_append] at hstarts
  rw [hstarts]
  rfl

/-- The texts are equal, or they end in the same character other than a blank and what follows it,
and in both something that parts words is in front of that. -/
def Alike (clause clause' : List Char) : Prop :=
  clause = clause' ∨ ∃ front front' c back, clause = front ++ c :: back
    ∧ clause' = front' ++ c :: back ∧ isBlank c = false
    ∧ (∃ d ∈ front.getLast?, Parted d) ∧ ∃ d ∈ front'.getLast?, Parted d

theorem isClause_alike {clause clause' : List Char} (h : Alike clause clause') :
    isClause (clause.dropWhile isBlank) = isClause (clause'.dropWhile isBlank) := by
  have hone : ∀ {front back : List Char} {c : Char}, isBlank c = false →
      (∃ d ∈ front.getLast?, Parted d) →
      isClause ((front ++ c :: back).dropWhile isBlank) = isClause (c :: back) := by
    intro front back c hc ⟨d, hd, hparted⟩
    rw [dropWhile_append_cons hc]
    refine isClause_append hc fun e he => ?_
    -- what is left of the front ends as it does
    obtain ⟨blanks, hsuffix⟩ := List.dropWhile_suffix (l := front) isBlank
    rw [← hsuffix, List.getLast?_append, Option.mem_def.mp he] at hd
    cases hd
    exact hparted
  rcases h with rfl | ⟨front, front', c, back, rfl, rfl, hc, hfront, hfront'⟩
  · rfl
  · rw [hone hc hfront, hone hc hfront']

theorem Alike.cons {clause clause' : List Char} (h : Alike clause clause') (c : Char) :
    Alike (c :: clause) (c :: clause') := by
  have hlast : ∀ {front : List Char}, (∃ d ∈ front.getLast?, Parted d) →
      ∃ d ∈ (c :: front).getLast?, Parted d := by
    intro front ⟨d, hd, hparted⟩
    refine ⟨d, ?_, hparted⟩
    rw [List.getLast?_cons, Option.mem_def.mp hd]
    rfl
  rcases h with rfl | ⟨front, front', d, back, rfl, rfl, hd, hfront, hfront'⟩
  · exact .inl rfl
  · exact .inr ⟨c :: front, c :: front', d, back, rfl, rfl, hd, hlast hfront, hlast hfront'⟩

theorem exists_blanks {cs : List Char} (h : ∃ c ∈ cs, isBlank c = false) :
    ∃ blanks c back, cs = blanks ++ c :: back ∧ Blank blanks ∧ isBlank c = false := by
  induction cs with
  | nil =>
      obtain ⟨c, hc, -⟩ := h
      cases hc
  | cons c cs ih =>
      by_cases hc : isBlank c = true
      · obtain ⟨d, hd, hnot⟩ := h
        rcases List.mem_cons.mp hd with rfl | hd
        · rw [hc] at hnot
          cases hnot
        · obtain ⟨blanks, e, back, rfl, hblanks, he⟩ := ih ⟨d, hd, hnot⟩
          exact ⟨c :: blanks, e, back, rfl, List.forall_mem_cons.mpr ⟨hc, hblanks⟩, he⟩
      · exact ⟨[], c, cs, rfl, fun _ hd => absurd hd List.not_mem_nil,
          (Bool.not_eq_true _).mp hc⟩

/-- A comment in front of texts that are alike keeps them alike, if more than blanks follow. -/
theorem Alike.comment {comment clause clause' after : List Char} (h : Alike clause clause')
    (hcomment : IsComment comment after) (hhead : clause.head? = after.head?)
    (hmore : ∃ c ∈ clause, isBlank c = false) :
    Alike (comment ++ clause) (' ' :: clause') := by
  rcases h with rfl | ⟨front, front', c, back, rfl, rfl, hc, ⟨d, hd, hparted⟩, ⟨d', hd', hparted'⟩⟩
  · -- the clause is cut at its first character other than a blank
    obtain ⟨blanks, c, back, rfl, hblanks, hc⟩ := exists_blanks hmore
    have hlast : ∃ d ∈ (comment ++ blanks).getLast?, Parted d := by
      cases hb : blanks.getLast? with
      | some d =>
          refine ⟨d, ?_, parted_of_isBlank (hblanks d (List.mem_of_getLast? hb))⟩
          rw [List.getLast?_append, hb]
          rfl
      | none =>
          rw [List.getLast?_eq_none_iff.mp hb, List.append_nil]
          rw [List.getLast?_eq_none_iff.mp hb] at hhead
          rcases hcomment.last with hslash | hline
          · exact ⟨'/', hslash, by decide, by decide⟩
          · -- behind a comment up to the line's end there is a blank
            rw [hline c hhead.symm] at hc
            exact absurd hc (by decide)
    have hlast' : ∃ d ∈ (' ' :: blanks).getLast?, Parted d := by
      have hblank : Blank (' ' :: blanks) := List.forall_mem_cons.mpr ⟨by decide, hblanks⟩
      cases hb : (' ' :: blanks).getLast? with
      | some d => exact ⟨d, rfl, parted_of_isBlank (hblank d (List.mem_of_getLast? hb))⟩
      | none => exact absurd (List.getLast?_eq_none_iff.mp hb) (List.cons_ne_nil _ _)
    refine .inr ⟨comment ++ blanks, ' ' :: blanks, c, back, ?_, rfl, hc, hlast, hlast'⟩
    rw [List.append_assoc]
  · refine .inr ⟨comment ++ front, ' ' :: front', c, back, ?_, rfl, hc, ⟨d, ?_, hparted⟩,
      ⟨d', ?_, hparted'⟩⟩
    · rw [List.append_assoc]
    · rw [List.getLast?_append, Option.mem_def.mp hd]
      rfl
    · rw [List.getLast?_cons, Option.mem_def.mp hd']
      rfl

/-! ## Directives -/

/-- A text at which a clause is at its end. -/
def Ends (cs : List Char) : Prop :=
  ∀ c ∈ cs.head?, endsClause c = true

theorem clauseComments_comment {text after : List Char}
    (h : lexeme? text = some (.comment, after)) :
    clauseComments text
      = (text.take (text.length - after.length), after) :: clauseComments after := by
  cases text with
  | nil => cases h
  | cons c cs =>
      rw [clauseComments]
      split
      · rename_i heq
        rw [h] at heq
        cases heq
      · rename_i heq
        rw [h] at heq
        cases heq
      · rename_i heq
        rw [h] at heq
        cases heq
        rfl

theorem clauseComments_pass {c : Char} {cs : List Char} (h : lexeme? (c :: cs) = none)
    (hc : endsClause c = false) : clauseComments (c :: cs) = clauseComments cs := by
  rw [clauseComments]
  split
  · rw [if_neg (by rw [hc]; exact Bool.false_ne_true)]
  · rename_i heq
    rw [h] at heq
    cases heq
  · rename_i heq
    rw [h] at heq
    cases heq

theorem endsClause_of_isMark {c : Char} (h : IsMark c) : endsClause c = true :=
  h.both (P := (endsClause · = true)) (by decide) (by decide)

/-- A text is cut at the end of its clause. -/
theorem cut_clause {clause tail : List Char} (hfree : Free clause) (hends : Ends tail) :
    (clause ++ tail).takeWhile (fun c => !endsClause c) = clause
      ∧ (clause ++ tail).dropWhile (fun c => !endsClause c) = tail := by
  have hclause : ∀ c ∈ clause, (!endsClause c) = true := by
    intro c hc
    rw [hfree c hc]
    rfl
  refine Text.cut_append hclause ?_
  intro c hc
  show (!endsClause c) = false
  rw [hends c hc]
  rfl

/-- What a clause looks like with its comments and without them. -/
structure ClausePair (before : Option Char) (cs cs' clause clause' tail tail' : List Char) :
    Prop where
  text : cs = clause ++ tail
  text' : cs' = clause' ++ tail'
  free : Free clause
  free' : Free clause'
  ends : Ends tail
  place : ∃ b, (b, tail) ∈ places before cs
  blanked : Blanked tail tail'
  alike : Alike clause clause'

/-- **A clause with clear comments reads alike without them.** -/
theorem Blanked.exists_clause {cs cs' : List Char} (h : Blanked cs cs')
    (hclear : ∀ e ∈ clauseComments cs,
      Free e.1 ∧ ∃ c ∈ e.2.takeWhile fun c => !endsClause c, isBlank c = false)
    (before : Option Char) :
    ∃ clause clause' tail tail', ClausePair before cs cs' clause clause' tail tail' := by
  have hnil : Free [] := fun _ hc => absurd hc List.not_mem_nil
  induction h generalizing before with
  | nil =>
      exact ⟨[], [], [], [], rfl, rfl, hnil, hnil, fun _ hc => (by cases hc),
        ⟨before, mem_places_self _ _⟩, .nil, .inl rfl⟩
  | literal hmark hbody hafter _ =>
      refine ⟨[], [], _, _, rfl, rfl, hnil, hnil, ?_, ⟨before, mem_places_self _ _⟩,
        .literal hmark hbody hafter, .inl rfl⟩
      intro c hc
      cases hc
      exact endsClause_of_isMark hmark
  | @comment comment after after' hcomment hlexeme hafter ih =>
      rw [clauseComments_comment hlexeme, List.forall_mem_cons] at hclear
      obtain ⟨⟨hfree, hmore⟩, hrest⟩ := hclear
      rw [List.length_append, Nat.add_sub_cancel, List.take_left] at hfree
      obtain ⟨clause, clause', tail, tail', hpair⟩ := ih hrest none
      obtain ⟨rfl, rfl, hclause, hclause', hends, ⟨b, hplace⟩, hblanked, halike⟩ := hpair
      rw [(cut_clause hclause hends).1] at hmore
      have hhead : clause.head? = (clause ++ tail).head? := by
        obtain ⟨c, hc, -⟩ := hmore
        cases clause with
        | nil => cases hc
        | cons d clause => rfl
      refine ⟨comment ++ clause, ' ' :: clause', tail, tail', ?_, rfl, ?_, ?_, hends, ⟨b, ?_⟩,
        hblanked, halike.comment hcomment hhead hmore⟩
      · rw [List.append_assoc]
      · exact List.forall_mem_append.mpr ⟨hfree, hclause⟩
      · exact List.forall_mem_cons.mpr ⟨by decide, hclause'⟩
      · rw [places_lexeme hlexeme]
        exact List.mem_cons_of_mem _ hplace
  | @pass c cs cs' hnone hcs ih =>
      by_cases hc : endsClause c = true
      · refine ⟨[], [], c :: cs, c :: cs', rfl, rfl, hnil, hnil, ?_,
          ⟨before, mem_places_self _ _⟩, .pass hnone hcs, .inl rfl⟩
        intro d hd
        cases hd
        exact hc
      · have hc := (Bool.not_eq_true _).mp hc
        rw [clauseComments_pass hnone hc] at hclear
        obtain ⟨clause, clause', tail, tail', hpair⟩ := ih hclear (some c)
        obtain ⟨rfl, rfl, hclause, hclause', hends, ⟨b, hplace⟩, hblanked, halike⟩ := hpair
        refine ⟨c :: clause, c :: clause', tail, tail', rfl, rfl, ?_, ?_, hends, ⟨b, ?_⟩,
          hblanked, halike.cons c⟩
        · exact List.forall_mem_cons.mpr ⟨hc, hclause⟩
        · exact List.forall_mem_cons.mpr ⟨hc, hclause'⟩
        · rw [places_pass hnone]
          exact List.mem_cons_of_mem _ hplace

/-- What a directive reads is seen at its clause. -/
theorem directiveTail?_clause {clause tail : List Char} (hfree : Free clause) (hends : Ends tail)
    (hhead : (clause ++ tail).head?.any isBlank = true) :
    directiveTail? (clause ++ tail)
      = if isClause (clause.dropWhile isBlank) then quotedPath? tail else none := by
  have hdrop : (clause ++ tail).dropWhile isBlank = clause.dropWhile isBlank ++ tail := by
    cases tail with
    | nil => rw [List.append_nil, List.append_nil]
    | cons c tail =>
        refine dropWhile_append_cons ?_ clause tail
        cases hc : isBlank c with
        | false => rfl
        | true =>
            have hboth := endsClause_of_isBlank hc
            rw [hends c rfl] at hboth
            cases hboth
  have hleft : Free (clause.dropWhile isBlank) := fun c hc =>
    hfree c ((List.dropWhile_sublist isBlank).mem hc)
  obtain ⟨htake, hcut⟩ := cut_clause hleft hends
  unfold directiveTail?
  dsimp only
  rw [hdrop, htake, hcut, hhead, Bool.true_and]

/-- What does not start with a comment has the same character in front without its comments. -/
theorem Blanked.head?_eq {cs cs' : List Char} (h : Blanked cs cs')
    (hnot : (lexeme? cs).map (·.1) ≠ some .comment) : cs'.head? = cs.head? := by
  cases h with
  | nil => rfl
  | literal => rfl
  | comment _ hlexeme =>
      rw [hlexeme] at hnot
      exact absurd rfl hnot
  | pass => rfl

theorem literalBody_of_plain {mark : Char} {path : List Char} (hmark : mark ∉ path)
    (hback : '\\' ∉ path) (hline : '\n' ∉ path) : LiteralBody mark path := by
  induction path with
  | nil => exact .nil
  | cons c path ih =>
      rw [List.mem_cons, not_or] at hmark hback hline
      exact .plain (Ne.symm hmark.1) (Ne.symm hback.1) (Ne.symm hline.1)
        (ih hmark.2 hback.2 hline.2)

/-- A mark in a literal has a backslash before it. -/
theorem escaped_of_literalBody {mark : Char} (hne : mark ≠ '\\') {path more : List Char}
    (hbody : LiteralBody mark (path ++ mark :: more)) : '\\' ∈ path := by
  induction path with
  | nil =>
      cases hbody with
      | plain hc => exact absurd rfl hc
      | escape => exact absurd rfl hne
  | cons c path ih =>
      rw [List.cons_append] at hbody
      generalize path ++ mark :: more = rest at hbody ih
      cases hbody with
      | plain _ _ _ hbody => exact List.mem_cons_of_mem _ (ih hbody)
      | escape => exact List.mem_cons_self

theorem quotedPath?_open {mark : Char} {cs : List Char} (h : mark ∉ cs) :
    quotedPath? (mark :: cs) = none := by
  have hother : ∀ c ∈ cs, (c != mark) = true :=
    fun c hc => bne_iff_ne.mpr fun heq => h (heq ▸ hc)
  have hdrop : cs.dropWhile (· != mark) = [] := by
    have hall : (cs ++ []).dropWhile (· != mark) = [] := List.dropWhile_append_of_pos hother
    rwa [List.append_nil] at hall
  unfold quotedPath?
  dsimp only
  split
  · rfl
  · rw [hdrop]

/-- **Both texts have the same path or none**, if the path is a literal. -/
def SamePath (before : Option Char) (cs : List Char)
    (found found' : Option (List Char × List Char)) : Prop :=
  found = none ∧ found' = none ∨ ∃ path after after', found = some (path, after)
    ∧ found' = some (path, after') ∧ Blanked after after' ∧ (none, after) ∈ places before cs

theorem quotedPath?_blanked {tail tail' : List Char} (h : Blanked tail tail') (hends : Ends tail)
    (hpath : ∀ found ∈ quotedPath? tail, '\\' ∉ found.1 ∧ '\n' ∉ found.1)
    (before : Option Char) : SamePath before tail (quotedPath? tail) (quotedPath? tail') := by
  cases h with
  | nil => exact .inl ⟨rfl, rfl⟩
  | @literal mark body after after' hmark hbody hafter =>
      have hne : mark ≠ '\\' := hmark.both (P := (· ≠ '\\')) (by decide) (by decide)
      by_cases hmem : mark ∈ body
      · -- the path would end in the literal
        obtain ⟨path, more, rfl, hfirst⟩ := List.eq_append_cons_of_mem hmem
        have hquoted := quotedPath?_body hmark hfirst (more ++ mark :: after)
        rw [List.append_assoc, List.cons_append] at hpath
        exact absurd (escaped_of_literalBody hne hbody) (hpath _ hquoted).1
      · refine .inr ⟨body, after, after', quotedPath?_body hmark hmem after,
          quotedPath?_body hmark hmem after', hafter, ?_⟩
        rw [places_lexeme (lexeme?_of_literal hmark hbody after)]
        exact List.mem_cons_of_mem _ (mem_places_self _ _)
  | @comment comment after _ hcomment =>
      have hslash : (comment ++ after).head? = some '/' := by
        rw [List.head?_append, hcomment.head]
        rfl
      exact absurd (hends '/' hslash) (by decide)
  | @pass c cs cs' hnone hcs =>
      by_cases hsemicolon : c = ';'
      · rw [hsemicolon]
        exact .inl ⟨rfl, rfl⟩
      · have hmark : IsMark c := by
          have hc := hends c rfl
          unfold endsClause at hc
          unfold IsMark
          simpa [hsemicolon] using hc
        by_cases hmem : c ∈ cs
        · -- what ends the path would end a literal
          obtain ⟨path, rest, rfl, hfirst⟩ := List.eq_append_cons_of_mem hmem
          obtain ⟨hback, hline⟩ := hpath _ (quotedPath?_body hmark hfirst rest)
          have hliteral := lexeme?_of_literal hmark (literalBody_of_plain hfirst hback hline) rest
          rw [hliteral] at hnone
          cases hnone
        · have hspace : c ≠ ' ' := hmark.both (P := (· ≠ ' ')) (by decide) (by decide)
          exact .inl ⟨quotedPath?_open hmem,
            quotedPath?_open fun hin => hmem (hcs.thinned.of_mem hspace hin)⟩

/-- **A clear directive reads the same without its comments.** -/
theorem directiveTail?_blanked {cs cs' : List Char} (h : Blanked cs cs')
    (hclear : ClearDirective cs) (before : Option Char) :
    SamePath before cs (directiveTail? cs) (directiveTail? cs') := by
  have hhead := h.head?_eq hclear.apart
  by_cases hblank : cs.head?.any isBlank = true
  · obtain ⟨clause, clause', tail, tail', hpair⟩ := h.exists_clause (hclear.clause hblank) before
    have hpath := hclear.path
    obtain ⟨rfl, rfl, hfree, hfree', hends, ⟨b, hplace⟩, hblanked, halike⟩ := hpair
    have hends' : Ends tail' := by
      have hsame := hblanked.head?_eq ?_
      · unfold Ends
        rw [hsame]
        exact hends
      · -- a comment does not end a clause
        intro hcomment
        obtain ⟨⟨_, after⟩, hlexeme, rfl⟩ := Option.map_eq_some_iff.mp hcomment
        obtain ⟨comment, hspan, rfl⟩ := lexeme?_comment hlexeme
        have hslash : (comment ++ after).head? = some '/' := by
          rw [List.head?_append, hspan.head]
          rfl
        exact absurd (hends '/' hslash) (by decide)
    have hblank' : (clause' ++ tail').head?.any isBlank = true := by
      rw [hhead]
      exact hblank
    rw [directiveTail?_clause hfree hends hblank] at hpath ⊢
    rw [directiveTail?_clause hfree' hends' hblank', ← isClause_alike halike]
    by_cases hclause : isClause (clause.dropWhile isBlank) = true
    · rw [if_pos hclause] at hpath ⊢
      rw [if_pos hclause]
      rcases quotedPath?_blanked hblanked hends hpath b with
        hnone | ⟨path, after, after', hfound, hfound', hafter, hin⟩
      · exact .inl hnone
      · exact .inr ⟨path, after, after', hfound, hfound', hafter, places_subset hplace hin⟩
    · rw [if_neg hclause, if_neg hclause]
      exact .inl ⟨rfl, rfl⟩
  · have hblank := (Bool.not_eq_true _).mp hblank
    unfold directiveTail?
    dsimp only
    rw [hhead, hblank]
    exact .inl ⟨rfl, rfl⟩

/-! ## Sources -/

/-- The characters of a word. -/
def IsWord (word : List Char) : Prop :=
  ∀ c ∈ word, ¬ IsMark c ∧ c ≠ '/'

theorem isWord_import : IsWord importWord := by
  intro c hc
  have hall : (importWord.all fun c => c != '"' && c != '\'' && c != '/') = true := by decide
  have hone := List.all_eq_true.mp hall c hc
  simp only [Bool.and_eq_true, bne_iff_ne] at hone
  exact ⟨fun hmark => hmark.elim hone.1.1 hone.1.2, hone.2⟩

theorem lexeme?_of_isWord {c : Char} {word : List Char} (h : IsWord (c :: word))
    (rest : List Char) : lexeme? (c :: rest) = none := by
  obtain ⟨hmark, hslash⟩ := h c List.mem_cons_self
  exact lexeme?_cons_eq_none.mpr ⟨fun hc => absurd hc hmark, fun hc => absurd hc hslash⟩

/-- The text behind a word is at a place. -/
theorem mem_places_word {word : List Char} (h : IsWord word) (before : Option Char)
    (rest : List Char) : (behind before word, rest) ∈ places before (word ++ rest) := by
  induction word generalizing before with
  | nil => exact mem_places_self before rest
  | cons c word ih =>
      rw [List.cons_append, places_pass (lexeme?_of_isWord h _), behind_cons]
      exact List.mem_cons_of_mem _ (ih (fun d hd => h d (List.mem_cons_of_mem _ hd)) (some c))

theorem blankOut_word {word : List Char} (h : IsWord word) (rest : List Char) :
    blankOut (word ++ rest) = word ++ blankOut rest := by
  induction word with
  | nil => rfl
  | cons c word ih =>
      rw [List.cons_append, blankOut_pass (lexeme?_of_isWord h _),
        ih fun d hd => h d (List.mem_cons_of_mem _ hd), List.cons_append]

theorem Blanked.eq_blankOut {cs cs' : List Char} (h : Blanked cs cs') : cs' = blankOut cs := by
  induction h with
  | nil => rw [blankOut_nil]
  | literal hmark hbody _ ih => rw [blankOut_literal hmark hbody, ih]
  | comment _ hlexeme _ ih => rw [blankOut_comment hlexeme, ih]
  | pass hnone _ ih => rw [blankOut_pass hnone, ih]

theorem startsWith_append (word cs : List Char) : Text.startsWith word (word ++ cs) = true :=
  List.isPrefixOf_iff_prefix.mpr (List.prefix_append word cs)

theorem directive?_import {before : Option Char} (h : wordCanStart before = true)
    (cs : List Char) : directive? before (importWord ++ cs) = directiveTail? cs := by
  rw [directive?, h, startsWith_append, List.drop_left]
  rfl

/-- A word `import` that is no part of another word. -/
def Heads (before : Option Char) (cs : List Char) : Prop :=
  wordCanStart before = true ∧ Text.startsWith importWord cs = true

theorem directive?_of_not_heads {before : Option Char} {cs : List Char} (h : ¬ Heads before cs) :
    directive? before cs = none := by
  unfold Heads at h
  rw [← Bool.and_eq_true] at h
  rw [directive?, if_neg h]

/-- **A clear text has the same paths without its comments.** -/
theorem pathsFrom_blankOut {before before' : Option Char} {cs : List Char}
    (hclear : Clear before cs) (hbefore : wordCanStart before' = wordCanStart before) :
    pathsFrom before' (blankOut cs) = pathsFrom before cs := by
  match cs with
  | [] => rw [blankOut_nil, pathsFrom_nil, pathsFrom_nil]
  | c :: rest =>
      cases hlexeme : lexeme? (c :: rest) with
      | some found =>
          obtain ⟨lexeme, after⟩ := found
          have hshort := length_lexeme?_lt hlexeme
          have hplace : (none, after) ∈ places before (c :: rest) := by
            rw [places_lexeme hlexeme]
            exact List.mem_cons_of_mem _ (mem_places_self none after)
          have hafter := hclear.of_mem hplace
          cases lexeme with
          | literal =>
              obtain ⟨mark, body, hmark, hbody, heq⟩ := lexeme?_literal hlexeme
              rw [heq, blankOut_literal hmark hbody, pathsFrom_literal hmark hbody,
                pathsFrom_literal hmark hbody]
              exact pathsFrom_blankOut hafter rfl
          | comment =>
              rw [blankOut_comment hlexeme, pathsFrom_item (at?_of_lexeme? hlexeme before),
                pathsFrom_pass (at?_of_isBlank (by decide))]
              exact pathsFrom_blankOut hafter (by decide)
      | none =>
          have hself := mem_places_self before (c :: rest)
          have hlexeme' : lexeme? (c :: blankOut rest) = none :=
            lexeme?_blanked (blanked rest) hlexeme (hclear.mark _ hself c rfl)
          have hrest : Clear (some c) rest := by
            refine hclear.of_mem (p := (some c, rest)) ?_
            rw [places_pass hlexeme]
            exact List.mem_cons_of_mem _ (mem_places_self _ _)
          have hpass : Item.at? before (c :: rest) = none →
              Item.at? before' (c :: blankOut rest) = none →
              pathsFrom before' (c :: blankOut rest) = pathsFrom before (c :: rest) := by
            intro hat hat'
            rw [pathsFrom_pass hat, pathsFrom_pass hat']
            exact pathsFrom_blankOut hrest rfl
          have hat := at?_of_no_lexeme hlexeme before
          have hat' := at?_of_no_lexeme hlexeme' before'
          rw [blankOut_pass hlexeme]
          by_cases hheads : Heads before (c :: rest)
          · obtain ⟨hstart, hword⟩ := hheads
            obtain ⟨back, hback⟩ := List.isPrefixOf_iff_prefix.mp hword
            have hback' : c :: blankOut rest = importWord ++ blankOut back := by
              rw [← blankOut_pass hlexeme, ← hback, blankOut_word isWord_import]
            have hdirective := hclear.directive _ hself hstart hword
            have hplace := mem_places_word isWord_import before back
            rw [← hback, directive?_import hstart] at hat
            rw [hback', directive?_import (hbefore.trans hstart)] at hat'
            rw [← hback, List.drop_left] at hdirective
            rcases directiveTail?_blanked (blanked back) hdirective (behind before importWord) with
              ⟨hnone, hnone'⟩ | ⟨path, after, after', hsome, hsome', hafter, hin⟩
            · rw [hnone] at hat
              rw [hnone'] at hat'
              exact hpass (hback ▸ hat) (hback' ▸ hat')
            · rw [hsome, hback] at hat
              rw [hsome', ← hback'] at hat'
              have hshort := Item.length_at?_lt hat
              have hclearAfter : Clear none after :=
                hclear.of_mem (p := (none, after)) (hback ▸ places_subset hplace hin)
              rw [pathsFrom_item hat, pathsFrom_item hat', hafter.eq_blankOut]
              exact congrArg _ (pathsFrom_blankOut hclearAfter rfl)
          · refine hpass ?_ ?_
            · rw [hat, directive?_of_not_heads hheads]
              rfl
            · rw [hat', directive?_of_not_heads]
              · rfl
              · rintro ⟨hstart, hword⟩
                refine hheads ⟨hbefore ▸ hstart, ?_⟩
                have hstarts := List.isPrefixOf_iff_prefix.mp hword
                rw [← blankOut_pass hlexeme] at hstarts
                exact List.isPrefixOf_iff_prefix.mpr
                  ((blanked (c :: rest)).thinned.of_startsWith (by decide) hstarts)
termination_by cs.length
decreasing_by all_goals simp_all

/-- **Comments make no difference to what a clear source imports.** -/
theorem scan_blankComments {source : String} (h : Clear none source.toList) :
    scan (blankComments source) = scan source := by
  unfold scan blankComments
  rw [String.toList_ofList]
  exact pathsFrom_blankOut h rfl

/-- Comments stand behind a directive, in the names of its clause and in front of it. -/
theorem scan_blankComments_named :
    Clear none "/* import 'a'; */ import A/*,B*/, C // D\n from \"b\"; // c".toList
      ∧ blankComments "/* import 'a'; */ import A/*,B*/, C // D\n from \"b\"; // c"
        = "  import A , C  \n from \"b\";  "
      ∧ scan "  import A , C  \n from \"b\";  "
        = scan "/* import 'a'; */ import A/*,B*/, C // D\n from \"b\"; // c" := by
  have hclear : Clear none
      "/* import 'a'; */ import A/*,B*/, C // D\n from \"b\"; // c".toList := by
    decide +kernel
  have hblank : blankComments "/* import 'a'; */ import A/*,B*/, C // D\n from \"b\"; // c"
      = "  import A , C  \n from \"b\";  " := by
    decide +kernel
  have hscan := scan_blankComments hclear
  rw [hblank] at hscan
  exact ⟨hclear, hblank, hscan⟩

/-- A directive with a comment in front of its path. -/
def concealed : String := "import /* x */ \"a.sol\";"

/-- A directive with a comment that looks like the end of a clause. -/
def misread : String := "import * as /* from \"b.sol\" */ X from \"a.sol\";"

/-- **Comments can hide a directive, and they can supply its path.** -/
theorem scan_sees_comments :
    (¬ ∀ source, scan (blankComments source) = scan source)
      ∧ (scan concealed = [] ∧ scan (blankComments concealed) = ["a.sol"])
      ∧ scan misread = ["b.sol"] ∧ scan (blankComments misread) = ["a.sol"] := by
  have hconcealed : scan concealed = [] ∧ scan (blankComments concealed) = ["a.sol"] := by
    decide +kernel
  refine ⟨fun hall => ?_, hconcealed, by decide +kernel⟩
  have hsame := hall concealed
  rw [hconcealed.1, hconcealed.2] at hsame
  cases hsame

end SolFront.Import
