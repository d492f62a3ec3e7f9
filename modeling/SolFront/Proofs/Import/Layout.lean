import SolFront.Import.Scan
import SolFront.Proofs.Text

/-!
# Sources by their pieces

A source is laid out in pieces: code, comments, literals and import directives, with blanks between
them. The scanner finds the paths of the directives, in order, and nothing else.

It is enough to look at one piece at a time. Behind a piece the scanner is where the piece ends, and
what it has found is the path, if the piece is a directive. Only code is passed over character by
character; so code must not run into something that makes a directive of its end, and that is all
that the blanks between pieces are for.
-/

namespace SolFront.Import

open Text (isBlank wordCanStart wordCanStart_of_isBlank ne_of_isBlank prefix_append_cases)

/-! ## Pieces -/

/-- Quotation marks. -/
def IsMark (c : Char) : Prop :=
  c = '"' ∨ c = '\''

/-- Only blanks. -/
def Blank (cs : List Char) : Prop :=
  ∀ c ∈ cs, isBlank c = true

/-- What stands between two marks of a literal: characters other than the mark, a backslash and a
line's end, and any character but a line's end behind a backslash. -/
inductive LiteralBody (mark : Char) : List Char → Prop where
  | nil : LiteralBody mark []
  | plain {c : Char} {cs : List Char} :
      c ≠ mark → c ≠ '\\' → c ≠ '\n' → LiteralBody mark cs → LiteralBody mark (c :: cs)
  | escape {c : Char} {cs : List Char} :
      c ≠ '\n' → LiteralBody mark cs → LiteralBody mark ('\\' :: c :: cs)

/-- What a directive imports from its path: the names, and the blanks between `from` and the
path. -/
structure Clause where
  names : List Char
  blanks : List Char

namespace Clause

/-- The clause as it stands in the source. -/
def text (clause : Clause) : List Char :=
  clause.names ++ ("from".toList ++ clause.blanks)

/-- The names hold no semicolon and no mark and end where a word can start. -/
structure WellFormed (clause : Clause) : Prop where
  free : ∀ c ∈ clause.names, endsClause c = false
  ends : wordCanStart clause.names.getLast? = true
  blanks_ne : clause.blanks ≠ []
  blanks : Blank clause.blanks

end Clause

/-- A piece of a source. -/
inductive Piece where
  | code (text : List Char)
  | lineComment (body : List Char)
  | blockComment (body : List Char)
  | literal (mark : Char) (body : List Char)
  | directive (blanks : List Char) (clause : Option Clause) (mark : Char) (path : List Char)

namespace Piece

/-- The piece as it stands in the source. A comment that the line ends has the line's end in it. -/
def text : Piece → List Char
  | code text => text
  | lineComment body => '/' :: '/' :: (body ++ ['\n'])
  | blockComment body => '/' :: '*' :: (body ++ ['*', '/'])
  | literal mark body => mark :: (body ++ [mark])
  | directive blanks clause mark path =>
    importWord ++ (blanks ++ ((clause.map Clause.text).getD [] ++ mark :: (path ++ [mark])))

/-- The path of a directive. -/
def path? : Piece → Option String
  | directive _ _ _ path => some (String.ofList path)
  | _ => none

/-- Code has no marks and no word `import`, and no slash in it starts a comment or ends it. -/
structure IsCode (cs : List Char) : Prop where
  double : '"' ∉ cs
  single : '\'' ∉ cs
  word : ¬ importWord <:+: cs
  slash : ∀ before after, cs = before ++ '/' :: after →
    ∃ c rest, after = c :: rest ∧ c ≠ '/' ∧ c ≠ '*'

/-- What can stand as a piece. -/
def WellFormed : Piece → Prop
  | code text => IsCode text
  | lineComment body => '\n' ∉ body
  | blockComment body => ¬ ['*', '/'] <:+: body
  | literal mark body => IsMark mark ∧ LiteralBody mark body
  | directive blanks clause mark path =>
    blanks ≠ [] ∧ Blank blanks ∧ (∀ c ∈ clause, c.WellFormed) ∧ IsMark mark ∧ mark ∉ path

/-- Whether the second piece can stand right behind the first. Only code needs a blank, before more
code and before a directive. -/
def mayTouch : Piece → Piece → Bool
  | code _, code _ => false
  | code _, directive .. => false
  | _, _ => true

end Piece

/-- The text is laid out in these pieces, with blanks before, between and behind them, if
`previous` is the piece before the text. -/
inductive Layout : Option Piece → List Piece → List Char → Prop where
  | done {previous : Option Piece} {gap : List Char} : Blank gap → Layout previous [] gap
  | piece {previous : Option Piece} {gap rest : List Char} {piece : Piece} {pieces : List Piece} :
      Blank gap → (gap = [] → ∀ p ∈ previous, p.mayTouch piece = true) → piece.WellFormed →
      Layout (some piece) pieces rest →
      Layout previous (piece :: pieces) (gap ++ (piece.text ++ rest))

/-! ## Passing over characters -/

/-- The paths that the scanner finds in a text behind a character. -/
def pathsFrom (before : Option Char) (cs : List Char) : List String :=
  (items before cs).filterMap Item.path?

theorem pathsFrom_nil (before : Option Char) : pathsFrom before [] = [] := by
  rw [pathsFrom, items]
  rfl

theorem pathsFrom_pass {before : Option Char} {c : Char} {cs : List Char}
    (h : Item.at? before (c :: cs) = none) :
    pathsFrom before (c :: cs) = pathsFrom (some c) cs := by
  rw [pathsFrom, items]
  split
  · rfl
  · rename_i heq
    rw [h] at heq
    cases heq

theorem pathsFrom_item {before : Option Char} {c : Char} {cs rest : List Char} {item : Item}
    (h : Item.at? before (c :: cs) = some (item, rest)) :
    pathsFrom before (c :: cs) = item.path?.toList ++ pathsFrom none rest := by
  rw [pathsFrom, items]
  split
  · rename_i heq
    rw [h] at heq
    cases heq
  · rename_i heq
    rw [h] at heq
    cases heq
    rw [List.filterMap_cons]
    cases item.path? with
    | none => rfl
    | some path => rfl

theorem directive?_eq_none {before : Option Char} {cs : List Char}
    (h : Text.startsWith importWord cs = false) : directive? before cs = none := by
  rw [directive?, h, Bool.and_false, if_neg Bool.false_ne_true]

/-- A character starts nothing if it is no mark, no slash of a comment and no word `import`. -/
theorem at?_eq_none {before : Option Char} {c : Char} {cs : List Char} (hd : c ≠ '"')
    (hs : c ≠ '\'') (hslash : c = '/' → ∀ d ∈ cs.head?, d ≠ '/' ∧ d ≠ '*')
    (hword : Text.startsWith importWord (c :: cs) = false) :
    Item.at? before (c :: cs) = none := by
  unfold Item.at?
  split
  · rename_i heq
    exact absurd (List.cons.inj heq).1 hd
  · rename_i heq
    exact absurd (List.cons.inj heq).1 hs
  · rename_i heq
    obtain ⟨hc, hcs⟩ := List.cons.inj heq
    exact absurd rfl (hslash hc '/' (by rw [hcs]; rfl)).1
  · rename_i heq
    obtain ⟨hc, hcs⟩ := List.cons.inj heq
    exact absurd rfl (hslash hc '*' (by rw [hcs]; rfl)).2
  · rw [directive?_eq_none hword]
    rfl

/-! ### Blanks -/

/-- The last character of a text, or the one before it. -/
def behind (before : Option Char) (cs : List Char) : Option Char :=
  cs.getLast?.or before

theorem behind_cons (before : Option Char) (c : Char) (cs : List Char) :
    behind before (c :: cs) = behind (some c) cs := by
  unfold behind
  cases cs with
  | nil => rfl
  | cons d ds =>
      rw [List.getLast?_cons_cons]
      cases h : (d :: ds).getLast? with
      | none => exact absurd (List.getLast?_eq_none_iff.mp h) (List.cons_ne_nil d ds)
      | some e => rfl

theorem startsWith_cons_of_ne {c d : Char} {cs word : List Char} (h : c ≠ d) :
    Text.startsWith (d :: word) (c :: cs) = false := by
  show (d == c && _) = false
  rw [beq_eq_false_iff_ne.mpr (Ne.symm h), Bool.false_and]

theorem at?_of_isBlank {before : Option Char} {c : Char} {cs : List Char}
    (hc : isBlank c = true) : Item.at? before (c :: cs) = none := by
  refine at?_eq_none (ne_of_isBlank hc (by decide)) (ne_of_isBlank hc (by decide)) ?_ ?_
  · intro heq
    exact absurd heq (ne_of_isBlank hc (by decide))
  · exact startsWith_cons_of_ne (ne_of_isBlank hc (by decide))

/-- **Blanks are passed over.** -/
theorem pathsFrom_blanks {gap : List Char} (hgap : Blank gap) (before : Option Char)
    (rest : List Char) : pathsFrom before (gap ++ rest) = pathsFrom (behind before gap) rest := by
  induction gap generalizing before with
  | nil => rfl
  | cons c gap ih =>
      rw [List.cons_append, pathsFrom_pass (at?_of_isBlank (hgap c List.mem_cons_self)),
        ih fun d hd => hgap d (List.mem_cons_of_mem _ hd), behind_cons]

theorem wordCanStart_behind_blanks {gap : List Char} (hgap : Blank gap) (hne : gap ≠ [])
    (before : Option Char) : wordCanStart (behind before gap) = true := by
  unfold behind
  cases h : gap.getLast? with
  | none => exact absurd (List.getLast?_eq_none_iff.mp h) hne
  | some c => exact wordCanStart_of_isBlank (hgap c (List.mem_of_getLast? h))

/-! ### Code -/

/-- What follows code does not go on with a word `import` that the code has begun. -/
def Parts (rest : List Char) : Prop :=
  ∀ c ∈ rest.head?, c ∉ importWord.tail

theorem isCode_tail {c : Char} {cs : List Char} (h : Piece.IsCode (c :: cs)) :
    Piece.IsCode cs where
  double := fun hmem => h.double (List.mem_cons_of_mem _ hmem)
  single := fun hmem => h.single (List.mem_cons_of_mem _ hmem)
  word := fun hword => h.word (List.infix_cons hword)
  slash := fun before after heq => h.slash (c :: before) after (by rw [heq]; rfl)

theorem at?_of_isCode {before : Option Char} {c : Char} {cs rest : List Char}
    (h : Piece.IsCode (c :: cs)) (hrest : Parts rest) :
    Item.at? before (c :: (cs ++ rest)) = none := by
  refine at?_eq_none ?_ ?_ ?_ ?_
  · exact fun heq => h.double (heq ▸ List.mem_cons_self)
  · exact fun heq => h.single (heq ▸ List.mem_cons_self)
  · -- the character behind the slash is code, too
    intro heq d hd
    obtain ⟨e, es, hcs, hne⟩ := h.slash [] cs (by rw [heq]; rfl)
    rw [hcs] at hd
    cases hd
    exact hne
  · -- the word is not in the code, and what follows does not end it
    rw [Bool.eq_false_iff]
    intro hword
    have hword : importWord <+: (c :: cs) ++ rest := List.isPrefixOf_iff_prefix.mp hword
    have hnot : ¬ importWord <+: c :: cs := fun hp => h.word hp.isInfix
    obtain ⟨d, hd, hmem⟩ := prefix_append_cases hword hnot
    refine hrest d hd ?_
    rw [List.length_cons, Nat.add_comm, ← List.drop_drop, List.drop_one] at hmem
    exact List.mem_of_mem_drop hmem

/-- **Code is passed over.** -/
theorem pathsFrom_code {cs : List Char} (h : Piece.IsCode cs) {rest : List Char}
    (hrest : Parts rest) (before : Option Char) :
    pathsFrom before (cs ++ rest) = pathsFrom (behind before cs) rest := by
  induction cs generalizing before with
  | nil => rfl
  | cons c cs ih =>
      rw [List.cons_append, pathsFrom_pass (at?_of_isCode h hrest), ih (isCode_tail h),
        behind_cons]

/-! ## Comments and literals -/

theorem pastLiteral?_body {mark : Char} {body : List Char} (h : LiteralBody mark body)
    (hmark : mark ≠ '\\') (rest : List Char) :
    pastLiteral? mark (body ++ mark :: rest) = some rest := by
  induction h with
  | nil => rw [List.nil_append, pastLiteral?.eq_def]; simp
  | plain hne hback hline _ ih =>
      rw [List.cons_append, pastLiteral?.eq_def]
      simp only [if_neg hne, if_neg hline, if_neg hback]
      exact ih
  | escape hline _ ih =>
      rw [List.cons_append, List.cons_append, pastLiteral?.eq_def]
      simp only [if_neg (Ne.symm hmark), if_neg hline]
      exact ih

/-- A comment is read up to the first `*/`. -/
theorem pastBlock?_body {body : List Char} (h : ¬ ['*', '/'] <:+: body) (rest : List Char) :
    pastBlock? (body ++ '*' :: '/' :: rest) = some rest := by
  induction body with
  | nil => rfl
  | cons c body ih =>
      have hbody : ¬ ['*', '/'] <:+: body := fun hin => h (List.infix_cons hin)
      rw [List.cons_append, pastBlock?.eq_def]
      split
      · rename_i heq
        cases heq
      · rename_i heq
        -- the comment cannot end here
        obtain ⟨hc, htail⟩ := List.cons.inj heq
        cases body with
        | nil => exact absurd (List.cons.inj htail).1 (by decide)
        | cons d body =>
            refine absurd ?_ h
            rw [hc, (List.cons.inj htail).1]
            exact (List.prefix_append ['*', '/'] body).isInfix
      · rename_i heq
        rw [← (List.cons.inj heq).2]
        exact ih hbody

theorem pastLine_body {body : List Char} (h : '\n' ∉ body) (rest : List Char) :
    pastLine (body ++ '\n' :: rest) = '\n' :: rest := by
  unfold pastLine
  rw [List.dropWhile_append_of_pos, List.dropWhile_cons_of_neg]
  · decide
  · intro c hc
    have hne : c ≠ '\n' := fun heq => h (heq ▸ hc)
    exact bne_iff_ne.mpr hne

/-- What holds of both marks holds of a mark. -/
theorem IsMark.both {P : Char → Prop} {mark : Char} (h : IsMark mark) (hdouble : P '"')
    (hsingle : P '\'') : P mark := by
  rcases h with rfl | rfl
  · exact hdouble
  · exact hsingle

theorem pathsFrom_literal {mark : Char} {body : List Char} (hmark : IsMark mark)
    (h : LiteralBody mark body) (before : Option Char) (rest : List Char) :
    pathsFrom before (mark :: (body ++ mark :: rest)) = pathsFrom none rest := by
  have hne : mark ≠ '\\' := hmark.both (P := (· ≠ '\\')) (by decide) (by decide)
  have hpast := pastLiteral?_body h hne rest
  have hat : Item.at? before (mark :: (body ++ mark :: rest)) = some (.literal, rest) := by
    rcases hmark with rfl | rfl
    · show (pastLiteral? '"' _).map _ = _
      rw [hpast]
      rfl
    · show (pastLiteral? '\'' _).map _ = _
      rw [hpast]
      rfl
  rw [pathsFrom_item hat]
  rfl

theorem pathsFrom_blockComment {body : List Char} (h : ¬ ['*', '/'] <:+: body)
    (before : Option Char) (rest : List Char) :
    pathsFrom before ('/' :: '*' :: (body ++ '*' :: '/' :: rest)) = pathsFrom none rest := by
  have hat : Item.at? before ('/' :: '*' :: (body ++ '*' :: '/' :: rest))
      = some (.comment, rest) := by
    show (pastBlock? _).map _ = _
    rw [pastBlock?_body h]
    rfl
  rw [pathsFrom_item hat]
  rfl

theorem pathsFrom_lineComment {body : List Char} (h : '\n' ∉ body) (before : Option Char)
    (rest : List Char) :
    pathsFrom before ('/' :: '/' :: (body ++ '\n' :: rest)) = pathsFrom (some '\n') rest := by
  have hat : Item.at? before ('/' :: '/' :: (body ++ '\n' :: rest))
      = some (.comment, '\n' :: rest) := by
    show some (Item.comment, pastLine _) = _
    rw [pastLine_body h]
  rw [pathsFrom_item hat]
  exact pathsFrom_pass (at?_of_isBlank (by decide))

/-! ## Directives -/

theorem dropWhile_append_cons {p : Char → Bool} {c : Char} (hc : p c = false)
    (cs rest : List Char) : (cs ++ c :: rest).dropWhile p = cs.dropWhile p ++ c :: rest := by
  rw [List.dropWhile_append]
  split
  · rename_i h
    rw [List.isEmpty_iff.mp h, List.dropWhile_cons_of_neg (by rw [hc]; exact Bool.false_ne_true)]
    rfl
  · rfl

/-- A text is cut where its first character that does not pass stands. -/
theorem cut_append_cons {p : Char → Bool} {c : Char} {cs : List Char} (hcs : ∀ d ∈ cs, p d = true)
    (hc : p c = false) (rest : List Char) :
    (cs ++ c :: rest).takeWhile p = cs ∧ (cs ++ c :: rest).dropWhile p = c :: rest :=
  Text.cut_append hcs (Text.notNext_cons hc rest)

theorem endsClause_of_isBlank {c : Char} (h : isBlank c = true) : endsClause c = false := by
  unfold endsClause
  rw [beq_eq_false_iff_ne.mpr (ne_of_isBlank h (by decide)),
    beq_eq_false_iff_ne.mpr (ne_of_isBlank h (by decide)),
    beq_eq_false_iff_ne.mpr (ne_of_isBlank h (by decide))]
  rfl

theorem quotedPath?_body {mark : Char} {path : List Char} (hmark : IsMark mark)
    (h : mark ∉ path) (rest : List Char) :
    quotedPath? (mark :: (path ++ mark :: rest)) = some (path, rest) := by
  have hne : mark ≠ ';' := hmark.both (P := (· ≠ ';')) (by decide) (by decide)
  have hpath : ∀ c ∈ path, (c != mark) = true :=
    fun c hc => bne_iff_ne.mpr fun heq => h (heq ▸ hc)
  obtain ⟨htake, hdrop⟩ := cut_append_cons (p := (· != mark)) hpath (bne_self_eq_false mark) rest
  unfold quotedPath?
  dsimp only
  rw [if_neg hne, hdrop, htake]

/-- Names that end where a word can start, the word `from` and blanks make a clause. -/
theorem isClause_from {names blanks : List Char} (hends : wordCanStart names.getLast? = true)
    (hne : blanks ≠ []) (hblank : Blank blanks) :
    isClause (names ++ ("from".toList ++ blanks)) = true := by
  -- a clause is read from its end
  have hrev : (names ++ ("from".toList ++ blanks)).reverse
      = blanks.reverse ++ (fromWordReversed ++ names.reverse) := by
    rw [List.reverse_append, List.reverse_append, List.append_assoc]
    rfl
  have hword : (blanks.reverse ++ (fromWordReversed ++ names.reverse)).dropWhile isBlank
      = fromWordReversed ++ names.reverse := by
    rw [List.dropWhile_append_of_pos fun c hc => hblank c (List.mem_reverse.mp hc)]
    exact List.dropWhile_cons_of_neg (by decide)
  have hhead : (blanks.reverse ++ (fromWordReversed ++ names.reverse)).head?.any isBlank
      = true := by
    cases h : blanks.reverse with
    | nil => exact absurd (List.reverse_eq_nil_iff.mp h) hne
    | cons c cs =>
        exact hblank c (List.mem_reverse.mp (h ▸ List.mem_cons_self))
  have hstarts : Text.startsWith fromWordReversed (fromWordReversed ++ names.reverse) = true :=
    List.isPrefixOf_iff_prefix.mpr (List.prefix_append _ _)
  unfold isClause
  dsimp only
  rw [hrev, hhead, hword, hstarts, List.drop_left, List.head?_reverse, hends]
  exact Bool.or_true _

theorem directiveTail?_body {blanks clause path : List Char} {mark : Char} (hne : blanks ≠ [])
    (hblank : Blank blanks) (hfree : ∀ c ∈ clause, endsClause c = false)
    (hclause : isClause (clause.dropWhile isBlank) = true) (hmark : IsMark mark)
    (hpath : mark ∉ path) (rest : List Char) :
    directiveTail? (blanks ++ (clause ++ mark :: (path ++ mark :: rest))) = some (path, rest) := by
  have hhead : (blanks ++ (clause ++ mark :: (path ++ mark :: rest))).head?.any isBlank = true := by
    cases hb : blanks with
    | nil => exact absurd hb hne
    | cons c cs => exact hblank c (hb ▸ List.mem_cons_self)
  have hnot : isBlank mark = false := hmark.both (P := (isBlank · = false)) (by decide) (by decide)
  have hdrop : (blanks ++ (clause ++ mark :: (path ++ mark :: rest))).dropWhile isBlank
      = clause.dropWhile isBlank ++ mark :: (path ++ mark :: rest) := by
    rw [List.dropWhile_append_of_pos hblank, dropWhile_append_cons hnot]
  have hin : ∀ c ∈ clause.dropWhile isBlank, (!endsClause c) = true := by
    intro c hc
    rw [hfree c ((List.dropWhile_sublist isBlank).mem hc)]
    rfl
  have hstop : (!endsClause mark) = false :=
    hmark.both (P := fun c => (!endsClause c) = false) rfl rfl
  obtain ⟨htake, hcut⟩ := cut_append_cons (p := fun c => !endsClause c) hin hstop
    (path ++ mark :: rest)
  unfold directiveTail?
  dsimp only
  rw [hhead, hdrop, htake, hclause, hcut]
  exact quotedPath?_body hmark hpath rest

theorem free_of_all {cs : List Char} (h : (cs.all fun c => !endsClause c) = true) :
    ∀ c ∈ cs, endsClause c = false := by
  intro c hc
  exact (Bool.not_eq_true' _).mp (List.all_eq_true.mp h c hc)

theorem free_clause {clause : Clause} (h : clause.WellFormed) :
    ∀ c ∈ clause.text, endsClause c = false := by
  intro c hc
  rcases List.mem_append.mp hc with hc | hc
  · exact h.free c hc
  · rcases List.mem_append.mp hc with hc | hc
    · exact free_of_all (by decide) c hc
    · exact endsClause_of_isBlank (h.blanks c hc)

/-- A clause is one without the blanks at its start, too. -/
theorem isClause_text {clause : Clause} (h : clause.WellFormed) :
    isClause (clause.text.dropWhile isBlank) = true := by
  have hdrop : clause.text.dropWhile isBlank
      = clause.names.dropWhile isBlank ++ ("from".toList ++ clause.blanks) :=
    dropWhile_append_cons (by decide) clause.names _
  rw [hdrop]
  refine isClause_from ?_ h.blanks_ne h.blanks
  -- what is left of the names ends as they do
  obtain ⟨front, hfront⟩ := List.dropWhile_suffix (l := clause.names) isBlank
  cases hnames : clause.names.dropWhile isBlank with
  | nil => rfl
  | cons c cs =>
      have hends := h.ends
      rw [← hfront, hnames, List.getLast?_append, List.getLast?_cons] at hends
      rw [List.getLast?_cons]
      exact hends

/-- **A directive is found where a word can start.** -/
theorem pathsFrom_directive {blanks path : List Char} {clause : Option Clause} {mark : Char}
    (h : (Piece.directive blanks clause mark path).WellFormed) {before : Option Char}
    (hbefore : wordCanStart before = true) (rest : List Char) :
    pathsFrom before
        (importWord
          ++ (blanks ++ ((clause.map Clause.text).getD [] ++ mark :: (path ++ mark :: rest))))
      = String.ofList path :: pathsFrom none rest := by
  obtain ⟨hne, hblank, hclause, hmark, hpath⟩ := h
  have htail : directiveTail?
      (blanks ++ ((clause.map Clause.text).getD [] ++ mark :: (path ++ mark :: rest)))
        = some (path, rest) := by
    cases clause with
    | none => exact directiveTail?_body hne hblank (by simp) rfl hmark hpath rest
    | some clause =>
        have hwf := hclause clause rfl
        exact directiveTail?_body hne hblank (free_clause hwf) (isClause_text hwf) hmark hpath rest
  -- from here on only the word in front matters
  generalize hcs : blanks ++ ((clause.map Clause.text).getD [] ++ mark :: (path ++ mark :: rest))
    = cs at htail
  have hstarts : Text.startsWith importWord (importWord ++ cs) = true :=
    List.isPrefixOf_iff_prefix.mpr (List.prefix_append _ _)
  have hdirective : directive? before (importWord ++ cs) = some (path, rest) := by
    rw [directive?, hbefore, hstarts, List.drop_left]
    exact htail
  have hat : Item.at? before (importWord ++ cs) = some (.directive path, rest) := by
    show (directive? before (importWord ++ cs)).map _ = _
    rw [hdirective]
    rfl
  exact pathsFrom_item hat

/-! ## Layouts -/

/-- What follows code goes on with no word: it is a blank, a comment or a literal. -/
theorem parts_of_layout {text rest : List Char} {pieces : List Piece}
    (h : Layout (some (.code text)) pieces rest) : Parts rest := by
  have hparts : ∀ c : Char, isBlank c = true ∨ c = '/' ∨ IsMark c → c ∉ importWord.tail := by
    intro c hc hmem
    rcases hc with hc | hc | hc | hc
    · have hnone : (importWord.tail.all fun d => !isBlank d) = true := by decide
      have hnot := List.all_eq_true.mp hnone c hmem
      rw [hc] at hnot
      cases hnot
    · rw [hc] at hmem
      exact absurd hmem (by decide)
    · rw [hc] at hmem
      exact absurd hmem (by decide)
    · rw [hc] at hmem
      exact absurd hmem (by decide)
  intro c hc
  refine hparts c ?_
  cases h with
  | done hgap => exact .inl (hgap c (List.mem_of_mem_head? hc))
  | @piece _ gap _ piece _ hgap htouch hpiece hrest =>
      cases gap with
      | cons d gap =>
          cases hc
          exact .inl (hgap c List.mem_cons_self)
      | nil =>
          -- without a blank it is a comment or a literal
          have htouch := htouch rfl _ rfl
          cases piece with
          | code => cases htouch
          | directive => cases htouch
          | lineComment =>
              cases hc
              exact .inr (.inl rfl)
          | blockComment =>
              cases hc
              exact .inr (.inl rfl)
          | literal =>
              cases hc
              exact .inr (.inr hpiece.1)

/-- **Whatever stands before it**, a layout has the paths of its directives. A word can start before
the layout, unless code stands there. -/
theorem pathsFrom_layout {previous : Option Piece} {pieces : List Piece} {cs : List Char}
    (h : Layout previous pieces cs) {before : Option Char}
    (hbefore : wordCanStart before = true ∨ ∃ text, previous = some (.code text)) :
    pathsFrom before cs = pieces.filterMap Piece.path? := by
  induction h generalizing before with
  | @done _ gap hgap =>
      have hblanks := pathsFrom_blanks hgap before []
      rw [List.append_nil, pathsFrom_nil] at hblanks
      exact hblanks
  | @piece previous gap rest piece pieces hgap htouch hpiece hrest ih =>
      rw [pathsFrom_blanks hgap]
      cases piece with
      | code text =>
          rw [Piece.text, pathsFrom_code hpiece (parts_of_layout hrest), ih (.inr ⟨text, rfl⟩)]
          rfl
      | lineComment body =>
          rw [Piece.text, List.cons_append, List.cons_append, List.append_assoc]
          rw [List.singleton_append, pathsFrom_lineComment hpiece, ih (.inl (by decide))]
          rfl
      | blockComment body =>
          rw [Piece.text, List.cons_append, List.cons_append, List.append_assoc]
          exact (pathsFrom_blockComment hpiece _ rest).trans (ih (.inl rfl))
      | literal mark body =>
          rw [Piece.text, List.cons_append, List.append_assoc, List.singleton_append,
            pathsFrom_literal hpiece.1 hpiece.2, ih (.inl rfl)]
          rfl
      | directive blanks clause mark path =>
          have hstart : wordCanStart (behind before gap) = true := by
            by_cases hne : gap = []
            · rcases hbefore with hbefore | ⟨text, hcode⟩
              · rw [hne]
                exact hbefore
              · -- a directive cannot stand right behind code
                cases htouch hne _ hcode
            · exact wordCanStart_behind_blanks hgap hne before
          rw [Piece.text]
          simp only [List.append_assoc, List.cons_append, List.nil_append]
          rw [pathsFrom_directive hpiece hstart, ih (.inl rfl)]
          rfl

/-- **A source has the paths of its directives.** The scanner finds them in order, whatever the
comments, the literals and the code between them hold. -/
theorem scan_layout {pieces : List Piece} {source : String}
    (h : Layout none pieces source.toList) : scan source = pieces.filterMap Piece.path? :=
  pathsFrom_layout h (.inl rfl)

/-- Of three directives one is found; the others are in a comment and in a literal. -/
theorem scan_layout_hidden :
    Layout none
        [.blockComment " import 'a' ".toList,
          .directive [' '] (some ⟨"* as B ".toList, [' ']⟩) '"' ['b'],
          .code [';'],
          .literal '\'' "import\"c\"".toList]
        "/* import 'a' */ import * as B from \"b\";'import\"c\"'".toList ∧
      scan "/* import 'a' */ import * as B from \"b\";'import\"c\"'" = ["b"] := by
  have hnone : Blank [] := fun c hc => absurd hc List.not_mem_nil
  have hblank : Blank [' '] := fun c hc => (List.mem_singleton.mp hc) ▸ by decide
  have hcomment : Piece.WellFormed (.blockComment " import 'a' ".toList) := by
    unfold Piece.WellFormed
    decide +kernel
  have hclause : Clause.WellFormed ⟨"* as B ".toList, [' ']⟩ :=
    ⟨free_of_all (by decide +kernel), by decide +kernel, by decide, hblank⟩
  have hdirective :
      Piece.WellFormed (.directive [' '] (some ⟨"* as B ".toList, [' ']⟩) '"' ['b']) :=
    ⟨by decide, hblank, fun clause hsome => Option.mem_some.mp hsome ▸ hclause, .inl rfl,
      by decide⟩
  have hcode : Piece.WellFormed (.code [';']) := by
    refine ⟨by decide, by decide, by decide, ?_⟩
    intro front after heq
    have hmem : '/' ∈ [';'] := heq ▸ List.mem_append_right front List.mem_cons_self
    exact absurd hmem (by decide)
  have hbody : LiteralBody '\'' "import\"c\"".toList := by
    have hchars : "import\"c\"".toList = ['i', 'm', 'p', 'o', 'r', 't', '"', 'c', '"'] := by
      decide +kernel
    rw [hchars]
    repeat refine .plain (by decide) (by decide) (by decide) ?_
    exact .nil
  -- the layout is built from its end
  have hlast : Layout (some (.code [';'])) [.literal '\'' "import\"c\"".toList] _ :=
    .piece hnone (by simp [Piece.mayTouch]) ⟨.inr rfl, hbody⟩ (.done hnone)
  have hbehind : Layout (some (.directive [' '] (some ⟨"* as B ".toList, [' ']⟩) '"' ['b'])) _ _ :=
    .piece hnone (by simp [Piece.mayTouch]) hcode hlast
  have hfound : Layout (some (.blockComment " import 'a' ".toList)) _ _ :=
    .piece hblank (by simp) hdirective hbehind
  have hall : Layout none _ _ := .piece hnone (by simp) hcomment hfound
  have hlayout := Eq.subst (motive := fun cs => Layout none _ cs)
    (show _ = "/* import 'a' */ import * as B from \"b\";'import\"c\"'".toList by decide +kernel)
    hall
  exact ⟨hlayout, scan_layout hlayout⟩

end SolFront.Import
