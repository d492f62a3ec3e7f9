import SolFront.Text.Split
import SolFront.Text.WordChar

/-!
# Characters and pieces of text

Blanks are not part of words, so a word can start behind every blank. A text is cut where a run of
characters of a class ends. A text that is split at a separator and joined again is what it was, and
so is a list of pieces without separators that is joined and split.
-/

namespace SolFront.Text

/-! ## Blanks and words -/

theorem inRanges_iff {ranges : List (Nat × Nat)} {c : Char} :
    inRanges ranges c = true ↔ ∃ r ∈ ranges, r.1 ≤ c.toNat ∧ c.toNat ≤ r.2 := by
  simp [inRanges]

/-- No character is in two classes whose ranges do not meet. -/
theorem inRanges_apart {ranges others : List (Nat × Nat)} {c : Char}
    (hapart : ∀ r ∈ ranges, ∀ r' ∈ others, r.2 < r'.1 ∨ r'.2 < r.1)
    (hc : inRanges ranges c = true) : inRanges others c = false := by
  obtain ⟨r, hr, hle, hge⟩ := inRanges_iff.mp hc
  rw [Bool.eq_false_iff]
  intro hother
  obtain ⟨r', hr', hle', hge'⟩ := inRanges_iff.mp hother
  rcases hapart r hr r' hr' with hlt | hlt
  · omega
  · omega

/-- No range of word characters meets a range of blanks. -/
theorem wordRanges_apart :
    ∀ r ∈ blankRanges, ∀ r' ∈ wordRanges, r.2 < r'.1 ∨ r'.2 < r.1 := by
  decide +kernel

/-- No range of digits meets a range of blanks. -/
theorem digitRanges_apart :
    ∀ r ∈ blankRanges, ∀ r' ∈ digitRanges, r.2 < r'.1 ∨ r'.2 < r.1 := by
  decide +kernel

/-- No blank is a letter, a digit or an underscore. -/
theorem blankRanges_apart :
    ∀ r ∈ blankRanges, r.2 < 48 ∨ 122 < r.1 := by
  decide

theorem toNat_bounds {c least greatest : Char} (hleast : least.val ≤ c.val)
    (hgreatest : c.val ≤ greatest.val) : least.toNat ≤ c.toNat ∧ c.toNat ≤ greatest.toNat :=
  ⟨UInt32.le_iff_toNat_le.mp hleast, UInt32.le_iff_toNat_le.mp hgreatest⟩

theorem isAlphanum_bounds {c : Char} (h : (c.isAlphanum || c == '_') = true) :
    48 ≤ c.toNat ∧ c.toNat ≤ 122 := by
  have hA : 'A'.toNat = 65 := rfl
  have hZ : 'Z'.toNat = 90 := rfl
  have ha : 'a'.toNat = 97 := rfl
  have hz : 'z'.toNat = 122 := rfl
  have h0 : '0'.toNat = 48 := rfl
  have h9 : '9'.toNat = 57 := rfl
  rcases Bool.or_eq_true_iff.mp h with halphanum | hline
  · rcases Bool.or_eq_true_iff.mp halphanum with halpha | hdigit
    · rcases Bool.or_eq_true_iff.mp halpha with hupper | hlower
      · obtain ⟨hleast, hgreatest⟩ := of_decide_eq_true hupper
        have hbounds := toNat_bounds hleast hgreatest
        omega
      · obtain ⟨hleast, hgreatest⟩ := Bool.and_eq_true_iff.mp hlower
        have hbounds := toNat_bounds (of_decide_eq_true hleast) (of_decide_eq_true hgreatest)
        omega
    · obtain ⟨hleast, hgreatest⟩ := Bool.and_eq_true_iff.mp hdigit
      have hbounds := toNat_bounds (of_decide_eq_true hleast) (of_decide_eq_true hgreatest)
      omega
  · rw [beq_iff_eq.mp hline]
    exact ⟨by decide, by decide⟩

theorem not_isAlphanum_of_isBlank {c : Char} (h : isBlank c = true) :
    (c.isAlphanum || c == '_') = false := by
  obtain ⟨r, hr, hle, hge⟩ := inRanges_iff.mp h
  rw [Bool.eq_false_iff]
  intro hword
  obtain ⟨hlo, hhi⟩ := isAlphanum_bounds hword
  rcases blankRanges_apart r hr with hlt | hlt
  · omega
  · omega

/-- **A blank is no word character.** -/
theorem isWordChar_of_isBlank {c : Char} (h : isBlank c = true) : isWordChar c = false := by
  unfold isWordChar
  split
  · exact not_isAlphanum_of_isBlank h
  · exact inRanges_apart wordRanges_apart h

/-- A blank is no digit. -/
theorem isDigit_of_isBlank {c : Char} (h : isBlank c = true) : isDigit c = false := by
  unfold isDigit
  split
  · rw [Bool.eq_false_iff]
    intro hdigit
    have halphanum := not_isAlphanum_of_isBlank h
    simp [Char.isAlphanum, hdigit] at halphanum
  · exact inRanges_apart digitRanges_apart h

/-- The ASCII digits are digits. -/
theorem isDigit_of_ascii {c : Char} (h : c.isDigit = true) : isDigit c = true := by
  have hword : (c.isAlphanum || c == '_') = true := by simp [Char.isAlphanum, h]
  have hbounds := isAlphanum_bounds hword
  unfold isDigit
  rw [if_pos (by omega), h]

theorem wordCanStart_some {c : Char} : wordCanStart (some c) = !isWordChar c := rfl

theorem wordCanStart_of_isBlank {c : Char} (h : isBlank c = true) :
    wordCanStart (some c) = true := by
  rw [wordCanStart_some, isWordChar_of_isBlank h]
  rfl

theorem ne_of_isBlank {c d : Char} (hc : isBlank c = true) (hd : isBlank d = false) : c ≠ d := by
  intro heq
  rw [heq, hd] at hc
  cases hc

/-! ## Runs of a class -/

/-- The text does not go on with a character of the class. -/
def NotNext (p : Char → Bool) (rest : List Char) : Prop :=
  ∀ c, rest.head? = some c → p c = false

section

variable {p : Char → Bool}

theorem notNext_nil : NotNext p [] := fun _ h => by cases h

theorem notNext_cons {c : Char} (h : p c = false) (rest : List Char) : NotNext p (c :: rest) := by
  intro d hd
  cases hd
  exact h

theorem notNext_dropWhile (cs : List Char) : NotNext p (cs.dropWhile p) := by
  intro c hc
  have hstop := List.head?_dropWhile_not p cs
  rwa [hc] at hstop

theorem takeWhile_notNext {rest : List Char} (h : NotNext p rest) : rest.takeWhile p = [] := by
  cases rest with
  | nil => rfl
  | cons c rest => exact List.takeWhile_cons_of_neg (by rw [h c rfl]; exact Bool.false_ne_true)

theorem dropWhile_notNext {rest : List Char} (h : NotNext p rest) : rest.dropWhile p = rest := by
  cases rest with
  | nil => rfl
  | cons c rest => exact List.dropWhile_cons_of_neg (by rw [h c rfl]; exact Bool.false_ne_true)

theorem exists_cut (p : Char → Bool) (text : List Char) :
    ∃ cs rest, (∀ c ∈ cs, p c = true) ∧ NotNext p rest ∧ text = cs ++ rest :=
  ⟨text.takeWhile p, text.dropWhile p, List.all_eq_true.mp List.all_takeWhile,
    notNext_dropWhile text, List.takeWhile_append_dropWhile.symm⟩

/-- **A text is cut where a run ends.** -/
theorem cut_append {cs rest : List Char} (hcs : ∀ c ∈ cs, p c = true) (hrest : NotNext p rest) :
    (cs ++ rest).takeWhile p = cs ∧ (cs ++ rest).dropWhile p = rest := by
  constructor
  · rw [List.takeWhile_append_of_pos hcs, takeWhile_notNext hrest, List.append_nil]
  · rw [List.dropWhile_append_of_pos hcs, dropWhile_notNext hrest]

end

/-! ## Splitting and joining -/

/-- Splitting is what the library's lists do, and so is joining. -/
theorem splitOn_eq (separator : Char) (cs : List Char) :
    splitOn separator cs = cs.splitOn separator := by
  induction cs with
  | nil => rfl
  | cons c cs ih =>
      rw [List.splitOn_cons_eq_if_modifyHead, ← ih, splitOn]
      by_cases heq : c = separator
      · rw [if_pos heq, if_pos (beq_iff_eq.mpr heq)]
      · rw [if_neg heq, if_neg (mt beq_iff_eq.mp heq)]
        cases h : splitOn separator cs with
        | nil => exact absurd (ih ▸ h) (List.splitOn_ne_nil separator cs)
        | cons piece pieces => rfl

theorem joinWith_eq (separator : Char) (pieces : List (List Char)) :
    joinWith separator pieces = [separator].intercalate pieces := by
  induction pieces with
  | nil => rfl
  | cons piece pieces ih =>
      cases pieces with
      | nil => simp [joinWith]
      | cons next pieces =>
          rw [List.intercalate_cons_cons, ← ih, List.append_assoc]
          rfl

theorem splitOn_ne_nil (separator : Char) (cs : List Char) : splitOn separator cs ≠ [] := by
  rw [splitOn_eq]
  exact List.splitOn_ne_nil separator cs

/-- A text is split where a separator stands and then on each side of it. -/
theorem splitOn_append_cons (separator : Char) (cs ds : List Char) :
    splitOn separator (cs ++ separator :: ds) = splitOn separator cs ++ splitOn separator ds := by
  rw [splitOn_eq, splitOn_eq, splitOn_eq, List.splitOn_append_cons_self]

theorem joinWith_splitOn (separator : Char) (cs : List Char) :
    joinWith separator (splitOn separator cs) = cs := by
  rw [joinWith_eq, splitOn_eq, List.intercalate_splitOn]

/-- **Pieces come back** from a text that they are joined to. -/
theorem splitOn_joinWith {separator : Char} {pieces : List (List Char)} (hne : pieces ≠ [])
    (hfree : ∀ piece ∈ pieces, separator ∉ piece) :
    splitOn separator (joinWith separator pieces) = pieces := by
  rw [splitOn_eq, joinWith_eq, List.splitOn_intercalate separator hfree hne]

theorem splitOn_of_not_mem {separator : Char} {cs : List Char} (h : separator ∉ cs) :
    splitOn separator cs = [cs] :=
  @splitOn_joinWith separator [cs] (List.cons_ne_nil _ _) (List.forall_mem_singleton.mpr h)

theorem not_mem_of_mem_splitOn {separator : Char} {cs piece : List Char}
    (h : piece ∈ splitOn separator cs) : separator ∉ piece := by
  induction cs generalizing piece with
  | nil =>
      rw [List.mem_singleton.mp h]
      exact List.not_mem_nil
  | cons c cs ih =>
      rw [splitOn] at h
      by_cases heq : c = separator
      · rw [if_pos heq] at h
        rcases List.mem_cons.mp h with hnil | hmem
        · rw [hnil]
          exact List.not_mem_nil
        · exact ih hmem
      · -- the character goes to the first piece
        rw [if_neg heq] at h
        cases hsplit : splitOn separator cs with
        | nil => exact absurd hsplit (splitOn_ne_nil separator cs)
        | cons first others =>
            rw [hsplit] at h ih
            rcases List.mem_cons.mp h with hfirst | hmem
            · rw [hfirst]
              intro hin
              rcases List.mem_cons.mp hin with hc | hin
              · exact heq hc.symm
              · exact ih List.mem_cons_self hin
            · exact ih (List.mem_cons_of_mem _ hmem)

/-! ## First occurrences -/

/-- A word that begins in one text and ends in the next needs the next to begin inside the word. -/
theorem prefix_append_cases {word cs rest : List Char} (h : word <+: cs ++ rest)
    (hnot : ¬ word <+: cs) : ∃ c ∈ rest.head?, c ∈ word.drop cs.length := by
  obtain ⟨tail, htail⟩ := h
  rcases List.append_eq_append_iff.mp htail with ⟨more, hcs, _⟩ | ⟨more, hword, hrest⟩
  · -- the word ends in the first text
    exact absurd ⟨more, hcs.symm⟩ hnot
  · rw [hword, List.drop_left, hrest]
    cases more with
    | nil =>
        rw [List.append_nil] at hword
        exact absurd (hword ▸ List.prefix_rfl) hnot
    | cons c more => exact ⟨c, rfl, List.mem_cons_self⟩

/-- A word whose first character stands nowhere else in it is found first where the text without it
ends. -/
theorem length_le_of_not_infix {c : Char} {cs before rest front back : List Char} (hc : c ∉ cs)
    (hbefore : ¬ c :: cs <:+: before)
    (heq : before ++ (c :: cs ++ rest) = front ++ (c :: cs ++ back)) :
    before.length ≤ front.length := by
  rcases List.append_eq_append_iff.mp heq with ⟨more, hfront, -⟩ | ⟨more, hmore, hback⟩
  · rw [hfront, List.length_append]
    exact Nat.le_add_right _ _
  · cases more with
    | nil =>
        rw [List.append_nil] at hmore
        exact Nat.le_of_eq (congrArg List.length hmore)
    | cons d more =>
        -- the word would begin inside `before`, and what follows begins inside the word
        have hnot : ¬ c :: cs <+: d :: more := by
          intro hin
          exact hbefore (hmore ▸ hin.isInfix.trans (List.suffix_append front _).isInfix)
        obtain ⟨e, he, hmem⟩ := prefix_append_cases ⟨back, hback⟩ hnot
        cases he
        rw [List.length_cons, List.drop_succ_cons] at hmem
        exact absurd (List.mem_of_mem_drop hmem) hc

/-- A text and what it is when an old text in it is replaced by a new one where it occurs first. -/
inductive Replaced (old new : List Char) : List Char → List Char → Prop where
  /-- What is before the first occurrence and behind it stays. -/
  | first {before behind : List Char}
      (hfirst : ∀ front back, before ++ old ++ behind = front ++ old ++ back →
        before.length ≤ front.length) :
      Replaced old new (before ++ old ++ behind) (before ++ new ++ behind)
  /-- Where there is no occurrence all stays. -/
  | absent {cs : List Char} (h : ¬ old <:+: cs) : Replaced old new cs cs

theorem replaced_replaceFirst (old new cs : List Char) :
    Replaced old new cs (replaceFirst old new cs) := by
  induction cs with
  | nil =>
      rw [replaceFirst]
      cases old with
      | nil =>
          have h : Replaced [] new ([] ++ [] ++ []) ([] ++ new ++ []) := by
            refine .first ?_
            intro front back _
            exact Nat.zero_le _
          simpa using h
      | cons c old => exact .absent (by simp)
  | cons c cs ih =>
      rw [replaceFirst]
      split
      · -- the text starts with an occurrence
        rename_i hstarts
        obtain ⟨behind, hbehind⟩ := List.isPrefixOf_iff_prefix.mp hstarts
        have h : Replaced old new ([] ++ old ++ behind) ([] ++ new ++ behind) := by
          refine .first ?_
          intro front back _
          exact Nat.zero_le _
        rw [← hbehind, List.drop_left]
        exact h
      · rename_i hstarts
        have hnot : ¬ old <+: c :: cs := mt List.isPrefixOf_iff_prefix.mpr hstarts
        generalize replaceFirst old new cs = ds at ih
        cases ih with
        | @first before behind hfirst =>
            have h : Replaced old new (c :: before ++ old ++ behind)
                (c :: before ++ new ++ behind) := by
              refine .first ?_
              intro front back heq
              cases front with
              | nil => exact absurd ⟨back, heq.symm⟩ hnot
              | cons d front =>
                  have hrest := hfirst front back (List.cons.inj heq).2
                  simpa using hrest
            exact h
        | absent habsent =>
            refine .absent ?_
            intro hoccurs
            rcases List.infix_cons_iff.mp hoccurs with hfirst | hrest
            · exact hnot hfirst
            · exact habsent hrest

end SolFront.Text
