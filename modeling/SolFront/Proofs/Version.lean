import SolFront.Version
import SolFront.Proofs.Json.Numbers
import SolFront.Proofs.Text

/-!
# Versions in an output

A version is told at the first place where the mark stands with blanks and three runs of digits
behind it. Marks with anything else behind them are passed over, but at the first place the runs
have to be numbers: ASCII digits without a leading zero that fit a word. If they are not, the
output is refused with the first number that fails, whatever is told further on.
-/

namespace SolFront.Version

open Json (Whole digits_of_whole digits_toDigits whole_toDigits)
open Text (isBlank isDigit NotNext)

/-! ## Places -/

/-- Decimal digits of any script, at least one. -/
def IsRun (ds : List Char) : Prop :=
  ds ≠ [] ∧ ∀ d ∈ ds, isDigit d = true

/-- The runs with the points between them. -/
def Runs.text (runs : Runs) : List Char :=
  runs.major ++ '.' :: (runs.minor ++ '.' :: runs.patch)

/-- A text that starts with the mark, blanks and three runs, of which the last goes on as long as
there are digits. -/
inductive Place (runs : Runs) : List Char → Prop where
  | mk {blanks behind : List Char} (hblanks : ∀ c ∈ blanks, isBlank c = true)
      (hmajor : IsRun runs.major) (hminor : IsRun runs.minor) (hpatch : IsRun runs.patch)
      (hbehind : NotNext isDigit behind) : Place runs (mark ++ (blanks ++ (runs.text ++ behind)))

/-- A text and the runs at the first place in it. -/
inductive FirstPlace (runs : Runs) : List Char → Prop where
  | mk {before place : List Char} (hplace : Place runs place)
      (hfirst : ∀ front back others, before ++ place = front ++ back → Place others back →
        before.length ≤ front.length) : FirstPlace runs (before ++ place)

theorem Runs.text_append (runs : Runs) (rest : List Char) :
    runs.text ++ rest
      = runs.major ++ '.' :: (runs.minor ++ '.' :: (runs.patch ++ rest)) := by
  simp [Runs.text]

theorem run?_eq_some_iff {cs ds rest : List Char} :
    run? cs = some (ds, rest) ↔ IsRun ds ∧ NotNext isDigit rest ∧ cs = ds ++ rest := by
  unfold run?
  dsimp only
  constructor
  · intro h
    by_cases hnil : cs.takeWhile isDigit = []
    · rw [if_pos hnil] at h
      cases h
    · rw [if_neg hnil] at h
      cases h
      refine ⟨⟨hnil, ?_⟩, Text.notNext_dropWhile cs, List.takeWhile_append_dropWhile.symm⟩
      exact List.all_eq_true.mp List.all_takeWhile
  · rintro ⟨⟨hne, hds⟩, hrest, rfl⟩
    obtain ⟨htake, hdrop⟩ := Text.cut_append hds hrest
    rw [htake, hdrop, if_neg hne]

theorem pastPoint?_eq_some_iff {cs rest : List Char} :
    pastPoint? cs = some rest ↔ cs = '.' :: rest := by
  unfold pastPoint?
  split
  · simp
  · rename_i hnot
    constructor
    · intro h
      cases h
    · intro h
      exact absurd h (hnot rest)

theorem notNext_point (rest : List Char) : NotNext isDigit ('.' :: rest) :=
  Text.notNext_cons (by decide) rest

/-- No run starts with a blank. -/
theorem notNext_isBlank_run {ds : List Char} (h : IsRun ds) (rest : List Char) :
    NotNext isBlank (ds ++ rest) := by
  obtain ⟨hne, hds⟩ := h
  cases ds with
  | nil => exact absurd rfl hne
  | cons d ds =>
      refine Text.notNext_cons ?_ (ds ++ rest)
      have hdigit := hds d List.mem_cons_self
      cases hblank : isBlank d with
      | false => rfl
      | true =>
          rw [Text.isDigit_of_isBlank hblank] at hdigit
          cases hdigit

theorem place_of_runsAt? {cs : List Char} {runs : Runs} (h : runsAt? cs = some runs) :
    Place runs cs := by
  unfold runsAt? at h
  split at h
  · rename_i hmark
    obtain ⟨rest, rfl⟩ := List.isPrefixOf_iff_prefix.mp hmark
    rw [List.drop_left] at h
    obtain ⟨⟨major, rest₁⟩, hmajor, h⟩ := Option.bind_eq_some_iff.mp h
    obtain ⟨rest₂, hpoint₁, h⟩ := Option.bind_eq_some_iff.mp h
    obtain ⟨⟨minor, rest₃⟩, hminor, h⟩ := Option.bind_eq_some_iff.mp h
    obtain ⟨rest₄, hpoint₂, h⟩ := Option.bind_eq_some_iff.mp h
    obtain ⟨⟨patch, behind⟩, hpatch, h⟩ := Option.bind_eq_some_iff.mp h
    cases h
    obtain ⟨hmajor, -, hcut₁⟩ := run?_eq_some_iff.mp hmajor
    obtain ⟨hminor, -, hcut₂⟩ := run?_eq_some_iff.mp hminor
    obtain ⟨hpatch, hbehind, hcut₃⟩ := run?_eq_some_iff.mp hpatch
    rw [pastPoint?_eq_some_iff] at hpoint₁ hpoint₂
    -- the rest is put together again from what has been cut off
    have hrest : rest.dropWhile isBlank = Runs.text ⟨major, minor, patch⟩ ++ behind := by
      rw [Runs.text_append, hcut₁, hpoint₁, hcut₂, hpoint₂, hcut₃]
    rw [← List.takeWhile_append_dropWhile (p := isBlank) (l := rest), hrest]
    exact .mk (List.all_eq_true.mp List.all_takeWhile) hmajor hminor hpatch hbehind
  · cases h

theorem runsAt?_of_place {cs : List Char} {runs : Runs} (h : Place runs cs) :
    runsAt? cs = some runs := by
  obtain @⟨blanks, behind, hblanks, hmajor, hminor, hpatch, hbehind⟩ := h
  have hmark : Text.startsWith mark (mark ++ (blanks ++ (runs.text ++ behind))) = true :=
    List.isPrefixOf_iff_prefix.mpr (List.prefix_append _ _)
  have hrest : (blanks ++ (runs.text ++ behind)).dropWhile isBlank = runs.text ++ behind := by
    refine (Text.cut_append hblanks ?_).2
    rw [Runs.text_append]
    exact notNext_isBlank_run hmajor _
  unfold runsAt?
  rw [if_pos hmark, List.drop_left, hrest, Runs.text_append]
  refine Option.bind_eq_some_iff.mpr ⟨(runs.major, _),
    run?_eq_some_iff.mpr ⟨hmajor, notNext_point _, rfl⟩, ?_⟩
  refine Option.bind_eq_some_iff.mpr ⟨_, pastPoint?_eq_some_iff.mpr rfl, ?_⟩
  refine Option.bind_eq_some_iff.mpr ⟨(runs.minor, _),
    run?_eq_some_iff.mpr ⟨hminor, notNext_point _, rfl⟩, ?_⟩
  refine Option.bind_eq_some_iff.mpr ⟨_, pastPoint?_eq_some_iff.mpr rfl, ?_⟩
  exact Option.bind_eq_some_iff.mpr ⟨(runs.patch, behind),
    run?_eq_some_iff.mpr ⟨hpatch, hbehind, rfl⟩, rfl⟩

/-! ## The first place -/

theorem Place.ne_nil {runs : Runs} {cs : List Char} (h : Place runs cs) : cs ≠ [] := by
  cases h with
  | mk => exact List.cons_ne_nil _ _

theorem firstPlace_of_firstRuns? {cs : List Char} {runs : Runs} (h : firstRuns? cs = some runs) :
    FirstPlace runs cs := by
  induction cs with
  | nil => cases h
  | cons c cs ih =>
      rw [firstRuns?] at h
      cases hat : runsAt? (c :: cs) with
      | some others =>
          rw [hat] at h
          cases h
          refine @FirstPlace.mk _ [] _ (place_of_runsAt? hat) ?_
          intro front back others _ _
          exact Nat.zero_le _
      | none =>
          rw [hat] at h
          obtain @⟨before, place, hplace, hfirst⟩ := ih h
          refine @FirstPlace.mk _ (c :: before) _ hplace ?_
          intro front back others heq hother
          cases front with
          | nil =>
              -- there is no place at the very start
              have hback : back = c :: (before ++ place) := heq.symm
              have hstart := runsAt?_of_place (hback ▸ hother)
              rw [hat] at hstart
              cases hstart
          | cons d front =>
              have hbehind := hfirst front back others (List.cons.inj heq).2 hother
              simpa using hbehind

theorem firstRuns?_of_firstPlace {cs : List Char} {runs : Runs} (h : FirstPlace runs cs) :
    firstRuns? cs = some runs := by
  obtain @⟨before, place, hplace, hfirst⟩ := h
  induction before with
  | nil =>
      cases place with
      | nil => exact absurd rfl hplace.ne_nil
      | cons c place =>
          rw [List.nil_append, firstRuns?, runsAt?_of_place hplace]
  | cons c before ih =>
      have hnone : runsAt? (c :: (before ++ place)) = none := by
        cases hat : runsAt? (c :: (before ++ place)) with
        | none => rfl
        | some others =>
            exact absurd (hfirst [] _ others rfl (place_of_runsAt? hat)) (by simp)
      -- an earlier place behind the first character would be an earlier place of the whole
      have hbehind : ∀ front back others, before ++ place = front ++ back → Place others back →
          before.length ≤ front.length := by
        intro front back others heq hother
        have hle := hfirst (c :: front) back others (congrArg (c :: ·) heq) hother
        simpa using hle
      rw [List.cons_append, firstRuns?, hnone]
      exact ih hbehind

/-- **The first place is found**, and nothing else. -/
theorem firstRuns?_eq_some_iff {cs : List Char} {runs : Runs} :
    firstRuns? cs = some runs ↔ FirstPlace runs cs :=
  ⟨firstPlace_of_firstRuns?, firstRuns?_of_firstPlace⟩

/-! ## Numbers -/

/-- A run that writes the number: ASCII digits without a leading zero. -/
structure Writes (run : List Char) (n : UInt64) : Prop where
  whole : Whole run
  value : Nat.ofDigitChars 10 run 0 = n.toNat

/-- What keeps a run from writing a number. -/
inductive Flaw (part : Part) : List Char → Failure → Prop where
  | noNumber {c : Char} {rest : List Char} (hc : c.isDigit = false) :
      Flaw part (c :: rest) (.noNumber part c)
  | leadingZero {d : Char} {rest : List Char} (hd : d.isDigit = true) :
      Flaw part ('0' :: d :: rest) (.leadingZero part)
  | tooLarge {digits rest : List Char} (h : Whole digits) (hrest : NotNext Char.isDigit rest)
      (hlarge : UInt64.size ≤ Nat.ofDigitChars 10 digits 0) :
      Flaw part (digits ++ rest) (.tooLarge part)
  | afterNumber {digits rest : List Char} {n : UInt64} {c : Char} (h : Writes digits n)
      (hc : c.isDigit = false) : Flaw part (digits ++ c :: rest) (.afterNumber part c)

theorem number_whole (part : Part) {digits : List Char} (h : Whole digits) (rest : List Char) :
    NotNext Char.isDigit rest →
      number part (digits ++ rest)
        = if UInt64.size ≤ Nat.ofDigitChars 10 digits 0 then .error (.tooLarge part)
          else match rest with
            | [] => .ok (.ofNat (Nat.ofDigitChars 10 digits 0))
            | c :: _ => .error (.afterNumber part c) := by
  intro hrest
  obtain ⟨htake, hdrop⟩ := Text.cut_append (digits_of_whole h).2 hrest
  unfold number
  rw [htake, hdrop]
  -- a lone zero is no leading zero
  cases h with
  | zero => rfl
  | digits hd hne hds =>
      dsimp only
      split
      · rename_i heq
        cases heq
      · rename_i heq
        exact absurd (List.cons.inj heq).1 hne
      · rfl

theorem number_of_writes (part : Part) {run : List Char} {n : UInt64} (h : Writes run n) :
    number part run = .ok n := by
  have hfits : ¬ UInt64.size ≤ Nat.ofDigitChars 10 run 0 := by
    rw [h.value]
    exact Nat.not_le.mpr n.toNat_lt_size
  have hnumber := number_whole part h.whole [] Text.notNext_nil
  rwa [List.append_nil, if_neg hfits, h.value, UInt64.ofNat_toNat] at hnumber

theorem digits_cases {digits : List Char} (h : ∀ d ∈ digits, d.isDigit = true) :
    digits = [] ∨ (∃ d ds, digits = '0' :: d :: ds ∧ d.isDigit = true) ∨ Whole digits := by
  cases digits with
  | nil => exact .inl rfl
  | cons d ds =>
      obtain ⟨hd, hds⟩ := List.forall_mem_cons.mp h
      by_cases hzero : d = '0'
      · subst hzero
        cases ds with
        | nil => exact .inr (.inr .zero)
        | cons d ds => exact .inr (.inl ⟨d, ds, rfl, hds d List.mem_cons_self⟩)
      · exact .inr (.inr (.digits hd hzero hds))

/-- **A run writes a number or has a flaw**, and that is what is told of it. -/
theorem number_cases (part : Part) {run : List Char} (hne : run ≠ []) :
    (∃ n, Writes run n ∧ number part run = .ok n)
      ∨ ∃ failure, Flaw part run failure ∧ number part run = .error failure := by
  obtain ⟨digits, rest, hdigits, hrest, rfl⟩ := Text.exists_cut Char.isDigit run
  obtain ⟨htake, hdrop⟩ := Text.cut_append hdigits hrest
  rcases digits_cases hdigits with rfl | ⟨d, ds, rfl, hd⟩ | hwhole
  · -- the run starts with a digit of another script
    cases rest with
    | nil => exact absurd rfl hne
    | cons c rest =>
        refine .inr ⟨.noNumber part c, .noNumber (hrest c rfl), ?_⟩
        unfold number
        rw [htake, hdrop]
  · refine .inr ⟨.leadingZero part, .leadingZero hd, ?_⟩
    unfold number
    rw [htake, hdrop]
    rfl
  · have hnumber := number_whole part hwhole rest hrest
    by_cases hlarge : UInt64.size ≤ Nat.ofDigitChars 10 digits 0
    · rw [if_pos hlarge] at hnumber
      exact .inr ⟨.tooLarge part, .tooLarge hwhole hrest hlarge, hnumber⟩
    · have hwrites : Writes digits (.ofNat (Nat.ofDigitChars 10 digits 0)) :=
        ⟨hwhole, (UInt64.toNat_ofNat_of_lt' (Nat.not_le.mp hlarge)).symm⟩
      rw [if_neg hlarge] at hnumber
      cases rest with
      | nil =>
          rw [List.append_nil] at hnumber ⊢
          exact .inl ⟨_, hwrites, hnumber⟩
      | cons c rest =>
          exact .inr ⟨.afterNumber part c, .afterNumber hwrites (hrest c rfl), hnumber⟩

/-! ## Outputs -/

/-- The runs write the numbers of the version. -/
structure Runs.Write (runs : Runs) (v : Version) : Prop where
  major : Writes runs.major v.major
  minor : Writes runs.minor v.minor
  patch : Writes runs.patch v.patch

/-- The first of three runs that has a flaw. -/
inductive Runs.Flawed (runs : Runs) (failure : Failure) : Prop where
  | major (h : Flaw .major runs.major failure)
  | minor {major : UInt64} (hmajor : Writes runs.major major) (h : Flaw .minor runs.minor failure)
  | patch {major minor : UInt64} (hmajor : Writes runs.major major)
      (hminor : Writes runs.minor minor) (h : Flaw .patch runs.patch failure)

/-- The output tells the version: the runs at its first place write the numbers. -/
def Tells (output : String) (v : Version) : Prop :=
  ∃ runs, FirstPlace runs output.toList ∧ runs.Write v

/-- Why an output tells no version: it has no place for one, or the runs at its first place have a
flaw. -/
inductive Refused (output : String) : Failure → Prop where
  | notFound (h : ∀ runs, ¬ FirstPlace runs output.toList) : Refused output (.notFound output)
  | flawed {runs : Runs} {failure : Failure} (hplace : FirstPlace runs output.toList)
      (h : runs.Flawed failure) : Refused output failure

theorem FirstPlace.ne_nil {runs : Runs} {cs : List Char} (h : FirstPlace runs cs) :
    runs.major ≠ [] ∧ runs.minor ≠ [] ∧ runs.patch ≠ [] := by
  obtain ⟨⟨-, hmajor, hminor, hpatch, -⟩, -⟩ := h
  exact ⟨hmajor.1, hminor.1, hpatch.1⟩

/-- **An output tells a version or is refused**, and that is what comes of it. -/
theorem ofOutput_cases (output : String) :
    (∃ v, Tells output v ∧ ofOutput output = .ok v)
      ∨ ∃ failure, Refused output failure ∧ ofOutput output = .error failure := by
  unfold ofOutput
  cases hruns : firstRuns? output.toList with
  | none =>
      refine .inr ⟨.notFound output, .notFound ?_, rfl⟩
      intro runs hplace
      rw [firstRuns?_eq_some_iff.mpr hplace] at hruns
      cases hruns
  | some runs =>
      have hplace := firstRuns?_eq_some_iff.mp hruns
      obtain ⟨hmajor, hminor, hpatch⟩ := hplace.ne_nil
      dsimp only
      rcases number_cases .major hmajor with ⟨major, hmajor, heq⟩ | ⟨failure, hflaw, heq⟩
      · rw [heq]
        rcases number_cases .minor hminor with ⟨minor, hminor, heq⟩ | ⟨failure, hflaw, heq⟩
        · rw [heq]
          rcases number_cases .patch hpatch with ⟨patch, hpatch, heq⟩ | ⟨failure, hflaw, heq⟩
          · rw [heq]
            exact .inl ⟨⟨major, minor, patch⟩, ⟨runs, hplace, hmajor, hminor, hpatch⟩, rfl⟩
          · rw [heq]
            exact .inr ⟨failure, .flawed hplace (.patch hmajor hminor hflaw), rfl⟩
        · rw [heq]
          exact .inr ⟨failure, .flawed hplace (.minor hmajor hflaw), rfl⟩
      · rw [heq]
        exact .inr ⟨failure, .flawed hplace (.major hflaw), rfl⟩

theorem ofOutput_of_tells {output : String} {v : Version} (h : Tells output v) :
    ofOutput output = .ok v := by
  obtain ⟨runs, hplace, hmajor, hminor, hpatch⟩ := h
  unfold ofOutput
  rw [firstRuns?_eq_some_iff.mpr hplace]
  dsimp only
  rw [number_of_writes .major hmajor, number_of_writes .minor hminor,
    number_of_writes .patch hpatch]
  rfl

theorem ofOutput_eq_ok_iff {output : String} {v : Version} :
    ofOutput output = .ok v ↔ Tells output v := by
  constructor
  · intro h
    rcases ofOutput_cases output with ⟨w, htells, hok⟩ | ⟨failure, -, herror⟩
    · rw [hok] at h
      cases h
      exact htells
    · rw [herror] at h
      cases h
  · exact ofOutput_of_tells

/-! ## Printed versions -/

/-- The decimal digits of a version. -/
def digits (v : Version) : Runs :=
  ⟨Nat.toDigits 10 v.major.toNat, Nat.toDigits 10 v.minor.toNat, Nat.toDigits 10 v.patch.toNat⟩

theorem toList_text (v : Version) : v.text.toList = v.digits.text := by
  simp [text, Runs.text, digits]

theorem isRun_toDigits (n : Nat) : IsRun (Nat.toDigits 10 n) := by
  obtain ⟨hne, hdigits⟩ := digits_toDigits n
  exact ⟨hne, fun d hd => Text.isDigit_of_ascii (hdigits d hd)⟩

theorem writes_toDigits (n : UInt64) : Writes (Nat.toDigits 10 n.toNat) n :=
  ⟨whole_toDigits n.toNat, Nat.ofDigitChars_toDigits (by decide) (by decide)⟩

theorem write_digits (v : Version) : v.digits.Write v :=
  ⟨writes_toDigits v.major, writes_toDigits v.minor, writes_toDigits v.patch⟩

/-- Every place starts with the mark. -/
theorem Place.exists_mark {runs : Runs} {cs : List Char} (h : Place runs cs) :
    ∃ rest, cs = mark ++ rest := by
  cases h with
  | mk => exact ⟨_, rfl⟩

/-- A place behind a text without the mark is the first one. -/
theorem firstPlace_of_not_infix {before place : List Char} {runs : Runs}
    (hbefore : ¬ mark <:+: before) (hplace : Place runs place) :
    FirstPlace runs (before ++ place) := by
  refine .mk hplace ?_
  intro front back others heq hother
  obtain ⟨rest, rfl⟩ := hplace.exists_mark
  obtain ⟨rest', rfl⟩ := hother.exists_mark
  -- the mark begins with a capital and has no other
  have hcapital : 'V' ∉ "ersion:".toList := by decide
  exact Text.length_le_of_not_infix hcapital hbefore heq

/-- A version is read back from any text around it in which nothing tells another one before and
no digit goes on with it. -/
theorem tells_of_text {output : String} {before blanks behind : List Char} (v : Version)
    (hbefore : ¬ mark <:+: before) (hblanks : ∀ c ∈ blanks, isBlank c = true)
    (hbehind : NotNext isDigit behind)
    (houtput : output.toList = before ++ (mark ++ (blanks ++ (v.text.toList ++ behind)))) :
    Tells output v := by
  refine ⟨v.digits, ?_, write_digits v⟩
  rw [houtput, toList_text]
  exact firstPlace_of_not_infix hbefore
    (.mk hblanks (isRun_toDigits _) (isRun_toDigits _) (isRun_toDigits _) hbehind)

/-- **An output tells the version at its first place or is refused.** It is read as the version
whose numbers the runs there write, and if they write none it fails with the first flaw. So a
printed version is read back whatever stands before it, if not the mark, and behind it, if not a
digit. -/
theorem ofOutput_tells_or_refuses (output : String) :
    (∀ v, ofOutput output = .ok v ↔ Tells output v)
      ∧ ((∀ v, ¬ Tells output v) →
        ∃ failure, Refused output failure ∧ ofOutput output = .error failure)
      ∧ ∀ (v : Version) (before blanks behind : List Char), ¬ mark <:+: before →
        (∀ c ∈ blanks, isBlank c = true) → NotNext isDigit behind →
        output.toList = before ++ (mark ++ (blanks ++ (v.text.toList ++ behind))) →
        ofOutput output = .ok v := by
  refine ⟨fun v => ofOutput_eq_ok_iff, ?_, ?_⟩
  · intro hnone
    rcases ofOutput_cases output with ⟨v, htells, -⟩ | hrefused
    · exact absurd htells (hnone v)
    · exact hrefused
  · intro v before blanks behind hbefore hblanks hbehind houtput
    exact ofOutput_of_tells (tells_of_text v hbefore hblanks hbehind houtput)

/-- An output with a mark that is cut short, the largest word, and a mark after the version. -/
def crowded : String :=
  "Version 1, VersVersion:\t\u30000.18446744073709551615.10.9 Version: 1.2.3"

/-- An output with a mark that tells nothing, a leading zero, and a version after that. -/
def padded : String :=
  "Version: x Version: 1.02.3 Version: 1.2.3"

/-- The one is read, and the other is refused for its zero. -/
theorem ofOutput_tells_or_refuses_crowded :
    ¬ mark <:+: "Version 1, Vers".toList
      ∧ (∀ c ∈ "\t\u3000".toList, isBlank c = true)
      ∧ NotNext isDigit ".9 Version: 1.2.3".toList
      ∧ ofOutput crowded = .ok ⟨0, 18446744073709551615, 10⟩
      ∧ (∀ v, ¬ Tells padded v)
      ∧ Refused padded (.leadingZero .minor) := by
  have hbefore : ¬ mark <:+: "Version 1, Vers".toList := by
    intro hin
    have hcolon : ':' ∈ "Version 1, Vers".toList := hin.subset (by decide)
    exact absurd hcolon (by decide +kernel)
  have hblanks : ∀ c ∈ "\t\u3000".toList, isBlank c = true :=
    List.all_eq_true.mp (by decide +kernel)
  have hbehind : NotNext isDigit ".9 Version: 1.2.3".toList := by
    have hpoint : ".9 Version: 1.2.3".toList.head? = some '.' := by decide +kernel
    intro c hc
    rw [hpoint] at hc
    cases hc
    decide
  have herror : ofOutput padded = .error (.leadingZero .minor) := by decide +kernel
  obtain ⟨-, -, hread⟩ := ofOutput_tells_or_refuses crowded
  obtain ⟨hiff, hrefused, -⟩ := ofOutput_tells_or_refuses padded
  have hnone : ∀ v, ¬ Tells padded v := by
    intro v htells
    rw [← hiff v, herror] at htells
    cases htells
  refine ⟨hbefore, hblanks, hbehind, ?_, hnone, ?_⟩
  · exact hread _ _ _ _ hbefore hblanks hbehind (by decide +kernel)
  · obtain ⟨failure, hfailure, heq⟩ := hrefused hnone
    rw [herror] at heq
    cases heq
    exact hfailure

end SolFront.Version
