import SolFront.Proofs.Import.Report
import SolFront.Proofs.Text
import Mathlib.Data.List.Forall2

/-!
# What a report changes

A report keeps the answer of the compiler, and in it the diagnostics in their order. A diagnostic
whose message tells that a unit is missing has the reason in the report; if several units are told
of, it is about the first of them. Behind the diagnostics of the compiler stands one for each missing
unit that none of them is about. An answer whose diagnostics are no list is left alone.

The relations below say this by what is found under each key, without saying how it is brought about.
-/

namespace SolFront.Import

/-! ## One diagnostic -/

/-- The message tells that the unit is missing: it starts so. -/
def TellsOf (unit message : String) : Prop :=
  (Diagnostic.notFoundStart unit).toList <+: message.toList

/-- The first of the missing units that a message tells of, with the reason. -/
structure FirstTold (missing : Dict String) (message unit reason : String) : Prop where
  /-- The unit is missing for that reason. -/
  given : Dict.get? missing unit = some reason
  /-- The message tells of it. -/
  told : TellsOf unit message
  /-- It tells of no missing unit before it. -/
  first : ∀ other, Dict.contains missing other = true → TellsOf other message → ¬ other < unit

/-- The members of a diagnostic that has got a new message, which also takes the place of the old one
where that is quoted first. -/
structure Reworded (old new : String) (before after : Dict Json) : Prop where
  message : Dict.get? after "message" = some (.str new)
  /-- A message with its place and an excerpt quotes the new message instead of the old one. -/
  shown : ∀ shown, Dict.get? before "formattedMessage" = some (.str shown) →
    ∃ shown' : String, Text.Replaced old.toList new.toList shown.toList shown'.toList
      ∧ Dict.get? after "formattedMessage" = some (.str shown')
  /-- Where there is none, or it is no text, it is left alone. -/
  unshown : (∀ shown, Dict.get? before "formattedMessage" ≠ some (.str shown)) →
    Dict.get? after "formattedMessage" = Dict.get? before "formattedMessage"
  /-- All other members are as before. -/
  others : ∀ key, key ≠ "message" → key ≠ "formattedMessage" →
    Dict.get? after key = Dict.get? before key
  /-- The members stay in order. -/
  sorted : before.Sorted → after.Sorted

/-- How a diagnostic of the compiler stands in the report, and the missing unit that it is about. -/
inductive Stands (missing : Dict String) : Json → Json → Option String → Prop where
  /-- It is about a missing unit and has got the reason. -/
  | reworded {before after : Dict Json} {message unit reason : String}
      (hmessage : Dict.get? before "message" = some (.str message))
      (hunit : FirstTold missing message unit reason)
      (hafter : Reworded message (Diagnostic.notFoundStart unit ++ reason) before after) :
      Stands missing (.obj before) (.obj after) (some unit)
  /-- It is about no missing unit and is left alone. -/
  | kept {diagnostic : Json}
      (hother : ∀ message, diagnostic.member? "message" = some (.str message) →
        ∀ unit, Dict.contains missing unit = true → ¬ TellsOf unit message) :
      Stands missing diagnostic diagnostic none

theorem startsWith_iff_tellsOf {unit message : String} :
    Text.startsWith (Diagnostic.notFoundStart unit).toList message.toList = true
      ↔ TellsOf unit message :=
  List.isPrefixOf_iff_prefix

theorem firstTold_of_subject? {missing : Dict String} (hsorted : missing.Sorted)
    {message unit reason : String} (h : subject? missing message = some (unit, reason)) :
    FirstTold missing message unit reason := by
  obtain ⟨hreason, hstarts⟩ := subject?_eq_some h
  refine ⟨hreason, startsWith_iff_tellsOf.mp hstarts, ?_⟩
  obtain ⟨-, before, after, hsplit, hbefore⟩ := List.find?_eq_some_iff_append.mp h
  intro other hother htells hlt
  obtain ⟨otherReason, hget⟩ := Dict.contains_iff.mp hother
  have hmem := Dict.mem_of_get? hget
  rw [hsplit] at hmem hsorted
  rcases List.mem_append.mp hmem with hmem | hmem
  · -- the search passed over all that comes before
    have hpassed := hbefore _ hmem
    rw [startsWith_iff_tellsOf.mpr htells] at hpassed
    cases hpassed
  · rcases List.mem_cons.mp hmem with heq | hmem
    · cases heq
      exact String.lt_irrefl _ hlt
    · have hbehind := (List.pairwise_cons.mp (List.pairwise_append.mp hsorted).2.1).1 _ hmem
      exact String.lt_irrefl _ (String.lt_trans hlt hbehind)

theorem not_tellsOf_of_subject? {missing : Dict String} {message : String}
    (h : subject? missing message = none) {unit : String}
    (hunit : Dict.contains missing unit = true) : ¬ TellsOf unit message := by
  obtain ⟨reason, hget⟩ := Dict.contains_iff.mp hunit
  intro htells
  exact List.find?_eq_none.mp h _ (Dict.mem_of_get? hget) (startsWith_iff_tellsOf.mpr htells)

theorem text_eq_some_iff {value : Option Json} {text : String} :
    value.bind Json.text? = some text ↔ value = some (.str text) := by
  constructor
  · intro h
    obtain ⟨json, rfl, htext⟩ := Option.bind_eq_some_iff.mp h
    cases json with
    | str s => exact congrArg (fun s => some (Json.str s)) (Option.some.inj htext)
    | _ => cases htext
  · rintro rfl
    rfl

theorem reworded_reword (members : Dict Json) (old new : String) :
    Reworded old new members (reword members old new) where
  message := get?_reword_message members old new
  shown := by
    intro shown hshown
    refine ⟨String.ofList (Text.replaceFirst old.toList new.toList shown.toList), ?_, ?_⟩
    · rw [String.toList_ofList]
      exact Text.replaced_replaceFirst old.toList new.toList shown.toList
    · unfold reword
      rw [Dict.get?_insert, if_neg (by decide), hshown]
      exact Dict.get?_insert_self _ _ _
  unshown := by
    intro hshown
    unfold reword
    rw [Dict.get?_insert, if_neg (by decide)]
    split
    · rename_i shown hget
      exact absurd (text_eq_some_iff.mp hget) (hshown shown)
    · rfl
  others := by
    intro key hmessage hshown
    exact get?_reword_of_ne members old new hmessage hshown
  sorted := by
    intro hsorted
    unfold reword
    refine Dict.sorted_insert ?_ _ _
    split
    · exact Dict.sorted_insert hsorted _ _
    · exact hsorted

/-- **A diagnostic is explained if it tells of a missing unit, and kept if not.** -/
theorem stands_explain {missing : Dict String} (hsorted : missing.Sorted) (diagnostic : Json) :
    Stands missing diagnostic (explain missing diagnostic).1 (explain missing diagnostic).2 := by
  cases diagnostic with
  | obj members =>
      cases hmessage : (Dict.get? members "message").bind Json.text? with
      | none =>
          -- it has no message that could tell of a unit
          have hexplain : explain missing (.obj members) = (.obj members, none) := by
            simp only [explain, Json.member?, hmessage]
          rw [hexplain]
          refine .kept ?_
          intro message htext
          have hsome : (Dict.get? members "message").bind Json.text? = some message :=
            text_eq_some_iff.mpr htext
          rw [hmessage] at hsome
          cases hsome
      | some message =>
          have htext := text_eq_some_iff.mp hmessage
          cases hsubject : subject? missing message with
          | none =>
              have hexplain : explain missing (.obj members) = (.obj members, none) := by
                simp only [explain, Json.member?, hmessage, hsubject]
              rw [hexplain]
              refine .kept ?_
              intro other hother unit hunit
              obtain rfl : message = other := by simpa using htext.symm.trans hother
              exact not_tellsOf_of_subject? hsubject hunit
          | some e =>
              have hexplain : explain missing (.obj members)
                  = (.obj (reword members message (Diagnostic.notFoundStart e.1 ++ e.2)),
                      some e.1) := by
                simp only [explain, Json.member?, hmessage, hsubject]
              rw [hexplain]
              exact .reworded htext (firstTold_of_subject? hsorted hsubject)
                (reworded_reword members message _)
  | _ => exact .kept (by intro message hmessage; cases hmessage)

/-! ## The whole report -/

/-- An answer of the compiler and the answer with the missing units reported. -/
inductive Reported (missing : Dict String) : Json → Json → Prop where
  /-- The diagnostics stand in their order, and behind them, in the order of the units, one for each
  missing unit that none of them is about. All other members are as before. -/
  | listed {before after : Dict Json} {diagnostics : List Json}
      {standing : List (Json × Option String)}
      (hlisted : Dict.get? before "errors" = some (.arr diagnostics)
        ∨ Dict.get? before "errors" = none ∧ diagnostics = [])
      (hstanding : List.Forall₂ (fun d e => Stands missing d e.1 e.2) diagnostics standing)
      (herrors : Dict.get? after "errors" = some (.arr (standing.map (·.1)
        ++ (missing.filter fun e => some e.1 ∉ standing.map (·.2)).map fun e =>
          (Diagnostic.sourceNotFound e.1 e.2).toJson)))
      (hothers : ∀ key, key ≠ "errors" → Dict.get? after key = Dict.get? before key)
      (hsorted : before.Sorted → after.Sorted) :
      Reported missing (.obj before) (.obj after)
  /-- An answer that is no object, or whose diagnostics are no list, is left alone. -/
  | unlisted {answer : Json}
      (hnone : ∀ members, answer = .obj members → ∃ errors,
        Dict.get? members "errors" = some errors ∧ ∀ diagnostics, errors ≠ .arr diagnostics) :
      Reported missing answer answer

theorem stands_all {missing : Dict String} (hsorted : missing.Sorted) (diagnostics : List Json) :
    List.Forall₂ (fun d e => Stands missing d e.1 e.2) diagnostics
      (diagnostics.map (explain missing)) := by
  induction diagnostics with
  | nil => exact .nil
  | cons diagnostic diagnostics ih => exact .cons (stands_explain hsorted diagnostic) ih

/-- The units that diagnostics are about, with and without those diagnostics that are about none. -/
theorem contains_filterMap_eq (explained : List (Json × Option String)) (unit : String) :
    (!(explained.filterMap (·.2)).contains unit) = decide (some unit ∉ explained.map (·.2)) := by
  rw [Bool.eq_iff_iff]
  simp

theorem report_of_list {members : Dict Json} {diagnostics : List Json}
    (h : (Dict.get? members "errors").getD (.arr []) = .arr diagnostics) (missing : Dict String) :
    report missing (.obj members)
      = .obj (Dict.insert "errors" (.arr (reportIn missing diagnostics)) members) := by
  simp only [report, h]

theorem report_of_not_list {members : Dict Json} {errors : Json}
    (h : Dict.get? members "errors" = some errors) (hother : ∀ diagnostics, errors ≠ .arr diagnostics)
    (missing : Dict String) : report missing (.obj members) = .obj members := by
  simp only [report, h, Option.getD_some]

/-- A list of diagnostics, taken as empty where there is none, is reported on as a whole. -/
theorem reported_of_list {missing : Dict String} (hsorted : missing.Sorted) {members : Dict Json}
    {diagnostics : List Json}
    (hlisted : Dict.get? members "errors" = some (.arr diagnostics)
      ∨ Dict.get? members "errors" = none ∧ diagnostics = []) :
    Reported missing (.obj members) (report missing (.obj members)) := by
  have hlist : (Dict.get? members "errors").getD (.arr []) = .arr diagnostics := by
    rcases hlisted with hsome | ⟨hnone, rfl⟩
    · rw [hsome]
      rfl
    · rw [hnone]
      rfl
  rw [report_of_list hlist]
  refine .listed hlisted (stands_all hsorted diagnostics) ?_ ?_ ?_
  · rw [Dict.get?_insert_self]
    unfold reportIn
    simp only [contains_filterMap_eq]
  · intro key hkey
    rw [Dict.get?_insert, if_neg hkey]
  · intro hmembers
    exact Dict.sorted_insert hmembers _ _

/-- **A report changes what it must and nothing else.** -/
theorem reported_report {missing : Dict String} (hsorted : missing.Sorted) (answer : Json) :
    Reported missing answer (report missing answer) := by
  cases answer with
  | obj members =>
      cases herrors : Dict.get? members "errors" with
      | none => exact reported_of_list hsorted (Or.inr ⟨herrors, rfl⟩)
      | some errors =>
          by_cases hlist : ∃ diagnostics, errors = .arr diagnostics
          · obtain ⟨diagnostics, rfl⟩ := hlist
            exact reported_of_list hsorted (Or.inl herrors)
          · have hother : ∀ diagnostics, errors ≠ .arr diagnostics := by
              intro diagnostics heq
              exact hlist ⟨diagnostics, heq⟩
            rw [report_of_not_list herrors hother]
            refine .unlisted ?_
            intro others heq
            cases heq
            exact ⟨errors, herrors, hother⟩
  | _ => exact .unlisted (by intro members heq; cases heq)

/-- Three missing units. A message about the second one starts like a message about the first. -/
def overlapping : Dict String :=
  [("a", "no a"), ("a\" not found: Source \"b", "no b"), ("c", "no c")]

/-- A diagnostic that tells of the first two of them and quotes its message twice, one that is no
object, and one that tells of a unit that is not missing. -/
def overlappingAnswer : Json :=
  .obj [("errors", .arr [
    .obj [("formattedMessage", .str ("A.sol: Source \"a\" not found: Source \"b\" not found: x, "
        ++ "Source \"a\" not found: Source \"b\" not found: x")),
      ("message", .str "Source \"a\" not found: Source \"b\" not found: x")],
    .str "Source \"c\" not found: x",
    .obj [("message", .str "Source \"d\" not found: x")]]), ("version", .str "1")]

/-- That answer with the units reported. -/
def overlappingReport : Json :=
  .obj [("errors", .arr [
    .obj [("formattedMessage", .str ("A.sol: Source \"a\" not found: no a, "
        ++ "Source \"a\" not found: Source \"b\" not found: x")),
      ("message", .str "Source \"a\" not found: no a")],
    .str "Source \"c\" not found: x",
    .obj [("message", .str "Source \"d\" not found: x")],
    (Diagnostic.sourceNotFound "a\" not found: Source \"b" "no b").toJson,
    (Diagnostic.sourceNotFound "c" "no c").toJson]), ("version", .str "1")]

/-- The unit that the diagnostic is not about gets one of its own. -/
theorem reported_report_overlapping :
    overlapping.Sorted ∧ report overlapping overlappingAnswer = overlappingReport
      ∧ Reported overlapping overlappingAnswer overlappingReport := by
  have hsorted : overlapping.Sorted := by
    unfold Dict.Sorted
    decide +kernel
  have hreport : report overlapping overlappingAnswer = overlappingReport := by decide +kernel
  have hreported := reported_report hsorted overlappingAnswer
  rw [hreport] at hreported
  exact ⟨hsorted, hreport, hreported⟩

end SolFront.Import
