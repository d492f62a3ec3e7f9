import SolFront.Import.Report
import SolFront.Proofs.Dict

/-!
# What a report says of a missing unit

Every missing unit has a diagnostic in the report. It is one of the compiler's, with the reason put
into its message and its severity as it was; or, if no diagnostic of the compiler is about the unit,
one of its own. That two units start a message alike does not matter: a diagnostic is about the
first of them, and the other one is left without, so it gets its own.
-/

namespace SolFront.Import

/-- The diagnostic tells that the unit is missing: its message starts so. -/
def Tells (members : Dict Json) (unit : String) : Prop :=
  ∃ text, Dict.get? members "message" = some (.str text)
    ∧ Text.startsWith (Diagnostic.notFoundStart unit).toList text.toList = true

/-- A diagnostic of the report about a missing unit. -/
inductive Explains (diagnostics : List Json) (unit reason : String) : Json → Prop where
  | reworded {members reworded : Dict Json} (hmem : .obj members ∈ diagnostics)
      (htells : Tells members unit)
      (hmessage : Dict.get? reworded "message"
        = some (.str (Diagnostic.notFoundStart unit ++ reason)))
      (hseverity : Dict.get? reworded "severity" = Dict.get? members "severity") :
      Explains diagnostics unit reason (.obj reworded)
  | added : Explains diagnostics unit reason (Diagnostic.sourceNotFound unit reason).toJson

theorem get?_reword_message (members : Dict Json) (old new : String) :
    Dict.get? (reword members old new) "message" = some (.str new) :=
  Dict.get?_insert_self _ _ _

theorem get?_reword_of_ne (members : Dict Json) (old new : String) {key : String}
    (hmessage : key ≠ "message") (hshown : key ≠ "formattedMessage") :
    Dict.get? (reword members old new) key = Dict.get? members key := by
  unfold reword
  rw [Dict.get?_insert, if_neg hmessage]
  split
  · rw [Dict.get?_insert, if_neg hshown]
  · rfl

/-- The unit that a message is about has the reason that it has as a missing unit. -/
theorem subject?_eq_some {missing : Dict String} {message unit reason : String}
    (h : subject? missing message = some (unit, reason)) :
    Dict.get? missing unit = some reason
      ∧ Text.startsWith (Diagnostic.notFoundStart unit).toList message.toList = true := by
  unfold subject? at h
  induction missing with
  | nil => cases h
  | cons e missing ih =>
      rw [List.find?_cons] at h
      split at h
      · rename_i hstarts
        cases h
        exact ⟨by rw [Dict.get?_cons, if_pos rfl], hstarts⟩
      · rename_i hstarts
        obtain ⟨hget, htells⟩ := ih h
        have hne : unit ≠ e.1 := by
          rintro rfl
          rw [htells] at hstarts
          cases hstarts
        exact ⟨by rw [Dict.get?_cons, if_neg hne, hget], htells⟩

theorem explain_eq_some {missing : Dict String} {diagnostic explained : Json} {unit : String}
    (h : explain missing diagnostic = (explained, some unit)) :
    ∃ members text reason, diagnostic = .obj members
      ∧ Dict.get? members "message" = some (.str text)
      ∧ subject? missing text = some (unit, reason)
      ∧ explained = .obj (reword members text (Diagnostic.notFoundStart unit ++ reason)) := by
  unfold explain at h
  split at h
  · rename_i members text htext
    split at h
    · rename_i unit' reason hsubject
      cases h
      refine ⟨members, text, reason, rfl, ?_, hsubject, rfl⟩
      obtain ⟨value, hvalue, hvalue'⟩ := Option.bind_eq_some_iff.mp htext
      cases value with
      | str _ => exact hvalue.trans (congrArg (fun s => some (Json.str s)) (Option.some.inj hvalue'))
      | _ => cases hvalue'
    · cases h
  · cases h

/-- **Every missing unit has a diagnostic that explains it.** -/
theorem reportIn_explains {missing : Dict String} (diagnostics : List Json) {unit reason : String}
    (h : Dict.get? missing unit = some reason) :
    ∃ item ∈ reportIn missing diagnostics, Explains diagnostics unit reason item := by
  unfold reportIn
  dsimp only
  by_cases htold : unit ∈ (diagnostics.map (explain missing)).filterMap (·.2)
  · obtain ⟨pair, hpair, hunit⟩ := List.mem_filterMap.mp htold
    obtain ⟨diagnostic, hmem, rfl⟩ := List.mem_map.mp hpair
    have hexplain : explain missing diagnostic = ((explain missing diagnostic).1, some unit) :=
      Prod.ext rfl hunit
    obtain ⟨members, text, reason', rfl, htext, hsubject, hexplained⟩ := explain_eq_some hexplain
    obtain ⟨hreason, hstarts⟩ := subject?_eq_some hsubject
    obtain rfl : reason' = reason := Option.some.inj (hreason.symm.trans h)
    refine ⟨_, List.mem_append_left _ (List.mem_map_of_mem hpair), ?_⟩
    rw [hexplained]
    exact .reworded hmem ⟨text, htext, hstarts⟩ (get?_reword_message _ _ _)
      (get?_reword_of_ne _ _ _ (by decide) (by decide))
  · refine ⟨_, List.mem_append_right _ (List.mem_map_of_mem (List.mem_filter.mpr
      ⟨Dict.mem_of_get? h, ?_⟩)), .added⟩
    simpa using htold

/-- **A report has the members of the answer**, but for the diagnostics. -/
theorem report_members {missing : Dict String} {answer : Json} {reported : Dict Json}
    (h : report missing answer = .obj reported) :
    ∃ members : Dict Json, answer = .obj members ∧ (members.Sorted → reported.Sorted)
      ∧ ∀ key, key ≠ "errors" → Dict.get? reported key = Dict.get? members key := by
  cases answer with
  | obj members =>
      unfold report at h
      dsimp only at h
      split at h
      · cases h
        exact ⟨members, rfl, fun hsorted => Dict.sorted_insert hsorted _ _,
          fun key hkey => (Dict.get?_insert _ _ _ _).trans (if_neg hkey)⟩
      · cases h
        exact ⟨reported, rfl, id, fun _ _ => rfl⟩
  | _ => cases h

end SolFront.Import
