import SolFront.Proofs.Json.Floats
import SolFront.Proofs.Repetition

/-!
# Whether the result of a compilation is JSON

The first answer is read before anything is made of it, and a warning is put into a value, so both
are shown as JSON. The second answer is not read. So what is shown is JSON exactly if the second
answer, where there is one, is.
-/

namespace SolFront

/-- The text is JSON. -/
def Json.Denotes (text : String) : Prop :=
  ∃ value, Json.read text = .ok value

/-- Laying out a text anew makes it neither more nor less of a JSON text. -/
theorem Json.denotes_reformat {text : String} {pretty : Bool} :
    Denotes (reformat text pretty) ↔ Denotes text := by
  cases pretty with
  | false => exact Iff.rfl
  | true =>
      unfold reformat
      cases hread : read text with
      | error e =>
          have hnone : ¬ Denotes text := by
            rintro ⟨value, hvalue⟩
            rw [hread] at hvalue
            cases hvalue
          exact Iff.rfl
      | ok value =>
          have hrender := exists_read_render (canonical_of_read hread) true
          exact iff_of_true hrender ⟨value, hread⟩

namespace Compilation

variable {σ : Type}

/-! ## The warning -/

theorem canonical_generalWarning (n : Nat) (message : String) :
    Json.Canonical (n + 1) (generalWarning message) := by
  have hkeys : ["component", "formattedMessage", "message", "severity", "type"].Pairwise (· < ·) := by
    decide
  refine .obj (List.pairwise_map.mp hkeys) ?_
  intro e he
  simp only [List.mem_cons, List.not_mem_nil, or_false] at he
  rcases he with rfl | rfl | rfl | rfl | rfl <;> exact .str _

/-- The diagnostics of an answer are two brackets deep. -/
theorem canonical_listed {n : Nat} {members : Dict Json}
    (h : ∀ e ∈ members, Json.Canonical (n + 1) e.2) {diagnostic : Json}
    (hmem : diagnostic ∈ listed (Dict.get? members "errors")) : Json.Canonical n diagnostic := by
  cases herrors : Dict.get? members "errors" with
  | none =>
      rw [herrors] at hmem
      exact absurd hmem List.not_mem_nil
  | some errors =>
      rw [herrors] at hmem
      have hcanonical := h _ (Dict.mem_of_get? herrors)
      cases errors with
      | arr diagnostics =>
          cases hcanonical with
          | arr hall => exact hall diagnostic hmem
      | _ => exact absurd hmem List.not_mem_nil

/-- **An answer with a warning is in canonical form** if it was before. -/
theorem Warned.canonical {n : Nat} {message : String} {before after : Dict Json}
    (h : Warned message before after) (hbefore : Json.Canonical (n + 3) (.obj before)) :
    Json.Canonical (n + 3) (.obj after) := by
  cases hbefore with
  | obj _ hmembers =>
      refine .obj h.sorted ?_
      rintro ⟨key, value⟩ hmem
      have hget : Dict.get? after key = some value := 
        Dict.get?_of_mem (Dict.nodup_keys_of_sorted h.sorted) hmem
      by_cases hkey : key = "errors"
      · rw [hkey, h.errors] at hget
        cases hget
        refine .arr fun diagnostic hdiagnostic => ?_
        rcases List.mem_append.mp hdiagnostic with hold | hnew
        · exact canonical_listed hmembers hold
        · rw [List.mem_singleton.mp hnew]
          exact canonical_generalWarning n message
      · rw [h.others key hkey] at hget
        exact hmembers _ (Dict.mem_of_get? hget)

/-! ## The second answer -/

/-- The answer that takes the place of the first one. The first one asks for queries, there is a
solver, and all goes well after that. -/
inductive SecondAnswer (s : RequestSetting (StateM σ)) (request : String) (st : σ) :
    String → Prop where
  | mk {text second : String} {answer : Json} {members queries : Dict Json}
      {solver : Smt.Solver} {solvers : List Smt.Solver} {more : List String}
      (hfirst : (firstRun s request st).1 = .ok text) (hread : Json.read text = .ok answer)
      (hasks : Asks answer members queries) (hsolver : s.solvers = solver :: solvers)
      (hagain : Repetition s solver request queries (firstRun s request st).2 (.ok second) more) :
      SecondAnswer s request st second

theorem Asks.unique {answer : Json} {members members' queries queries' : Dict Json}
    (h : Asks answer members queries) (h' : Asks answer members' queries') : queries = queries' := by
  have hsome := queries_eq_some_iff.mpr ⟨members, h⟩
  rw [queries_eq_some_iff.mpr ⟨members', h'⟩] at hsome
  exact (Option.some.inj hsome).symm

/-- A repetition that ends with an answer ends in no other way. -/
theorem Repetition.unique {s : RequestSetting (StateM σ)} {solver : Smt.Solver}
    {request second : String} {queries : Dict Json} {st : σ}
    {result : Except String String} {more more' : List String}
    (h : Repetition s solver request queries st (.ok second) more)
    (h' : Repetition s solver request queries st result more') : result = .ok second := by
  cases h with
  | answered hjson hsolve hrun =>
      cases h' with
      | notJson hjson' _ =>
          rw [hjson] at hjson'
          cases hjson'
      | unsolved _ hsolve' _ =>
          rw [hsolve] at hsolve'
          cases hsolve'
      | notObject hjson' _ hvalue =>
          rw [hjson] at hjson'
          exact absurd (Except.ok.inj hjson').symm (hvalue _)
      | failed hjson' hsolve' hrun' =>
          rw [hjson] at hjson'
          rw [hsolve] at hsolve'
          cases hjson'
          cases hsolve'
          rw [hrun] at hrun'
          cases hrun'
      | answered hjson' hsolve' hrun' =>
          rw [hjson] at hjson'
          rw [hsolve] at hsolve'
          cases hjson'
          cases hsolve'
          rw [hrun] at hrun'
          cases hrun'
          rfl

/-- Nothing but the second answer is made of the first one where there is a second. -/
theorem Ending.of_second {s : RequestSetting (StateM σ)} {solver : Smt.Solver}
    {solvers : List Smt.Solver} {request text shown second : String} {answer : Json}
    {members queries : Dict Json} {st : σ} {more more' : List String}
    (h : Ending s request text answer st shown more) (hasks : Asks answer members queries)
    (hsolver : s.solvers = solver :: solvers)
    (hagain : Repetition s solver request queries st (.ok second) more') : shown = second := by
  cases h with
  | kept hkept =>
      rcases hkept with hnone | hnil
      · exact absurd hasks (hnone members queries)
      · rw [hsolver] at hnil
        cases hnil
  | replaced hasks' hsolver' hagain' =>
      obtain rfl := hasks.unique hasks'
      cases hsolver.symm.trans hsolver'
      exact Except.ok.inj (hagain.unique hagain')
  | warned hasks' hsolver' hagain' _ =>
      obtain rfl := hasks.unique hasks'
      cases hsolver.symm.trans hsolver'
      cases hagain.unique hagain'

/-! ## What is shown -/

variable (s : RequestSetting (StateM σ)) (request : String) (st : σ)

theorem compileRequest_of_read {text : String} {answer : Json}
    (hfirst : (firstRun s request st).1 = .ok text) (hread : Json.read text = .ok answer) :
    ∃ shown more, ((compileRequest s request).run st).1 = .ok (Json.reformat shown s.pretty)
      ∧ Ending s request text answer (firstRun s request st).2 shown more := by
  obtain ⟨result, st', shown, more, hrun, -, hshown, hending⟩ :=
    retry_run s request hread (firstRun s request st).2 []
  refine ⟨shown, more, ?_, hending⟩
  rw [compileRequest_run, hfirst, afterFirst_run hrun hshown]

/-- There is a result only if the first answer is JSON. -/
theorem exists_read_of_shown {shown : String}
    (h : ((compileRequest s request).run st).1 = .ok shown) :
    ∃ text answer, (firstRun s request st).1 = .ok text ∧ Json.read text = .ok answer := by
  rw [compileRequest_run] at h
  cases hfirst : (firstRun s request st).1 with
  | error reason =>
      rw [hfirst] at h
      cases h
  | ok text =>
      cases hread : Json.read text with
      | error e =>
          rw [hfirst, afterFirst_notJson s request hread] at h
          cases h
      | ok answer => exact ⟨text, answer, rfl, hread⟩

/-- The second answer is shown as it is, or laid out anew. -/
theorem compileRequest_second {second : String} (h : SecondAnswer s request st second) :
    ((compileRequest s request).run st).1 = .ok (Json.reformat second s.pretty) := by
  cases h with
  | mk hfirst hread hasks hsolver hagain =>
      obtain ⟨shown, more, hshown, hending⟩ := compileRequest_of_read s request st hfirst hread
      rw [hshown, hending.of_second hasks hsolver hagain]

/-- All that is shown but the second answer is JSON. -/
theorem Ending.denotes {text shown : String} {answer : Json} {more : List String}
    (hfirst : (firstRun s request st).1 = .ok text) (hread : Json.read text = .ok answer)
    (h : Ending s request text answer (firstRun s request st).2 shown more)
    (hsecond : ∀ second, SecondAnswer s request st second → Json.Denotes second) :
    Json.Denotes shown := by
  cases h with
  | kept _ => exact ⟨answer, hread⟩
  | replaced hasks hsolver hagain => exact hsecond shown (.mk hfirst hread hasks hsolver hagain)
  | warned hasks _ _ hwarned =>
      obtain rfl := hasks.object
      -- the list of diagnostics and the warning in it need two brackets of those allowed
      have hcanonical : Json.Canonical (124 + 3) (.obj _) := Json.canonical_of_read hread
      exact Json.exists_read_render (hwarned.canonical hcanonical) false

/-- **What is shown is JSON exactly if the second answer is**, where there is one: it is passed on
as it is. -/
theorem compileRequest_shows_json_iff :
    (∀ second, SecondAnswer s request st second →
        ((compileRequest s request).run st).1 = .ok (Json.reformat second s.pretty))
      ∧ ((∀ shown, ((compileRequest s request).run st).1 = .ok shown → Json.Denotes shown)
        ↔ ∀ second, SecondAnswer s request st second → Json.Denotes second) := by
  refine ⟨fun second h => compileRequest_second s request st h, ?_, ?_⟩
  · intro hall second hsecond
    have hshown := compileRequest_second s request st hsecond
    exact Json.denotes_reformat.mp (hall _ hshown)
  · intro hsecond shown hshown
    obtain ⟨text, answer, hfirst, hread⟩ := exists_read_of_shown s request st hshown
    obtain ⟨raw, more, hraw, hending⟩ := compileRequest_of_read s request st hfirst hread
    rw [hraw] at hshown
    cases hshown
    exact Json.denotes_reformat.mpr (hending.denotes s request st hfirst hread hsecond)

/-- A compiler that gives prepared answers one after the other. -/
def prepared : Compiler (StateM (List String)) := fun _ _ answers =>
  match answers with
  | [] => (.error "There are no more answers", [])
  | answer :: answers => (.ok answer, answers)

/-- A solver to which every formula is satisfiable. -/
def alwaysSat : Programs (StateM (List String)) where
  run _ := pure (.ok ⟨.code 0, "sat\n".toUTF8.toList, []⟩)
  available _ := pure true

/-- The setting of a compiler with prepared answers and one solver. -/
def preparedSetting : RequestSetting (StateM (List String)) where
  compiler := prepared
  programs := alwaysSat
  console := Console.silent
  importer := none
  solvers := [⟨"z3", "z3", ["-in"]⟩]
  pretty := false

/-- An answer that asks for a query. -/
def asksOnce : String :=
  "\x7b\"auxiliaryInputRequested\":\x7b\"smtlib2queries\":\x7b\"0x01\":\"(check-sat)\"\x7d\x7d\x7d"

/-- **What is shown need not be JSON**: the second answer is passed on as it is. -/
theorem compileRequest_shows_crash :
    ¬ ∀ (s : RequestSetting (StateM (List String))) (request : String) (answers : List String)
        (text : String), ((compileRequest s request).run answers).1 = .ok text →
      Json.Denotes text := by
  intro hall
  have hrun : ((compileRequest preparedSetting "\x7b\x7d").run
      [asksOnce, "Segmentation fault"]).1.toOption = some "Segmentation fault" := by
    decide +kernel
  obtain ⟨value, hvalue⟩ := hall preparedSetting "\x7b\x7d" [asksOnce, "Segmentation fault"] _
    (Json.eq_ok_of_toOption hrun)
  have hread : (Json.read "Segmentation fault").toOption = none := by decide +kernel
  rw [hvalue] at hread
  cases hread

end Compilation

end SolFront
