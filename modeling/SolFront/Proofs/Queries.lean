import SolFront.Proofs.Repetition

/-!
# How the handling of queries ends

Queries are solved in the order of their hashes, one call of the solver for each, until all are
answered or something fails: a query that is no text, for which the solver is not called, or a query
that it does not solve. Only when all are answered is the request looked at, and only a request that
is an object is changed, in one member. However the handling ends otherwise, the request is what it
was.

What the solver is given is seen in a record of its calls, which changes nothing but the record. The
solver may do what it likes with its own state.
-/

namespace SolFront.Smt

open Compilation (Asks answered handle_run queries_eq_some_iff)

variable {σ : Type}

/-! ## The calls of a solver -/

/-- Queries that a solver was given, in order, with what it said. -/
abbrev Calls := List (String × Except String String)

/-- A solver with a state, under a record of its calls. -/
def recorded (solve : String → StateM σ (Except String String)) :
    String → StateM (σ × Calls) (Except String String) := fun query s =>
  let answer := (solve query).run s.1
  (answer.1, (answer.2, s.2 ++ [(query, answer.1)]))

/-- A query that has been answered. -/
structure Answered where
  hash : String
  query : String
  answer : String

namespace Answered

/-- The query as it is asked for. -/
def asked (a : Answered) : String × Json := (a.hash, .str a.query)

/-- The call of the solver. -/
def call (a : Answered) : String × Except String String := (a.query, .ok a.answer)

/-- The answer as the request gets it. -/
def response (a : Answered) : String × Json := (a.hash, .str a.answer)

end Answered

/-- Queries that are asked for, the calls of the solver for them, and what has come out. -/
inductive Solving : Dict Json → Calls → Except QueryFailure (Dict Json) → Prop where
  /-- All are answered, each in a call of its own. -/
  | all (done : List Answered) :
      Solving (done.map Answered.asked) (done.map Answered.call) (.ok (done.map Answered.response))
  /-- The solver is not called for what is no text, nor for anything behind it. -/
  | notText (done : List Answered) {hash : String} {value : Json} {later : Dict Json}
      (h : ∀ query, value ≠ .str query) :
      Solving (done.map Answered.asked ++ (hash, value) :: later) (done.map Answered.call)
        (.error (.notText hash))
  /-- The call that fails is the last one. -/
  | unsolved (done : List Answered) {hash query reason : String} {later : Dict Json} :
      Solving (done.map Answered.asked ++ (hash, .str query) :: later)
        (done.map Answered.call ++ [(query, .error reason)]) (.error (.unsolved reason))

theorem Solving.cons {queries : Dict Json} {calls : Calls}
    {result : Except QueryFailure (Dict Json)} (h : Solving queries calls result) (a : Answered) :
    Solving (a.asked :: queries) (a.call :: calls) (result.map (a.response :: ·)) := by
  cases h with
  | all done => exact .all (a :: done)
  | notText done hvalue => exact .notText (a :: done) hvalue
  | unsolved done => exact .unsolved (a :: done)

theorem solveAll_str_run {ρ : Type} (solve : String → StateM ρ (Except String String))
    (hash query : String) (queries : Dict Json) (s : ρ) :
    (solveAll solve ((hash, .str query) :: queries)).run s
      = match (solve query).run s with
        | (.error reason, s') => (.error (.unsolved reason), s')
        | (.ok answer, s') =>
          (((solveAll solve queries).run s').1.map ((hash, .str answer) :: ·),
            ((solveAll solve queries).run s').2) := by
  rw [solveAll, Import.run_then]
  rcases (solve query).run s with ⟨_ | answer, s'⟩
  · rfl
  · dsimp only
    rw [Import.run_then]
    cases ((solveAll solve queries).run s').1 <;> rfl

/-- **Queries are solved in order**, up to the first that is no text or is not solved. -/
theorem solveAll_run (solve : String → StateM σ (Except String String)) :
    ∀ (queries : Dict Json) (s : σ) (log : Calls),
      ∃ calls, (solveAll (recorded solve) queries).run (s, log)
          = (((solveAll solve queries).run s).1, (((solveAll solve queries).run s).2, log ++ calls))
        ∧ Solving queries calls ((solveAll solve queries).run s).1
  | [], s, log => ⟨[], by rw [List.append_nil]; rfl, .all []⟩
  | (hash, value) :: queries, s, log => by
      cases value with
      | str query =>
          have hcall : (recorded solve query).run (s, log)
              = (((solve query).run s).1,
                  (((solve query).run s).2, log ++ [(query, ((solve query).run s).1)])) := rfl
          rw [solveAll_str_run, solveAll_str_run, hcall]
          rcases (solve query).run s with ⟨reason | answer, s'⟩
          · exact ⟨[(query, .error reason)], rfl, .unsolved []⟩
          · -- the rest is solved under a record that has this call already
            obtain ⟨calls, hrun, hsolving⟩ :=
              solveAll_run solve queries s' (log ++ [(query, .ok answer)])
            refine ⟨(query, .ok answer) :: calls, ?_, hsolving.cons ⟨hash, query, answer⟩⟩
            dsimp only
            rw [hrun, List.append_assoc]
            rfl
      | _ => exact ⟨[], by rw [List.append_nil]; rfl, .notText [] (by simp)⟩

/-! ## The request -/

/-- Whether a request has been given answers, and what it is afterwards. -/
def outcome (request : Json) : Except QueryFailure (Option Json) → Except QueryFailure Bool × Json
  | .ok (some changed) => (.ok true, changed)
  | .ok none => (.ok false, request)
  | .error e => (.error e, request)

/-- The members of a request before and after it has been given answers. -/
structure Renewed (responses before after : Dict Json) : Prop where
  /-- All answers that were given before are gone. -/
  given : Dict.get? after "auxiliaryInput" = some (.obj [("smtlib2responses", .obj responses)])
  others : ∀ key, key ≠ "auxiliaryInput" → Dict.get? after key = Dict.get? before key
  sorted : before.Sorted → after.Sorted

/-- How the handling of the queries in an answer can end: the calls of the solver, whether the
request has been given answers, and what it is afterwards. -/
inductive Handled (request answer : Json) : Calls → Except QueryFailure Bool → Json → Prop where
  /-- No queries are asked for. -/
  | idle (h : ∀ members queries, ¬ Asks answer members queries) :
      Handled request answer [] (.ok false) request
  | unsolved {members queries : Dict Json} {calls : Calls} {e : QueryFailure}
      (hasks : Asks answer members queries) (h : Solving queries calls (.error e)) :
      Handled request answer calls (.error e) request
  /-- All queries are answered before the request is looked at. -/
  | notObject {members queries responses : Dict Json} {calls : Calls}
      (hasks : Asks answer members queries) (h : Solving queries calls (.ok responses))
      (hrequest : ∀ before, request ≠ .obj before) :
      Handled request answer calls (.error .requestNotObject) request
  | given {members queries responses before after : Dict Json} {calls : Calls}
      (hasks : Asks answer members queries) (h : Solving queries calls (.ok responses))
      (hrequest : request = .obj before) (hafter : Renewed responses before after) :
      Handled request answer calls (.ok true) (.obj after)

section

variable {request answer after : Json} {calls : Calls} {result : Except QueryFailure Bool}

/-- **All or nothing**: a request that is not given all answers stays as it is. -/
theorem Handled.left (h : Handled request answer calls result after) (hresult : result ≠ .ok true) :
    after = request := by
  cases h with
  | given => exact absurd rfl hresult
  | _ => rfl

theorem Handled.idle_iff (h : Handled request answer calls result after) :
    result = .ok false ↔ ∀ members queries, ¬ Asks answer members queries := by
  cases h with
  | idle h => exact iff_of_true rfl h
  | unsolved hasks _ => exact iff_of_false (by simp) fun h => h _ _ hasks
  | notObject hasks _ _ => exact iff_of_false (by simp) fun h => h _ _ hasks
  | given hasks _ _ _ => exact iff_of_false (by simp) fun h => h _ _ hasks

/-- A request that cannot be given answers is refused if there are queries. -/
theorem Handled.refused (h : Handled request answer calls result after)
    {members queries : Dict Json} (hasks : Asks answer members queries)
    (hrequest : ∀ before, request ≠ .obj before) : ∃ e, result = .error e := by
  cases h with
  | idle h => exact absurd hasks (h _ _)
  | unsolved _ _ => exact ⟨_, rfl⟩
  | notObject _ _ _ => exact ⟨_, rfl⟩
  | given _ _ hobject _ => exact absurd hobject (hrequest _)

end

theorem renewed_insert (responses before : Dict Json) :
    Renewed responses before
      (Dict.insert "auxiliaryInput" (.obj [("smtlib2responses", .obj responses)]) before) where
  given := Dict.get?_insert_self _ _ _
  others := fun key hkey => by rw [Dict.get?_insert, if_neg hkey]
  sorted := fun h => Dict.sorted_insert h _ _

/-! ## The handling -/

theorem handle_none_run {ρ : Type} {solve : String → StateM ρ (Except String String)}
    {answer : Json} (hq : queries answer = none) (request : Json) (s : ρ) :
    (handle solve request answer).run s = (.ok none, s) := by
  unfold handle
  rw [hq]
  rfl

/-- **The queries of an answer are handled as a whole**, however the solver behaves: a record of its
calls changes nothing but the record, and the request is given the answers to all queries or stays
as it is. It stays if nothing is asked for, and if it is no object although something is, the
handling fails. The order of the queries is that of their hashes. -/
theorem handle_ends (solve : String → StateM σ (Except String String)) (request answer : Json)
    (s : σ) :
    ∃ (calls : Calls) (result : Except QueryFailure Bool) (after : Json),
      (handle (recorded solve) request answer).run (s, [])
          = (((handle solve request answer).run s).1,
              (((handle solve request answer).run s).2, calls))
        ∧ outcome request ((handle solve request answer).run s).1 = (result, after)
        ∧ Handled request answer calls result after
        ∧ (result ≠ .ok true → after = request)
        ∧ (result = .ok false ↔ ∀ members queries, ¬ Asks answer members queries)
        ∧ (∀ members queries, Asks answer members queries → (∀ before, request ≠ .obj before) →
            ∃ e, result = .error e)
        ∧ ∀ n members queries, Json.Canonical n answer → Asks answer members queries →
            queries.Sorted := by
  suffices h : ∃ calls result after,
      (handle (recorded solve) request answer).run (s, [])
          = (((handle solve request answer).run s).1,
              (((handle solve request answer).run s).2, calls))
        ∧ outcome request ((handle solve request answer).run s).1 = (result, after)
        ∧ Handled request answer calls result after by
    obtain ⟨calls, result, after, hrun, houtcome, hhandled⟩ := h
    exact ⟨calls, result, after, hrun, houtcome, hhandled, hhandled.left, hhandled.idle_iff,
      fun _ _ => hhandled.refused, fun _ _ _ hanswer hasks => hasks.sorted hanswer⟩
  cases hq : queries answer with
  | none =>
      have hidle : ∀ members queries, ¬ Asks answer members queries := by
        intro members queries hasks
        rw [queries_eq_some_iff.mpr ⟨members, hasks⟩] at hq
        cases hq
      rw [handle_none_run hq, handle_none_run hq]
      exact ⟨[], .ok false, request, rfl, rfl, .idle hidle⟩
  | some queries =>
      obtain ⟨members, hasks⟩ := queries_eq_some_iff.mp hq
      obtain ⟨calls, hrun, hsolving⟩ := solveAll_run solve queries s []
      rw [handle_run hq, handle_run hq, hrun]
      cases hsolved : ((solveAll solve queries).run s).1 with
      | error e =>
          rw [hsolved] at hsolving
          exact ⟨calls, .error e, request, rfl, rfl, .unsolved hasks hsolving⟩
      | ok responses =>
          rw [hsolved] at hsolving
          cases request with
          | obj before =>
              exact ⟨calls, .ok true, _, rfl, rfl,
                .given hasks hsolving rfl (renewed_insert responses before)⟩
          | _ =>
              exact ⟨calls, .error .requestNotObject, _, rfl, rfl,
                .notObject hasks hsolving (by simp)⟩

/-- A request that is no object is not refused where nothing is asked for. -/
theorem handle_number_idle :
    (∀ before, Json.num (.int 5) ≠ .obj before)
      ∧ (outcome (.num (.int 5))
          ((handle (m := StateM Unit) (fun _ => pure (.error "no answer")) (.num (.int 5))
            (.obj [])).run ()).1)
        = (.ok false, .num (.int 5))
      ∧ ¬ ∃ e, ((handle (m := StateM Unit) (fun _ => pure (.error "no answer")) (.num (.int 5))
            (.obj [])).run ()).1 = .error e := by
  have hrun : ((handle (m := StateM Unit) (fun _ => pure (.error "no answer")) (.num (.int 5))
      (.obj [])).run ()).1 = .ok none := rfl
  rw [hrun]
  exact ⟨by simp, rfl, by simp⟩

end SolFront.Smt
