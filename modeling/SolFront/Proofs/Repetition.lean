import SolFront.Proofs.Solving

/-!
# How the compilation of a request ends

The compiler is run once, and a second time if its answer asks for queries that a solver answers.
The first run decides whether there is a result at all: it has to give an answer, and the answer has
to be JSON. Whatever goes wrong later goes into a warning, and the warning can be put in because an
answer that asks for queries is an object.

To count the runs, the compiler is put under a record of the requests that it is given. That changes
nothing but the record.
-/

namespace SolFront.Compilation

variable {σ : Type}

/-! ## A record of the requests -/

/-- A computation beside a record that it has no part in. -/
def besideRecord {α : Type} (x : StateM σ α) : StateM (σ × List String) α := fun s =>
  ((x.run s.1).1, ((x.run s.1).2, s.2))

/-- The importer without the record it stands beside. -/
def withoutRecord (record : List String) (importer : Importer (StateM (σ × List String))) :
    Importer (StateM σ) := fun unit s =>
  (((importer unit).run (s, record)).1, ((importer unit).run (s, record)).2.1)

/-- The setting under a record of the requests that the compiler is given. -/
def RequestSetting.recorded (s : RequestSetting (StateM σ)) :
    RequestSetting (StateM (σ × List String)) where
  compiler request importer := fun t =>
    let answer := (s.compiler request (importer.map (withoutRecord t.2))).run t.1
    (answer.1, (answer.2, t.2 ++ [request]))
  programs :=
    ⟨fun command => besideRecord (s.programs.run command),
      fun name => besideRecord (s.programs.available name)⟩
  console :=
    ⟨fun line => besideRecord (s.console.print line),
      fun line => besideRecord (s.console.complain line)⟩
  importer := s.importer.map fun importer unit => besideRecord (importer unit)
  solvers := s.solvers
  pretty := s.pretty

theorem besideRecord_bind {α β : Type} (x : StateM σ α) (f : α → StateM σ β) :
    besideRecord (x >>= f) = besideRecord x >>= fun a => besideRecord (f a) := rfl

theorem withoutRecord_besideRecord (record : List String)
    (importer : Option (Importer (StateM σ))) :
    (importer.map fun importer unit => besideRecord (importer unit)).map (withoutRecord record)
      = importer := by
  cases importer <;> rfl

theorem compiler_recorded (s : RequestSetting (StateM σ)) (request : String) (st : σ)
    (record : List String) :
    (s.recorded.compiler request s.recorded.importer).run (st, record)
      = (((s.compiler request s.importer).run st).1,
          (((s.compiler request s.importer).run st).2, record ++ [request])) := by
  show (_, _) = _
  unfold RequestSetting.recorded
  dsimp only
  rw [withoutRecord_besideRecord]

theorem solveAll_besideRecord (solve : String → StateM σ (Except String String)) :
    ∀ queries : Dict Json, Smt.solveAll (fun query => besideRecord (solve query)) queries
      = besideRecord (Smt.solveAll solve queries)
  | [] => rfl
  | (hash, query) :: queries => by
      cases query with
      | str query =>
          rw [Smt.solveAll, Smt.solveAll, besideRecord_bind]
          refine congrArg (besideRecord (solve query) >>= ·) (funext fun answer => ?_)
          cases answer with
          | error reason => rfl
          | ok answer =>
              dsimp only
              rw [besideRecord_bind, solveAll_besideRecord solve queries]
              refine congrArg (besideRecord (Smt.solveAll solve queries) >>= ·)
                (funext fun answers => ?_)
              cases answers <;> rfl
      | _ => rfl

theorem solveWith_recorded (s : RequestSetting (StateM σ)) (solver : Smt.Solver)
    (query : String) :
    solveWith s.recorded.programs solver query
      = besideRecord (solveWith s.programs solver query) := by
  unfold solveWith Smt.Solver.solve
  rw [besideRecord_bind, besideRecord_bind]
  refine congrArg (· >>= _) (congrArg (_ >>= ·) (funext fun outcome => ?_))
  cases outcome <;> rfl

/-! ## The second run -/

/-- The request with the answers to its queries. -/
def requestAgain (members answers : Dict Json) : String :=
  (Json.obj (Dict.insert "auxiliaryInput" (.obj [("smtlib2responses", .obj answers)])
    members)).render false

/-- The solving of the queries. -/
def solving (s : RequestSetting (StateM σ)) (solver : Smt.Solver) (queries : Dict Json) :
    StateM σ (Except Smt.QueryFailure (Dict Json)) :=
  Smt.solveAll (solveWith s.programs solver) queries

/-- The second run of the compiler, which is announced like the first. -/
def runAgain (s : RequestSetting (StateM σ)) (members answers : Dict Json) :
    StateM σ (Except String String) := do
  announce s.console "Retrying compilation with SMT"
    ((Json.obj (Dict.insert "auxiliaryInput" (.obj [("smtlib2responses", .obj answers)])
      members)).render s.pretty)
  s.compiler (requestAgain members answers) s.importer

/-- What comes of the queries that an answer asks for, from the state in which it is given: the
second answer or in words what has failed, and what the compiler is given once more. -/
inductive Repetition (s : RequestSetting (StateM σ)) (solver : Smt.Solver) (request : String)
    (queries : Dict Json) (st : σ) : Except String String → List String → Prop where
  | notJson {e : Json.ReadError} {reason : String} (hjson : Json.read request = .error e)
      (hreason : Unread e reason) :
      Repetition s solver request queries st (.error reason) []
  | unsolved {value : Json} {e : Smt.QueryFailure} {reason : String}
      (hjson : Json.read request = .ok value)
      (hsolve : ((solving s solver queries).run st).1 = .error e)
      (hreason : Unsolved s.programs solver queries st reason) :
      Repetition s solver request queries st (.error reason) []
  | notObject {value : Json} {answers : Dict Json} (hjson : Json.read request = .ok value)
      (hsolve : ((solving s solver queries).run st).1 = .ok answers)
      (hvalue : ∀ members, value ≠ .obj members) :
      Repetition s solver request queries st (.error "The compiler input is not a JSON object") []
  | failed {members answers : Dict Json} {reason : String}
      (hjson : Json.read request = .ok (.obj members))
      (hsolve : ((solving s solver queries).run st).1 = .ok answers)
      (hrun : ((runAgain s members answers).run ((solving s solver queries).run st).2).1
        = .error reason) :
      Repetition s solver request queries st (.error reason) [requestAgain members answers]
  | answered {members answers : Dict Json} {second : String}
      (hjson : Json.read request = .ok (.obj members))
      (hsolve : ((solving s solver queries).run st).1 = .ok answers)
      (hrun : ((runAgain s members answers).run ((solving s solver queries).run st).2).1
        = .ok second) :
      Repetition s solver request queries st (.ok second) [requestAgain members answers]

/-- What the answers make of a request that has been read. -/
def answered (request : Json) (answers : Except Smt.QueryFailure (Dict Json)) :
    Except Smt.QueryFailure (Option Json) :=
  answers >>= fun answers => some <$> Smt.withAnswers answers request

theorem handle_run {solve : String → StateM σ (Except String String)} {answer : Json}
    {queries : Dict Json} (hq : Smt.queries answer = some queries) (request : Json) (st : σ) :
    (Smt.handle solve request answer).run st
      = (answered request ((Smt.solveAll solve queries).run st).1,
          ((Smt.solveAll solve queries).run st).2) := by
  unfold Smt.handle
  rw [hq]
  rfl

theorem handle_recorded_run (s : RequestSetting (StateM σ)) (solver : Smt.Solver)
    {answer : Json} {queries : Dict Json} (hq : Smt.queries answer = some queries)
    (request : Json) (st : σ) (record : List String) :
    (Smt.handle (solveWith s.recorded.programs solver) request answer).run (st, record)
      = (answered request ((solving s solver queries).run st).1,
          (((solving s solver queries).run st).2, record)) := by
  rw [handle_run hq, funext (solveWith_recorded s solver), solveAll_besideRecord]
  rfl

theorem runAgain_recorded (s : RequestSetting (StateM σ)) (members answers : Dict Json) (st : σ)
    (record : List String) :
    (runAgain s.recorded members answers).run (st, record)
      = (((runAgain s members answers).run st).1,
          (((runAgain s members answers).run st).2, record ++ [requestAgain members answers])) :=
  compiler_recorded s (requestAgain members answers) _ record

/-- What the second answer makes of the second run. -/
theorem finish_run {ρ : Type} {s : RequestSetting (StateM ρ)} {members answers : Dict Json}
    {st st' : ρ} {second : Except String String}
    (hrun : (runAgain s members answers).run st = (second, st')) :
    StateT.run (do
      announce s.console "Retrying compilation with SMT"
        ((Json.obj (Dict.insert "auxiliaryInput" (.obj [("smtlib2responses", .obj answers)])
          members)).render s.pretty)
      match ← s.compiler (requestAgain members answers) s.importer with
      | .error reason => return .error (RetryFailure.compiler reason)
      | .ok answer => return .ok (some answer)) st
      = ((second.mapError RetryFailure.compiler).map some, st') := by
  have hcompile : (s.compiler (requestAgain members answers) s.importer).run
      ((announce s.console "Retrying compilation with SMT"
        ((Json.obj (Dict.insert "auxiliaryInput" (.obj [("smtlib2responses", .obj answers)])
          members)).render s.pretty)).run st).2 = (second, st') := hrun
  rw [Import.run_then, Import.run_then, hcompile]
  cases second <;> rfl

/-- **The second run.** If queries are asked for, their answers and the second answer decide. -/
theorem retryWith_run (s : RequestSetting (StateM σ)) (solver : Smt.Solver) (request : String)
    {answer : Json} {queries : Dict Json} (hq : Smt.queries answer = some queries) (st : σ)
    (record : List String) :
    ∃ (result : Except RetryFailure String) (st' : σ) (more : List String),
      Repetition s solver request queries st (result.mapError RetryFailure.message) more
      ∧ (retryWith s solver request answer).run st = (result.map some, st')
      ∧ (retryWith s.recorded solver request answer).run (st, record)
        = (result.map some, (st', record ++ more)) := by
  unfold retryWith
  cases hjson : Json.read request with
  | error e =>
      refine ⟨.error (.notJson e), st, [], .notJson hjson (unread_of_read hjson), rfl, ?_⟩
      rw [List.append_nil]
      rfl
  | ok value =>
      have hhandle : (Smt.handle (solveWith s.programs solver) value answer).run st
          = (answered value ((solving s solver queries).run st).1,
              ((solving s solver queries).run st).2) := handle_run hq value st
      dsimp only
      rw [Import.run_then, Import.run_then, hhandle, handle_recorded_run s solver hq]
      cases hsolve : ((solving s solver queries).run st).1 with
      | error e =>
          refine ⟨.error (.queries e), _, [],
            .unsolved hjson hsolve (unsolved_of_solveAll hsolve), rfl, ?_⟩
          rw [List.append_nil]
          rfl
      | ok answers =>
          cases value with
          | obj members =>
              rcases hrun : (runAgain s members answers).run ((solving s solver queries).run st).2
                with ⟨second, st'⟩
              have hrecorded := runAgain_recorded s members answers
                ((solving s solver queries).run st).2 record
              rw [hrun] at hrecorded
              cases second with
              | error reason =>
                  exact ⟨.error (.compiler reason), st', [requestAgain members answers],
                    .failed hjson hsolve (congrArg Prod.fst hrun),
                    finish_run hrun, finish_run hrecorded⟩
              | ok second =>
                  exact ⟨.ok second, st', [requestAgain members answers],
                    .answered hjson hsolve (congrArg Prod.fst hrun),
                    finish_run hrun, finish_run hrecorded⟩
          | _ =>
              refine ⟨.error (.queries .requestNotObject), _, [],
                .notObject hjson hsolve (by simp), rfl, ?_⟩
              rw [List.append_nil]
              rfl

/-! ## What an answer asks for -/

/-- The answer is an object that asks for queries, of which there is at least one. -/
structure Asks (answer : Json) (members queries : Dict Json) : Prop where
  object : answer = .obj members
  requested : ∃ auxiliary, Dict.get? members "auxiliaryInputRequested" = some (.obj auxiliary)
    ∧ Dict.get? auxiliary "smtlib2queries" = some (.obj queries)
  nonempty : queries ≠ []

theorem queries_eq_some_iff {answer : Json} {queries : Dict Json} :
    Smt.queries answer = some queries ↔ ∃ members, Asks answer members queries := by
  constructor
  · intro h
    unfold Smt.queries at h
    obtain ⟨requested, hrequested, h⟩ := Option.bind_eq_some_iff.mp h
    obtain ⟨listed, hlisted, h⟩ := Option.bind_eq_some_iff.mp h
    obtain ⟨found, hfound, h⟩ := Option.bind_eq_some_iff.mp h
    -- a member of a value makes it an object
    obtain ⟨members, rfl⟩ : ∃ members, answer = .obj members := by
      cases answer with
      | obj members => exact ⟨members, rfl⟩
      | _ => cases hrequested
    obtain ⟨auxiliary, rfl⟩ : ∃ auxiliary, requested = .obj auxiliary := by
      cases requested with
      | obj auxiliary => exact ⟨auxiliary, rfl⟩
      | _ => cases hlisted
    obtain rfl : listed = .obj found := by
      cases listed with
      | obj _ => exact congrArg Json.obj (Option.some.inj hfound)
      | _ => cases hfound
    cases found with
    | nil => cases h
    | cons query found =>
        obtain rfl : query :: found = queries := Option.some.inj h
        exact ⟨members, rfl, ⟨auxiliary, hrequested, hlisted⟩, List.cons_ne_nil query found⟩
  · rintro ⟨members, rfl, ⟨auxiliary, hrequested, hlisted⟩, hnonempty⟩
    unfold Smt.queries
    rw [Json.member?, hrequested, Option.bind_eq_bind, Option.bind_some, Json.member?, hlisted]
    cases queries with
    | nil => exact absurd rfl hnonempty
    | cons query queries => rfl

theorem sorted_of_get? {n : Nat} {members inner : Dict Json} {key : String}
    (h : Json.Canonical n (.obj members)) (hget : Dict.get? members key = some (.obj inner)) :
    ∃ k, Json.Canonical k (.obj inner) ∧ inner.Sorted := by
  cases h with
  | @obj k _ _ hall =>
      have hinner := hall _ (Dict.mem_of_get? hget)
      refine ⟨k, hinner, ?_⟩
      cases hinner with
      | obj hsorted _ => exact hsorted

/-- The hashes of the queries ascend. -/
theorem Asks.sorted {n : Nat} {answer : Json} {members queries : Dict Json}
    (h : Asks answer members queries) (hanswer : Json.Canonical n answer) : queries.Sorted := by
  obtain ⟨rfl, ⟨auxiliary, hauxiliary, hqueries⟩, -⟩ := h
  obtain ⟨_, hcanonical, -⟩ := sorted_of_get? hanswer hauxiliary
  obtain ⟨_, -, hsorted⟩ := sorted_of_get? hcanonical hqueries
  exact hsorted

/-! ## The warning -/

/-- A warning that belongs to no source, as it stands in an answer. -/
def generalWarning (message : String) : Json :=
  .obj [("component", .str "general"), ("formattedMessage", .str message),
    ("message", .str message), ("severity", .str "warning"), ("type", .str "Warning")]

/-- The diagnostics that an answer has. What is no list holds none. -/
def listed : Option Json → List Json
  | some (.arr diagnostics) => diagnostics
  | _ => []

/-- An answer before and after a warning has been put behind its diagnostics. -/
structure Warned (message : String) (before after : Dict Json) : Prop where
  errors : Dict.get? after "errors"
    = some (.arr (listed (Dict.get? before "errors") ++ [generalWarning message]))
  others : ∀ key, key ≠ "errors" → Dict.get? after key = Dict.get? before key
  sorted : after.Sorted

theorem listed_eq (diagnostics : Option Json) :
    (diagnostics.bind Json.items?).getD [] = listed diagnostics := by
  cases diagnostics with
  | none => rfl
  | some diagnostics => cases diagnostics <;> rfl

/-- **An answer that is an object gets the warning.** -/
theorem withWarning_object {answer : String} {members : Dict Json}
    (h : Json.read answer = .ok (.obj members)) (message : String) :
    ∃ after, withWarning message answer = .ok ((Json.obj after).render false)
      ∧ Warned message members after := by
  refine ⟨_, by unfold withWarning; rw [h], ?_, ?_, ?_⟩
  · rw [Dict.get?_insert_self, addDiagnostic, listed_eq]
    rfl
  · exact fun key hkey => (Dict.get?_insert _ _ _ _).trans (if_neg hkey)
  · cases Json.canonical_of_read h with
    | obj hsorted _ => exact Dict.sorted_insert hsorted _ _

/-! ## The ending -/

/-- What is shown of an answer `text` that reads as `answer` and is given in the state `st`, and
what the compiler is given once more. -/
inductive Ending (s : RequestSetting (StateM σ)) (request text : String) (answer : Json) (st : σ) :
    String → List String → Prop where
  | kept (h : (∀ members queries, ¬ Asks answer members queries) ∨ s.solvers = []) :
      Ending s request text answer st text []
  | replaced {members queries : Dict Json} {solver : Smt.Solver} {solvers : List Smt.Solver}
      {second : String} {more : List String} (hasks : Asks answer members queries)
      (hsolver : s.solvers = solver :: solvers)
      (hagain : Repetition s solver request queries st (.ok second) more) :
      Ending s request text answer st second more
  | warned {members queries after : Dict Json} {solver : Smt.Solver} {solvers : List Smt.Solver}
      {reason : String} {more : List String} (hasks : Asks answer members queries)
      (hsolver : s.solvers = solver :: solvers)
      (hagain : Repetition s solver request queries st (.error reason) more)
      (hwarned : Warned reason members after) :
      Ending s request text answer st ((Json.obj after).render false) more

/-- What is shown of an answer after the attempt to repeat the compilation. -/
def shownAfter (text : String) : Except RetryFailure (Option String) → Except Failure String
  | .ok second => .ok (second.getD text)
  | .error failure => withWarning failure.message text

theorem length_more {s : RequestSetting (StateM σ)} {solver : Smt.Solver} {request : String}
    {queries : Dict Json} {st : σ} {result : Except String String} {more : List String}
    (h : Repetition s solver request queries st result more) : more.length ≤ 1 := by
  cases h <;> simp

theorem Ending.length_more {s : RequestSetting (StateM σ)} {request text shown : String}
    {answer : Json} {st : σ} {more : List String}
    (h : Ending s request text answer st shown more) : more.length ≤ 1 := by
  cases h with
  | kept _ => exact Nat.zero_le 1
  | replaced _ _ hagain => exact Compilation.length_more hagain
  | warned _ _ hagain _ => exact Compilation.length_more hagain

section

variable {ρ : Type} {s : RequestSetting (StateM ρ)} {request text : String} {answer : Json}
  {queries : Dict Json} {solver : Smt.Solver} {solvers : List Smt.Solver}

theorem retry_notAsked (hread : Json.read text = .ok answer) (hq : Smt.queries answer = none) :
    retry s request text = pure (.ok none) := by
  unfold retry
  rewrite [hread]
  dsimp only
  rewrite [hq]
  rfl

theorem retry_noSolver (hread : Json.read text = .ok answer)
    (hq : Smt.queries answer = some queries) (hs : s.solvers = []) :
    retry s request text = (do
      s.console.complain
        ">>> Cannot retry compilation with SMT because there are no SMT solvers available."
      return .ok none) := by
  unfold retry
  rewrite [hread]
  dsimp only
  rewrite [hq, hs]
  rfl

theorem retry_solver (hread : Json.read text = .ok answer)
    (hq : Smt.queries answer = some queries) (hs : s.solvers = solver :: solvers) :
    retry s request text = retryWith s solver request answer := by
  unfold retry
  rewrite [hread]
  dsimp only
  rewrite [hq, hs]
  rfl

end

/-- **After an answer that is JSON there is something to show**, whatever comes of the queries. -/
theorem retry_run (s : RequestSetting (StateM σ)) (request : String) {text : String}
    {answer : Json} (hread : Json.read text = .ok answer) (st : σ) (record : List String) :
    ∃ result st' shown more,
      (retry s request text).run st = (result, st')
      ∧ (retry s.recorded request text).run (st, record) = (result, (st', record ++ more))
      ∧ shownAfter text result = .ok shown
      ∧ Ending s request text answer st shown more := by
  cases hq : Smt.queries answer with
  | none =>
      have hnone : ∀ members queries, ¬ Asks answer members queries := by
        intro members queries hasks
        have hsome := queries_eq_some_iff.mpr ⟨members, hasks⟩
        rw [hq] at hsome
        cases hsome
      rw [retry_notAsked hread hq, retry_notAsked hread hq]
      refine ⟨.ok none, st, text, [], rfl, ?_, rfl, .kept (Or.inl hnone)⟩
      rw [List.append_nil]
      rfl
  | some queries =>
      obtain ⟨members, hasks⟩ := queries_eq_some_iff.mp hq
      cases hs : s.solvers with
      | nil =>
          have hs' : s.recorded.solvers = [] := hs
          rw [retry_noSolver hread hq hs, retry_noSolver hread hq hs']
          refine ⟨.ok none, _, text, [], rfl, ?_, rfl, .kept (Or.inr hs)⟩
          rw [List.append_nil]
          rfl
      | cons solver solvers =>
          have hs' : s.recorded.solvers = solver :: solvers := hs
          obtain ⟨result, st', more, hagain, hrun, hrecorded⟩ :=
            retryWith_run s solver request hq st record
          rw [← retry_solver hread hq hs] at hrun
          rw [← retry_solver hread hq hs'] at hrecorded
          cases result with
          | ok second =>
              exact ⟨.ok (some second), st', second, more, hrun, hrecorded, rfl,
                .replaced hasks hs hagain⟩
          | error failure =>
              -- an answer that asks for queries is an object, so it takes the warning
              obtain ⟨after, hafter, hwarned⟩ :=
                withWarning_object (hasks.object ▸ hread) failure.message
              exact ⟨.error failure, st', _, more, hrun, hrecorded, hafter,
                .warned hasks hs hagain hwarned⟩

/-- The first answer and the state in which it is given. -/
def firstRun (s : RequestSetting (StateM σ)) (request : String) (st : σ) :
    Except String String × σ :=
  (s.compiler request s.importer).run
    ((announce s.console "Compiling" (Json.reformat request s.pretty)).run st).2

/-- The end of a compilation, from the first answer on. -/
def afterFirst (s : RequestSetting (StateM σ)) (request : String) :
    Except String String → StateM σ (Except Failure String)
  | .error reason => pure (.error (.compiler reason))
  | .ok text => do
    match ← retry s request text with
    | .ok second => return .ok (Json.reformat (second.getD text) s.pretty)
    | .error e => return (withWarning e.message text).map fun text => Json.reformat text s.pretty

theorem compileRequest_run (s : RequestSetting (StateM σ)) (request : String) (st : σ) :
    (compileRequest s request).run st
      = (afterFirst s request (firstRun s request st).1).run (firstRun s request st).2 := by
  unfold compileRequest
  rw [Import.run_then, Import.run_then]
  show _ = StateT.run (afterFirst s request _) _
  unfold firstRun
  cases ((s.compiler request s.importer).run
    ((announce s.console "Compiling" (Json.reformat request s.pretty)).run st).2).1 <;> rfl

theorem firstRun_recorded (s : RequestSetting (StateM σ)) (request : String) (st : σ) :
    firstRun s.recorded request (st, [])
      = ((firstRun s request st).1, ((firstRun s request st).2, [request])) :=
  compiler_recorded s request _ []

theorem afterFirst_run {ρ : Type} {s : RequestSetting (StateM ρ)} {request text shown : String}
    {result : Except RetryFailure (Option String)} {st st' : ρ}
    (hrun : (retry s request text).run st = (result, st'))
    (hshown : shownAfter text result = .ok shown) :
    (afterFirst s request (.ok text)).run st = (.ok (Json.reformat shown s.pretty), st') := by
  rw [afterFirst, Import.run_then, hrun]
  cases result with
  | ok second =>
      obtain rfl : second.getD text = shown := Except.ok.inj hshown
      rfl
  | error failure =>
      show ((withWarning failure.message text).map _, st') = _
      rw [show withWarning failure.message text = .ok shown from hshown]
      rfl

theorem afterFirst_notJson {ρ : Type} (s : RequestSetting (StateM ρ)) (request : String)
    {text : String} {e : Json.ReadError} (hread : Json.read text = .error e) (st : ρ) :
    (afterFirst s request (.ok text)).run st = (.error (.answerUnreadable e), st) := by
  have hretry : retry s request text = pure (.error (.notJson e)) := by
    unfold retry
    rw [hread]
  have hwarning : withWarning (RetryFailure.notJson e).message text
      = .error (.answerUnreadable e) := by
    unfold withWarning
    rw [hread]
  rw [afterFirst, hretry]
  show ((withWarning (RetryFailure.notJson e).message text).map _, st) = _
  rw [hwarning]
  rfl

end SolFront.Compilation
