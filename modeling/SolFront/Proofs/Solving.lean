import SolFront.Compilation
import SolFront.Proofs.Import.Filling
import SolFront.Proofs.Json.Faults

/-!
# How queries are solved

A solver is run on one query after the other until it fails at one. It may fail because it cannot be
started, or because it ends without success and what it has printed is no answer. Each way to fail
has its words, and the words are told to the end.
-/

namespace SolFront.Compilation

variable {σ : Type}

/-! ## Why something fails, in words -/

/-- The words for a text that is no JSON: what is said of it, and its place. -/
inductive Unread : Json.ReadError → String → Prop where
  | saying {cause : Json.Cause} {words : String} (line column : Nat)
      (h : (cause, words) ∈ Json.sayings) :
      Unread ⟨cause, some ⟨line, column⟩⟩
        (words ++ " at line " ++ toString line ++ " column " ++ toString column)

theorem unread_of_read {text : String} {e : Json.ReadError} (h : Json.read text = .error e) :
    Unread e e.message := by
  obtain ⟨hkind, place, hplace⟩ := Json.atPlace_of_read h
  obtain ⟨cause, _⟩ := e
  obtain rfl := hplace
  exact .saying place.line place.column (Json.mem_sayings hkind)

/-- What is told of a program that cannot be started, for what the system refuses. -/
def refusals : List (HostError × String) :=
  [(.os .notFound,
      "Os \x7b code: 2, kind: NotFound, message: \"No such file or directory\" \x7d"),
    (.os .permissionDenied,
      "Os \x7b code: 13, kind: PermissionDenied, message: \"Permission denied\" \x7d"),
    (.os .alreadyExists, "Os \x7b code: 17, kind: AlreadyExists, message: \"File exists\" \x7d"),
    (.os .notADirectory,
      "Os \x7b code: 20, kind: NotADirectory, message: \"Not a directory\" \x7d"),
    (.os .isADirectory, "Os \x7b code: 21, kind: IsADirectory, message: \"Is a directory\" \x7d"),
    (.os .nameTooLong,
      "Os \x7b code: 36, kind: InvalidFilename, message: \"File name too long\" \x7d"),
    (.os .tooManyLinks, "Os \x7b code: 40, kind: FilesystemLoop, "
      ++ "message: \"Too many levels of symbolic links\" \x7d"),
    (.nulInPath, "Error \x7b kind: InvalidInput, "
      ++ "message: \"file name contained an unexpected NUL byte\" \x7d"),
    (.nulInCommand,
      "Error \x7b kind: InvalidInput, message: \"nul byte found in provided data\" \x7d"),
    (.notUtf8,
      "Error \x7b kind: InvalidInput, message: \"stream did not contain valid UTF-8\" \x7d")]

/-- The words for why a program cannot be started. -/
inductive Refusal : HostError → String → Prop where
  | known {e : HostError} {words : String} (h : (e, words) ∈ refusals) : Refusal e words
  | other (description : String) :
      Refusal (.other description)
        ("Error \x7b kind: InvalidInput, message: \"" ++ description ++ "\" \x7d")

theorem refusal_details (e : HostError) : Refusal e e.details := by
  cases e with
  | os e => cases e <;> exact .known (by decide)
  | other description => exact .other description
  | _ => exact .known (by decide)

/-- How the status of a program is told. -/
inductive StatusText : ExitStatus → String → Prop where
  | code (n : Nat) : StatusText (.code n) ("exit status: " ++ toString n)
  | killed : StatusText .killed "signal: 9 (SIGKILL)"

theorem statusText_message (status : ExitStatus) : StatusText status status.message := by
  cases status with
  | code n => exact .code n
  | killed => exact .killed

/-! ## What solvers say -/

/-- What a solver says to a query, or in words why it says nothing, and the state after that. -/
inductive Tried (programs : Programs (StateM σ)) (solver : Smt.Solver) (query : String) (st : σ) :
    Except String String → σ → Prop where
  | notStarted {e : HostError} {details : String} {st' : σ}
      (hrun : (programs.run ⟨solver.executable, solver.parameters, query⟩).run st
        = (.error e, st'))
      (hdetails : Refusal e details) :
      Tried programs solver query st
        (.error (solver.name ++ " subprocess spawning error: " ++ details)) st'
  | answer {outcome : Outcome} {st' : σ}
      (hrun : (programs.run ⟨solver.executable, solver.parameters, query⟩).run st
        = (.ok outcome, st'))
      (h : outcome.status.success = true
        ∨ ∃ start ∈ ["sat", "unsat", "unknown", "(error", "error"],
          start.toList <+: (Text.decodeLenient outcome.output).toList) :
      Tried programs solver query st (.ok (Text.decodeLenient outcome.output)) st'
  | noAnswer {outcome : Outcome} {status : String} {st' : σ}
      (hrun : (programs.run ⟨solver.executable, solver.parameters, query⟩).run st
        = (.ok outcome, st'))
      (hsuccess : outcome.status.success = false) (hstatus : StatusText outcome.status status)
      (hstart : ∀ start ∈ ["sat", "unsat", "unknown", "(error", "error"],
        ¬ start.toList <+: (Text.decodeLenient outcome.output).toList) :
      Tried programs solver query st
        (.error ("Failed to solve SMT query. " ++ solver.name ++ " exited with "
          ++ status ++ ": "
          ++ String.ofList (Text.trim (Text.decodeLenient outcome.errors).toList))) st'

/-- Why queries are not all answered, in words: the first that is not answered is no text, or the
solver fails at it. -/
inductive Unsolved (programs : Programs (StateM σ)) (solver : Smt.Solver) :
    Dict Json → σ → String → Prop where
  | notText {hash : String} {value : Json} {later : Dict Json} {st : σ}
      (h : ∀ query, value ≠ .str query) :
      Unsolved programs solver ((hash, value) :: later) st
        ("The SMT query `" ++ hash ++ "` is not a string")
  | failed {hash query reason : String} {later : Dict Json} {st st' : σ}
      (h : Tried programs solver query st (.error reason) st') :
      Unsolved programs solver ((hash, .str query) :: later) st reason
  | later {hash query answer reason : String} {queries : Dict Json} {st st' : σ}
      (h : Tried programs solver query st (.ok answer) st')
      (hrest : Unsolved programs solver queries st' reason) :
      Unsolved programs solver ((hash, .str query) :: queries) st reason

theorem isAnswer_eq_true_iff {output : String} :
    Smt.Solver.isAnswer output = true ↔
      ∃ start ∈ ["sat", "unsat", "unknown", "(error", "error"],
        start.toList <+: output.toList := by
  unfold Smt.Solver.isAnswer Text.startsWith
  simp only [List.any_eq_true, List.isPrefixOf_iff_prefix]
  exact Iff.rfl

section

variable {programs : Programs (StateM σ)} {solver : Smt.Solver}

theorem tried_run (programs : Programs (StateM σ)) (solver : Smt.Solver) (query : String)
    (st : σ) :
    Tried programs solver query st ((solveWith programs solver query).run st).1
      ((solveWith programs solver query).run st).2 := by
  unfold solveWith Smt.Solver.solve
  rw [Import.run_then, Import.run_then]
  rcases hrun : (programs.run ⟨solver.executable, solver.parameters, query⟩).run st
    with ⟨result, st'⟩
  cases result with
  | error e => exact .notStarted hrun (refusal_details e)
  | ok outcome =>
      show Tried programs solver query st
        ((Smt.Solver.judge solver.name outcome).mapError Smt.Solver.Failure.message) st'
      unfold Smt.Solver.judge
      dsimp only
      cases hstatus : outcome.status.success with
      | true => exact .answer hrun (Or.inl hstatus)
      | false =>
          by_cases hanswer : Smt.Solver.isAnswer (Text.decodeLenient outcome.output) = true
          · rw [hanswer]
            exact .answer hrun (Or.inr (isAnswer_eq_true_iff.mp hanswer))
          · rw [Bool.eq_false_iff.mpr hanswer]
            refine .noAnswer hrun hstatus (statusText_message outcome.status)
              fun start hmem hstart => hanswer ?_
            exact isAnswer_eq_true_iff.mpr ⟨start, hmem, hstart⟩

/-- **Queries that are not all answered fail at the first that is not.** -/
theorem unsolved_of_solveAll : ∀ {queries : Dict Json} {st : σ} {e : Smt.QueryFailure},
    ((Smt.solveAll (solveWith programs solver) queries).run st).1 = .error e →
      Unsolved programs solver queries st e.message
  | [], _, _, h => by cases h
  | (hash, value) :: queries, st, e, h => by
      cases value with
      | str query =>
          have htried := tried_run programs solver query st
          rw [Smt.solveAll, Import.run_then] at h
          rcases hrun : (solveWith programs solver query).run st with ⟨reason | answer, st'⟩
          · -- the solver fails at this query
            rw [hrun] at h htried
            cases h
            exact .failed htried
          · -- this query is answered, so it is a later one that is not
            rw [hrun] at h htried
            dsimp only at h
            rw [Import.run_then] at h
            cases hrest : ((Smt.solveAll (solveWith programs solver) queries).run st').1 with
            | error e' =>
                rw [hrest] at h
                cases h
                exact .later htried (unsolved_of_solveAll hrest)
            | ok answers =>
                rw [hrest] at h
                cases h
      | _ =>
          cases h
          exact .notText (by simp)

end

end SolFront.Compilation
