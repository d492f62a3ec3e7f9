import SolFront.Proofs.MissingUnits
import SolFront.Proofs.Repetition

/-!
# What a compiler program is given

A compiler that is a program gets a request on its standard input, with the sources that the request
lacks. Where whoever is asked for sources always answers the same, that input is settled by the
request alone. So a record of the requests that the compiler is given tells what the program is
given, and compiling under the one record goes like compiling under the other.
-/

namespace SolFront.Compilation

open Import (Likeness)

/-! ## Settings that are alike -/

section

variable {m n : Type → Type} [Monad m] [Monad n]

/-- Two settings whose parts do alike. -/
structure AlikeSettings (R : Likeness m n) (s : RequestSetting m) (s' : RequestSetting n) :
    Prop where
  compiler : ∀ request,
    R.alike (s.compiler request s.importer) (s'.compiler request s'.importer)
  run : ∀ command, R.alike (s.programs.run command) (s'.programs.run command)
  print : ∀ line, R.alike (s.console.print line) (s'.console.print line)
  complain : ∀ line, R.alike (s.console.complain line) (s'.console.complain line)
  solvers : s.solvers = s'.solvers
  pretty : s.pretty = s'.pretty

variable {R : Likeness m n} {s : RequestSetting m} {s' : RequestSetting n}

theorem completed_alike {asked : Importer m} {asked' : Importer n}
    (h : ∀ unit, R.alike (asked unit) (asked' unit)) (request : String) :
    R.alike (Compiler.completed request (some asked))
      (Compiler.completed request (some asked')) := by
  unfold Compiler.completed
  cases Json.read request with
  | error e => exact R.alike_pure _
  | ok value =>
      refine R.alike_bind (Import.fetch_alike R h _ value) ?_
      intro result
      cases result with
      | none => exact R.alike_pure _
      | some result => exact R.alike_pure _

theorem solveAll_alike {solve : String → m (Except String String)}
    {solve' : String → n (Except String String)}
    (h : ∀ query, R.alike (solve query) (solve' query)) :
    ∀ queries, R.alike (Smt.solveAll solve queries) (Smt.solveAll solve' queries)
  | [] => R.alike_pure _
  | (hash, query) :: queries => by
      cases query with
      | str query =>
          refine R.alike_bind (h query) ?_
          intro answer
          cases answer with
          | error reason => exact R.alike_pure _
          | ok answer =>
              refine R.alike_bind (solveAll_alike h queries) ?_
              intro answers
              cases answers with
              | error e => exact R.alike_pure _
              | ok answers => exact R.alike_pure _
      | _ => exact R.alike_pure _

theorem handle_alike {solve : String → m (Except String String)}
    {solve' : String → n (Except String String)}
    (h : ∀ query, R.alike (solve query) (solve' query)) (request answer : Json) :
    R.alike (Smt.handle solve request answer) (Smt.handle solve' request answer) := by
  unfold Smt.handle
  split
  · exact R.alike_pure _
  · refine R.alike_bind (solveAll_alike h _) ?_
    intro answers
    exact R.alike_pure _

namespace AlikeSettings

theorem solveWith (h : AlikeSettings R s s') (solver : Smt.Solver) (query : String) :
    R.alike (Compilation.solveWith s.programs solver query)
      (Compilation.solveWith s'.programs solver query) := by
  refine R.alike_bind (R.alike_bind (h.run _) ?_) fun answer => R.alike_pure _
  intro outcome
  cases outcome with
  | error e => exact R.alike_pure _
  | ok outcome => exact R.alike_pure _

theorem retryWith (h : AlikeSettings R s s') (solver : Smt.Solver) (request : String)
    (answer : Json) :
    R.alike (Compilation.retryWith s solver request answer)
      (Compilation.retryWith s' solver request answer) := by
  unfold Compilation.retryWith
  split
  · exact R.alike_pure _
  · refine R.alike_bind (handle_alike (h.solveWith solver) _ _) ?_
    intro handled
    match handled with
    | .error e => exact R.alike_pure _
    | .ok none => exact R.alike_pure _
    | .ok (some again) =>
        dsimp only
        rw [← h.pretty]
        refine R.alike_bind (h.print _) fun _ => R.alike_bind (h.compiler _) ?_
        intro second
        cases second with
        | error reason => exact R.alike_pure _
        | ok second => exact R.alike_pure _

theorem retry (h : AlikeSettings R s s') (request answer : String) :
    R.alike (Compilation.retry s request answer) (Compilation.retry s' request answer) := by
  unfold Compilation.retry
  rw [← h.solvers]
  split
  · exact R.alike_pure _
  · split
    · exact R.alike_pure _
    · exact R.alike_bind (h.complain _) fun _ => R.alike_pure _
    · exact h.retryWith _ _ _

/-- **In settings that are alike a request is compiled alike.** -/
theorem compileRequest (h : AlikeSettings R s s') (request : String) :
    R.alike (Compilation.compileRequest s request) (Compilation.compileRequest s' request) := by
  unfold Compilation.compileRequest announce
  rw [← h.pretty]
  refine R.alike_bind (h.print _) fun _ => R.alike_bind (h.compiler _) ?_
  intro answer
  cases answer with
  | error reason => exact R.alike_pure _
  | ok answer =>
      refine R.alike_bind (h.retry _ _) ?_
      intro second
      cases second with
      | error e => exact R.alike_pure _
      | ok second => exact R.alike_pure _

end AlikeSettings

end

/-! ## A program and what it is given -/

variable {σ ρ : Type}

/-- A compiler program and what a request is compiled with besides it. Whoever is asked for sources
always answers the same. -/
structure ProgramSetting (σ : Type) where
  programs : Programs (StateM σ)
  executable : String
  console : Console (StateM σ)
  /-- The answers of whoever is asked for sources, if there is anyone. -/
  answers : Option (String → ImportAnswer)
  solvers : List Smt.Solver
  pretty : Bool

/-- Someone who always answers the same, beside a state. -/
def answering (ρ : Type) (answers : Option (String → ImportAnswer)) :
    Option (Importer (StateM ρ)) :=
  answers.map fun answers unit => pure (answers unit)

/-- The programs under a record of what is written to their standard input. -/
def fed (programs : Programs (StateM σ)) : Programs (StateM (σ × List String)) where
  run command := fun t =>
    let outcome := (programs.run command).run t.1
    (outcome.1, (outcome.2, t.2 ++ [command.input]))
  available name := besideRecord (programs.available name)

namespace ProgramSetting

/-- The setting in which requests are compiled. -/
def toSetting (p : ProgramSetting σ) : RequestSetting (StateM σ) where
  compiler := .ofProgram p.programs p.executable
  programs := p.programs
  console := p.console
  importer := answering σ p.answers
  solvers := p.solvers
  pretty := p.pretty

/-- The same setting under a record of what the compiler program is given. What the solvers are
given is not recorded. -/
def fedSetting (p : ProgramSetting σ) : RequestSetting (StateM (σ × List String)) where
  compiler := .ofProgram (fed p.programs) p.executable
  programs := p.toSetting.recorded.programs
  console := p.toSetting.recorded.console
  importer := answering _ p.answers
  solvers := p.solvers
  pretty := p.pretty

/-- The text that the program is given for a request and the units that are missing, or the reason
why it is not run. -/
def given (p : ProgramSetting σ) (request : String) :
    Except Compiler.Failure (String × Dict String) :=
  (Compiler.completed (m := Id) request p.answers).run

/-- The inputs of the program for a request, of which there is one if it is run. -/
def inputsOf (p : ProgramSetting σ) (request : String) : List String :=
  match p.given request with
  | .ok (input, _) => [input]
  | .error _ => []

theorem length_inputsOf (p : ProgramSetting σ) (request : String) :
    (p.inputsOf request).length ≤ 1 := by
  unfold inputsOf
  split
  · exact Nat.le_refl 1
  · exact Nat.zero_le 1

theorem given_of_mem_inputsOf {p : ProgramSetting σ} {request input : String}
    (h : input ∈ p.inputsOf request) : ∃ missing, p.given request = .ok (input, missing) := by
  unfold inputsOf at h
  split at h
  · rename_i input' missing hgiven
    exact ⟨missing, List.mem_singleton.mp h ▸ hgiven⟩
  · cases h

/-- Two inputs for two requests are one for each of them. -/
theorem given_of_pair {p : ProgramSetting σ} {request again first second : String}
    (h : p.inputsOf request ++ p.inputsOf again = [first, second]) :
    (∃ missing, p.given request = .ok (first, missing))
      ∧ ∃ missing, p.given again = .ok (second, missing) := by
  have hlength := congrArg List.length h
  rw [List.length_append, List.length_cons, List.length_singleton] at hlength
  have hrequest := p.length_inputsOf request
  have hagain := p.length_inputsOf again
  obtain ⟨input, hinput⟩ := List.length_eq_one_iff.mp (by omega : (p.inputsOf request).length = 1)
  obtain ⟨input', hinput'⟩ := List.length_eq_one_iff.mp (by omega : (p.inputsOf again).length = 1)
  rw [hinput, hinput'] at h
  cases h
  exact ⟨given_of_mem_inputsOf (hinput ▸ List.mem_singleton_self _),
    given_of_mem_inputsOf (hinput' ▸ List.mem_singleton_self _)⟩

end ProgramSetting

/-- What is done to complete a request depends on no state. -/
theorem completed_answering (answers : Option (String → ImportAnswer)) (request : String)
    (s : ρ) :
    (Compiler.completed request (answering ρ answers)).run s
      = ((Compiler.completed (m := Id) request answers).run, s) := by
  cases answers with
  | none => rfl
  | some answers =>
      exact completed_alike (R := Import.besideState ρ) (fun _ _ => rfl) request s

/-- **A program is run on what the request is completed to**, and not at all if that fails. -/
theorem ofProgram_run (programs : Programs (StateM ρ)) (executable : String)
    (answers : Option (String → ImportAnswer)) (request : String) (s : ρ) :
    (Compiler.ofProgram programs executable request (answering ρ answers)).run s
      = match (Compiler.completed (m := Id) request answers).run with
        | .error e => (.error e.message, s)
        | .ok (input, missing) =>
          let outcome := (programs.run ⟨executable, ["--standard-json"], input⟩).run s
          ((afterRun missing outcome.1).mapError Compiler.Failure.message, outcome.2) := by
  unfold Compiler.ofProgram Compiler.answer
  rw [Import.run_then, Import.run_then, completed_answering]
  cases (Compiler.completed (m := Id) request answers).run with
  | error e => rfl
  | ok result =>
      obtain ⟨input, missing⟩ := result
      dsimp only
      rw [Import.run_then]
      cases ((programs.run ⟨executable, ["--standard-json"], input⟩).run s).1 <;> rfl

/-- A record that is made of another one: the two computations agree in result and state, and one
record is made of the other before and after. -/
def madeOf (σ : Type) (f : List String → List String) :
    Likeness (StateM (σ × List String)) (StateM (σ × List String)) where
  alike {_} x y := ∀ (s : σ) (record : List String),
    y.run (s, f record)
      = ((x.run (s, record)).1, ((x.run (s, record)).2.1, f (x.run (s, record)).2.2))
  alike_pure _ := fun _ _ => rfl
  alike_bind := by
    intro _ _ x y g g' hxy hg s record
    rw [StateT.run_bind, StateT.run_bind, hxy]
    exact hg (x.run (s, record)).1 (x.run (s, record)).2.1 (x.run (s, record)).2.2

namespace ProgramSetting

variable (p : ProgramSetting σ)

theorem fed_compiler_run (request : String) (s : σ) (record : List String) :
    (p.fedSetting.compiler request p.fedSetting.importer).run (s, record)
      = (((p.toSetting.compiler request p.toSetting.importer).run s).1,
          (((p.toSetting.compiler request p.toSetting.importer).run s).2,
            record ++ p.inputsOf request)) := by
  have hfed := ofProgram_run (fed p.programs) p.executable p.answers request (s, record)
  have hplain := ofProgram_run p.programs p.executable p.answers request s
  show (Compiler.ofProgram (fed p.programs) p.executable request
      (answering _ p.answers)).run (s, record)
    = (((Compiler.ofProgram p.programs p.executable request (answering σ p.answers)).run s).1,
        (((Compiler.ofProgram p.programs p.executable request (answering σ p.answers)).run s).2,
          record ++ p.inputsOf request))
  rw [hfed, hplain]
  unfold inputsOf given
  cases (Compiler.completed (m := Id) request p.answers).run with
  | error e => exact congrArg (fun inputs => (_, (s, inputs))) (List.append_nil record).symm
  | ok result => rfl

/-- The inputs of the program are made of the requests that the compiler is given. -/
theorem alike_fed : AlikeSettings (madeOf σ (List.flatMap p.inputsOf)) p.toSetting.recorded
    p.fedSetting where
  compiler request s record := by
    rw [fed_compiler_run, compiler_recorded, List.flatMap_append, List.flatMap_singleton]
  run _ _ _ := rfl
  print _ _ _ := rfl
  complain _ _ _ := rfl
  solvers := rfl
  pretty := rfl

/-- **The program is given an input for each request that the compiler is given**, unless the
request cannot be completed. -/
theorem fed_run {request : String} {s s' : σ} {result : Except Failure String}
    {requests : List String}
    (h : (compileRequest p.toSetting.recorded request).run (s, []) = (result, (s', requests))) :
    (compileRequest p.fedSetting request).run (s, [])
      = (result, (s', requests.flatMap p.inputsOf)) := by
  have halike := p.alike_fed.compileRequest request s []
  rwa [h] at halike

end ProgramSetting

end SolFront.Compilation
