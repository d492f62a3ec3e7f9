import SolFront.Host
import SolFront.Text.Class
import SolFront.Text.Split
import SolFront.Text.Utf8

/-!
# Solvers

A solver is a program that reads a query and writes an answer. Some solvers end with an error when
they are asked for the model of a formula that has none, so an error is tolerated as long as an
answer was written.
-/

namespace SolFront.Smt

/-- A solver and how it is started. -/
structure Solver where
  name : String
  executable : String
  /-- The arguments that make it read a query from its standard input. -/
  parameters : List String
  deriving DecidableEq, Inhabited, Repr

namespace Solver

/-- How many milliseconds a solver takes for a query at most. -/
def timeout : Nat := 10000

/-- The first choice of solver. -/
def z3 : Solver where
  name := "z3"
  executable := "z3"
  parameters :=
    ["-smt2", "-in", "-t:" ++ toString timeout, "rlimit=20000000", "rewriter.pull_cheap_ite=true",
      "fp.spacer.q3.use_qgen=true", "fp.spacer.mbqi=false", "fp.spacer.ground_pobs=false"]

/-- The second choice of solver. -/
def cvc4 : Solver where
  name := "cvc4"
  executable := "cvc4"
  parameters := ["--lang=smt2", "--tlimit=" ++ toString timeout]

/-- The known solvers in order of preference. -/
def supported : List Solver := [z3, cvc4]

/-- Why a query is not solved. -/
inductive Failure where
  | cannotStart (solver : String) (e : HostError)
  | noAnswer (solver : String) (status : ExitStatus) (complaint : String)
  deriving DecidableEq, Inhabited, Repr

/-- The failure in words. -/
def Failure.message : Failure → String
  | cannotStart solver e => solver ++ " subprocess spawning error: " ++ e.details
  | noAnswer solver status complaint =>
    "Failed to solve SMT query. " ++ solver ++ " exited with " ++ status.message ++ ": " ++
      String.ofList (Text.trim complaint.toList)

/-- How an answer, or an error that the solver itself tells of, can start. -/
def answerStarts : List String :=
  ["sat", "unsat", "unknown", "(error", "error"]

/-- Whether the output is an answer. -/
def isAnswer (output : String) : Bool :=
  answerStarts.any fun start => Text.startsWith start.toList output.toList

/-- What a solver that has run says. -/
def judge (solver : String) (outcome : Outcome) : Except Failure String :=
  let output := Text.decodeLenient outcome.output
  if outcome.status.success || isAnswer output then .ok output
  else .error (.noAnswer solver outcome.status (Text.decodeLenient outcome.errors))

variable {m : Type → Type} [Monad m]

/-- Solves a query. -/
def solve (s : Solver) (programs : Programs m) (query : String) : m (Except Failure String) := do
  match ← programs.run ⟨s.executable, s.parameters, query⟩ with
  | .error e => return .error (.cannotStart s.name e)
  | .ok outcome => return judge s.name outcome

/-- Whether the solver can be run. -/
def isAvailable (s : Solver) (programs : Programs m) : m Bool :=
  programs.available s.executable

/-- The known solvers that can be run, in order of preference. -/
def available (programs : Programs m) : m (List Solver) :=
  supported.filterM (isAvailable · programs)

end Solver

end SolFront.Smt
