import SolFront.Json.Basic

/-!
# Queries for a solver

The model checker of the compiler may ask for queries to be solved, each under its hash. The answers
go into the request of the next compilation in the place of all answers given before. Either all
queries are answered or the request stays as it is.
-/

namespace SolFront.Smt

variable {m : Type → Type} [Monad m]

/-- The queries that the compiler asks for, by hash. An empty list of queries counts as none. -/
def queries (answer : Json) : Option (Dict Json) := do
  let requested ← answer.member? "auxiliaryInputRequested"
  let queries ← (← requested.member? "smtlib2queries").members?
  if queries.isEmpty then none else pure queries

/-- Why the queries cannot be answered. -/
inductive QueryFailure where
  | notText (hash : String)
  | unsolved (reason : String)
  | requestNotObject
  deriving DecidableEq, Inhabited, Repr

/-- The failure in words. -/
def QueryFailure.message : QueryFailure → String
  | notText hash => "The SMT query `" ++ hash ++ "` is not a string"
  | unsolved reason => reason
  | requestNotObject => "The compiler input is not a JSON object"

/-- The answers to the queries in the order of their hashes. The first failure ends the solving. -/
def solveAll (solve : String → m (Except String String)) :
    Dict Json → m (Except QueryFailure (Dict Json))
  | [] => pure (.ok [])
  | (hash, .str query) :: rest => do
    match ← solve query with
    | .error reason => return .error (.unsolved reason)
    | .ok answer =>
      match ← solveAll solve rest with
      | .error e => return .error e
      | .ok answers => return .ok ((hash, .str answer) :: answers)
  | (hash, _) :: _ => pure (.error (.notText hash))

/-- The request with the given answers. -/
def withAnswers (answers : Dict Json) : Json → Except QueryFailure Json
  | .obj members =>
    .ok (.obj (Dict.insert "auxiliaryInput" (.obj [("smtlib2responses", .obj answers)]) members))
  | _ => .error .requestNotObject

/-- The request with answers to the queries that the compiler asks for, and none if it asks for
nothing. -/
def handle (solve : String → m (Except String String)) (request answer : Json) :
    m (Except QueryFailure (Option Json)) :=
  match queries answer with
  | none => pure (.ok none)
  | some queries => do
    return (← solveAll solve queries) >>= fun answers => some <$> withAnswers answers request

end SolFront.Smt
