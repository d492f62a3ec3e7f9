import SolFront.Compiler
import SolFront.Json.Reformat
import SolFront.Request
import SolFront.SearchPath
import SolFront.Smt.Queries
import SolFront.Smt.Solver

/-!
# Compilations

There are two ways to compile. Files named on the command line are put into a request, and the
answer is read. A request that is given as a text goes to the compiler as it is, and the text of the
answer comes back; if the compiler asks for queries to be solved and there is a solver, it is run
once more with the answers.

Nothing that goes wrong with the second run ends the compilation: the first answer is kept and gets
a warning.
-/

namespace SolFront.Compilation

variable {m : Type → Type} [Monad m]

/-- Why a compilation has no result. -/
inductive Failure where
  | unreadable (path : String) (e : HostError)
  | compiler (reason : String)
  | noAnswer
  | answerUnreadable (e : Json.ReadError)
  | answerNotObject
  deriving DecidableEq, Repr

/-- The failure in words. -/
def Failure.message : Failure → String
  | unreadable path e => "Error reading " ++ path ++ ": " ++ e.message
  | compiler reason => reason
  | noAnswer => "No output from compiler"
  | answerUnreadable e => "Compiler output parsing error: " ++ e.message
  | answerNotObject => "The compiler output is not a JSON object"

/-- Tells of a request that is about to be compiled. -/
def announce (console : Console m) (title request : String) : m Unit :=
  console.print (">>> " ++ title ++ ":\n" ++ request ++ "\n")

/-! ## Files -/

/-- Reads files and adds them to the sources under their unit names. The first one that cannot be
read ends the reading. -/
def readSources (files : Files m) (search : SearchPath) (sources : Dict Source) :
    List String → m (Except Failure (Dict Source))
  | [] => pure (.ok sources)
  | path :: paths => do
    match ← files.read path with
    | .error e => return .error (.unreadable path e)
    | .ok text =>
      readSources files search (Dict.insert (search.canonicalName path) ⟨text⟩ sources) paths

/-- Reads the answer of a compiler. -/
def readResponse (answer : String) : Except Failure Response :=
  if answer.toList.all Text.isBlank then .error .noAnswer
  else (Json.readWith Response.reader answer).mapError .answerUnreadable

/-- How files are compiled. -/
structure FileOptions where
  optimize : Bool
  runs : UInt64
  /-- Whether the request is laid out where it is shown. -/
  pretty : Bool
  deriving DecidableEq, Inhabited, Repr

/-- Compiles files. Their imports are looked for on the search path. -/
def compileFiles (compiler : Compiler m) (files : Files m) (console : Console m)
    (search : SearchPath) (options : FileOptions) (paths : List String) :
    m (Except Failure Response) := do
  match ← readSources files search [] paths with
  | .error e => return .error e
  | .ok sources =>
    let request := (Request.forSources sources options.optimize options.runs).toJson
    announce console "Compiling" (request.render options.pretty)
    match ← compiler (request.render false) (some (search.find files)) with
    | .error reason => return .error (.compiler reason)
    | .ok answer => return readResponse answer

/-! ## Requests -/

/-- Why a compilation is not repeated. -/
inductive RetryFailure where
  | notJson (e : Json.ReadError)
  | queries (e : Smt.QueryFailure)
  | compiler (reason : String)
  deriving DecidableEq, Repr

/-- The failure in words. -/
def RetryFailure.message : RetryFailure → String
  | notJson e => e.message
  | queries e => e.message
  | compiler reason => reason

/-- Solves a query and tells in words why it cannot be solved. -/
def solveWith (programs : Programs m) (solver : Smt.Solver) (query : String) :
    m (Except String String) := do
  return (← solver.solve programs query).mapError Smt.Solver.Failure.message

/-- What a request is compiled with. -/
structure RequestSetting (m : Type → Type) where
  compiler : Compiler m
  programs : Programs m
  console : Console m
  /-- Who is asked for sources that the request lacks. -/
  importer : Option (Importer m)
  /-- The solvers in order of preference. -/
  solvers : List Smt.Solver
  /-- Whether requests and answers are laid out where they are shown. -/
  pretty : Bool

/-- Solves the queries that an answer asks for and compiles the request with the results. -/
def retryWith (s : RequestSetting m) (solver : Smt.Solver) (request : String) (answer : Json) :
    m (Except RetryFailure (Option String)) := do
  match Json.read request with
  | .error e => return .error (.notJson e)
  | .ok request =>
    match ← Smt.handle (solveWith s.programs solver) request answer with
    | .error e => return .error (.queries e)
    | .ok none => return .ok none
    | .ok (some request) =>
      announce s.console "Retrying compilation with SMT" (request.render s.pretty)
      match ← s.compiler (request.render false) s.importer with
      | .error reason => return .error (.compiler reason)
      | .ok answer => return .ok (some answer)

/-- The second answer to a request, if the first one asks for queries and there is a solver. -/
def retry (s : RequestSetting m) (request answer : String) :
    m (Except RetryFailure (Option String)) := do
  match Json.read answer with
  | .error e => return .error (.notJson e)
  | .ok answer =>
    match Smt.queries answer, s.solvers with
    | none, _ => return .ok none
    | some _, [] =>
      s.console.complain
        ">>> Cannot retry compilation with SMT because there are no SMT solvers available."
      return .ok none
    | some _, solver :: _ => retryWith s solver request answer

/-- The diagnostics with one more at their end. Diagnostics that are no list are replaced. -/
def addDiagnostic (diagnostics : Option Json) (d : Diagnostic) : Json :=
  .arr (((diagnostics.bind Json.items?).getD []) ++ [d.toJson])

/-- The text of the answer with a warning. -/
def withWarning (message answer : String) : Except Failure String :=
  match Json.read answer with
  | .error e => .error (.answerUnreadable e)
  | .ok (.obj members) =>
    .ok ((Json.obj (Dict.insert "errors"
      (addDiagnostic (Dict.get? members "errors") (.warning message)) members)).render false)
  | .ok _ => .error .answerNotObject

/-- Compiles a request that is given as a text. -/
def compileRequest (s : RequestSetting m) (request : String) : m (Except Failure String) := do
  announce s.console "Compiling" (Json.reformat request s.pretty)
  match ← s.compiler request s.importer with
  | .error reason => return .error (.compiler reason)
  | .ok answer =>
    match ← retry s request answer with
    | .ok second => return .ok (Json.reformat (second.getD answer) s.pretty)
    | .error e =>
      return (withWarning e.message answer).map fun text => Json.reformat text s.pretty

end SolFront.Compilation
