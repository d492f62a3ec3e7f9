import SolFront.Host
import SolFront.Import.Closure
import SolFront.Import.Report
import SolFront.Text.Utf8
import SolFront.Version

/-!
# Compilers

A compiler takes the text of a request and gives the text of an answer. It may be given someone to
ask for the sources that the request lacks. A compiler that is a program of its own cannot ask
anyone, so its request is completed beforehand, and its answer gets the reasons for what is missing.
-/

namespace SolFront

variable {m : Type → Type} [Monad m]

/-- From the text of a request and someone to ask for sources to the text of an answer, or to the
reason in words why there is none. -/
abbrev Compiler (m : Type → Type) :=
  String → Option (Importer m) → m (Except String String)

namespace Compiler

/-- The program that is run where no other is named. -/
def defaultExecutable : String := "solc"

/-- More than there are texts of no more than `length` characters. -/
def textCount (length : Nat) : Nat := Nat.pow 0x110001 length

/-- How many sources are added to a request at most. No path has more than 4095 characters, so that
is more than there are names that a file can be opened by. -/
def importLimit : Nat := textCount 4095

/-- Why a program gives no answer. -/
inductive Failure where
  | versionCannotStart (e : HostError)
  | cannotStart (e : HostError)
  | failed (complaint : String)
  | version (e : Version.Failure)
  | tooManyImports
  | answerNotJson (e : Json.ReadError)
  deriving DecidableEq, Repr

/-- The failure in words. -/
def Failure.message : Failure → String
  | versionCannotStart e => "solc subprocess error: " ++ e.details
  | cannotStart e => "solc subprocess spawning error: " ++ e.details
  | failed complaint => complaint
  | version e => e.message
  | tooManyImports => "Too many sources are imported"
  | answerNotJson e => "solc output parsing error: " ++ e.message

/-- What a program that has run says. -/
def outputOf (outcome : Outcome) : Except Failure String :=
  if outcome.status.success then .ok (Text.decodeLenient outcome.output)
  else .error (.failed (Text.decodeLenient outcome.errors))

/-- The version of a compiler program. -/
def version (programs : Programs m) (executable : String) : m (Except Failure Version) := do
  match ← programs.run ⟨executable, ["--version"], ""⟩ with
  | .error e => return .error (.versionCannotStart e)
  | .ok outcome =>
    return outputOf outcome >>= fun output => (Version.ofOutput output).mapError .version

/-- The text of the request with the imported sources in it, and the units that cannot be provided.
Without anyone to ask, and where it is no JSON, the text stays as it is. -/
def completed (request : String) (importer : Option (Importer m)) :
    m (Except Failure (String × Dict String)) := do
  match importer, Json.read request with
  | some importer, .ok value =>
    match ← Import.fetch importer importLimit value with
    | some (value, missing) => return .ok (value.render false, missing)
    | none => return .error .tooManyImports
  | _, _ => return .ok (request, [])

/-- The text of the answer with the missing units reported. Where none is missing the text stays as
it is. -/
def reported (missing : Dict String) (answer : String) : Except Failure String :=
  if missing.isEmpty then .ok answer
  else match Json.read answer with
    | .ok value => .ok ((Import.report missing value).render false)
    | .error e => .error (.answerNotJson e)

/-- The answer of a compiler program to a request. -/
def answer (programs : Programs m) (executable request : String) (importer : Option (Importer m)) :
    m (Except Failure String) := do
  match ← completed request importer with
  | .error e => return .error e
  | .ok (request, missing) =>
    match ← programs.run ⟨executable, ["--standard-json"], request⟩ with
    | .error e => return .error (.cannotStart e)
    | .ok outcome => return outputOf outcome >>= reported missing

/-- The compiler that a program is. -/
def ofProgram (programs : Programs m) (executable : String) : Compiler m :=
    fun request importer => do
  return (← answer programs executable request importer).mapError Failure.message

end Compiler

end SolFront
