import SolFront.Artifacts
import SolFront.CommandLine.Arguments
import SolFront.CommandLine.Help
import SolFront.Compilation

/-!
# Running the program

The program compiles files and writes their artifacts, or it compiles a request from the standard
input and prints the answer. Whatever keeps it from doing so is told on the standard error stream,
and the exit code says whether there was an error.
-/

namespace SolFront.CommandLine

variable {m : Type → Type} [Monad m]

/-! ## Problems -/

/-- What keeps the program from doing what it is asked. -/
inductive Problem where
  | noFile
  | nothingSelected
  | searchPath (e : SearchPath.Refusal)
  | noVersion (e : Compiler.Failure)
  | inputNotText
  | compilation (e : Compilation.Failure)
  | artifacts (e : Artifact.Failure)
  deriving DecidableEq, Repr

/-- The problem in words. -/
def Problem.message : Problem → String
  | noFile => "Must provide a file"
  | nothingSelected => "Invalid option selected, must specify either --bin or --abi"
  | searchPath e => e.message
  | noVersion e => e.message
  | inputNotText => "Standard input reading error: " ++ HostError.notUtf8.message
  | compilation e => e.message
  | artifacts e => e.message

/-- The start of a line about a problem. -/
def problemMark (color : Bool) : String :=
  if color then "\x1b[91mError:\x1b[0m" else "Error:"

/-! ## Arguments -/

/-- Where files are compiled there must be some, and something must be wanted of them. -/
def Arguments.validate (a : Arguments) : Except Problem Unit :=
  if a.standardJson then .ok ()
  else if a.inputFiles = [] then .error .noFile
  else if !a.bytecode && !a.abi then .error .nothingSelected
  else .ok ()

/-- The compiler program to run. -/
def Arguments.executable (a : Arguments) : String :=
  a.solc.getD Compiler.defaultExecutable

/-- The options for the compilation of files. -/
def Arguments.fileOptions (a : Arguments) : Compilation.FileOptions :=
  ⟨a.optimize, a.optimizeRuns, a.prettyJson⟩

/-- The artifacts to write. -/
def Arguments.selected (a : Arguments) : Artifact.Selected :=
  ⟨a.bytecode, a.abi, a.prettyJson⟩

/-! ## Running -/

/-- Whether a run has found errors in the sources. -/
inductive Verdict where
  | success
  | failure
  deriving DecidableEq, Inhabited, Repr

/-- The exit code of a verdict. -/
def Verdict.exitCode : Verdict → UInt8
  | success => 0
  | failure => 1

/-- Shows a diagnostic: warnings on the standard output, all others on the standard error stream. -/
def showDiagnostic (console : Console m) (d : Diagnostic) : m Unit :=
  if d.isWarning then console.print d.formattedMessage else console.complain d.formattedMessage

/-- The console for what is only told on request. -/
def consoleFor (host : Host m) (a : Arguments) : Console m :=
  if a.verbose then host.console else .silent

/-- Tells which compiler is used, if that is wanted. -/
def tellVersion (host : Host m) (a : Arguments) : m (Except Problem Unit) := do
  if !a.verbose then return .ok ()
  match ← Compiler.version host.programs a.executable with
  | .error e => return .error (.noVersion e)
  | .ok v =>
    host.console.print (">>> Using " ++ a.executable ++ " " ++ v.text)
    return .ok ()

/-- Compiles the request on the standard input and prints the answer. Sources are only looked for
below a base path. -/
def runRequest (host : Host m) (a : Arguments) (search : SearchPath) :
    m (Except Problem Verdict) := do
  match Text.decode? (← host.input) with
  | none => return .error .inputNotText
  | some request =>
    let setting : Compilation.RequestSetting m :=
      { compiler := .ofProgram host.programs a.executable
        programs := host.programs
        console := consoleFor host a
        importer := if search.hasBase then some (search.find host.files) else none
        solvers := ← Smt.Solver.available host.programs
        pretty := a.prettyJson }
    match ← Compilation.compileRequest setting request with
    | .error e => return .error (.compilation e)
    | .ok answer =>
      (consoleFor host a).print ">>> Compilation result:"
      host.console.print answer
      return .ok .success

/-- Compiles files, shows the diagnostics, and writes the artifacts, in spite of any errors in the
sources. -/
def runFiles (host : Host m) (a : Arguments) (search : SearchPath) :
    m (Except Problem Verdict) := do
  match ← Compilation.compileFiles (.ofProgram host.programs a.executable) host.files
      (consoleFor host a) search a.fileOptions a.inputFiles with
  | .error e => return .error (.compilation e)
  | .ok response =>
    response.diagnostics.forM (showDiagnostic host.console)
    match ← Artifact.writeAll host.directory a.outputDirectory a.selected
        (Artifact.ofResponse response) with
    | .error e => return .error (.artifacts e)
    | .ok () => return .ok (if response.hasErrors then .failure else .success)

/-- Does what the arguments ask for. -/
def runArguments (host : Host m) (a : Arguments) : m (Except Problem Verdict) := do
  match a.validate with
  | .error e => return .error e
  | .ok () =>
    let here := Path.ofString (← host.workingDirectory)
    match SearchPath.new a.basePath a.includePaths here with
    | .error e => return .error (.searchPath e)
    | .ok search =>
      match ← tellVersion host a with
      | .error e => return .error e
      | .ok () => if a.standardJson then runRequest host a search else runFiles host a search

/-- Runs the program and gives its exit code. -/
def run (host : Host m) (color : Bool) (args : List String) : m UInt8 := do
  match parse args with
  | .error refusal =>
    host.console.complain refusal.message
    return Verdict.failure.exitCode
  | .ok .shortHelp =>
    host.console.print shortHelp
    return Verdict.success.exitCode
  | .ok .longHelp =>
    host.console.print longHelp
    return Verdict.success.exitCode
  | .ok .version =>
    host.console.print versionLine
    return Verdict.success.exitCode
  | .ok (.run a) =>
    match ← runArguments host a with
    | .error problem =>
      host.console.complain (problemMark color ++ " " ++ problem.message)
      return Verdict.failure.exitCode
    | .ok verdict => return verdict.exitCode

end SolFront.CommandLine
