import SolFront.Host
import SolFront.Import.Answer
import SolFront.OsPath

/-!
# The search path

Sources are looked for below the base path and then below each include path. The same prefixes, seen
from the working directory, give the files named on the command line their unit names.
-/

namespace SolFront

/-- Whether a base path is given and not empty. -/
def SearchPath.givesBase (basePath : Option String) : Bool :=
  basePath.any (· != "")

/-- Where sources are looked for. -/
structure SearchPath where
  /-- The root of the source tree; the working directory if it is absent or empty. -/
  basePath : Option String
  includePaths : List String
  workingDirectory : Path
  /-- Include paths are only of use beside a base path. -/
  base_of_include : includePaths ≠ [] → SearchPath.givesBase basePath = true
  /-- No include path is empty. -/
  include_ne_empty : ∀ p ∈ includePaths, p ≠ ""

namespace SearchPath

/-- Why a search path is refused. -/
inductive Refusal where
  | includeWithoutBase
  | emptyInclude
  deriving DecidableEq, Inhabited, Repr

/-- The refusal in words. -/
def Refusal.message : Refusal → String
  | includeWithoutBase => "--include-path option requires a non-empty base path."
  | emptyInclude => "Empty values are not allowed in --include-path."

/-- The search path of the given directories. A missing base path is reported before an empty
include path. -/
def new (basePath : Option String) (includePaths : List String) (workingDirectory : Path) :
    Except Refusal SearchPath :=
  if h : includePaths ≠ [] → givesBase basePath = true then
    if h' : ∀ p ∈ includePaths, p ≠ "" then
      .ok ⟨basePath, includePaths, workingDirectory, h, h'⟩
    else .error .emptyInclude
  else .error .includeWithoutBase

/-- Whether there is a base path that is not empty. -/
def hasBase (s : SearchPath) : Bool :=
  givesBase s.basePath

/-- The base path followed by the include paths. -/
def prefixes (s : SearchPath) : List String :=
  s.basePath.getD "" :: s.includePaths

/-! ## Looking for a file -/

/-- The file that an import names below a prefix. -/
def candidate (directory path : String) : String :=
  if directory = "" then path else directory ++ "/" ++ path

/-- The answer if a file is below none of the prefixes. -/
def notFound : ImportAnswer :=
  .error "File not found inside the base path or any of the include paths."

/-- The answer for a file that exists: what is in it, or why it cannot be read. -/
def answerFor (path : String) : Except HostError String → ImportAnswer
  | .ok text => .contents text
  | .error e => .error ("Error reading " ++ path ++ ": " ++ e.message)

/-- Reads the first of the files that exists. The ones after it are not looked at, whether it can be
read or not. -/
def readFirst {m : Type → Type} [Monad m] (files : Files m) : List String → m ImportAnswer
  | [] => pure notFound
  | path :: paths => do
    if ← files.present path then
      return answerFor path (← files.read path)
    else readFirst files paths

/-- Finds an import below the prefixes and reads it. -/
def find {m : Type → Type} [Monad m] (s : SearchPath) (files : Files m) : Importer m := fun path =>
  readFirst files (s.prefixes.map (candidate · path))

/-! ## Naming a file -/

/-- The base path, or else the working directory, and the include paths, all without `.` and
`..`. -/
def directories (s : SearchPath) : List Path :=
  (if s.hasBase then s.basePath.getD "" else ".") :: s.includePaths
    |>.map fun p => Path.resolve s.workingDirectory (Path.ofString p)

/-- The path from a directory to a file in it, or the parent of the directory. -/
def nameIn? (directory source : Path) : Option Path :=
  (directory.relativeTo? source).filter fun way => !way.isEscaping

/-- The unit name of a file: its path from the first directory that it lies in, or its absolute path
if it lies in none, as a text. -/
def nameOf (s : SearchPath) (file : OsPath) : String :=
  let source := file.seenFrom s.workingDirectory
  Path.shown ((s.directories.findSome? (nameIn? ·.bytewise source)).getD source)

/-- The unit name of a file whose path is text. -/
def canonicalName (s : SearchPath) (file : String) : String :=
  s.nameOf (.ofString file)

end SearchPath

end SolFront
