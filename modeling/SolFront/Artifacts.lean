import SolFront.Host
import SolFront.Response
import SolFront.Text.Quoted

/-!
# Artifacts

Each contract has two files in the output directory, one for its bytecode and one for its interface.
The file names are made of the unit name and the contract name, so that no contract is written
outside of the directory. Names that differ only in separators share their files, and the contract
written last wins.
-/

namespace SolFront

/-- What is written of a contract. -/
structure Artifact where
  /-- The unit that the contract is in. -/
  unit : String
  /-- The name of the contract. -/
  contract : String
  abi : Option Json
  bytecode : Option String
  deriving DecidableEq, Inhabited, Repr

namespace Artifact

/-- Whether the character separates parts of a name. -/
def isSeparator (c : Char) : Bool :=
  c == ':' || c == '.' || c == '/' || c == '\\'

/-- The file name of a contract without its extension. -/
def fileName (unit contract : String) : String :=
  String.ofList ((unit ++ ":" ++ contract).toList.map fun c => if isSeparator c then '_' else c)

/-- The artifacts of an answer by unit and contract name. -/
def ofResponse (r : Response) : List Artifact :=
  (r.contracts.getD []).flatMap fun (unit, contracts) =>
    contracts.map fun (name, contract) => ⟨unit, name, contract.abi, contract.bytecode?⟩

/-- A file that is to be written, by its name in the output directory. -/
structure File where
  name : String
  text : String
  deriving DecidableEq, Inhabited, Repr

/-- Which files are written, and how. -/
structure Selected where
  bytecode : Bool
  abi : Bool
  /-- Whether interfaces are laid out. -/
  pretty : Bool
  deriving DecidableEq, Inhabited, Repr

/-- The file for the bytecode. A contract without bytecode has none. -/
def bytecodeFile (a : Artifact) : List File :=
  (a.bytecode.map fun code => ⟨fileName a.unit a.contract ++ ".bin", code⟩).toList

/-- The file for the interface. An absent interface is written as null. -/
def abiFile (a : Artifact) (pretty : Bool) : File :=
  ⟨fileName a.unit a.contract ++ ".abi", (a.abi.getD .null).render pretty⟩

/-- The files of a contract in the order they are written in. -/
def files (selected : Selected) (a : Artifact) : List File :=
  (if selected.bytecode then a.bytecodeFile else []) ++
    (if selected.abi then [a.abiFile selected.pretty] else [])

/-! ## Writing -/

/-- Why artifacts are not written. -/
inductive Failure where
  | directory (path : String) (e : HostError)
  | file (path : String) (e : HostError)
  deriving DecidableEq, Inhabited, Repr

/-- The failure in words. -/
def Failure.message : Failure → String
  | directory path e =>
    "Output directory " ++ Text.quotedPath path ++ " creating error: " ++ e.message
  | file path e => "Failed to write " ++ Text.quotedPath path ++ ": " ++ e.message

/-- The path of a file in a directory. -/
def pathIn (directory name : String) : String :=
  if directory = "" || directory.toList.getLast? = some '/' then directory ++ name
  else directory ++ "/" ++ name

variable {m : Type → Type} [Monad m]

/-- Writes files into a directory. The first one that cannot be written ends the writing. -/
def writeFiles (disk : Directory m) (directory : String) : List File → m (Except Failure Unit)
  | [] => pure (.ok ())
  | file :: files => do
    let path := pathIn directory file.name
    match ← disk.write path file.text with
    | .error e => return .error (.file path e)
    | .ok () => writeFiles disk directory files

/-- Writes the selected files of the artifacts, after creating the directory if need be. -/
def writeAll (disk : Directory m) (directory : String) (selected : Selected)
    (artifacts : List Artifact) : m (Except Failure Unit) := do
  match ← disk.create directory with
  | .error e => return .error (.directory directory e)
  | .ok () => writeFiles disk directory (artifacts.flatMap (files selected))

end Artifact

end SolFront
