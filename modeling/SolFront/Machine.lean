import SolFront.FileTree

/-!
# A machine in memory

A host whose files are a tree held in memory and whose programs follow scripts. It keeps a record of
all calls and of all that is printed, so what the front end does can be looked at afterwards. Its
disk may break while a file is being written, and what has been written by then is in the file.
-/

namespace SolFront

/-- What a program does when it is called. -/
inductive Script where
  /-- The outcomes of the calls in order. All later calls have the last one. -/
  | outcomes (first : Outcome) (rest : List Outcome)
  /-- A file that may not be executed. -/
  | notExecutable
  /-- A directory where a program should be. -/
  | directory
  deriving DecidableEq, Inhabited, Repr

namespace Script

/-- The outcome of a call after `earlier` other calls. -/
def outcome (first : Outcome) (rest : List Outcome) (earlier : Nat) : Outcome :=
  (first :: rest).getD earlier ((first :: rest).getLast (by simp))

end Script

/-- A failure of the disk in the middle of a file. -/
structure Breakage where
  /-- How many bytes of the file have been written by then. -/
  written : Nat
  error : HostError
  deriving DecidableEq, Inhabited, Repr

/-- A machine in memory. -/
structure Machine where
  tree : FileTree
  /-- The working directory. -/
  here : Location
  /-- The programs on the search path by name. -/
  scripts : Dict Script
  /-- What can be read from the standard input. -/
  input : List UInt8
  /-- All calls of programs so far. -/
  calls : List Command
  /-- The text on the standard output so far. -/
  printed : String
  /-- The text on the standard error stream so far. -/
  complaints : String
  /-- What breaks with the files that are opened for writing, one after the other. Behind the end of
  the list nothing does. -/
  breakages : List (Option Breakage) := []
  deriving DecidableEq, Inhabited, Repr

namespace Machine

/-- Whether the text has a character that no argument can have. -/
def hasNul (text : String) : Bool :=
  text.toList.contains '\x00'

/-- Why a program at a path of its own cannot be started: nothing in the tree can be executed. -/
def refusalAt (m : Machine) (path : String) : HostError :=
  match m.tree.lookAt m.here path with
  | .ok _ => .os .permissionDenied
  | .error e => e

/-- The script of a program that is looked for on the search path. -/
def script? (m : Machine) (name : String) : Except HostError (Outcome × List Outcome) :=
  if name = "" then .error (.os .notFound)
  else if name = "." || name = ".." then .error (.os .permissionDenied)
  else if FileTree.maxName < name.utf8ByteSize then .error (.os .nameTooLong)
  else match Dict.get? m.scripts name with
    | none => .error (.os .notFound)
    | some (.outcomes first rest) => .ok (first, rest)
    | some _ => .error (.os .permissionDenied)

/-- How a call ends, or why the program cannot be started. -/
def outcome (m : Machine) (command : Command) : Except HostError Outcome :=
  if hasNul command.executable || command.arguments.any hasNul then .error .nulInCommand
  else if command.executable.toList.contains '/' then .error (m.refusalAt command.executable)
  else (m.script? command.executable).map fun (first, rest) =>
    Script.outcome first rest (m.calls.countP fun c => c.executable == command.executable)

/-- Runs a program and keeps a record of the call. There is no call of a program that cannot be
started. -/
def run (command : Command) : StateM Machine (Except HostError Outcome) := fun m =>
  match m.outcome command with
  | .ok outcome => (.ok outcome, { m with calls := m.calls ++ [command] })
  | .error e => (.error e, m)

/-- Whether there is a program of this name. -/
def available (m : Machine) (name : String) : Bool :=
  !hasNul name && !name.toList.contains '/' && (m.script? name).toBool

/-- What breaks with the next file that is opened for writing. Nothing can where all bytes have been
written. -/
def breakage? (m : Machine) (bytes : List UInt8) : Option Breakage :=
  m.breakages.head?.join.filter (·.written < bytes.length)

/-- Opens a file for writing, which creates or empties it, and writes bytes to it, with this result.
A file that cannot be opened is left alone. -/
def fill (path : String) (bytes : List UInt8) (result : Except HostError Unit) :
    StateM Machine (Except HostError Unit) := fun m =>
  match m.tree.write m.here path bytes with
  | .ok tree => (result, { m with tree := tree, breakages := m.breakages.tail })
  | .error e => (.error e, m)

/-- Writes a file, or a beginning of it if the disk breaks. -/
def write (path text : String) : StateM Machine (Except HostError Unit) := fun m =>
  let bytes := Text.encode text
  match m.breakage? bytes with
  | some b => fill path (bytes.take b.written) (.error b.error) m
  | none => fill path bytes (.ok ()) m

/-- The files of the machine. -/
def files : Files (StateM Machine) where
  present path := fun m => (m.tree.present m.here path, m)
  read path := fun m => (m.tree.read m.here path, m)

/-- The programs of the machine. -/
def programs : Programs (StateM Machine) where
  run := run
  available name := fun m => (m.available name, m)

/-- The directories of the machine. -/
def directory : Directory (StateM Machine) where
  create path := fun m =>
    let (tree, result) := m.tree.create m.here path
    (result, { m with tree := tree })
  write := write

/-- The console of the machine. -/
def console : Console (StateM Machine) where
  print line := modify fun m => { m with printed := m.printed ++ line ++ "\n" }
  complain line := modify fun m => { m with complaints := m.complaints ++ line ++ "\n" }

/-- The text of a location. -/
def pathOf (location : Location) : String :=
  "/" ++ "/".intercalate location

/-- The machine as a host. -/
def host : Host (StateM Machine) where
  files := files
  programs := programs
  directory := directory
  console := console
  input := fun m => (m.input, m)
  workingDirectory := fun m => (pathOf m.here, m)

end Machine

end SolFront
