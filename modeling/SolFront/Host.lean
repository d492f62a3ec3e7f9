/-!
# The host

What the front end asks of the machine it runs on: files, programs, and the standard streams. The
operations are given in a monad, so the same front end runs on the machine itself and on a directory
tree held in memory.
-/

namespace SolFront

/-- A refusal of the operating system. -/
inductive OsError where
  | notFound
  | permissionDenied
  | alreadyExists
  | notADirectory
  | isADirectory
  | nameTooLong
  | tooManyLinks
  deriving DecidableEq, Inhabited, Repr

namespace OsError

/-- The errors that the front end can meet. -/
def all : List OsError :=
  [notFound, permissionDenied, alreadyExists, notADirectory, isADirectory, nameTooLong,
    tooManyLinks]

/-- The number of the error. -/
def code : OsError → Nat
  | notFound => 2
  | permissionDenied => 13
  | alreadyExists => 17
  | notADirectory => 20
  | isADirectory => 21
  | nameTooLong => 36
  | tooManyLinks => 40

/-- The error of this number. -/
def ofCode? (code : Nat) : Option OsError :=
  all.find? (·.code == code)

/-- The class of the error. -/
def kind : OsError → String
  | notFound => "NotFound"
  | permissionDenied => "PermissionDenied"
  | alreadyExists => "AlreadyExists"
  | notADirectory => "NotADirectory"
  | isADirectory => "IsADirectory"
  | nameTooLong => "InvalidFilename"
  | tooManyLinks => "FilesystemLoop"

/-- The error in the words of the system. -/
def description : OsError → String
  | notFound => "No such file or directory"
  | permissionDenied => "Permission denied"
  | alreadyExists => "File exists"
  | notADirectory => "Not a directory"
  | isADirectory => "Is a directory"
  | nameTooLong => "File name too long"
  | tooManyLinks => "Too many levels of symbolic links"

end OsError

/-- Why the host cannot do what it is asked. -/
inductive HostError where
  | os (e : OsError)
  | nulInPath
  | nulInCommand
  | notUtf8
  | other (description : String)
  deriving DecidableEq, Inhabited, Repr

namespace HostError

/-- The error as it is told about a file. -/
def message : HostError → String
  | os e => e.description ++ " (os error " ++ toString e.code ++ ")"
  | nulInPath => "file name contained an unexpected NUL byte"
  | nulInCommand => "nul byte found in provided data"
  | notUtf8 => "stream did not contain valid UTF-8"
  | other description => description

/-- The error as it is told about a program that cannot be started. -/
def details : HostError → String
  | os e =>
    "Os \x7b code: " ++ toString e.code ++ ", kind: " ++ e.kind ++ ", message: \"" ++
      e.description ++ "\" \x7d"
  | e => "Error \x7b kind: InvalidInput, message: \"" ++ e.message ++ "\" \x7d"

end HostError

/-- A program to run: its name, its arguments and its standard input. -/
structure Command where
  executable : String
  arguments : List String
  input : String
  deriving DecidableEq, Inhabited, Repr

/-- How a program ended. -/
inductive ExitStatus where
  | code (n : Nat)
  | killed
  deriving DecidableEq, Inhabited, Repr

namespace ExitStatus

/-- Whether the program ended without an error. -/
def success : ExitStatus → Bool
  | code n => n == 0
  | killed => false

/-- The status in words. -/
def message : ExitStatus → String
  | code n => "exit status: " ++ toString n
  | killed => "signal: 9 (SIGKILL)"

end ExitStatus

/-- What a program left behind. -/
structure Outcome where
  status : ExitStatus
  output : List UInt8
  errors : List UInt8
  deriving DecidableEq, Inhabited, Repr

/-- The files that imports are looked for in. -/
structure Files (m : Type → Type) where
  /-- Whether there is anything at the path, links being followed. -/
  present : String → m Bool
  /-- The text of the file at the path. -/
  read : String → m (Except HostError String)

/-- The programs that can be run. -/
structure Programs (m : Type → Type) where
  /-- Runs a program to its end. -/
  run : Command → m (Except HostError Outcome)
  /-- Whether a program of this name can be found and run. -/
  available : String → m Bool

/-- Where artifacts are written. -/
structure Directory (m : Type → Type) where
  /-- Creates a directory and those above it, if they do not exist. -/
  create : String → m (Except HostError Unit)
  /-- Creates a file or replaces its contents. -/
  write : String → String → m (Except HostError Unit)

/-- The standard streams for messages. -/
structure Console (m : Type → Type) where
  /-- Writes a line to the standard output. -/
  print : String → m Unit
  /-- Writes a line to the standard error stream. -/
  complain : String → m Unit

/-- A console that shows nothing. -/
def Console.silent {m : Type → Type} [Monad m] : Console m where
  print _ := pure ()
  complain _ := pure ()

/-- All that the front end asks of the machine. -/
structure Host (m : Type → Type) where
  files : Files m
  programs : Programs m
  directory : Directory m
  console : Console m
  /-- The standard input. -/
  input : m (List UInt8)
  /-- The working directory. -/
  workingDirectory : m String

end SolFront
