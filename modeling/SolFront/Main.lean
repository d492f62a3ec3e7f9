import SolFront.CommandLine.Run

/-!
# The program

The front end on the machine itself. This host reads and writes files and the standard streams, and
it has no programs to offer: a compiler or solver that is asked for is not found.
-/

namespace SolFront.Main

/-- The number that the system gives to an error, if it is one of the system's. -/
def osCode : IO.Error → Option UInt32
  | .alreadyExists _ code _ => some code
  | .noFileOrDirectory _ code _ => some code
  | .permissionDenied _ code _ => some code
  | .inappropriateType _ code _ => some code
  | .noSuchThing _ code _ => some code
  | .invalidArgument _ code _ => some code
  | .otherError code _ => some code
  | _ => none

/-- The number of an error without its sign: some numbers come as negative words. -/
def magnitude (code : UInt32) : Nat :=
  min code.toNat (-code).toNat

/-- An error of the machine as an error of the host. -/
def hostError (e : IO.Error) : HostError :=
  match (osCode e).bind fun code => OsError.ofCode? (magnitude code) with
  | some e => .os e
  | none => .other (toString e)

/-- Does something that the machine may refuse. -/
def attempt {α : Type} (action : IO α) : IO (Except HostError α) := do
  try return .ok (← action)
  catch e => return .error (hostError e)

/-- The text that bytes spell. -/
def textOf (bytes : ByteArray) : Except HostError String :=
  match Text.decode? bytes.toList with
  | some text => .ok text
  | none => .error .notUtf8

/-- The files of the machine. -/
def files : Files IO where
  present path := return (← attempt (IO.FS.realPath path)).toBool
  read path := return (← attempt (IO.FS.readBinFile path)) >>= textOf

/-- No programs. -/
def programs : Programs IO where
  run _ := return .error (.os .notFound)
  available _ := return false

/-- The directories of the machine. -/
def directory : Directory IO where
  create path := attempt (if path = "" then pure () else IO.FS.createDirAll path)
  write path text := attempt (IO.FS.writeFile path text)

/-- The standard streams of the machine. -/
def console : Console IO where
  print line := IO.println line
  complain line := IO.eprintln line

/-- The bytes of a stream up to its end. -/
partial def readAll (stream : IO.FS.Stream) (read : ByteArray) : IO ByteArray := do
  let bytes ← stream.read 65536
  if bytes.isEmpty then return read else readAll stream (read ++ bytes)

/-- The machine as a host. -/
def host : Host IO where
  files := files
  programs := programs
  directory := directory
  console := console
  input := return (← readAll (← IO.getStdin) .empty).toList
  workingDirectory := return (← IO.currentDir).toString

/-- Whether colors are wanted even where nobody may see them. -/
def wantsColor : IO Bool := do
  return (← IO.getEnv "CLICOLOR_FORCE").any (· != "0")

end SolFront.Main

/-- Runs the program. -/
def main (args : List String) : IO UInt32 := do
  let code ← SolFront.CommandLine.run SolFront.Main.host (← SolFront.Main.wantsColor) args
  return code.toUInt32
