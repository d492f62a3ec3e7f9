import SolFront.Dict
import SolFront.Host
import SolFront.Path
import SolFront.Text.Utf8

/-!
# File trees

A directory tree held in memory. An entry is known by its location, the names on the way from the
root to it. A path is walked name by name from the root or from a working directory: links are
followed where they are met, up to a limit, and what is not the last name must lead to a directory.
-/

namespace SolFront

/-- The names on the way from the root. -/
abbrev Location := List String

/-- What is at a location. -/
inductive Entry where
  | file (bytes : List UInt8)
  | directory
  | link (target : String)
  deriving DecidableEq, Inhabited, Repr

/-- The entries of a tree by location. The root is a directory of every tree. -/
structure FileTree where
  entries : List (Location × Entry)
  deriving DecidableEq, Inhabited, Repr

namespace FileTree

/-- The entry at a location. -/
def entry? (t : FileTree) (location : Location) : Option Entry :=
  if location = [] then some .directory else t.entries.lookup location

/-- Puts an entry at a location in the place of the one that is there. -/
def put (t : FileTree) (location : Location) (entry : Entry) : FileTree :=
  ⟨(location, entry) :: t.entries.filter fun e => e.1 != location⟩

/-! ## Walking -/

/-- How many links are followed on one way. -/
def maxLinks : Nat := 40

/-- How many bytes a name can have. -/
def maxName : Nat := 255

/-- How many bytes a path can have. -/
def maxPath : Nat := 4095

/-- What a path is walked for. -/
inductive Purpose where
  /-- To find what is there. -/
  | look
  /-- To put a new entry there. A link at the end is not followed. -/
  | create
  /-- To write a file. A name with separators behind it names none. -/
  | write
  deriving DecidableEq, Inhabited, Repr

/-- Where a path leads. -/
inductive Destination where
  | occupied (location : Location) (entry : Entry)
  /-- There is no entry of this name in the directory. -/
  | free (directory : Location) (name : String)
  deriving DecidableEq, Inhabited, Repr

/-- The names of a path. An empty name at the end stands for separators there. -/
def namesOf (path : String) : List String :=
  let pieces := Text.splitOn '/' path.toList
  let names := (pieces.filter (· ≠ [])).map String.ofList
  if pieces.getLast? = some [] then names ++ [""] else names

/-- Where a path starts. -/
def startOf (here : Location) (path : String) : Location :=
  if Text.startsWith ['/'] path.toList then [] else here

/-- Whether nothing but separators follows. -/
def atEnd (rest : List String) : Bool :=
  rest.all (· = "")

/-- Walks from a location along names. Where a link is to be followed, `follow` goes on from the
start of its target along the names of the target and those behind the link. -/
def walkNames (t : FileTree) (purpose : Purpose)
    (follow : Location → List String → Except OsError Destination) (here : Location) :
    List String → Except OsError Destination
  | [] => .ok (.occupied here ((t.entry? here).getD .directory))
  | name :: rest =>
    if t.entry? here ≠ some .directory then .error .notADirectory
    else if name = "" || name = "." then walkNames t purpose follow here rest
    else if name = ".." then walkNames t purpose follow here.dropLast rest
    else if purpose = .write && rest ≠ [] && atEnd rest then .error .isADirectory
    else if maxName < name.utf8ByteSize then .error .nameTooLong
    else match t.entry? (here ++ [name]) with
      | none => if atEnd rest then .ok (.free here name) else .error .notFound
      | some (.link target) =>
        if rest = [] && purpose = .create then .ok (.occupied (here ++ [name]) (.link target))
        else follow (startOf here target) (namesOf target ++ rest)
      | some _ => walkNames t purpose follow (here ++ [name]) rest

/-- Walks from a location along names and follows a limited number of links. -/
def walk (t : FileTree) (purpose : Purpose) :
    (links : Nat) → Location → List String → Except OsError Destination
  | 0 => t.walkNames purpose fun _ _ => .error .tooManyLinks
  | links + 1 => t.walkNames purpose (walk t purpose links)

/-- Whether a path can be walked at all. -/
def checkPath (path : String) : Except HostError Unit :=
  if path.toList.contains '\x00' then .error .nulInPath
  else if path = "" then .error (.os .notFound)
  else if maxPath < path.utf8ByteSize then .error (.os .nameTooLong)
  else .ok ()

/-- Where a path leads from a working directory. -/
def locate (t : FileTree) (purpose : Purpose) (here : Location) (path : String) :
    Except HostError Destination := do
  checkPath path
  (t.walk purpose maxLinks (startOf here path) (namesOf path)).mapError .os

/-- Where a new entry of this path would be. A link of this path is not followed, and separators at
the end of the path do not count. -/
def locateNew (t : FileTree) (here : Location) (path : String) :
    Except HostError (Location × String) := do
  checkPath path
  let names := (namesOf path).filter (· ≠ "")
  match t.walk .create maxLinks (startOf here path) names with
  | .ok (.occupied ..) => .error (.os .alreadyExists)
  | .ok (.free directory name) => .ok (directory, name)
  | .error e => .error (.os e)

/-! ## Looking -/

/-- The entry that a path leads to, links being followed. -/
def lookAt (t : FileTree) (here : Location) (path : String) : Except HostError Entry :=
  match t.locate .look here path with
  | .ok (.occupied _ entry) => .ok entry
  | .ok (.free ..) => .error (.os .notFound)
  | .error e => .error e

/-- Whether there is anything at the path. -/
def present (t : FileTree) (here : Location) (path : String) : Bool :=
  (t.lookAt here path).toBool

/-- Whether there is a directory at the path. -/
def isDirectory (t : FileTree) (here : Location) (path : String) : Bool :=
  match t.lookAt here path with
  | .ok .directory => true
  | _ => false

/-- The bytes of the file at the path. -/
def readBytes (t : FileTree) (here : Location) (path : String) : Except HostError (List UInt8) :=
  match t.lookAt here path with
  | .ok (.file bytes) => .ok bytes
  | .ok .directory => .error (.os .isADirectory)
  | .ok (.link _) => .error (.os .tooManyLinks)
  | .error e => .error e

/-- The text of the file at the path. -/
def read (t : FileTree) (here : Location) (path : String) : Except HostError String :=
  t.readBytes here path >>= fun bytes =>
    match Text.decode? bytes with
    | some text => .ok text
    | none => .error .notUtf8

/-! ## Changing -/

/-- Creates a file or empties it, and writes bytes to it. -/
def write (t : FileTree) (here : Location) (path : String) (bytes : List UInt8) :
    Except HostError FileTree :=
  match t.locate .write here path with
  | .ok (.occupied location (.file _)) => .ok (t.put location (.file bytes))
  | .ok (.occupied ..) => .error (.os .isADirectory)
  | .ok (.free directory name) => .ok (t.put (directory ++ [name]) (.file bytes))
  | .error e => .error e

/-- Creates a directory in one that exists. -/
def createOne (t : FileTree) (here : Location) (path : String) : Except HostError FileTree := do
  let (directory, name) ← t.locateNew here path
  pure (t.put (directory ++ [name]) .directory)

/-- Creates a link in a directory that exists. -/
def createLink (t : FileTree) (here : Location) (path target : String) :
    Except HostError FileTree := do
  let (directory, name) ← t.locateNew here path
  pure (t.put (directory ++ [name]) (.link target))

/-- The path's directory, that one's directory, and so on up to the first component. -/
def ancestors (path : Path) : List String :=
  ((List.range path.length).drop 1).reverse.map fun n => Path.toString (path.take n)

/-- Creates the first of the directories, and before that, if its own directory is missing, the
others. A directory that exists counts as created. What has been created stays if there is a failure
later. -/
def createEach (t : FileTree) (here : Location) : List String → FileTree × Except HostError Unit
  | [] => (t, .ok ())
  | path :: parents =>
    match t.createOne here path with
    | .ok t => (t, .ok ())
    | .error (.os .notFound) =>
      match createEach t here parents with
      | (t, .error e) => (t, .error e)
      | (t, .ok ()) =>
        match t.createOne here path with
        | .ok t => (t, .ok ())
        | .error e => (t, if t.isDirectory here path then .ok () else .error e)
    | .error e => (t, if t.isDirectory here path then .ok () else .error e)

/-- Creates a directory and those above it. The empty path is the working directory. -/
def create (t : FileTree) (here : Location) (path : String) : FileTree × Except HostError Unit :=
  if path = "" then (t, .ok ())
  else t.createEach here (path :: ancestors (Path.ofString path))

/-! ## Listing -/

/-- Everything below a directory by its path from there, in ascending order. -/
def below (t : FileTree) (directory : Location) : Dict Entry :=
  Dict.ofList (t.entries.filterMap fun (location, entry) =>
    if directory.isPrefixOf location && location.length != directory.length then
      some (String.ofList (Text.joinWith '/' ((location.drop directory.length).map String.toList)),
        entry)
    else none)

end FileTree

end SolFront
