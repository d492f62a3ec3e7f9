import SolFront.Text.Split

/-!
# Lexical paths

A path is a list of components. Repeated and trailing separators and inner `.` segments leave no
trace; a leading `.` is a component of its own. Nothing here looks at a file system: `..` is
collapsed on the components alone.
-/

namespace SolFront

/-- A component of a path. -/
inductive Component where
  | root
  | here
  | parent
  | name (s : String)
  deriving DecidableEq, Inhabited, Repr

namespace Component

/-- The component that a segment stands for. Empty segments and inner `.` segments stand for none. -/
def ofSegment? (segment : List Char) : Option Component :=
  if segment = [] || segment = ['.'] then none
  else if segment = ['.', '.'] then some .parent
  else some (.name (String.ofList segment))

/-- The segment for a component. The root has none of its own. -/
def segment : Component → List Char
  | root => []
  | here => ['.']
  | parent => ['.', '.']
  | name s => s.toList

end Component

/-- A path as its components. The root can only come first. -/
abbrev Path := List Component

namespace Path

/-- The components before the ordinary ones: the root of an absolute path or a leading `.`. -/
def start (segments : List (List Char)) : Path :=
  match segments with
  | [] :: _ :: _ => [.root]
  | ['.'] :: _ => [.here]
  | _ => []

/-- The components of a path's segments. -/
def ofSegments (segments : List (List Char)) : Path :=
  start segments ++ segments.filterMap Component.ofSegment?

/-- The components of a path's text. -/
def ofString (text : String) : Path :=
  ofSegments (Text.splitOn '/' text.toList)

/-- The text of a path. -/
def toString : Path → String
  | .root :: rest => String.ofList ('/' :: Text.joinWith '/' (rest.map Component.segment))
  | path => String.ofList (Text.joinWith '/' (path.map Component.segment))

/-- Whether the path starts at the root. -/
def isAbsolute : Path → Bool
  | .root :: _ => true
  | _ => false

/-! ## Resolving -/

/-- Walks over one component. The walk so far is kept in reverse; at the root and at an empty path
there is nothing for `..` to leave. -/
def walk (behind : Path) : Component → Path
  | .root => [.root]
  | .here => behind
  | .parent =>
    match behind with
    | .root :: rest => .root :: rest
    | _ :: rest => rest
    | [] => []
  | .name s => .name s :: behind

/-- The path without `.` and `..`. -/
def collapse (path : Path) : Path :=
  (path.foldl walk []).reverse

/-- The path as seen from a working directory, without `.` and `..`. -/
def resolve (workingDirectory path : Path) : Path :=
  collapse (if path.isAbsolute then path else workingDirectory ++ path)

/-! ## Relative paths -/

/-- The way from one path to another behind what they have in common. -/
def wayFrom : Path → Path → Path
  | b :: base, p :: path =>
    if b = p then wayFrom base path
    else List.replicate (base.length + 1) .parent ++ p :: path
  | base, path => List.replicate base.length .parent ++ path

/-- The path leading from the base directory to the path. There is none if they have nothing in
common. -/
def relativeTo? : Path → Path → Option Path
  | b :: base, p :: path => if b = p then some (wayFrom base path) else none
  | _, _ => none

/-- Whether the path leaves its directory and then goes on. The parent directory itself is not
escaping. -/
def isEscaping : Path → Bool
  | .parent :: _ :: _ => true
  | _ => false

end Path

end SolFront
