import SolFront.Text.Split

/-!
# Unit names of imports

An import path that starts with `./` or `../` is relative to the directory of the importing unit. It
is joined to that directory segment by segment. Any other path is a unit name as it stands.
-/

namespace SolFront.Import

/-- Whether an import path is relative to the importing unit. -/
def isRelative (path : List Char) : Bool :=
  Text.startsWith ['.', '/'] path || Text.startsWith ['.', '.', '/'] path

/-- Enters a segment from a directory, whose own segments are given last first. In the topmost
directory `..` leads nowhere. -/
def enter (directory : List (List Char)) (segment : List Char) : List (List Char) :=
  if segment = ['.'] then directory
  else if segment = ['.', '.'] then directory.tail
  else segment :: directory

/-- The segments of the directory that a unit is in, last first. -/
def directoryOf (unit : List Char) : List (List Char) :=
  (Text.splitOn '/' unit).reverse.tail

/-- The name of the unit that a directory and a relative path lead to. -/
def joinPath (directory : List (List Char)) (path : List Char) : List Char :=
  Text.joinWith '/' ((Text.splitOn '/' path).foldl enter directory).reverse

/-- The unit name that the compiler asks for where `importer` imports `path`. -/
def unitName (importer path : String) : String :=
  if isRelative path.toList then String.ofList (joinPath (directoryOf importer.toList) path.toList)
  else path

end SolFront.Import
