/-!
# Splitting a text

A text with `n` separators has `n + 1` pieces, some of them perhaps empty, and joining the pieces
with the separator gives the text back.
-/

namespace SolFront.Text

/-- The pieces of a text between the separators. -/
def splitOn (separator : Char) : List Char → List (List Char)
  | [] => [[]]
  | c :: cs =>
    if c = separator then [] :: splitOn separator cs
    else match splitOn separator cs with
      | [] => [[c]]
      | piece :: pieces => (c :: piece) :: pieces

/-- The pieces with a separator between each two. -/
def joinWith (separator : Char) : List (List Char) → List Char
  | [] => []
  | [piece] => piece
  | piece :: pieces => piece ++ separator :: joinWith separator pieces

/-- Whether the text starts with the beginning. -/
def startsWith (beginning cs : List Char) : Bool :=
  beginning.isPrefixOf cs

/-- The text with the first occurrence of `old` replaced by `new`. -/
def replaceFirst (old new : List Char) : List Char → List Char
  | [] => if old.isEmpty then new else []
  | c :: cs =>
    if startsWith old (c :: cs) then new ++ (c :: cs).drop old.length
    else c :: replaceFirst old new cs

end SolFront.Text
