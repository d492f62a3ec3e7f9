import SolFront.Json.Basic
import SolFront.Decimal.Text
import SolFront.Text.Quoted

/-!
# Printing JSON

A layout says what blanks a document has: none when it is compact, and when it is pretty a line for
each item or member, four blanks deeper than the bracket around it. Empty lists and objects stay on
their line in both.
-/

namespace SolFront.Json

/-- The blanks of a document. -/
structure Layout where
  /-- What stands before an item at a depth, and before the bracket that closes at that depth. -/
  line : Nat → List Char
  /-- What stands after a colon. -/
  gap : List Char

/-- No blanks at all. -/
def Layout.compact : Layout where
  line _ := []
  gap := []

/-- A line for each item, four blanks deeper for each bracket. -/
def Layout.pretty : Layout where
  line depth := '\n' :: List.replicate (4 * depth) ' '
  gap := [' ']

/-- The layout of a document that is wanted pretty or not. -/
def Layout.of (pretty : Bool) : Layout :=
  if pretty then .pretty else .compact

/-- One character inside a string. -/
def escape (c : Char) : List Char :=
  if c = '"' then ['\\', '"']
  else if c = '\\' then ['\\', '\\']
  else if c = '\n' then ['\\', 'n']
  else if c = '\r' then ['\\', 'r']
  else if c = '\t' then ['\\', 't']
  else if c = '\x08' then ['\\', 'b']
  else if c = '\x0c' then ['\\', 'f']
  else if c.toNat < 0x20 then
    ['\\', 'u', '0', '0', Nat.digitChar (c.toNat / 16), Nat.digitChar (c.toNat % 16)]
  else [c]

/-- A string with its quotes. -/
def printString (s : String) : List Char :=
  '"' :: s.toList.flatMap escape ++ ['"']

/-- An integer in decimal digits. -/
def printInt (i : Int) : List Char :=
  if i < 0 then '-' :: Nat.toDigits 10 i.natAbs else Nat.toDigits 10 i.natAbs

/-- A number. -/
def printNumber : Number → List Char
  | .int i => printInt i
  | .float x => Decimal.text Decimal.document x

mutual

/-- A value whose brackets stand at the depth. -/
def print (layout : Layout) (depth : Nat) : Json → List Char
  | .null => ['n', 'u', 'l', 'l']
  | .bool true => ['t', 'r', 'u', 'e']
  | .bool false => ['f', 'a', 'l', 's', 'e']
  | .num n => printNumber n
  | .str s => printString s
  | .arr [] => ['[', ']']
  | .arr (x :: xs) =>
    '[' :: layout.line (depth + 1) ++ print layout (depth + 1) x ++
      printItems layout (depth + 1) xs ++ layout.line depth ++ [']']
  | .obj [] => ['\x7b', '\x7d']
  | .obj ((key, x) :: ms) =>
    '\x7b' :: layout.line (depth + 1) ++ printString key ++ ':' :: layout.gap ++
      print layout (depth + 1) x ++ printMembers layout (depth + 1) ms ++ layout.line depth ++
      ['\x7d']

/-- The items after the first one. -/
def printItems (layout : Layout) (depth : Nat) : List Json → List Char
  | [] => []
  | x :: xs => ',' :: layout.line depth ++ print layout depth x ++ printItems layout depth xs

/-- The members after the first one. -/
def printMembers (layout : Layout) (depth : Nat) : List (String × Json) → List Char
  | [] => []
  | (key, x) :: ms =>
    ',' :: layout.line depth ++ printString key ++ ':' :: layout.gap ++ print layout depth x ++
      printMembers layout depth ms

end

/-- The text of a document. -/
def render (v : Json) (pretty : Bool) : String :=
  String.ofList (print (.of pretty) 0 v)

end SolFront.Json
