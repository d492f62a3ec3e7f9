import SolFront.Text.Class
import SolFront.Text.Quoted
import SolFront.Text.Split

/-!
# Compiler versions

A compiler tells its version somewhere in its output: behind the word `Version:` and perhaps blanks
stand three runs of decimal digits with points between them. The first such place counts. The digits
may be of any script there, but a version number has only ASCII digits, no leading zero, and fits
into a 64-bit word.
-/

namespace SolFront

open Text (isBlank isDigit)

/-- A version of three numbers. -/
structure Version where
  major : UInt64
  minor : UInt64
  patch : UInt64
  deriving DecidableEq, Inhabited, Repr

namespace Version

/-- The version as text. -/
def text (v : Version) : String :=
  toString v.major.toNat ++ "." ++ toString v.minor.toNat ++ "." ++ toString v.patch.toNat

/-! ## Failures -/

/-- A number of a version. -/
inductive Part where
  | major
  | minor
  | patch
  deriving DecidableEq, Inhabited, Repr

/-- The number in words. -/
def Part.message : Part → String
  | major => "major version number"
  | minor => "minor version number"
  | patch => "patch version number"

/-- Why an output tells no version. -/
inductive Failure where
  | notFound (output : String)
  | leadingZero (part : Part)
  | tooLarge (part : Part)
  | noNumber (part : Part) (found : Char)
  | afterNumber (part : Part) (found : Char)
  deriving DecidableEq, Inhabited, Repr

/-- The failure in words. -/
def Failure.message : Failure → String
  | notFound output =>
    "solc version not found in `" ++ String.ofList (Text.trim output.toList) ++ "`"
  | leadingZero part => "solc version parsing error: invalid leading zero in " ++ part.message
  | tooLarge part =>
    "solc version parsing error: value of " ++ part.message ++ " exceeds u64::MAX"
  | noNumber part found =>
    "solc version parsing error: unexpected character " ++ Text.quotedChar found ++
      " while parsing " ++ part.message
  | afterNumber part found =>
    "solc version parsing error: unexpected character " ++ Text.quotedChar found ++ " after " ++
      part.message

/-! ## Reading -/

/-- The three runs of digits of a version. -/
structure Runs where
  major : List Char
  minor : List Char
  patch : List Char
  deriving DecidableEq, Inhabited, Repr

/-- The run of digits that the text starts with and what follows it. -/
def run? (cs : List Char) : Option (List Char × List Char) :=
  let digits := cs.takeWhile isDigit
  if digits = [] then none else some (digits, cs.dropWhile isDigit)

/-- What follows a point. -/
def pastPoint? : List Char → Option (List Char)
  | '.' :: cs => some cs
  | _ => none

/-- The word before a version. -/
def mark : List Char := "Version:".toList

/-- The runs of the version that the text starts with. -/
def runsAt? (cs : List Char) : Option Runs :=
  if Text.startsWith mark cs then do
    let (major, cs) ← run? ((cs.drop mark.length).dropWhile isBlank)
    let (minor, cs) ← run? (← pastPoint? cs)
    let (patch, _) ← run? (← pastPoint? cs)
    pure ⟨major, minor, patch⟩
  else none

/-- The runs of the first version in the text. -/
def firstRuns? : List Char → Option Runs
  | [] => none
  | c :: cs =>
    match runsAt? (c :: cs) with
    | some runs => some runs
    | none => firstRuns? cs

/-- The value of a run of ASCII digits. -/
def valueOf (digits : List Char) : Nat :=
  digits.foldl (fun n c => 10 * n + (c.toNat - '0'.toNat)) 0

/-- The number that a run of digits stands for. -/
def number (part : Part) (run : List Char) : Except Failure UInt64 :=
  let digits := run.takeWhile Char.isDigit
  match digits, run.dropWhile Char.isDigit with
  | [], c :: _ => .error (.noNumber part c)
  | '0' :: _ :: _, _ => .error (.leadingZero part)
  | digits, rest =>
    if UInt64.size ≤ valueOf digits then .error (.tooLarge part)
    else match rest with
      | [] => .ok (.ofNat (valueOf digits))
      | c :: _ => .error (.afterNumber part c)

/-- The version that the output of a compiler tells. -/
def ofOutput (output : String) : Except Failure Version :=
  match firstRuns? output.toList with
  | none => .error (.notFound output)
  | some runs => do
    let major ← number .major runs.major
    let minor ← number .minor runs.minor
    let patch ← number .patch runs.patch
    pure ⟨major, minor, patch⟩

end Version

end SolFront
