import SolFront.Json.Reader

/-!
# Passing over a value

A record ignores the fields it does not know. Their values have to be JSON, but they may be nested
without limit, their numbers may be out of range and their surrogates need not be paired.
-/

namespace SolFront.Json

/-- An open bracket. -/
inductive Bracket where
  | list
  | object
  deriving DecidableEq, Repr

/-- What closes the bracket. -/
def Bracket.closer : Bracket → Char
  | .list => ']'
  | .object => '\x7d'

/-- The part of a text that the bracket opens. -/
def Bracket.part : Bracket → Part
  | .list => .list
  | .object => .object

/-- What is wrong if neither a comma nor the closing bracket follows an item. -/
def Bracket.unfinished : Bracket → Cause
  | .list => .expectedListEnd
  | .object => .expectedObjectEnd

/-- Passes over digits; there has to be one. -/
def skipDigits (cs : List Char) : Except Fault (List Char) :=
  if cs.head?.any Char.isDigit then .ok (cs.dropWhile Char.isDigit)
  else .error (.next .invalidNumber cs)

/-- Passes over an exponent, if there is one. -/
def skipExponent : List Char → Except Fault (List Char)
  | 'e' :: '+' :: rest | 'e' :: '-' :: rest | 'E' :: '+' :: rest | 'E' :: '-' :: rest
  | 'e' :: rest | 'E' :: rest => skipDigits rest
  | rest => .ok rest

/-- Passes over a number after its sign. -/
def skipNumber (cs : List Char) : Except Fault (List Char) := do
  let rest ← match cs with
    | '0' :: rest =>
      if rest.head?.any Char.isDigit then .error (.next .invalidNumber rest) else .ok rest
    | cs => skipDigits cs
  match rest with
  | '.' :: rest => skipExponent (← skipDigits rest)
  | rest => skipExponent rest

/-- Passes over a key, its colon included, where a member of an object has to start. -/
def skipKey (cs : List Char) : Except Fault (List Char) := do
  match dropSpace cs with
  | [] => .error (.next (.ends .object) [])
  | c :: rest =>
    if c = '"' then colon (← skipString rest) else .error (.next .keyNotString (c :: rest))

/-- Passes over what precedes a value inside the bracket. -/
def Bracket.skipToValue : Bracket → List Char → Except Fault (List Char)
  | .list, cs => .ok cs
  | .object, cs => skipKey cs

/-- Passes over the closing brackets after a value and the comma after them. Returns the brackets
still open and the rest of the text. -/
def skipClosers : List Bracket → List Char → Except Fault (List Bracket × List Char)
  | [], cs => .ok ([], cs)
  | b :: opened, cs =>
    match dropSpace cs with
    | [] => .error (.next (.ends b.part) [])
    | c :: rest =>
      if c = b.closer then skipClosers opened rest
      else if c = ',' then do .ok (b :: opened, ← b.skipToValue rest)
      else .error (.next b.unfinished (c :: rest))

/-- Passes over a bracket just opened: it is closed at once, or its first value follows. -/
def skipOpener (b : Bracket) (opened : List Bracket) (cs : List Char) :
    Except Fault (List Bracket × List Char) :=
  match dropSpace cs with
  | [] => .error (.next (.ends b.part) [])
  | c :: rest =>
    if c = b.closer then skipClosers opened rest
    else do .ok (b :: opened, ← b.skipToValue (c :: rest))

/-- Passes over the start of a value: a whole value that is no list or object, or an opening
bracket. Returns the brackets still open and the rest of the text. -/
def skipStart (opened : List Bracket) (cs : List Char) :
    Except Fault (List Bracket × List Char) := do
  match dropSpace cs with
  | [] => .error (.next (.ends .value) [])
  | c :: rest =>
    if c = '[' then skipOpener .list opened rest
    else if c = '\x7b' then skipOpener .object opened rest
    else
      let rest ←
        if c = 'n' then letters ['u', 'l', 'l'] rest
        else if c = 't' then letters ['r', 'u', 'e'] rest
        else if c = 'f' then letters ['a', 'l', 's', 'e'] rest
        else if c = '-' then skipNumber rest
        else if c.isDigit then skipNumber (c :: rest)
        else if c = '"' then skipString rest
        else .error (.next .expectedValue (c :: rest))
      skipClosers opened rest

/-- Passes over values until no bracket is open. The first list bounds the rounds; every round takes
at least one character of the text. -/
def skipFrom : (bound : List Char) → List Bracket → List Char → Except Fault (List Char)
  | [], _, cs => .error (.here (.ends .value) cs)
  | _ :: bound, opened, cs => do
    let (opened, rest) ← skipStart opened cs
    if opened.isEmpty then .ok rest else skipFrom bound opened rest

/-- Passes over one value. -/
def skip (cs : List Char) : Except Fault (List Char) :=
  skipFrom (' ' :: cs) [] cs

end SolFront.Json
