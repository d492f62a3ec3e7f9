import SolFront.Json.Lexeme

/-!
# Reading JSON

A reader takes how many brackets may still be opened and a text, and reads a value from the front of
the text. The brackets, commas and colons between values are read by the functions of the first
section; a list or an object is read by a loop that takes the reader of its values.

The loops are bounded by a list that is at least as long as the text: every round takes at least one
character, so the bound is never reached.
-/

namespace SolFront.Json

/-- How many brackets a text may open inside one another. -/
def maxNesting : Nat := 127

/-- Reads a value from the front of a text, with at most the given number of brackets open. -/
abbrev Reader (α : Type) := Nat → List Char → Except Fault (α × List Char)

/-! ## Punctuation -/

/-- Whether a list goes on with another item; the rest then starts with that item, and else with the
closing bracket. No comma stands before the first item. -/
def nextItem (first : Bool) (cs : List Char) : Except Fault (Bool × List Char) :=
  match dropSpace cs with
  | [] => .error (.next (.ends .list) [])
  | c :: rest =>
    if c = ']' then .ok (false, c :: rest)
    else if first then .ok (true, c :: rest)
    else if c = ',' then
      match dropSpace rest with
      | [] => .error (.next (.ends .value) [])
      | d :: rest =>
        if d = ']' then .error (.next .trailingComma (d :: rest)) else .ok (true, d :: rest)
    else .error (.next .expectedListEnd (c :: rest))

/-- Reads the end of a list whose items are all read. -/
def endItems (cs : List Char) : Except Fault (List Char) :=
  match dropSpace cs with
  | [] => .error (.next (.ends .list) [])
  | c :: rest =>
    if c = ']' then .ok rest
    else if c = ',' then
      let after := dropSpace rest
      .error (.next (if after.head? = some ']' then .trailingComma else .trailingCharacters) after)
    else .error (.next .trailingCharacters (c :: rest))

/-- The text after an attempt to read the end of a list. -/
def pastItems (cs : List Char) : List Char :=
  match dropSpace cs with
  | ']' :: rest => rest
  | ',' :: rest => dropSpace rest
  | rest => rest

/-- The key that an object goes on with; if it does not, the rest starts with the closing brace. -/
def nextKey (first : Bool) (cs : List Char) : Except Fault (Option String × List Char) :=
  match dropSpace cs with
  | [] => .error (.next (.ends .object) [])
  | c :: rest =>
    if c = '\x7d' then .ok (none, c :: rest)
    else if first then
      if c = '"' then key rest else .error (.next .keyNotString (c :: rest))
    else if c = ',' then
      match dropSpace rest with
      | [] => .error (.next (.ends .value) [])
      | d :: rest =>
        if d = '"' then key rest
        else if d = '\x7d' then .error (.next .trailingComma (d :: rest))
        else .error (.next .keyNotString (d :: rest))
    else .error (.next .expectedObjectEnd (c :: rest))
where
  /-- Reads a key after its opening quote. -/
  key (cs : List Char) : Except Fault (Option String × List Char) :=
    match string cs with
    | .error fault => .error fault
    | .ok (name, rest) => .ok (some name, rest)

/-- Reads the colon between a key and its value. -/
def colon (cs : List Char) : Except Fault (List Char) :=
  match dropSpace cs with
  | [] => .error (.next (.ends .object) [])
  | c :: rest => if c = ':' then .ok rest else .error (.next .expectedColon (c :: rest))

/-- Reads the end of an object whose members are all read. -/
def endMembers (cs : List Char) : Except Fault (List Char) :=
  match dropSpace cs with
  | [] => .error (.next (.ends .object) [])
  | c :: rest =>
    if c = '\x7d' then .ok rest
    else .error (.next (if c = ',' then .trailingComma else .trailingCharacters) (c :: rest))

/-- The text after an attempt to read the end of an object. -/
def pastMembers (cs : List Char) : List Char :=
  match dropSpace cs with
  | '\x7d' :: rest => rest
  | rest => rest

/-! ## Loops -/

/-- Reads the items of a list up to its closing bracket. -/
def items {α : Type} (item : List Char → Except Fault (α × List Char)) :
    (bound : List Char) → Bool → List Char → Except Fault (List α × List Char)
  | [], _, cs => .error (.here (.ends .list) cs)
  | _ :: bound, first, cs => do
    let (more, rest) ← nextItem first cs
    if more then
      let (x, rest) ← item rest
      let (xs, rest) ← items item bound false rest
      .ok (x :: xs, rest)
    else .ok ([], rest)

/-- Reads a list after its opening bracket. -/
def list {α : Type} (item : List Char → Except Fault (α × List Char)) (cs : List Char) :
    Except Fault (List α × List Char) := do
  let (xs, rest) ← items item (' ' :: cs) true cs
  .ok (xs, ← endItems rest)

/-- Reads the members of an object up to its closing brace. -/
def members {α : Type} (value : List Char → Except Fault (α × List Char)) :
    (bound : List Char) → Bool → List Char → Except Fault (List (String × α) × List Char)
  | [], _, cs => .error (.here (.ends .object) cs)
  | _ :: bound, first, cs => do
    let (key, rest) ← nextKey first cs
    match key with
    | some key =>
      let (x, rest) ← value (← colon rest)
      let (xs, rest) ← members value bound false rest
      .ok ((key, x) :: xs, rest)
    | none => .ok ([], rest)

/-- Reads an object after its opening brace. Of two members with one key the later one counts. -/
def object {α : Type} (value : List Char → Except Fault (α × List Char)) (cs : List Char) :
    Except Fault (Dict α × List Char) := do
  let (ms, rest) ← members value (' ' :: cs) true cs
  .ok (Dict.ofList ms, ← endMembers rest)

/-! ## Values -/

/-- Reads any JSON value. -/
def value (nesting : Nat) (cs : List Char) : Except Fault (Json × List Char) :=
  match dropSpace cs with
  | [] => .error (.next (.ends .value) [])
  | c :: rest =>
    if c = 'n' then do .ok (.null, ← letters ['u', 'l', 'l'] rest)
    else if c = 't' then do .ok (.bool true, ← letters ['r', 'u', 'e'] rest)
    else if c = 'f' then do .ok (.bool false, ← letters ['a', 'l', 's', 'e'] rest)
    else if c = '-' then do
      let (n, rest) ← number true rest
      .ok (.num n, rest)
    else if c.isDigit then do
      let (n, rest) ← number false (c :: rest)
      .ok (.num n, rest)
    else if c = '"' then do
      let (s, rest) ← string rest
      .ok (.str s, rest)
    else if c = '[' then
      match nesting with
      | 0 => .error (.next .tooDeep (c :: rest))
      | nesting + 1 => do
        let (xs, rest) ← list (value nesting) rest
        .ok (.arr xs, rest)
    else if c = '\x7b' then
      match nesting with
      | 0 => .error (.next .tooDeep (c :: rest))
      | nesting + 1 => do
        let (ms, rest) ← object (value nesting) rest
        .ok (.obj ms, rest)
    else .error (.next .expectedValue (c :: rest))

/-- Reads a whole text: one value with blanks around it. -/
def readWith {α : Type} (reader : Reader α) (text : String) : Except ReadError α :=
  let cs := text.toList
  let whole : Except Fault α := do
    let (x, rest) ← reader maxNesting cs
    match dropSpace rest with
    | [] => .ok x
    | rest => .error (.next .trailingCharacters rest)
  whole.mapError (·.inText cs)

/-- The value that a text denotes. -/
def read (text : String) : Except ReadError Json :=
  readWith value text

end SolFront.Json
