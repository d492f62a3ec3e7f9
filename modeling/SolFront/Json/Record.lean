import SolFront.Json.Skip

/-!
# Reading records

Readers for texts of a known shape: strings, flags, words, lists, dictionaries, choices and records.
A record may be written as an object, or as a list of its fields in order. It is filled into a draft
field by field; fields that may be left out keep what the empty draft has.
-/

namespace SolFront.Json

/-- The fault of a value of another type than wanted. The value is read as far as its type shows. -/
def wrongType (wanted : String) (cs : List Char) : Fault :=
  match shape cs with
  | .ok (found, rest) => .here (.wrongType found wanted) rest
  | .error fault => fault
where
  /-- The type of the value at the front of a text without blanks there. -/
  shape (cs : List Char) : Except Fault (Found × List Char) := do
    match cs with
    | 'n' :: rest => .ok (.null, ← letters ['u', 'l', 'l'] rest)
    | 't' :: rest => .ok (.bool true, ← letters ['r', 'u', 'e'] rest)
    | 'f' :: rest => .ok (.bool false, ← letters ['a', 'l', 's', 'e'] rest)
    | '-' :: rest => numeral (← number true rest)
    | '"' :: rest =>
      let (s, rest) ← string rest
      .ok (.string s, rest)
    | '[' :: _ => .ok (.sequence, cs)
    | '\x7b' :: _ => .ok (.map, cs)
    | c :: _ =>
      if c.isDigit then numeral (← number false cs) else .error (.next .expectedValue cs)
    | [] => .error (.next .expectedValue cs)
  /-- A number as what was found. -/
  numeral : Number × List Char → Except Fault (Found × List Char)
    | (.int i, rest) => .ok (.int i, rest)
    | (.float x, rest) => .ok (.float x, rest)

namespace Reader

variable {α β δ : Type}

/-- Reads a value whose first character is handed to `start` together with the rest. -/
def startingWith (start : Char → List Char → Except Fault (α × List Char)) :
    List Char → Except Fault (α × List Char) := fun cs =>
  match dropSpace cs with
  | [] => .error (.next (.ends .value) [])
  | c :: rest => start c rest

/-- Applies a function to what is read. -/
def map (f : α → β) (reader : Reader α) : Reader β := fun nesting cs => do
  let (x, rest) ← reader nesting cs
  .ok (f x, rest)

/-- Reads any value. -/
def json : Reader Json :=
  value

/-- Reads a string. -/
def string : Reader String := fun _ =>
  startingWith fun c rest =>
    if c = '"' then Json.string rest else .error (wrongType "a string" (c :: rest))

/-- Reads `true` or `false`. -/
def bool : Reader Bool := fun _ =>
  startingWith fun c rest => do
    if c = 't' then .ok (true, ← letters ['r', 'u', 'e'] rest)
    else if c = 'f' then .ok (false, ← letters ['a', 'l', 's', 'e'] rest)
    else .error (wrongType "a boolean" (c :: rest))

/-- Reads an integer from `least` to `greatest`. -/
def integer (least greatest : Int) (wanted : String) : Reader Int := fun _ =>
  startingWith fun c rest => do
    let (n, rest) ←
      if c = '-' then number true rest
      else if c.isDigit then number false (c :: rest)
      else .error (wrongType wanted (c :: rest))
    match n with
    | .int i =>
      if least ≤ i && i ≤ greatest then .ok (i, rest)
      else .error (.here (.wrongRange i wanted) rest)
    | .float x => .error (.here (.wrongType (.float x) wanted) rest)

/-- Reads an unsigned 64-bit word. -/
def word : Reader UInt64 :=
  map (fun i => .ofNat i.toNat) (integer 0 ((UInt64.size : Int) - 1) "usize")

/-- Reads a signed 64-bit word. -/
def signedWord : Reader Int64 :=
  map .ofInt (integer Int64.minValue.toInt Int64.maxValue.toInt "isize")

/-- Reads a value or `null`. -/
def nullable (reader : Reader α) : Reader (Option α) := fun nesting cs => do
  match dropSpace cs with
  | 'n' :: rest => .ok (none, ← letters ['u', 'l', 'l'] rest)
  | cs =>
    let (x, rest) ← reader nesting cs
    .ok (some x, rest)

/-- Reads a value inside a bracket, if another bracket may be opened. -/
def nested (reader : Reader α) (nesting : Nat) (opening rest : List Char) :
    Except Fault (α × List Char) :=
  match nesting with
  | 0 => .error (.next .tooDeep opening)
  | nesting + 1 => reader nesting rest

/-- Reads a list. -/
def list (item : Reader α) : Reader (List α) := fun nesting =>
  startingWith fun c rest =>
    if c = '[' then nested (fun nesting => Json.list (item nesting)) nesting (c :: rest) rest
    else .error (wrongType "a sequence" (c :: rest))

/-- Reads a dictionary. -/
def dict (item : Reader α) : Reader (Dict α) := fun nesting =>
  startingWith fun c rest =>
    if c = '\x7b' then nested (fun nesting => object (item nesting)) nesting (c :: rest) rest
    else .error (wrongType "a map" (c :: rest))

/-! ## Choices -/

/-- Reads the name of one of the variants. -/
def variant (variants : List (String × α)) : Reader α := fun _ =>
  startingWith fun c rest => do
    if c = '"' then
      let (name, rest) ← Json.string rest
      match variants.lookup name with
      | some x => .ok (x, rest)
      | none => .error (.here (.unknownVariant name (variants.map (·.1))) rest)
    else .error (wrongType "variant identifier" (c :: rest))

/-- Reads `null` as the payload of a variant that has none. -/
def noPayload : Reader Unit := fun _ =>
  startingWith fun c rest => do
    if c = 'n' then .ok ((), ← letters ['u', 'l', 'l'] rest)
    else .error (wrongType "unit" (c :: rest))

/-- Reads a choice: the bare name of a variant, or an object with the name of a variant as its only
key. `bare` says what a bare name stands for and `payload` reads the value of the key. -/
def choice (variants : List (String × β)) (bare : β → Except Fault α) (payload : β → Reader α) :
    Reader α := fun nesting =>
  startingWith fun c rest => do
    if c = '"' then
      let (x, rest) ← variant variants nesting (c :: rest)
      .ok (← bare x, rest)
    else if c = '\x7b' then
      nested (fun nesting rest => do
        let (x, rest) ← variant variants nesting rest
        let (x, rest) ← payload x nesting (← colon rest)
        match dropSpace rest with
        | '\x7d' :: rest => .ok (x, rest)
        | [] => .error (.here (.ends .object) [])
        | rest => .error (.here .expectedValue rest)) nesting (c :: rest) rest
    else .error (.next .expectedValue (c :: rest))

/-- Reads a choice among variants without payload. -/
def constant (variants : List (String × α)) : Reader α :=
  choice variants .ok fun x => map (fun _ => x) noPayload

/-! ## Records -/

/-- A field of a record that is drafted as a `δ`. -/
structure RecordField (δ : Type) where
  name : String
  /-- Whether the record is refused without the field. -/
  required : Bool
  /-- Whether the draft has the field. -/
  given : δ → Bool
  /-- Reads the value of the field into the draft. -/
  fill : δ → Reader δ

/-- A field that is read by a reader and put into the draft by `set`. -/
def RecordField.of (name : String) (required : Bool) (reader : Reader α) (get : δ → Option α)
    (set : δ → α → δ) : RecordField δ where
  name := name
  required := required
  given draft := (get draft).isSome
  fill draft := map (set draft) reader

/-- What a record written as a list has to be. -/
def fieldCount (title : String) (fields : List (RecordField δ)) : String :=
  title ++ " with " ++ toString fields.length ++
    if fields.length = 1 then " element" else " elements"

/-- Reads the fields of a record that is written as a list. -/
def fillInOrder (wanted : String) (nesting : Nat) :
    List (RecordField δ) → Nat → δ → List Char → Except Fault (δ × List Char)
  | [], _, draft, cs => .ok (draft, cs)
  | field :: fields, count, draft, cs => do
    let (more, rest) ← nextItem (count == 0) cs
    if more then
      let (draft, rest) ← field.fill draft nesting rest
      fillInOrder wanted nesting fields (count + 1) draft rest
    else if field.required then
      .error (.here (.wrongLength count wanted) (pastItems rest))
    else fillInOrder wanted nesting fields (count + 1) draft rest

/-- Reads the members of a record that is written as an object. The first list bounds the rounds;
every round takes at least one character of the text. -/
def fillByName (nesting : Nat) (fields : List (RecordField δ)) :
    (bound : List Char) → Bool → δ → List Char → Except Fault (δ × List Char)
  | [], _, _, cs => .error (.here (.ends .object) cs)
  | _ :: bound, first, draft, cs => do
    let (key, rest) ← nextKey first cs
    match key with
    | none =>
      match fields.find? fun field => field.required && !field.given draft with
      | some field => .error (.here (.missingField field.name) (pastMembers rest))
      | none => .ok (draft, rest)
    | some key =>
      match fields.find? fun field => field.name == key with
      | some field =>
        if field.given draft then .error (.here (.duplicateField key) (pastMembers rest))
        else
          let (draft, rest) ← field.fill draft nesting (← colon rest)
          fillByName nesting fields bound false draft rest
      | none => fillByName nesting fields bound false draft (← skip (← colon rest))

/-- Reads a record into the empty draft. -/
def record (title : String) (fields : List (RecordField δ)) (empty : δ) : Reader δ := fun nesting =>
  startingWith fun c rest =>
    if c = '[' then
      nested (fun nesting rest => do
        let (draft, rest) ← fillInOrder (fieldCount title fields) nesting fields 0 empty rest
        .ok (draft, ← endItems rest)) nesting (c :: rest) rest
    else if c = '\x7b' then
      nested (fun nesting rest => do
        let (draft, rest) ← fillByName nesting fields (' ' :: rest) true empty rest
        .ok (draft, ← endMembers rest)) nesting (c :: rest) rest
    else .error (wrongType title (c :: rest))

end Reader

end SolFront.Json
