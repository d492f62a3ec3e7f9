import SolFront.Decimal.Text
import SolFront.Text.Quoted

/-!
# What is wrong with a JSON text

A fault says why a text cannot be read and where. While a text is being read the place is kept as
the number of bytes that follow it; once the whole text is at hand it becomes a line, counted from
one, and a column, the bytes of that line up to and including the place.
-/

namespace SolFront.Json

/-- What a text can end in the middle of. -/
inductive Part where
  | value
  | string
  | list
  | object
  deriving DecidableEq, Repr

/-- What stands where a record wants something else. -/
inductive Found where
  | null
  | bool (b : Bool)
  | int (i : Int)
  | float (x : Float)
  | string (s : String)
  | sequence
  | map
  | unitVariant
  deriving DecidableEq, Repr

/-- Why a text cannot be read. -/
inductive Cause where
  | ends (within : Part)
  | expectedValue
  | expectedIdent
  | expectedColon
  | expectedListEnd
  | expectedObjectEnd
  | keyNotString
  | trailingComma
  | trailingCharacters
  | invalidNumber
  | numberOutOfRange
  | invalidEscape
  | controlCharacter
  | loneSurrogate
  | unfinishedSurrogate
  | tooDeep
  | wrongType (found : Found) (wanted : String)
  | wrongRange (i : Int) (wanted : String)
  | unknownVariant (name : String) (known : List String)
  | missingField (name : String)
  | duplicateField (name : String)
  | wrongLength (count : Nat) (wanted : String)
  deriving DecidableEq, Repr

/-- The three kinds of fault: the text stops too early, it is no JSON, or it is JSON of another
shape than wanted. -/
inductive Kind where
  | incomplete
  | malformed
  | mismatch
  deriving DecidableEq, Repr

/-- The kind of a cause. -/
def Cause.kind : Cause → Kind
  | .ends _ => .incomplete
  | .wrongType .. | .wrongRange .. | .unknownVariant .. | .missingField _ | .duplicateField _
  | .wrongLength .. => .mismatch
  | _ => .malformed

/-- The part in the words of a message. -/
def Part.message : Part → String
  | .value => "a value"
  | .string => "a string"
  | .list => "a list"
  | .object => "an object"

/-- The value in the words of a message. -/
def Found.message : Found → String
  | .null => "null"
  | .bool b => "boolean `" ++ (if b then "true" else "false") ++ "`"
  | .int i => "integer `" ++ toString i ++ "`"
  | .float x => "floating point `" ++ String.ofList (Decimal.text Decimal.document x) ++ "`"
  | .string s => "string " ++ Text.quoted s
  | .sequence => "sequence"
  | .map => "map"
  | .unitVariant => "unit variant"

/-- The known names of a choice in the words of a message. -/
def oneOf : List String → String
  | [] => "there are no variants"
  | [a] => "expected `" ++ a ++ "`"
  | [a, b] => "expected `" ++ a ++ "` or `" ++ b ++ "`"
  | names => "expected one of " ++ ", ".intercalate (names.map fun n => "`" ++ n ++ "`")

/-- The cause in words. -/
def Cause.message : Cause → String
  | .ends part => "EOF while parsing " ++ part.message
  | .expectedValue => "expected value"
  | .expectedIdent => "expected ident"
  | .expectedColon => "expected `:`"
  | .expectedListEnd => "expected `,` or `]`"
  | .expectedObjectEnd => "expected `,` or `\x7d`"
  | .keyNotString => "key must be a string"
  | .trailingComma => "trailing comma"
  | .trailingCharacters => "trailing characters"
  | .invalidNumber => "invalid number"
  | .numberOutOfRange => "number out of range"
  | .invalidEscape => "invalid escape"
  | .controlCharacter => "control character (\\u0000-\\u001F) found while parsing a string"
  | .loneSurrogate => "lone leading surrogate in hex escape"
  | .unfinishedSurrogate => "unexpected end of hex escape"
  | .tooDeep => "recursion limit exceeded"
  | .wrongType found wanted => "invalid type: " ++ found.message ++ ", expected " ++ wanted
  | .wrongRange i wanted => "invalid value: integer `" ++ toString i ++ "`, expected " ++ wanted
  | .unknownVariant name known => "unknown variant `" ++ name ++ "`, " ++ oneOf known
  | .missingField name => "missing field `" ++ name ++ "`"
  | .duplicateField name => "duplicate field `" ++ name ++ "`"
  | .wrongLength count wanted => "invalid length " ++ toString count ++ ", expected " ++ wanted

/-- A cause and the number of bytes of the text after its place. A fault that belongs to no place
has none. -/
structure Fault where
  cause : Cause
  after : Option Nat
  deriving DecidableEq, Repr

/-- The number of bytes that spell the characters. -/
def byteCount (cs : List Char) : Nat :=
  cs.foldl (fun n c => n + c.utf8Size) 0

/-- A fault `bytes` bytes into the rest of the text, or at its end if the rest is shorter. -/
def Fault.ahead (bytes : Nat) (cause : Cause) (rest : List Char) : Fault :=
  ⟨cause, some (byteCount rest - bytes)⟩

/-- A fault just before the rest of the text. -/
def Fault.here (cause : Cause) (rest : List Char) : Fault :=
  .ahead 0 cause rest

/-- A fault that includes the first byte of the rest of the text. -/
def Fault.next (cause : Cause) (rest : List Char) : Fault :=
  .ahead 1 cause rest

/-- A place in a text. -/
structure Place where
  line : Nat
  column : Nat
  deriving DecidableEq, Repr

/-- The place `bytes` bytes further on. -/
def Place.advance (place : Place) : Nat → List Char → Place
  | _, [] => place
  | bytes, c :: cs =>
    if bytes < c.utf8Size then { place with column := place.column + bytes }
    else if c = '\n' then advance ⟨place.line + 1, 0⟩ (bytes - c.utf8Size) cs
    else advance { place with column := place.column + c.utf8Size } (bytes - c.utf8Size) cs

/-- Why and where a text cannot be read. -/
structure ReadError where
  cause : Cause
  place : Option Place
  deriving DecidableEq, Repr

/-- The fault as an error of the whole text. -/
def Fault.inText (fault : Fault) (text : List Char) : ReadError where
  cause := fault.cause
  place := fault.after.map fun after =>
    Place.advance ⟨1, 0⟩ (byteCount text - after) text

/-- The error in words. -/
def ReadError.message (e : ReadError) : String :=
  match e.place with
  | none => e.cause.message
  | some p =>
    e.cause.message ++ " at line " ++ toString p.line ++ " column " ++ toString p.column

end SolFront.Json
