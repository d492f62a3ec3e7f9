import SolFront.Json.Basic
import SolFront.Json.Fault

/-!
# Words, numbers and strings of a JSON text

Each function reads one lexeme from the front of a text and returns it with the rest.
-/

namespace SolFront.Json

/-- Whether the character may stand between lexemes. -/
def isSpace (c : Char) : Bool :=
  c == ' ' || c == '\n' || c == '\t' || c == '\r'

/-- The text after the blanks at its front. -/
def dropSpace (cs : List Char) : List Char :=
  cs.dropWhile isSpace

/-- Reads the remaining letters of `null`, `true` or `false`. -/
def letters : List Char → List Char → Except Fault (List Char)
  | [], rest => .ok rest
  | _ :: _, [] => .error (.here (.ends .value) [])
  | w :: word, c :: rest =>
    if w = c then letters word rest else .error (.next .expectedIdent (c :: rest))

/-! ## Numbers -/

/-- The value of a decimal digit. -/
def digitValue (c : Char) : Nat :=
  c.toNat - '0'.toNat

/-- Appends digits to a significand as long as it stays within a 64-bit word; also returns the
digits left over. -/
def absorb (significand : Nat) : List Char → Nat × List Char
  | [] => (significand, [])
  | d :: digits =>
    let next := significand * 10 + digitValue d
    if next < UInt64.size then absorb next digits else (significand, d :: digits)

/-- The largest power of ten that is a float. -/
def maxPower : Nat := 308

/-- The float nearest to a power of ten. -/
def powerOfTen (k : Nat) : Float :=
  Float.ofScientific 1 false k

/-- The float `x * 10 ^ exponent`, by one multiplication or division for each power of ten that is
a float; `none` if it is too large. -/
def scale (x : Float) (exponent : Int) : Option Float :=
  if exponent.natAbs ≤ maxPower then
    if 0 ≤ exponent then
      let y := x * powerOfTen exponent.natAbs
      if y.isInf then none else some y
    else some (x / powerOfTen exponent.natAbs)
  else if x == 0 then some x
  else if 0 ≤ exponent then none
  else scale (x / powerOfTen maxPower) (exponent + maxPower)
termination_by exponent.natAbs
decreasing_by simp only [maxPower] at *; omega

/-- The float with the sign. -/
def signed (negative : Bool) (x : Float) : Float :=
  if negative then -x else x

/-- The float of a significand and an exponent; the fault is that it is too large. -/
def float (negative : Bool) (significand : Nat) (exponent : Int) (rest : List Char) :
    Except Fault (Number × List Char) :=
  match scale significand.toUInt64.toFloat exponent with
  | some x => .ok (.float (signed negative x), rest)
  | none => .error (.here .numberOutOfRange rest)

/-- The largest exponent that is told apart from larger ones. -/
def maxExponent : Nat := 2147483647

/-- Reads the digits of an exponent, up to the digit that makes it larger than `maxExponent`. -/
def exponentDigits (value : Nat) : List Char → Nat × List Char
  | [] => (value, [])
  | c :: rest =>
    if !c.isDigit then (value, c :: rest)
    else
      let next := value * 10 + digitValue c
      if maxExponent < next then (next, rest) else exponentDigits next rest

/-- Reads an exponent after its `e` and ends the number with it. -/
def exponentPart (negative : Bool) (significand : Nat) (exponent : Int) (cs : List Char) :
    Except Fault (Number × List Char) :=
  let (down, digits) : Bool × List Char := match cs with
    | '+' :: r => (false, r)
    | '-' :: r => (true, r)
    | r => (false, r)
  match digits with
  | [] => .error (.here (.ends .value) [])
  | c :: _ =>
    if !c.isDigit then .error (.next .invalidNumber digits)
    else
      let (value, rest) := exponentDigits 0 digits
      if maxExponent < value then
        if significand ≠ 0 && !down then .error (.here .numberOutOfRange rest)
        else .ok (.float (signed negative 0), rest.dropWhile Char.isDigit)
      else float negative significand (if down then exponent - value else exponent + value) rest

/-- Reads what follows the digits of a fraction. -/
def afterFraction (negative : Bool) (significand : Nat) (exponent : Int) :
    List Char → Except Fault (Number × List Char)
  | 'e' :: rest | 'E' :: rest => exponentPart negative significand exponent rest
  | rest => float negative significand exponent rest

/-- Reads a fraction after its point. Digits that no longer fit the significand are dropped. -/
def fractionPart (negative : Bool) (significand : Nat) (exponent : Int) (cs : List Char) :
    Except Fault (Number × List Char) :=
  let digits := cs.takeWhile Char.isDigit
  let rest := cs.dropWhile Char.isDigit
  if digits.isEmpty then
    .error (.next (if rest.isEmpty then .ends .value else .invalidNumber) rest)
  else
    let (significand, unused) := absorb significand digits
    afterFraction negative significand (exponent - (digits.length - unused.length : Nat)) rest

/-- Ends a number after the digits before its point. Each digit that did not fit the significand
counts as a power of ten. A whole number that fits a word stays one, except that there is no
integer minus zero. -/
def afterWhole (negative : Bool) (digits : List Char) (cs : List Char) :
    Except Fault (Number × List Char) :=
  let (significand, unused) := absorb 0 digits
  match cs with
  | '.' :: rest => fractionPart negative significand unused.length rest
  | 'e' :: rest | 'E' :: rest => exponentPart negative significand unused.length rest
  | rest =>
    if !unused.isEmpty then float negative significand unused.length rest
    else if !negative then .ok (.int significand, rest)
    else if 0 < significand && significand ≤ Nat.pow 2 63 then .ok (.int (-significand), rest)
    else .ok (.float (signed true significand.toUInt64.toFloat), rest)

/-- Reads a number after its sign. -/
def number (negative : Bool) : List Char → Except Fault (Number × List Char)
  | [] => .error (.here (.ends .value) [])
  | '0' :: rest =>
    if rest.head?.any Char.isDigit then .error (.next .invalidNumber rest)
    else afterWhole negative ['0'] rest
  | c :: rest =>
    if c.isDigit then
      afterWhole negative (c :: rest.takeWhile Char.isDigit) (rest.dropWhile Char.isDigit)
    else .error (.next .invalidNumber (c :: rest))

/-! ## Strings -/

/-- The value of a hexadecimal digit. -/
def hexValue? (c : Char) : Option Nat :=
  if c.isDigit then some (c.toNat - '0'.toNat)
  else if 'a' ≤ c && c ≤ 'f' then some (c.toNat - 'a'.toNat + 10)
  else if 'A' ≤ c && c ≤ 'F' then some (c.toNat - 'A'.toNat + 10)
  else none

/-- The value of four hexadecimal digits. -/
def hexValue4? (a b c d : Char) : Option Nat := do
  pure ((((← hexValue? a) * 16 + (← hexValue? b)) * 16 + (← hexValue? c)) * 16 + (← hexValue? d))

/-- The fault of a `\u` that four hexadecimal digits do not follow: four bytes are taken, or the
text ends before. -/
def badHex (rest : List Char) : Fault :=
  if byteCount rest < 4 then .ahead 4 (.ends .string) rest else .ahead 4 .invalidEscape rest

/-- The character that a backslash and a letter other than `u` stand for. -/
def escaped? : Char → Option Char
  | '"' => some '"'
  | '\\' => some '\\'
  | '/' => some '/'
  | 'b' => some '\x08'
  | 'f' => some '\x0c'
  | 'n' => some '\n'
  | 'r' => some '\r'
  | 't' => some '\t'
  | _ => none

/-- The character that two surrogates stand for. -/
def joinSurrogates (high low : Nat) : Char :=
  Char.ofNat (0x10000 + (high - 0xd800) * 0x400 + (low - 0xdc00))

/-- Reads a string after its opening quote, `read` being the characters so far in reverse. After a
leading surrogate, `high`, the trailing one has to follow. -/
def stringFrom (read : List Char) (high : Option Nat) :
    List Char → Except Fault (String × List Char)
  | [] => .error (.here (.ends .string) [])
  | c :: rest =>
    match high with
    | some high =>
      if c ≠ '\\' then .error (.next .unfinishedSurrogate (c :: rest))
      else match rest with
        | [] => .error (.here (.ends .string) [])
        | 'u' :: h₁ :: h₂ :: h₃ :: h₄ :: rest =>
          match hexValue4? h₁ h₂ h₃ h₄ with
          | none => .error (badHex (h₁ :: h₂ :: h₃ :: h₄ :: rest))
          | some low =>
            if low < 0xdc00 || 0xdfff < low then .error (.here .loneSurrogate rest)
            else stringFrom (joinSurrogates high low :: read) none rest
        | 'u' :: rest => .error (badHex rest)
        | e :: rest => .error (.next .unfinishedSurrogate (e :: rest))
    | none =>
      if c = '"' then .ok (String.ofList read.reverse, rest)
      else if c = '\\' then
        match rest with
        | [] => .error (.here (.ends .string) [])
        | 'u' :: h₁ :: h₂ :: h₃ :: h₄ :: rest =>
          match hexValue4? h₁ h₂ h₃ h₄ with
          | none => .error (badHex (h₁ :: h₂ :: h₃ :: h₄ :: rest))
          | some n =>
            if 0xdc00 ≤ n && n ≤ 0xdfff then .error (.here .loneSurrogate rest)
            else if 0xd800 ≤ n && n ≤ 0xdbff then stringFrom read (some n) rest
            else stringFrom (Char.ofNat n :: read) none rest
        | 'u' :: rest => .error (badHex rest)
        | e :: rest =>
          match escaped? e with
          | some c => stringFrom (c :: read) none rest
          | none => .error (.next .invalidEscape (e :: rest))
      else if c.toNat < 0x20 then .error (.here .controlCharacter rest)
      else stringFrom (c :: read) none rest

/-- Reads a string after its opening quote. -/
def string (cs : List Char) : Except Fault (String × List Char) :=
  stringFrom [] none cs

/-- Passes over a string after its opening quote. Escapes have to be well formed, surrogates need
not be paired. -/
def skipString : List Char → Except Fault (List Char)
  | [] => .error (.here (.ends .string) [])
  | '"' :: rest => .ok rest
  | '\\' :: [] => .error (.here (.ends .string) [])
  | '\\' :: 'u' :: h₁ :: h₂ :: h₃ :: h₄ :: rest =>
    if (hexValue4? h₁ h₂ h₃ h₄).isSome then skipString rest
    else .error (badHex (h₁ :: h₂ :: h₃ :: h₄ :: rest))
  | '\\' :: 'u' :: rest => .error (badHex rest)
  | '\\' :: e :: rest =>
    if (escaped? e).isSome then skipString rest else .error (.next .invalidEscape (e :: rest))
  | c :: rest =>
    if c.toNat < 0x20 then .error (.here .controlCharacter (c :: rest)) else skipString rest

end SolFront.Json
