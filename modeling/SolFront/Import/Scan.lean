import SolFront.Text.Class
import SolFront.Text.Split
import SolFront.Text.WordChar

/-!
# Import directives in a source

A source is read from its start. At each place stands a literal, a comment, an import directive, or
else one character of no interest. What is inside a literal or a comment is never a directive, and a
literal or comment that has no end is none: its first character is passed over like any other.

A directive is the word `import`, blanks, perhaps a clause that ends in the word `from` and blanks,
and then the path in quotes. The clause may hold anything but quotes and semicolons, and the path
anything but its own quote.
-/

namespace SolFront.Import

open Text (isBlank wordCanStart)

/-! ## Literals and comments -/

/-- What follows a literal, read from behind its opening quote. A literal ends on the line it starts
on, and a backslash keeps the character after it from ending it. -/
def pastLiteral? (mark : Char) : List Char → Option (List Char)
  | [] => none
  | c :: cs =>
    if c = mark then some cs
    else if c = '\n' then none
    else if c = '\\' then
      match cs with
      | [] => none
      | d :: ds => if d = '\n' then none else pastLiteral? mark ds
    else pastLiteral? mark cs

/-- What follows a comment between `/*` and `*/`, read from behind its start. -/
def pastBlock? : List Char → Option (List Char)
  | [] => none
  | '*' :: '/' :: cs => some cs
  | _ :: cs => pastBlock? cs

/-- What follows a comment that the line ends; the line's end is no part of it. -/
def pastLine (cs : List Char) : List Char :=
  cs.dropWhile (· != '\n')

/-! ## Directives -/

/-- The word that starts a directive. -/
def importWord : List Char := "import".toList

/-- The word before the path of a directive that names what it imports, the last letter first. -/
def fromWordReversed : List Char := "morf".toList

/-- Whether the character cannot be in a clause. -/
def endsClause (c : Char) : Bool :=
  c == ';' || c == '"' || c == '\''

/-- Whether the text can stand between the blanks behind `import` and the path: it is empty, or it
ends in the word `from` and blanks. -/
def isClause (clause : List Char) : Bool :=
  clause.isEmpty ||
    let behind := clause.reverse
    let word := behind.dropWhile isBlank
    behind.head?.any isBlank && Text.startsWith fromWordReversed word &&
      wordCanStart (word.drop fromWordReversed.length).head?

/-- A path in quotes and what follows it. -/
def quotedPath? : List Char → Option (List Char × List Char)
  | [] => none
  | mark :: cs =>
    if mark = ';' then none
    else match cs.dropWhile (· != mark) with
      | [] => none
      | _ :: rest => some (cs.takeWhile (· != mark), rest)

/-- The path of a directive and what follows it, read from behind the word `import`. -/
def directiveTail? (cs : List Char) : Option (List Char × List Char) :=
  let rest := cs.dropWhile isBlank
  if cs.head?.any isBlank && isClause (rest.takeWhile fun c => !endsClause c) then
    quotedPath? (rest.dropWhile fun c => !endsClause c)
  else none

/-- The path of a directive and what follows it. -/
def directive? (before : Option Char) (cs : List Char) : Option (List Char × List Char) :=
  if wordCanStart before && Text.startsWith importWord cs then
    directiveTail? (cs.drop importWord.length)
  else none

/-! ## Items -/

/-- What stands at a place of a source. -/
inductive Item where
  | literal
  | comment
  | directive (path : List Char)
  deriving DecidableEq, Repr

/-- The path of a directive. -/
def Item.path? : Item → Option String
  | .directive path => some (String.ofList path)
  | _ => none

/-- The item that the text starts with and what follows it. `before` is the character before. -/
def Item.at? (before : Option Char) : List Char → Option (Item × List Char)
  | '"' :: cs => (pastLiteral? '"' cs).map (.literal, ·)
  | '\'' :: cs => (pastLiteral? '\'' cs).map (.literal, ·)
  | '/' :: '/' :: cs => some (.comment, pastLine cs)
  | '/' :: '*' :: cs => (pastBlock? cs).map (.comment, ·)
  | cs => (directive? before cs).map fun (path, rest) => (.directive path, rest)

/-! ## Every item has a character at least -/

theorem length_pastLiteral?_le {mark : Char} {cs rest : List Char}
    (h : pastLiteral? mark cs = some rest) : rest.length ≤ cs.length := by
  fun_induction pastLiteral? mark cs <;> grind

theorem length_pastBlock?_le {cs rest : List Char} (h : pastBlock? cs = some rest) :
    rest.length ≤ cs.length := by
  fun_induction pastBlock? cs <;> grind

theorem length_dropWhile_le (p : Char → Bool) (cs : List Char) :
    (cs.dropWhile p).length ≤ cs.length :=
  (List.dropWhile_suffix p).length_le

theorem length_quotedPath?_le {cs path rest : List Char}
    (h : quotedPath? cs = some (path, rest)) : rest.length ≤ cs.length := by
  unfold quotedPath? at h
  split at h
  · simp at h
  · rename_i mark cs
    have := length_dropWhile_le (· != mark) cs
    grind

theorem length_directiveTail?_le {cs path rest : List Char}
    (h : directiveTail? cs = some (path, rest)) : rest.length ≤ cs.length := by
  simp only [directiveTail?] at h
  split at h
  · have quoted := length_quotedPath?_le h
    have := length_dropWhile_le (fun c => !endsClause c) (cs.dropWhile isBlank)
    have := length_dropWhile_le isBlank cs
    omega
  · simp at h

theorem length_directive?_lt {before : Option Char} {cs path rest : List Char}
    (h : directive? before cs = some (path, rest)) : rest.length < cs.length := by
  unfold directive? at h
  split at h
  · have word : Text.startsWith importWord cs = true := by simp_all
    have long : 6 ≤ cs.length := ( List.isPrefixOf_iff_prefix.1 word).length_le
    have short : rest.length ≤ cs.length - 6 := by
      simpa [importWord] using length_directiveTail?_le h
    omega
  · simp at h

theorem Item.length_at?_lt {before : Option Char} {cs : List Char} {item : Item} {rest : List Char}
    (h : Item.at? before cs = some (item, rest)) : rest.length < cs.length := by
  unfold Item.at? at h
  split at h <;> simp only [Option.map_eq_some_iff, Option.some.injEq, Prod.mk.injEq] at h
  · obtain ⟨_, found, _, rfl⟩ := h
    exact Nat.lt_succ_of_le (length_pastLiteral?_le found)
  · obtain ⟨_, found, _, rfl⟩ := h
    exact Nat.lt_succ_of_le (length_pastLiteral?_le found)
  · obtain ⟨_, rfl⟩ := h
    exact Nat.lt_succ_of_le (Nat.le_succ_of_le (length_dropWhile_le _ _))
  · obtain ⟨_, found, _, rfl⟩ := h
    exact Nat.lt_succ_of_le (Nat.le_succ_of_le (length_pastBlock?_le found))
  · obtain ⟨_, found, _, rfl⟩ := h
    exact length_directive?_lt found

/-! ## Sources -/

/-- The items of a text in order. `before` is the character before the text. A word can start behind
every item, for an item ends in a quote, in a slash, or where the line does. -/
def items (before : Option Char) (cs : List Char) : List Item :=
  match cs with
  | [] => []
  | c :: rest =>
    match _found : Item.at? before (c :: rest) with
    | none => items (some c) rest
    | some (item, after) => item :: items none after
termination_by cs.length
decreasing_by
  · exact Nat.lt_succ_self _
  · exact Item.length_at?_lt _found

/-- The paths of the import directives of a source in order. -/
def scan (source : String) : List String :=
  (items none source.toList).filterMap Item.path?

end SolFront.Import
