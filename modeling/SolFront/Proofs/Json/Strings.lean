import SolFront.Json.Printer
import SolFront.Json.Skip

/-!
# Printed strings

A character of a string is printed as itself or as an escape. Reading takes either back to the
character, so a printed string is read as itself, and it can be passed over.
-/

namespace SolFront.Json

/-- How a character is printed: behind a backslash as a letter or as its number, or as itself. -/
inductive Escaped (c : Char) : List Char → Prop where
  | letter {e : Char} (h : escaped? e = some c) : Escaped c ['\\', e]
  | control (h : c.toNat < 32) :
      Escaped c ['\\', 'u', '0', '0', Nat.digitChar (c.toNat / 16), Nat.digitChar (c.toNat % 16)]
  | plain (hquote : c ≠ '"') (hbackslash : c ≠ '\\') (h : 32 ≤ c.toNat) : Escaped c [c]

theorem escape_escaped (c : Char) : Escaped c (escape c) := by
  unfold escape
  split
  · subst_vars
    exact .letter rfl
  split
  · subst_vars
    exact .letter rfl
  split
  · subst_vars
    exact .letter rfl
  split
  · subst_vars
    exact .letter rfl
  split
  · subst_vars
    exact .letter rfl
  split
  · subst_vars
    exact .letter rfl
  split
  · subst_vars
    exact .letter rfl
  split
  · exact .control ‹_›
  · exact .plain ‹_› ‹_› (Nat.not_lt.mp ‹_›)

/-- The number of a control character in four digits. -/
theorem hexValue4?_control :
    ∀ n < 32, hexValue4? '0' '0' (Nat.digitChar (n / 16)) (Nat.digitChar (n % 16)) = some n := by
  decide

theorem stringFrom_escape (read : List Char) (c : Char) (rest : List Char) :
    stringFrom read none (escape c ++ rest) = stringFrom (c :: read) none rest := by
  have hescaped := escape_escaped c
  generalize escape c = cs at hescaped ⊢
  cases hescaped with
  | @letter e h =>
      have hu : e ≠ 'u' := fun hu => by
        rw [hu] at h
        cases h
      conv => lhs; unfold stringFrom
      simp [h, hu]
  | control h =>
      have hhex := hexValue4?_control c.toNat h
      have hlow : ¬ 0xd800 ≤ c.toNat := by omega
      have hhigh : ¬ 0xdc00 ≤ c.toNat := by omega
      conv => lhs; unfold stringFrom
      simp [hhex, hlow, hhigh]
  | plain hquote hbackslash h =>
      have hcontrol : ¬ c.toNat < 32 := by omega
      conv => lhs; unfold stringFrom
      simp [hquote, hbackslash, hcontrol]

theorem skipString_escape (c : Char) (rest : List Char) :
    skipString (escape c ++ rest) = skipString rest := by
  have hescaped := escape_escaped c
  generalize escape c = cs at hescaped ⊢
  cases hescaped with
  | @letter e h =>
      have hu : e ≠ 'u' := fun hu => by
        rw [hu] at h
        cases h
      conv => lhs; unfold skipString
      simp [h, hu]
  | control h => 
      conv => lhs; unfold skipString
      simp [hexValue4?_control c.toNat h]
  | plain _ hbackslash h =>
      have hcontrol : ¬ c.toNat < 32 := by omega
      conv => lhs; unfold skipString
      simp [hbackslash, hcontrol]

theorem stringFrom_flatMap (cs read rest : List Char) :
    stringFrom read none (cs.flatMap escape ++ '"' :: rest)
      = .ok (String.ofList (read.reverse ++ cs), rest) := by
  induction cs generalizing read with
  | nil =>
      unfold stringFrom
      simp
  | cons c cs ih =>
      rw [List.flatMap_cons, List.append_assoc, stringFrom_escape, ih]
      simp

/-- A string behind its opening quote, with what follows it. -/
def stringBody (s : String) (rest : List Char) : List Char :=
  s.toList.flatMap escape ++ '"' :: rest

theorem printString_append (s : String) (rest : List Char) :
    printString s ++ rest = '"' :: stringBody s rest := by
  simp [printString, stringBody]

/-- **A printed string is read as itself.** -/
theorem string_stringBody (s : String) (rest : List Char) :
    string (stringBody s rest) = .ok (s, rest) := by
  rw [string, stringBody, stringFrom_flatMap, List.reverse_nil, List.nil_append,
    String.ofList_toList]

/-- **A printed string is passed over.** -/
theorem skipString_stringBody (s : String) (rest : List Char) :
    skipString (stringBody s rest) = .ok rest := by
  unfold stringBody
  induction s.toList with
  | nil =>
      unfold skipString
      rfl
  | cons c cs ih => rw [List.flatMap_cons, List.append_assoc, skipString_escape, ih]

end SolFront.Json
