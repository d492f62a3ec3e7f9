import SolFront.Dict

/-!
# JSON values

The values that the compiler is asked with and answers with. Whole numbers of a 64-bit word are
kept exactly, all other numbers are floats. Objects are dictionaries when they are read; a document
that is written has its members in the order they are listed in.
-/

namespace SolFront

/-- A JSON number. -/
inductive Number where
  | int (i : Int)
  | float (x : Float)
  deriving DecidableEq, Inhabited, Repr

/-- A JSON value. -/
inductive Json where
  | null
  | bool (b : Bool)
  | num (n : Number)
  | str (s : String)
  | arr (items : List Json)
  | obj (members : List (String × Json))
  deriving Inhabited, Repr, BEq

namespace Json

/-- The value of an object's member. -/
def member? : Json → String → Option Json
  | obj members, key => Dict.get? members key
  | _, _ => none

/-- The text of a string. -/
def text? : Json → Option String
  | str s => some s
  | _ => none

/-- The items of an array. -/
def items? : Json → Option (List Json)
  | arr items => some items
  | _ => none

/-- The members of an object. -/
def members? : Json → Option (Dict Json)
  | obj members => some members
  | _ => none

/-- A natural number as a JSON number. -/
def nat (n : Nat) : Json :=
  num (.int n)

mutual

/-- Decides whether two values are equal. -/
def decEq : (a b : Json) → Decidable (a = b)
  | null, null => isTrue rfl
  | bool a, bool b => decidable_of_iff (a = b) (by simp)
  | num a, num b => decidable_of_iff (a = b) (by simp)
  | str a, str b => decidable_of_iff (a = b) (by simp)
  | arr a, arr b =>
    match decEqItems a b with
    | isTrue h => isTrue (by simp [h])
    | isFalse h => isFalse (by simp [h])
  | obj a, obj b =>
    match decEqMembers a b with
    | isTrue h => isTrue (by simp [h])
    | isFalse h => isFalse (by simp [h])
  | null, bool _ | null, num _ | null, str _ | null, arr _ | null, obj _ => isFalse (by simp)
  | bool _, null | bool _, num _ | bool _, str _ | bool _, arr _ | bool _, obj _ =>
    isFalse (by simp)
  | num _, null | num _, bool _ | num _, str _ | num _, arr _ | num _, obj _ => isFalse (by simp)
  | str _, null | str _, bool _ | str _, num _ | str _, arr _ | str _, obj _ => isFalse (by simp)
  | arr _, null | arr _, bool _ | arr _, num _ | arr _, str _ | arr _, obj _ => isFalse (by simp)
  | obj _, null | obj _, bool _ | obj _, num _ | obj _, str _ | obj _, arr _ => isFalse (by simp)

/-- Decides whether two lists of items are equal. -/
def decEqItems : (a b : List Json) → Decidable (a = b)
  | [], [] => isTrue rfl
  | [], _ :: _ | _ :: _, [] => isFalse (by simp)
  | a :: as, b :: bs =>
    match decEq a b, decEqItems as bs with
    | isTrue h, isTrue hs => isTrue (by rw [h, hs])
    | isFalse h, _ => isFalse (by simp [h])
    | _, isFalse hs => isFalse (by simp [hs])

/-- Decides whether two lists of members are equal. -/
def decEqMembers : (a b : List (String × Json)) → Decidable (a = b)
  | [], [] => isTrue rfl
  | [], _ :: _ | _ :: _, [] => isFalse (by simp)
  | (k, a) :: as, (l, b) :: bs =>
    if hk : k = l then
      match decEq a b, decEqMembers as bs with
      | isTrue h, isTrue hs => isTrue (by rw [hk, h, hs])
      | isFalse h, _ => isFalse (by simp [h])
      | _, isFalse hs => isFalse (by simp [hs])
    else isFalse (by simp [hk])

end

instance : DecidableEq Json := decEq

end Json

end SolFront
