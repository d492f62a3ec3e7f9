/-!
# Dictionaries

Entries in ascending order of their keys, each key once. Keys are compared by code point, which is
the order of their UTF-8 bytes. Source maps, missing sources and JSON objects are all of this kind.
-/

namespace SolFront

/-- Entries by key. The operations below keep the keys in strictly ascending order. -/
abbrev Dict (α : Type) := List (String × α)

namespace Dict

variable {α β : Type}

/-- The value at the key. -/
def get? (d : Dict α) (key : String) : Option α :=
  List.lookup key d

/-- Whether the key has a value. -/
def contains (d : Dict α) (key : String) : Bool :=
  d.any fun e => e.1 == key

/-- Sets the value at the key, replacing the one it had. -/
def insert (key : String) (value : α) : Dict α → Dict α
  | [] => [(key, value)]
  | e :: rest =>
    if key < e.1 then (key, value) :: e :: rest
    else if key = e.1 then (key, value) :: rest
    else e :: insert key value rest

/-- Removes the key and its value. -/
def erase (d : Dict α) (key : String) : Dict α :=
  d.filter fun e => e.1 != key

/-- The keys in ascending order. -/
def keys (d : Dict α) : List String :=
  d.map (·.1)

/-- The dictionary of the entries; of two entries with one key the later one counts. -/
def ofList (entries : List (String × α)) : Dict α :=
  entries.foldl (fun d e => insert e.1 e.2 d) []

/-- The keys ascend strictly. -/
def Sorted (d : Dict α) : Prop :=
  d.Pairwise fun a b => a.1 < b.1

end Dict

end SolFront
