import Mathlib.Data.List.DropRight
import SolFront.Proofs.Json.Choices
import SolFront.Proofs.Json.Invariants

/-!
# What is read comes back

A value of a known shape is printed as a document. What a reader has read it reads again from the
document, at the same number of brackets that may be opened: a list item by item, a dictionary
because its keys ascend, and a record field by field. A record that has been read was given all the
fields that it may not lack, and a field that is not given is not printed either.
-/

namespace SolFront.Json.Reader

variable {α β δ : Type}

/-- What is read of a text is read again from its document, if it is good. -/
def Restores (item : List Char → Except Fault (α × List Char)) (document : α → Json)
    (good : α → Prop) : Prop :=
  Yields item fun x => good x → Decodes item (document x) (some x)

/-- What is read comes back when the text is printed whole. -/
theorem readWith_of_restores {reader : Reader α} {document : α → Json} {good : α → Prop}
    (h : Restores (reader maxNesting) document good) {text : String} {x : α}
    (hread : readWith reader text = .ok x) (hgood : good x) (pretty : Bool) :
    readWith reader ((document x).render pretty) = .ok x := by
  obtain ⟨rest, hx, -⟩ := readWith_eq_ok hread
  have hdecodes := h _ x rest hx hgood (.of pretty) (blank_of pretty) 0 [] spaces_nil [] stops_nil
  have hagain := eq_ok_of_toOption hdecodes
  rw [List.nil_append, List.append_nil] at hagain
  unfold readWith render
  rw [String.toList_ofList]
  dsimp only
  rw [hagain]
  rfl

/-! ## Values and lists -/

theorem json_restores (n : Nat) : Restores (json n) id Integers :=
  fun cs v rest hread hintegers => value_integers (canonical_of_value n cs rest v hread) hintegers

theorem list_restores {item : Reader α} {document : α → Json} {good : α → Prop}
    (hfaithful : ∀ n, Faithful (item n)) (h : ∀ n, Restores (item n) document good) (n : Nat) :
    Restores (list item n) (fun xs => .arr (xs.map document)) fun xs => ∀ x ∈ xs, good x := by
  refine (yields_list h n).imp fun xs ⟨k, hk, hall⟩ hgood => ?_
  subst hk
  have hitems : (xs.map document).mapM (decode (item k)) = some xs := by
    rw [List.mapM_map]
    exact mapM_eq_some fun x hx => (hall x hx (hgood x hx)).decode_eq
  have hlist := list_arr (hfaithful k) (xs.map document)
  rwa [hitems] at hlist

theorem dict_restores {item : Reader α} {document : α → Json} {good : α → Prop}
    (hfaithful : ∀ n, Faithful (item n)) (h : ∀ n, Restores (item n) document good) (n : Nat) :
    Restores (dict item n) (fun ms => .obj (ms.map fun e => (e.1, document e.2)))
      fun ms => ∀ e ∈ ms, good e.2 := by
  refine (yields_dict h n).imp fun ms ⟨k, hk, hsorted, hall⟩ hgood => ?_
  subst hk
  have hmembers : (ms.map fun e => (e.1, document e.2)).mapM (decodeMember (item k)) = some ms := by
    rw [List.mapM_map]
    refine mapM_eq_some fun e he => ?_
    show (decode (item k) (document e.2)).map (e.1, ·) = some e
    rw [(hall e he (hgood e he)).decode_eq]
    rfl
  have hdict := dict_obj (hfaithful k) (ms.map fun e => (e.1, document e.2))
  rwa [hmembers, Option.map_some, Dict.ofList_of_sorted hsorted] at hdict

/-! ## Values that may be absent -/

/-- What is read of a value that may be absent is read again from its document if it is there. -/
def RestoresSome (item : List Char → Except Fault (Option α × List Char)) (document : α → Json)
    (good : α → Prop) : Prop :=
  Yields item fun x => ∀ y ∈ x, good y → Decodes item (document y) (some (some y))

theorem nullable_restores {reader : Reader α} {document : α → Json} {good : α → Prop} {n : Nat}
    (hdocument : ∀ x, document x ≠ .null) (h : Restores (reader n) document good) :
    RestoresSome (nullable reader n) document good :=
  (Yields.nullable h).imp fun _ hx y hy hgood => nullable_decodes (hdocument y) (hx y hy hgood)

/-- Only a `null` is read as one. -/
theorem starts_of_value_null {n : Nat} {cs rest : List Char}
    (h : value n cs = .ok (.null, rest)) : ∃ cs', dropSpace cs = 'n' :: cs' := by
  unfold value at h
  split at h
  · cases h
  rename_i c cs' hcs
  -- no other first character leads to a null
  split at h
  · rename_i hc
    exact ⟨cs', by rw [hcs, hc]⟩
  iterate 5
    split at h
    · obtain ⟨_, -, h⟩ := bind_eq_ok h
      cases h
  iterate 2
    split at h
    · split at h
      · cases h
      · obtain ⟨_, -, h⟩ := bind_eq_ok h
        cases h
  cases h

/-- A raw value that is present is no `null`, so it is not absent when it is read again. -/
theorem nullable_json_restores (n : Nat) : RestoresSome (nullable json n) id Integers := by
  intro cs x rest hread v hv hintegers
  cases hv
  unfold nullable at hread
  split at hread
  · obtain ⟨_, -, hnone⟩ := bind_eq_ok hread
    cases hnone
  · rename_i cs' hother
    obtain ⟨⟨v', rest'⟩, hvalue, hsome⟩ := bind_eq_ok hread
    cases hsome
    have hnull : v ≠ .null := by
      rintro rfl
      obtain ⟨cs'', hcs⟩ := starts_of_value_null hvalue
      exact hother cs'' ((List.dropWhile_idempotent _ _).symm.trans hcs)
    exact nullable_decodes hnull (json_restores n _ _ _ hvalue hintegers)

/-- A choice that no bare name stands for is read inside a brace. -/
theorem yields_choice {variants : List (String × β)} {bare : β → Except Fault α}
    {payload : β → Reader α} (hbare : ∀ b x, bare b ≠ .ok x) (n : Nat) :
    Yields (choice variants bare payload n) fun _ => ∃ k, n = k + 1 := by
  refine yields_startingWith fun c cs x rest hread => ?_
  split at hread
  · obtain ⟨⟨b, _⟩, -, hread⟩ := bind_eq_ok hread
    obtain ⟨y, hy, -⟩ := bind_eq_ok hread
    exact absurd hy (hbare b y)
  · split at hread
    · obtain ⟨k, hk, -⟩ := exists_of_nested hread
      exact ⟨k, hk⟩
    · cases hread

/-! ## Records -/

section

variable {fields : List (RecordField δ)} {k : Nat} {name : String} {required : Bool}
  {reader : Reader α} {get : δ → Option α} {set : δ → α → δ}

/-- A member fills its field in. -/
theorem fillMembers_member
    (hfind : fields.find? (fun field => field.name == name)
      = some (.of name required reader get set))
    {draft : δ} (hnone : get draft = none) {v : Json} {x : α}
    (hx : Decodes (reader k) v (some x)) (ms : List (String × Json)) :
    fillMembers k fields draft ((name, v) :: ms) = fillMembers k fields (set draft x) ms := by
  have hgiven : ¬ (RecordField.of name required reader get set).given draft = true := by
    show ¬ (get draft).isSome = true
    rw [hnone]
    exact Bool.false_ne_true
  rw [fillMembers, hfind]
  dsimp only
  rw [if_neg hgiven]
  show (decode (map (set draft) reader k) v).bind _ = _
  rw [(map_decodes hx).decode_eq]
  rfl

end

/-- **A record comes back** if the members of its document fill a draft that shows the record. -/
theorem restores_record {title : String} {fields : List (RecordField δ)} {empty : δ} {f : δ → α}
    {document : α → Json} {good : α → Prop} {I : Nat → α → Prop} (hfields : FaithfulFields fields)
    (hread : ∀ n, Yields (record title fields empty n) fun d => ∃ k, n = k + 1 ∧ I k (f d))
    (hfill : ∀ k x, I k x → good x → ∃ ms d, document x = .obj ms
      ∧ fillMembers k fields empty ms = some d ∧ f d = x) (n : Nat) :
    Restores (map f (record title fields empty) n) document good := by
  refine Yields.map ((hread n).imp fun d ⟨k, hk, hd⟩ hgood => ?_)
  subst hk
  obtain ⟨ms, d', hdocument, hms, hd'⟩ := hfill k (f d) hd hgood
  have hagain := map_decodes (f := f) (@record_obj _ title fields hfields empty k ms)
  rwa [hms, Option.map_some, hd', ← hdocument] at hagain

/-- A record whose members are read at any number of brackets comes back. -/
theorem restores_plain {title : String} {fields : List (RecordField δ)} {empty : δ} {f : δ → α}
    {document : α → Json} {good : α → Prop} (hfields : FaithfulFields fields)
    (hfill : ∀ k x, ∃ ms d, document x = .obj ms ∧ fillMembers k fields empty ms = some d
      ∧ f d = x) (n : Nat) :
    Restores (map f (record title fields empty) n) document good :=
  restores_record (I := fun _ _ => True) hfields
    (yields_record title (I := fun _ _ => True) (fun _ => trivial)
      fun _ _ _ _ _ _ _ _ _ => trivial)
    (fun k x _ _ => hfill k x) n

end SolFront.Json.Reader
