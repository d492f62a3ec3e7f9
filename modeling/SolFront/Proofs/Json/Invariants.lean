import SolFront.Proofs.Json.Canonical
import SolFront.Json.Record

/-!
# What readers give

A reader gives values with a property if whatever it reads from a text has the property. For a
record it is enough that each field keeps it. Where the property depends on how many brackets may
still be opened, it is said of the reader with that number.
-/

namespace SolFront.Json

namespace Reader

variable {α β δ : Type} {P : α → Prop}

/-- Whatever is read has the property. -/
def Yields (item : List Char → Except Fault (α × List Char)) (P : α → Prop) : Prop :=
  ∀ cs x rest, item cs = .ok (x, rest) → P x

/-- Whatever the reader reads has the property. -/
def Gives (reader : Reader α) (P : α → Prop) : Prop :=
  ∀ nesting cs x rest, reader nesting cs = .ok (x, rest) → P x

theorem gives_true (reader : Reader α) : reader.Gives fun _ => True :=
  fun _ _ _ _ _ => trivial

theorem Yields.imp {item : List Char → Except Fault (α × List Char)} {Q : α → Prop}
    (h : Yields item P) (hPQ : ∀ x, P x → Q x) : Yields item Q :=
  fun cs x rest hread => hPQ x (h cs x rest hread)

theorem Gives.imp {reader : Reader α} {Q : α → Prop} (h : reader.Gives P) (hPQ : ∀ x, P x → Q x) :
    reader.Gives Q :=
  fun nesting => Yields.imp (h nesting) hPQ

theorem Yields.map {reader : Reader α} {f : α → β} {Q : β → Prop} {nesting : Nat}
    (h : Yields (reader nesting) fun x => Q (f x)) : Yields (reader.map f nesting) Q := by
  intro cs y rest hread
  obtain ⟨⟨x, rest'⟩, hx, hy⟩ := bind_eq_ok hread
  cases hy
  exact h cs x rest hx

theorem Gives.map {reader : Reader α} {f : α → β} {Q : β → Prop}
    (h : reader.Gives fun x => Q (f x)) : (reader.map f).Gives Q :=
  fun nesting => Yields.map (h nesting)

theorem Yields.nullable {reader : Reader α} {nesting : Nat} (h : Yields (reader nesting) P) :
    Yields (reader.nullable nesting) fun x => ∀ y ∈ x, P y := by
  intro cs x rest hread
  unfold Reader.nullable at hread
  split at hread
  · obtain ⟨_, -, hx⟩ := bind_eq_ok hread
    cases hx
    intro y hy
    cases hy
  · obtain ⟨⟨y, rest'⟩, hy, hx⟩ := bind_eq_ok hread
    cases hx
    intro z hz
    cases hz
    exact h _ _ _ hy

theorem Gives.nullable {reader : Reader α} (h : reader.Gives P) :
    reader.nullable.Gives fun x => ∀ y ∈ x, P y :=
  fun nesting => Yields.nullable (h nesting)

theorem yields_startingWith {start : Char → List Char → Except Fault (α × List Char)}
    (h : ∀ c, Yields (start c) P) : Yields (startingWith start) P := by
  intro cs x rest hread
  unfold startingWith at hread
  split at hread
  · cases hread
  · exact h _ _ _ _ hread

/-- What is read inside a bracket is read with one bracket less to open. -/
theorem exists_of_nested {reader : Reader α} {nesting : Nat} {opening cs rest : List Char} {x : α}
    (h : nested reader nesting opening cs = .ok (x, rest)) :
    ∃ k, nesting = k + 1 ∧ reader k cs = .ok (x, rest) := by
  cases nesting with
  | zero => cases h
  | succ k => exact ⟨k, rfl, h⟩

/-- **Dictionaries that are read ascend.** -/
theorem yields_dict {item : Reader α} {P : Nat → α → Prop} (h : ∀ k, Yields (item k) (P k))
    (nesting : Nat) : Yields (Reader.dict item nesting)
      fun ms => ∃ k, nesting = k + 1 ∧ ms.Sorted ∧ ∀ e ∈ ms, P k e.2 := by
  refine yields_startingWith fun c cs ms rest hread => ?_
  split at hread
  · obtain ⟨k, hk, hobject⟩ := exists_of_nested hread
    exact ⟨k, hk, sorted_of_object (h k) hobject⟩
  · cases hread

theorem Gives.dict {item : Reader α} (h : item.Gives P) :
    (Reader.dict item).Gives fun ms => ms.Sorted ∧ ∀ e ∈ ms, P e.2 :=
  fun nesting => (yields_dict (P := fun _ => P) h nesting).imp fun _ ⟨_, _, hms⟩ => hms

theorem yields_list {item : Reader α} {P : Nat → α → Prop} (h : ∀ k, Yields (item k) (P k))
    (nesting : Nat) :
    Yields (Reader.list item nesting) fun xs => ∃ k, nesting = k + 1 ∧ ∀ x ∈ xs, P k x := by
  refine yields_startingWith fun c cs xs rest hread => ?_
  split at hread
  · obtain ⟨k, hk, hlist⟩ := exists_of_nested hread
    exact ⟨k, hk, forall_of_list (h k) hlist⟩
  · cases hread

/-! ## Records -/

/-- The draft has every field that the record may not lack. -/
def Given (fields : List (RecordField δ)) (d : δ) : Prop :=
  ∀ field ∈ fields, field.required = true → field.given d = true

/-- What a field reads into a draft is given there, and so is what was given before. -/
def Gathers (fields : List (RecordField δ)) : Prop :=
  ∀ field ∈ fields, ∀ d nesting, Yields (field.fill d nesting) fun d' =>
    field.given d' = true ∧ ∀ other ∈ fields, other.given d = true → other.given d' = true

/-- Every field keeps the property of drafts, which may depend on how many brackets may still be
opened. -/
def Preserves (I : Nat → δ → Prop) (fields : List (RecordField δ)) : Prop :=
  ∀ field ∈ fields, ∀ nesting d, I nesting d → Yields (field.fill d nesting) (I nesting)

section

variable {fields : List (RecordField δ)} {name : String} {required : Bool} {reader : Reader α}
  {get : δ → Option α} {set : δ → α → δ}

theorem yields_field {I : δ → Prop} {d : δ} {nesting : Nat}
    (h : Yields (reader nesting) fun x => I (set d x)) :
    Yields ((RecordField.of name required reader get set).fill d nesting) I :=
  h.map

theorem gives_field {I : δ → Prop} {d : δ} (h : reader.Gives fun x => I (set d x)) :
    ((RecordField.of name required reader get set).fill d).Gives I :=
  h.map

/-- A required field that is given has a value. -/
theorem Given.exists_cons {d : δ} (h : Given (.of name true reader get set :: fields) d) :
    (∃ x, get d = some x) ∧ Given fields d := by
  obtain ⟨hfield, hfields⟩ := List.forall_mem_cons.mp h
  exact ⟨Option.isSome_iff_exists.mp (hfield rfl), hfields⟩

theorem preserves_nil (I : Nat → δ → Prop) : Preserves I [] :=
  fun _ hfield => absurd hfield List.not_mem_nil

/-- A field keeps the property if what its reader gives may be put into the draft. -/
theorem preserves_cons {I : Nat → δ → Prop}
    (h : ∀ nesting d, I nesting d → Yields (reader nesting) fun x => I nesting (set d x))
    (hfields : Preserves I fields) :
    Preserves I (.of name required reader get set :: fields) :=
  List.forall_mem_cons.mpr ⟨fun nesting d hd => yields_field (h nesting d hd), hfields⟩

/-- A field keeps the property if anything may be put into the draft. -/
theorem preserves_other {I : Nat → δ → Prop}
    (h : ∀ nesting d x, I nesting d → I nesting (set d x)) (hfields : Preserves I fields) :
    Preserves I (.of name required reader get set :: fields) :=
  preserves_cons (fun nesting d hd _ x _ _ => h nesting d x hd) hfields

end

section

variable {fields : List (RecordField δ)} {I : δ → Prop}

theorem yields_fillInOrder (wanted : String) (nesting : Nat) :
    ∀ (fields : List (RecordField δ)),
      (∀ field ∈ fields, ∀ d, I d → Yields (field.fill d nesting) I) →
      ∀ (count : Nat) (d : δ), I d → Yields (fillInOrder wanted nesting fields count d) I
  | [], _, _, _, hd, _, _, _, hread => by
      cases hread
      exact hd
  | field :: fields, h, count, d, hd, cs, d', rest, hread => by
      obtain ⟨hfield, hfields⟩ := List.forall_mem_cons.mp h
      rw [fillInOrder] at hread
      obtain ⟨⟨more, rest₁⟩, -, hread⟩ := bind_eq_ok hread
      dsimp only at hread
      split at hread
      · obtain ⟨⟨d₁, rest₂⟩, hfill, hread⟩ := bind_eq_ok hread
        exact yields_fillInOrder wanted nesting fields hfields _ d₁ (hfield d hd _ _ _ hfill) _ _ _
          hread
      · split at hread
        · cases hread
        · exact yields_fillInOrder wanted nesting fields hfields _ d hd _ _ _ hread

/-- A required field of a list is given because the list does not end before it. -/
theorem given_of_fillInOrder {all : List (RecordField δ)} (hall : Gathers all) (wanted : String)
    (nesting : Nat) :
    ∀ (fields : List (RecordField δ)), fields ⊆ all → ∀ (count : Nat) (d : δ),
      Yields (fillInOrder wanted nesting fields count d) fun d' =>
        Given fields d' ∧ ∀ other ∈ all, other.given d = true → other.given d' = true
  | [], _, _, _, _, _, _, hread => by
      cases hread
      exact ⟨fun _ hfield => absurd hfield List.not_mem_nil, fun _ _ hgiven => hgiven⟩
  | field :: fields, hsub, count, d, cs, d', rest, hread => by
      obtain ⟨hfield, hfields⟩ := List.cons_subset.mp hsub
      rw [fillInOrder] at hread
      obtain ⟨⟨more, rest₁⟩, -, hread⟩ := bind_eq_ok hread
      dsimp only at hread
      split at hread
      · obtain ⟨⟨d₁, rest₂⟩, hfill, hread⟩ := bind_eq_ok hread
        obtain ⟨hown, hbefore⟩ := hall field hfield d nesting _ _ _ hfill
        obtain ⟨hgiven, hkept⟩ :=
          given_of_fillInOrder hall wanted nesting fields hfields _ d₁ _ _ _ hread
        exact ⟨List.forall_mem_cons.mpr ⟨fun _ => hkept field hfield hown, hgiven⟩,
          fun other hother hd => hkept other hother (hbefore other hother hd)⟩
      · split at hread
        · cases hread
        · rename_i hoptional
          obtain ⟨hgiven, hkept⟩ :=
            given_of_fillInOrder hall wanted nesting fields hfields _ d _ _ _ hread
          exact ⟨List.forall_mem_cons.mpr ⟨fun hrequired => absurd hrequired hoptional, hgiven⟩,
            hkept⟩

/-- An object ends only when every required field is given. -/
theorem yields_fillByName {nesting : Nat}
    (h : ∀ field ∈ fields, ∀ d, I d → Yields (field.fill d nesting) I) :
    ∀ (bound : List Char) (first : Bool) (d : δ), I d →
      Yields (fillByName nesting fields bound first d) fun d' => I d' ∧ Given fields d'
  | [], _, _, _, _, _, _, hread => by cases hread
  | _ :: bound, first, d, hd, cs, d', rest, hread => by
      rw [fillByName] at hread
      obtain ⟨⟨key, rest₁⟩, -, hread⟩ := bind_eq_ok hread
      cases key with
      | none =>
          dsimp only at hread
          split at hread
          · cases hread
          · rename_i hnone
            cases hread
            refine ⟨hd, fun field hfield hrequired => ?_⟩
            have hlacks := List.find?_eq_none.mp hnone field hfield
            simpa [hrequired] using hlacks
      | some key =>
          dsimp only at hread
          split at hread
          case h_1 field hfind =>
            split at hread
            · cases hread
            · obtain ⟨rest₂, -, hread⟩ := bind_eq_ok hread
              obtain ⟨⟨d₁, rest₃⟩, hfill, hread⟩ := bind_eq_ok hread
              have hd₁ := h field (List.mem_of_find?_eq_some hfind) d hd _ _ _ hfill
              exact yields_fillByName h bound false d₁ hd₁ _ _ _ hread
          · obtain ⟨rest₂, -, hread⟩ := bind_eq_ok hread
            obtain ⟨rest₃, -, hread⟩ := bind_eq_ok hread
            exact yields_fillByName h bound false d hd _ _ _ hread

/-- What is true of the drafts that are filled item by item and of those that are filled member by
member is true of a record. -/
theorem yields_record_of_fill {title : String} {empty : δ} {nesting : Nat}
    {I : Nat → δ → Prop}
    (hitems : ∀ k, Yields (fillInOrder (fieldCount title fields) k fields 0 empty) (I k))
    (hmembers : ∀ k bound, Yields (fillByName k fields bound true empty) (I k)) :
    Yields (record title fields empty nesting) fun d => ∃ k, nesting = k + 1 ∧ I k d := by
  refine yields_startingWith fun c cs d rest hread => ?_
  split at hread
  · obtain ⟨k, hk, hread⟩ := exists_of_nested hread
    obtain ⟨⟨d₁, rest₁⟩, hfill, hread⟩ := bind_eq_ok hread
    obtain ⟨_, -, hread⟩ := bind_eq_ok hread
    cases hread
    exact ⟨k, hk, hitems k _ _ _ hfill⟩
  · split at hread
    · obtain ⟨k, hk, hread⟩ := exists_of_nested hread
      obtain ⟨⟨d₁, rest₁⟩, hfill, hread⟩ := bind_eq_ok hread
      obtain ⟨_, -, hread⟩ := bind_eq_ok hread
      cases hread
      exact ⟨k, hk, hmembers k _ _ _ _ hfill⟩
    · cases hread

/-- **What every field keeps, a record has** if the empty draft has it. -/
theorem yields_record (title : String) {empty : δ} {I : Nat → δ → Prop} (hempty : ∀ k, I k empty)
    (h : Preserves I fields) (nesting : Nat) :
    Yields (record title fields empty nesting) fun d => ∃ k, nesting = k + 1 ∧ I k d :=
  yields_record_of_fill
    (fun k => yields_fillInOrder _ k fields (fun field hfield => h field hfield k) 0 empty
      (hempty k))
    fun k bound => (yields_fillByName (fun field hfield => h field hfield k) bound true empty
      (hempty k)).imp fun _ hd => hd.1

/-- **A record has every field that it may not lack**, and what every field keeps. -/
theorem yields_record_given (title : String) (empty : δ) {I : Nat → δ → Prop}
    (hgathers : Gathers fields) (hempty : ∀ k, I k empty) (h : Preserves I fields)
    (nesting : Nat) :
    Yields (record title fields empty nesting)
      fun d => ∃ k, nesting = k + 1 ∧ I k d ∧ Given fields d := by
  refine yields_record_of_fill (I := fun k d => I k d ∧ Given fields d) (fun k => ?_)
    fun k bound => yields_fillByName (fun field hfield => h field hfield k) bound true empty
      (hempty k)
  have hkept := yields_fillInOrder (fieldCount title fields) k fields
    (fun field hfield => h field hfield k) 0 empty (hempty k)
  have hgiven := given_of_fillInOrder hgathers (fieldCount title fields) k fields
    (List.Subset.refl _) 0 empty
  exact fun cs d rest hread => ⟨hkept cs d rest hread, (hgiven cs d rest hread).1⟩

theorem gives_record (title : String) {empty : δ} (hempty : I empty)
    (h : ∀ field ∈ fields, ∀ d, I d → (field.fill d).Gives I) :
    (record title fields empty).Gives I := by
  intro nesting
  have hrecord := yields_record (I := fun _ => I) title (fun _ => hempty)
    (fun field hfield k d hd => h field hfield d hd k) nesting
  exact hrecord.imp fun d ⟨_, _, hd⟩ => hd

end

end Reader

end SolFront.Json
