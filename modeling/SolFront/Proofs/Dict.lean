import SolFront.Dict

/-!
# What dictionaries answer

A dictionary is read through `get?`. Everything else about it is said by that view: which keys it
has, and what an insertion changes. None of this needs the keys to ascend; that they go on ascending
is a fact of its own.
-/

namespace SolFront.Dict

variable {α : Type}

/-! ## Looking up -/

theorem get?_nil (key : String) : get? ([] : Dict α) key = none := rfl

theorem get?_cons (e : String × α) (d : Dict α) (key : String) :
    get? (e :: d) key = if key = e.1 then some e.2 else get? d key := by
  unfold get?
  rw [List.lookup_cons]
  by_cases h : key = e.1
  · rw [if_pos h, beq_iff_eq.mpr h]
  · rw [if_neg h, beq_eq_false_iff_ne.mpr h]

theorem mem_of_get? {d : Dict α} {key : String} {value : α} (h : get? d key = some value) :
    (key, value) ∈ d := by
  induction d with
  | nil => exact absurd h (by simp [get?_nil])
  | cons e d ih =>
    rw [get?_cons] at h
    split at h
    · rename_i hk
      rw [hk, ← Option.some.inj h]
      exact List.mem_cons_self
    · exact List.mem_cons_of_mem _ (ih h)

/-- Where each key stands once, any entry is the one that is looked up. -/
theorem get?_of_mem {d : Dict α} (hnd : (keys d).Nodup) {key : String} {value : α}
    (h : (key, value) ∈ d) : get? d key = some value := by
  induction d with
  | nil => exact absurd h (by simp)
  | cons e d ih =>
    obtain ⟨hfresh, hrest⟩ := List.nodup_cons.mp hnd
    rw [get?_cons]
    rcases List.mem_cons.mp h with h | h
    · rw [← h, if_pos rfl]
    · have hne : key ≠ e.1 := by
        intro heq
        exact hfresh (List.mem_map.mpr ⟨(key, value), h, heq⟩)
      rw [if_neg hne]
      exact ih hrest h

theorem contains_eq_isSome (d : Dict α) (key : String) :
    contains d key = (get? d key).isSome := by
  induction d with
  | nil => rfl
  | cons e d ih =>
    have hcons : contains (e :: d) key = (e.1 == key || contains d key) := rfl
    rw [hcons, get?_cons, ih]
    by_cases h : key = e.1
    · simp [h]
    · simp [h, Ne.symm h]

theorem contains_iff {d : Dict α} {key : String} :
    contains d key = true ↔ ∃ value, get? d key = some value := by
  rw [contains_eq_isSome, Option.isSome_iff_exists]

theorem contains_eq_false_iff {d : Dict α} {key : String} :
    contains d key = false ↔ get? d key = none := by
  rw [contains_eq_isSome, Option.isSome_eq_false_iff, Option.isNone_iff_eq_none]

theorem contains_iff_mem_keys {d : Dict α} {key : String} :
    contains d key = true ↔ key ∈ keys d := by
  simp [contains, keys]

/-! ## Inserting -/

/-- An insertion changes what is found at its key, and nothing else. -/
theorem get?_insert (d : Dict α) (key other : String) (value : α) :
    get? (insert key value d) other = if other = key then some value else get? d other := by
  induction d with
  | nil => exact get?_cons (key, value) [] other
  | cons e d ih =>
    rw [insert]
    split
    · -- the key comes before all others
      exact get?_cons (key, value) (e :: d) other
    · split
      · -- the key is the first one, and its value is replaced
        rename_i heq
        rw [get?_cons, get?_cons]
        by_cases h : other = key
        · rw [if_pos h, if_pos h]
        · rw [if_neg h, if_neg h, if_neg (fun he => h (he.trans heq.symm))]
      · rename_i hne
        rw [get?_cons, get?_cons, ih]
        by_cases h : other = key
        · rw [if_neg (fun he => hne (h ▸ he)), if_pos h, if_pos h]
        · rw [if_neg h, if_neg h]

theorem get?_insert_self (d : Dict α) (key : String) (value : α) :
    get? (insert key value d) key = some value := by
  rw [get?_insert, if_pos rfl]

theorem mem_insert {d : Dict α} {key : String} {value : α} {e : String × α}
    (h : e ∈ insert key value d) : e = (key, value) ∨ e ∈ d := by
  induction d with
  | nil => exact Or.inl (List.mem_singleton.mp h)
  | cons e' d ih =>
    rw [insert] at h
    split at h
    · exact List.mem_cons.mp h
    · split at h
      · rcases List.mem_cons.mp h with h | h
        · exact Or.inl h
        · exact Or.inr (List.mem_cons_of_mem _ h)
      · rcases List.mem_cons.mp h with h | h
        · exact Or.inr (h ▸ List.mem_cons_self)
        · rcases ih h with h | h
          · exact Or.inl h
          · exact Or.inr (List.mem_cons_of_mem _ h)

/-- A key that is new is one key more. -/
theorem keys_insert_perm {d : Dict α} {key : String} (h : contains d key = false) (value : α) :
    (keys (insert key value d)).Perm (key :: keys d) := by
  induction d with
  | nil => exact List.Perm.refl _
  | cons e d ih =>
      obtain ⟨hne, hrest⟩ : e.1 ≠ key ∧ contains d key = false := by simpa [contains] using h
      rw [insert]
      split
      · exact List.Perm.refl _
      · rw [if_neg (Ne.symm hne)]
        exact ((ih hrest).cons e.1).trans (List.Perm.swap key e.1 (keys d))

theorem nodup_keys_of_sorted {d : Dict α} (h : d.Sorted) : (keys d).Nodup := by
  refine List.pairwise_map.mpr (h.imp ?_)
  intro a b hlt heq
  rw [heq] at hlt
  exact String.lt_irrefl _ hlt

/-- **The keys go on ascending.** -/
theorem sorted_insert {d : Dict α} (hd : d.Sorted) (key : String) (value : α) :
    (insert key value d).Sorted := by
  induction d with
  | nil => exact List.pairwise_singleton _ _
  | cons e d ih =>
    obtain ⟨hlt, hrest⟩ := List.pairwise_cons.mp hd
    rw [insert]
    split
    · rename_i hkey
      refine List.pairwise_cons.mpr ⟨?_, hd⟩
      intro e' he'
      rcases List.mem_cons.mp he' with he' | he'
      · exact he' ▸ hkey
      · exact String.lt_trans hkey (hlt e' he')
    · split
      · rename_i heq
        refine List.pairwise_cons.mpr ⟨?_, hrest⟩
        intro e' he'
        show key < e'.1
        rw [heq]
        exact hlt e' he'
      · rename_i hnot hne
        refine List.pairwise_cons.mpr ⟨?_, ih hrest⟩
        intro e' he'
        rcases mem_insert he' with he' | he'
        · -- neither before the first entry nor at it, so behind it
          have hle : e.1 ≤ key := String.not_lt.mp hnot
          rw [he']
          by_cases hlt' : e.1 < key
          · exact hlt'
          · exact absurd (String.le_antisymm (String.not_lt.mp hlt') hle) hne
        · exact hlt e' he'

/-! ## Equality -/

/-- A key that stands before all entries is not looked up in them. -/
theorem get?_of_forall_lt {d : Dict α} {key : String} (h : ∀ e ∈ d, key < e.1) :
    get? d key = none := by
  cases hget : get? d key with
  | none => rfl
  | some value => exact absurd (h _ (mem_of_get? hget)) (String.lt_irrefl key)

/-- **Two dictionaries in which the same is found are equal.** -/
theorem ext_of_sorted {d d' : Dict α} (hd : d.Sorted) (hd' : d'.Sorted)
    (h : ∀ key, get? d key = get? d' key) : d = d' := by
  induction d generalizing d' with
  | nil =>
      cases d' with
      | nil => rfl
      | cons e d' =>
          have hnone := h e.1
          rw [get?_cons, if_pos rfl] at hnone
          cases hnone
  | cons e d ih =>
      cases d' with
      | nil =>
          have hnone := h e.1
          rw [get?_cons, if_pos rfl] at hnone
          cases hnone
      | cons e' d' =>
          obtain ⟨hlt, hrest⟩ := List.pairwise_cons.mp hd
          obtain ⟨hlt', hrest'⟩ := List.pairwise_cons.mp hd'
          -- the first key of one is found in the other, so neither comes before the other
          have hkey : e.1 = e'.1 := by
            by_cases hbefore : e.1 < e'.1
            · have hget := h e.1
              have hall : ∀ x ∈ e' :: d', e.1 < x.1 := List.forall_mem_cons.mpr
                ⟨hbefore, fun x hx => String.lt_trans hbefore (hlt' x hx)⟩
              rw [get?_cons, if_pos rfl, get?_of_forall_lt hall] at hget
              cases hget
            · by_cases hbehind : e'.1 < e.1
              · have hget := h e'.1
                have hall : ∀ x ∈ e :: d, e'.1 < x.1 := List.forall_mem_cons.mpr
                  ⟨hbehind, fun x hx => String.lt_trans hbehind (hlt x hx)⟩
                rw [get?_of_forall_lt hall, get?_cons, if_pos rfl] at hget
                cases hget
              · exact String.le_antisymm (String.not_lt.mp hbehind) (String.not_lt.mp hbefore)
          have hvalue : e.2 = e'.2 := by
            have hget := h e.1
            rw [get?_cons, get?_cons, if_pos rfl, if_pos hkey] at hget
            exact Option.some.inj hget
          obtain rfl : e = e' := Prod.ext hkey hvalue
          have hbehind : ∀ key, get? d key = get? d' key := by
            intro key
            by_cases heq : key = e.1
            · rw [heq, get?_of_forall_lt hlt, get?_of_forall_lt hlt']
            · have hget := h key
              rwa [get?_cons, get?_cons, if_neg heq, if_neg heq] at hget
          rw [ih hrest hrest' hbehind]

/-- A value that is there already changes nothing when it is inserted. -/
theorem insert_of_get? {d : Dict α} (hd : d.Sorted) {key : String} {value : α}
    (h : get? d key = some value) : insert key value d = d := by
  refine ext_of_sorted (sorted_insert hd _ _) hd fun k => ?_
  rw [get?_insert]
  by_cases hk : k = key
  · rw [if_pos hk, hk, h]
  · rw [if_neg hk]

/-- Insertions at different keys can change places. -/
theorem insert_comm {d : Dict α} (hd : d.Sorted) {key other : String} (hne : key ≠ other)
    (value value' : α) :
    insert key value (insert other value' d) = insert other value' (insert key value d) := by
  refine ext_of_sorted (sorted_insert (sorted_insert hd _ _) _ _)
    (sorted_insert (sorted_insert hd _ _) _ _) fun k => ?_
  rw [get?_insert, get?_insert, get?_insert, get?_insert]
  by_cases hk : k = key
  · rw [if_pos hk, if_neg (hk ▸ hne), if_pos hk]
  · rw [if_neg hk, if_neg hk]

/-! ## Entries in a row -/

theorem sorted_ofList (entries : List (String × α)) :
    (ofList entries).Sorted := by
  have hfold : ∀ (entries : List (String × α)) (d : Dict α), d.Sorted →
      Sorted (entries.foldl (fun d e => insert e.1 e.2 d) d) := by
    intro entries
    induction entries with
    | nil => exact fun _ hd => hd
    | cons e entries ih => exact fun _ hd => ih _ (sorted_insert hd e.1 e.2)
  exact hfold entries [] List.Pairwise.nil

theorem mem_ofList {entries : List (String × α)} {e : String × α}
    (h : e ∈ ofList entries) : e ∈ entries := by
  have hfold : ∀ (entries : List (String × α)) (d : Dict α),
      e ∈ entries.foldl (fun d e => insert e.1 e.2 d) d → e ∈ d ∨ e ∈ entries := by
    intro entries
    induction entries with
    | nil => exact fun _ he => Or.inl he
    | cons e' entries ih =>
        intro d he
        rcases ih _ he with he | he
        · rcases mem_insert he with he | he
          · exact Or.inr (he ▸ List.mem_cons_self)
          · exact Or.inl he
        · exact Or.inr (List.mem_cons_of_mem _ he)
  exact (hfold entries [] h).resolve_left List.not_mem_nil

theorem insert_of_forall_lt {d : Dict α} {key : String} (h : ∀ e ∈ d, e.1 < key) (value : α) :
    insert key value d = d ++ [(key, value)] := by
  induction d with
  | nil => rfl
  | cons e d ih =>
      obtain ⟨he, hd⟩ := List.forall_mem_cons.mp h
      have hne : key ≠ e.1 := fun heq => String.lt_irrefl key (heq ▸ he)
      rw [insert, if_neg (fun hlt => String.lt_irrefl key (String.lt_trans hlt he)), if_neg hne,
        ih hd, List.cons_append]

/-- **Ascending entries are a dictionary as they stand.** -/
theorem ofList_of_sorted {entries : List (String × α)} (h : Sorted entries) :
    ofList entries = entries := by
  have hfold : ∀ (entries d : List (String × α)), Sorted (d ++ entries) →
      entries.foldl (fun d e => insert e.1 e.2 d) d = d ++ entries := by
    intro entries
    induction entries with
    | nil => exact fun d _ => (List.append_nil d).symm
    | cons e entries ih =>
        intro d hd
        have hlt : ∀ e' ∈ d, e'.1 < e.1 := fun e' he' =>
          (List.pairwise_append.mp hd).2.2 e' he' e List.mem_cons_self
        have happend : d ++ e :: entries = d ++ [e] ++ entries := by simp
        rw [List.foldl_cons, insert_of_forall_lt hlt, happend]
        exact ih (d ++ [e]) (happend ▸ hd)
  exact hfold entries [] h

/-- Of all that is wanted in a row the last is kept: the first only if no other is wanted. -/
theorem getLast?_filter_cons {β : Type} (wanted : β → Bool) (x : β) (xs : List β) :
    ((x :: xs).filter wanted).getLast?
      = (xs.filter wanted).getLast?.or (if wanted x = true then some x else none) := by
  rw [List.filter_cons]
  by_cases h : wanted x = true
  · rw [if_pos h, if_pos h, List.getLast?_cons]
    cases (xs.filter wanted).getLast? <;> rfl
  · rw [if_neg h, if_neg h, Option.or_none]

end SolFront.Dict
