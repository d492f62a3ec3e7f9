import SolFront.Proofs.Import.Completion

/-!
# How long a completion takes

A completion goes in rounds, and each of them takes one source from the pending ones and looks at it.
Nobody has to remember which sources have been looked at: a unit becomes pending only when it becomes
a source, and it does that once. So no source is pending twice, or pending again after it has been
looked at, whatever the sources import.

The sources are those at the start and units that were provided. If only finitely many units can be
provided, this bounds the rounds, even if the importer answers a question differently the next time.
-/

namespace SolFront.Import

variable {ρ : Type} {importer : Importer (StateM ρ)}

namespace Progress

/-! ## Rounds -/

/-- One round: a source is taken from the pending ones, and all that it imports is required. -/
inductive Round (importer : Importer (StateM ρ)) :
    Progress → ρ → String → Progress → ρ → Prop where
  | mk {p q : Progress} {s s' : ρ} {name : String} {pending : List String}
      (hpending : p.pending = name :: pending)
      (hrequire : ((({ p with pending := pending } : Progress).importsFrom name).foldlM
        (require importer) { p with pending := pending }).run s = (q, s')) :
      Round importer p s name q s'

/-- Rounds one after another, with the names of the sources that are looked at. -/
inductive Rounds (importer : Importer (StateM ρ)) :
    Progress → ρ → List String → Progress → ρ → Prop where
  | none {p : Progress} {s : ρ} : Rounds importer p s [] p s
  | next {p q r : Progress} {s s' s'' : ρ} {name : String} {names : List String}
      (hround : Round importer p s name q s') (hrest : Rounds importer q s' names r s'') :
      Rounds importer p s (name :: names) r s''

theorem exists_round (importer : Importer (StateM ρ)) {p : Progress} {name : String}
    {pending : List String} (hpending : p.pending = name :: pending) (s : ρ) :
    ∃ q s', Round importer p s name q s' :=
  ⟨_, _, .mk hpending rfl⟩

theorem complete_round {p q : Progress} {s s' : ρ} {name : String}
    (h : Round importer p s name q s') (rounds : Nat) :
    (complete importer (rounds + 1) p).run s = (complete importer rounds q).run s' := by
  cases h with
  | mk hpending hrequire =>
      rw [complete.eq_def]
      simp only [hpending]
      rw [StateT.run_bind, hrequire]
      rfl

/-- **A completion is a row of rounds** until nothing is pending. -/
theorem complete_rounds {p q : Progress} {s s' : ρ} {names : List String}
    (h : Rounds importer p s names q s') (hend : q.pending = []) {rounds : Nat}
    (hrounds : names.length ≤ rounds) : (complete importer rounds p).run s = (some q, s') := by
  induction h generalizing rounds with
  | none =>
      rw [complete.eq_def]
      simp only [hend]
      rfl
  | next hround _ ih =>
      obtain ⟨rounds', rfl⟩ : ∃ rounds', rounds = rounds' + 1 := by
        rw [List.length_cons] at hrounds
        exact ⟨rounds - 1, by omega⟩
      rw [complete_round hround]
      exact ih hend (by rw [List.length_cons] at hrounds; omega)

/-! ## What is pending -/

/-- Where a search stands when it has looked at some sources. -/
structure Queue (start : Progress) (offered : Finset String) (looked : List String)
    (p : Progress) : Prop where
  /-- The sources are those that have been looked at and those that are pending. -/
  names : (looked ++ p.pending).Perm (Dict.keys p.sources)
  /-- Each of them is there once. -/
  once : (Dict.keys p.sources).Nodup
  /-- It was a source at the start, or it is a unit that can be provided. -/
  origin : ∀ name ∈ Dict.keys p.sources, name ∈ Dict.keys start.sources ∨ name ∈ offered

section

variable {start p : Progress} {offered : Finset String} {looked : List String}

/-- **A unit that is provided becomes pending when it becomes a source.** -/
theorem queue_record (h : Queue start offered looked p) {unit : String}
    (hunknown : p.knows unit = false) {answer : ImportAnswer}
    (hoff : ∀ text, answer = .contents text → unit ∈ offered) :
    Queue start offered looked (p.record unit answer) := by
  cases answer with
  | error reason => exact ⟨h.names, h.once, h.origin⟩
  | contents text =>
      have hnew : Dict.contains p.sources unit = false :=
        Dict.contains_eq_false_iff.mpr (knows_eq_false_iff.mp hunknown).1
      have hkeys := Dict.keys_insert_perm hnew (Json.obj [("content", .str text)])
      have hnot : unit ∉ Dict.keys p.sources := by
        rw [← Dict.contains_iff_mem_keys, hnew]
        exact Bool.false_ne_true
      refine ⟨?_, ?_, ?_⟩
      · show (looked ++ unit :: p.pending).Perm _
        exact (List.perm_middle.trans (h.names.cons unit)).trans hkeys.symm
      · exact hkeys.nodup_iff.mpr (List.nodup_cons.mpr ⟨hnot, h.once⟩)
      · intro name hname
        rcases List.mem_cons.mp (hkeys.mem_iff.mp hname) with rfl | hname
        · exact Or.inr (hoff text rfl)
        · exact h.origin name hname

theorem queue_require (hoff : ∀ unit s text, (importer unit s).1 = .contents text → unit ∈ offered)
    (h : Queue start offered looked p) (unit : String) (s : ρ) :
    Queue start offered looked ((require importer p unit).run s).1 := by
  cases hknows : p.knows unit with
  | true =>
      rw [require, if_pos hknows]
      exact h
  | false =>
      rw [require, if_neg (by rw [hknows]; exact Bool.false_ne_true)]
      exact queue_record h hknows (hoff unit s)

theorem queue_require_all
    (hoff : ∀ unit s text, (importer unit s).1 = .contents text → unit ∈ offered) :
    ∀ (units : List String) {p : Progress} (s : ρ), Queue start offered looked p →
      Queue start offered looked ((units.foldlM (require importer) p).run s).1
  | [], _, _, h => h
  | unit :: units, p, s, h => by
      rw [List.foldlM_cons, StateT.run_bind]
      exact queue_require_all hoff units _ (queue_require hoff h unit s)

/-- **One round** moves a source from the pending ones to those that have been looked at. -/
theorem queue_round (hoff : ∀ unit s text, (importer unit s).1 = .contents text → unit ∈ offered)
    (h : Queue start offered looked p) {q : Progress} {s s' : ρ} {name : String}
    (hround : Round importer p s name q s') : Queue start offered (looked ++ [name]) q := by
  cases hround with
  | @mk _ _ _ _ pending hpending hrequire =>
      have hmoved : Queue start offered (looked ++ [name]) { p with pending := pending } := by
        refine ⟨?_, h.once, h.origin⟩
        have hnames := h.names
        rw [hpending, List.append_cons] at hnames
        exact hnames
      have hqueue := queue_require_all hoff
        (({ p with pending := pending } : Progress).importsFrom name) s hmoved
      rw [hrequire] at hqueue
      exact hqueue

theorem queue_rounds (hoff : ∀ unit s text, (importer unit s).1 = .contents text → unit ∈ offered)
    {q : Progress} {s s' : ρ} {names : List String} (hrounds : Rounds importer p s names q s') :
    ∀ {looked : List String}, Queue start offered looked p →
      Queue start offered (looked ++ names) q := by
  induction hrounds with
  | none =>
      intro looked h
      rw [List.append_nil]
      exact h
  | @next _ _ _ _ _ _ name names hround _ ih =>
      intro looked h
      have hqueue := ih (queue_round hoff h hround)
      rwa [← List.append_cons] at hqueue

theorem Queue.nodup (h : Queue start offered looked p) : (looked ++ p.pending).Nodup :=
  h.names.nodup_iff.mpr h.once

/-- **There are no more names than sources at the start and units that can be provided.** -/
theorem Queue.length_le (h : Queue start offered looked p) :
    (looked ++ p.pending).length ≤ start.sources.length + offered.card := by
  have hsubset : (Dict.keys p.sources).toFinset
      ⊆ (Dict.keys start.sources).toFinset ∪ offered := by
    intro name hname
    rw [Finset.mem_union, List.mem_toFinset]
    exact h.origin name (List.mem_toFinset.mp hname)
  calc (looked ++ p.pending).length
      = (Dict.keys p.sources).length := h.names.length_eq
    _ = (Dict.keys p.sources).toFinset.card := (List.toFinset_card_of_nodup h.once).symm
    _ ≤ ((Dict.keys start.sources).toFinset ∪ offered).card := Finset.card_le_card hsubset
    _ ≤ (Dict.keys start.sources).toFinset.card + offered.card := Finset.card_union_le _ _
    _ ≤ start.sources.length + offered.card := by
        have hkeys := List.toFinset_card_le (Dict.keys start.sources)
        have hlength : (Dict.keys start.sources).length = start.sources.length :=
          List.length_map _
        omega

/-- **The rounds come to an end**, for every round uses up one of the names that there can be. -/
theorem exists_rounds
    (hoff : ∀ unit s text, (importer unit s).1 = .contents text → unit ∈ offered) :
    ∀ (left : Nat) {looked : List String} {p : Progress} (s : ρ), Queue start offered looked p →
      start.sources.length + offered.card ≤ looked.length + left →
      ∃ names q s', Rounds importer p s names q s' ∧ q.pending = [] := by
  intro left
  induction left with
  | zero =>
      intro looked p s h hleft
      have hlength := h.length_le
      rw [List.length_append] at hlength
      exact ⟨[], p, s, .none, List.eq_nil_of_length_eq_zero (by omega)⟩
  | succ left ih =>
      intro looked p s h hleft
      cases hpending : p.pending with
      | nil => exact ⟨[], p, s, .none, hpending⟩
      | cons name pending =>
          obtain ⟨q, s₁, hround⟩ := exists_round importer hpending s
          obtain ⟨names, r, s₂, hrest, hend⟩ := ih s₁ (queue_round hoff h hround) (by
            rw [List.length_append, List.length_singleton]
            omega)
          exact ⟨name :: names, r, s₂, .next hround hrest, hend⟩

end

end Progress

/-! ## Whole completions -/

open Progress (Queue Rounds complete_rounds exists_rounds queue_rounds)

/-- A search that ends. The names that have been pending at some moment are those that have been
looked at by then and those that still are. -/
structure Terminates (importer : Importer (StateM ρ)) (start : Progress) (s : ρ) (bound : Nat)
    (final : Progress) (s' : ρ) : Prop where
  /-- No name has been pending twice, so no source is looked at twice. -/
  once : ∀ {looked p t}, Rounds importer start s looked p t → (looked ++ p.pending).Nodup
  /-- They are the sources of that moment. -/
  names : ∀ {looked p t}, Rounds importer start s looked p t →
    (looked ++ p.pending).Perm (Dict.keys p.sources)
  /-- There are no more of them than the bound allows. -/
  bounded : ∀ {looked p t}, Rounds importer start s looked p t →
    (looked ++ p.pending).length ≤ bound
  /-- The rounds lead to a moment at which nothing is pending. -/
  reached : ∃ looked, Rounds importer start s looked final s'
  ended : final.pending = []

theorem exists_terminates {importer : Importer (StateM ρ)} {offered : Finset String}
    (hoff : ∀ unit s text, (importer unit s).1 = .contents text → unit ∈ offered)
    {filled : Dict Json} (hsorted : filled.Sorted) (failed : Dict String) (s : ρ) :
    ∃ final s', Terminates importer (searchFrom filled failed) s (filled.length + offered.card)
      final s' := by
  have hqueue : Queue (searchFrom filled failed) offered [] (searchFrom filled failed) :=
    ⟨List.reverse_perm (Dict.keys filled), Dict.nodup_keys_of_sorted hsorted,
      fun _ hname => Or.inl hname⟩
  obtain ⟨looked, final, s', hrounds, hend⟩ := exists_rounds hoff
    (filled.length + offered.card) s hqueue (Nat.le_add_left _ _)
  refine ⟨final, s', ?_, ?_, ?_, ⟨looked, hrounds⟩, hend⟩
  · intro looked p t h
    exact (queue_rounds hoff h hqueue).nodup
  · intro looked p t h
    exact (queue_rounds hoff h hqueue).names
  · intro looked p t h
    exact (queue_rounds hoff h hqueue).length_le

/-- **A completion ends**, if only finitely many units can be provided. A request without sources
is returned at once. Otherwise no more names are ever pending than there are sources in the request
and units that can be provided, and each of these sources is looked at once. -/
theorem fetch_terminates (importer : Importer (StateM ρ)) {offered : Finset String}
    (hoff : ∀ unit s text, (importer unit s).1 = .contents text → unit ∈ offered)
    (request : Json) (s : ρ) :
    ((∀ sources, request.member? "sources" ≠ some (.obj sources)) →
      ∀ limit, (fetch importer limit request).run s = (some (request, []), s))
    ∧ ∀ members sources : Dict Json, request = .obj members →
        Dict.get? members "sources" = some (.obj sources) → sources.Sorted →
        ∃ filled failed s₁ final s₂,
          (fillAll importer sources).run s = ((filled, failed), s₁)
          ∧ Terminates importer (searchFrom filled failed) s₁ (sources.length + offered.card)
              final s₂
          ∧ ∀ limit, offered.card ≤ limit → (fetch importer limit request).run s
              = (some (.obj (Dict.insert "sources" (.obj final.sources) members), final.missing),
                s₂) := by
  refine ⟨fun hnone limit => fetch_without_sources importer limit hnone s, ?_⟩
  rintro members sources rfl hs hsorted
  rcases hfill : (fillAll importer sources).run s with ⟨⟨filled, failed⟩, s₁⟩
  have hf := filledFrom_fillAll importer hsorted hfill
  have hlength : filled.length = sources.length := by
    have hkeys := congrArg List.length (keys_fillAll importer sources s)
    rw [hfill] at hkeys
    simpa [Dict.keys] using hkeys
  obtain ⟨final, s₂, hends⟩ := exists_terminates hoff hf.sorted failed s₁
  rw [hlength] at hends
  refine ⟨filled, failed, s₁, final, s₂, rfl, hends, ?_⟩
  intro limit hlimit
  -- there is a round for each name that has been pending
  obtain ⟨looked, hrounds⟩ := hends.reached
  have hbound := hends.bounded hrounds
  rw [hends.ended, List.append_nil] at hbound
  rw [fetch_run importer limit hs hfill, complete_rounds hrounds hends.ended (by omega)]
  rfl

/-- An importer that provides two units, but only when it has been asked an even number of times.
Each of the two imports both of them and the source that they are for. -/
def wavering : Importer (StateM Nat) := fun unit count =>
  (if (unit = "A.sol" ∨ unit = "B.sol") ∧ count % 2 = 0 then
      .contents "import \"./A.sol\"; import \"./B.sol\"; import \"./Main.sol\";"
    else .error (unit ++ " is refused"), count + 1)

/-- A request with a source that imports itself and two units, one of them twice. -/
def entangled : Dict Json :=
  [("Main.sol", .obj [("content",
    .str "import \"Main.sol\"; import \"A.sol\"; import \"B.sol\"; import \"./A.sol\";")])]

/-- The second unit is refused, for it is asked for after the first one. -/
theorem fetch_terminates_wavering :
    (∀ unit s text, (wavering unit s).1 = .contents text →
        unit ∈ ({"A.sol", "B.sol"} : Finset String))
      ∧ entangled.Sorted
      ∧ ∃ filled failed s₁ final s₂,
        (fillAll wavering entangled).run 0 = ((filled, failed), s₁)
        ∧ Terminates wavering (searchFrom filled failed) s₁
            (entangled.length + ({"A.sol", "B.sol"} : Finset String).card) final s₂
        ∧ ∀ limit, ({"A.sol", "B.sol"} : Finset String).card ≤ limit →
            (fetch wavering limit (.obj [("sources", .obj entangled)])).run 0
              = (some (.obj (Dict.insert "sources" (.obj final.sources)
                  [("sources", .obj entangled)]), final.missing), s₂) := by
  have hoff : ∀ unit s text, (wavering unit s).1 = .contents text →
      unit ∈ ({"A.sol", "B.sol"} : Finset String) := by
    intro unit s text h
    unfold wavering at h
    dsimp only at h
    split at h
    · rename_i hunit
      simpa using hunit.1
    · cases h
  have hsorted : entangled.Sorted := List.pairwise_singleton _ _
  exact ⟨hoff, hsorted,
    (fetch_terminates wavering hoff (.obj [("sources", .obj entangled)]) 0).2 _ entangled rfl rfl
      hsorted⟩

end SolFront.Import
