import SolFront.Proofs.Import.Completion

/-!
# What a completion leaves of a request

A request without sources comes back as it is. Otherwise nothing is taken away: the other members
stay, and so do the sources, apart from contents that a source without any gets from its addresses.
The addresses come first. They are tried source by source, in the order of the names, and after that
no question is about a source of the request, so what the addresses have left stays to the end.

This holds for any importer, whatever it answers from one question to the next.
-/

namespace SolFront.Import

open Progress (Account account_start exists_account)

variable {σ : Type}

/-! ## After the visits -/

theorem get?_failures_of_absent {visits : List Visit} {name : String}
    (h : name ∉ visits.map (·.name)) : Dict.get? (failures visits) name = none := by
  induction visits with
  | nil => rfl
  | cons w visits ih =>
      rw [List.map_cons, List.mem_cons, not_or] at h
      show Dict.get? (w.failure.elim (failures visits) _) name = none
      cases w.failure with
      | none => exact ih h.2
      | some reason =>
          show Dict.get? (Dict.insert w.name reason (failures visits)) name = none
          rw [Dict.get?_insert, if_neg h.1, ih h.2]

theorem get?_failures {visits : List Visit} (hnd : (visits.map (·.name)).Nodup) {v : Visit}
    (hv : v ∈ visits) : Dict.get? (failures visits) v.name = v.failure := by
  induction visits with
  | nil => cases hv
  | cons w visits ih =>
      rw [List.map_cons, List.nodup_cons] at hnd
      show Dict.get? (w.failure.elim (failures visits) _) v.name = v.failure
      rcases List.mem_cons.mp hv with rfl | hv
      · cases v.failure with
        | none => exact get?_failures_of_absent hnd.1
        | some reason => exact Dict.get?_insert_self _ _ _
      · -- a visit under another name
        have hne : v.name ≠ w.name := by
          intro heq
          exact hnd.1 (heq ▸ List.mem_map_of_mem hv)
        cases w.failure with
        | none => exact ih hnd.2 hv
        | some reason =>
            show Dict.get? (Dict.insert w.name reason (failures visits)) v.name = v.failure
            rw [Dict.get?_insert, if_neg hne]
            exact ih hnd.2 hv

/-- What is left of a request when it has been completed after the visits. -/
structure Preserved (visits : List Visit) (before after final : Dict Json)
    (missing : Dict String) : Prop where
  sources : Dict.get? after "sources" = some (.obj final)
  /-- All other members are as before. -/
  others : ∀ key, key ≠ "sources" → Dict.get? after key = Dict.get? before key
  /-- The members stay in order. -/
  sorted : before.Sorted → after.Sorted
  /-- Each source is what its addresses have left of it. -/
  visited : ∀ v ∈ visits, Dict.get? final v.name = some v.left
  /-- It is missing exactly if its addresses have failed, for their reasons. -/
  failed : ∀ v ∈ visits, Dict.get? missing v.name = v.failure

/-- Wherever a search after the visits has come to, they are kept. -/
theorem preserved_of_account {importer : Importer (StateM σ)} {visits : List Visit} {log : Log}
    {q : Progress} (hnd : (visits.map (·.name)).Nodup)
    (h : Account importer (searchFrom (visits.map fun v => (v.name, v.left)) (failures visits)) log q)
    (before : Dict Json) :
    Preserved visits before (Dict.insert "sources" (.obj q.sources) before) q.sources q.missing := by
  have hkeys : Dict.keys (visits.map fun v => (v.name, v.left)) = visits.map (·.name) := by
    simp [Dict.keys, Function.comp_def]
  have hfound : ∀ v ∈ visits,
      Dict.get? (visits.map fun v => (v.name, v.left)) v.name = some v.left := by
    intro v hv
    exact Dict.get?_of_mem (hkeys ▸ hnd) (List.mem_map_of_mem hv)
  refine ⟨Dict.get?_insert_self _ _ _, ?_, ?_, ?_, ?_⟩
  · intro key hkey
    rw [Dict.get?_insert, if_neg hkey]
  · intro hmembers
    exact Dict.sorted_insert hmembers _ _
  · intro v hv
    rw [(get?_of_filled h (Dict.contains_iff.mpr ⟨_, hfound v hv⟩)).1, hfound v hv]
  · intro v hv
    rw [(get?_of_filled h (Dict.contains_iff.mpr ⟨_, hfound v hv⟩)).2]
    exact get?_failures hnd hv

/-- **A completion keeps what is in the request.** A request without sources comes back as it is,
and nothing is asked. Otherwise the record begins with the visits to the sources, in order, and no
question after them is about a source of the request; and where the completion ends, the sources are
what the visits have left of them, and all other members are as before. -/
theorem fetch_preserves (importer : Importer (StateM σ)) (limit : Nat) (request : Json) (s : σ) :
    ∃ log, (fetch (recorded importer) limit request).run (s, [])
        = (((fetch importer limit request).run s).1,
            (((fetch importer limit request).run s).2, log))
      ∧ ((∀ sources, request.member? "sources" ≠ some (.obj sources)) →
          (fetch importer limit request).run s = (some (request, []), s) ∧ log = [])
      ∧ ∀ members sources : Dict Json, request = .obj members →
          Dict.get? members "sources" = some (.obj sources) → sources.Sorted →
          ∃ (visits : List Visit) (imported : Log),
            sources = visits.map (fun v => (v.name, v.source))
            ∧ (∀ v ∈ visits, Filled v.source v.asked v.left v.failure)
            ∧ log = visits.flatMap (·.asked) ++ imported
            ∧ (∀ e ∈ imported, Dict.contains sources e.1 = false)
            ∧ ∀ result missing,
                ((fetch importer limit request).run s).1 = some (result, missing) →
                ∃ after final, result = .obj after
                  ∧ Preserved visits members after final missing := by
  obtain ⟨log, hlog⟩ := fetch_recorded importer limit request s
  refine ⟨log, hlog, ?_, ?_⟩
  · intro hnone
    have hidle := fetch_without_sources (recorded importer) limit hnone (s, [])
    refine ⟨fetch_without_sources importer limit hnone s, ?_⟩
    exact congrArg (fun r => r.2.2) (hlog.symm.trans hidle)
  · rintro members sources rfl hs hsorted
    obtain ⟨visits, s₁, hsources, hvisits, hfill⟩ := fillAll_visits importer sources s []
    have hf := filledFrom_fillAll (recorded importer) hsorted hfill
    have hfetch := fetch_run (recorded importer) limit hs hfill
    -- the search begins a record of its own behind that of the visits
    rw [List.nil_append, complete_behind, hlog] at hfetch
    obtain ⟨q, hq, -, hend⟩ := exists_account
      ((visits.map fun v => (v.name, v.left)).length + limit) s₁
      (account_start importer hf.sorted hf.failed_sorted)
      (explored_searchFrom (visits.map fun v => (v.name, v.left)) (failures visits))
    rcases hc : (Progress.complete (recorded importer)
        ((visits.map fun v => (v.name, v.left)).length + limit)
        (searchFrom (visits.map fun v => (v.name, v.left)) (failures visits))).run (s₁, [])
      with ⟨ended, ⟨s₂, imported⟩⟩
    rw [hc] at hfetch hq hend
    obtain ⟨hresult, hrest⟩ := Prod.mk.inj hfetch
    refine ⟨visits, imported, hsources, hvisits, (Prod.mk.inj hrest).2, ?_, ?_⟩
    · intro e he
      rw [← hf.names]
      exact not_filled_of_asked hq (mem_keys_of_mem he)
    · intro result missing hsome
      rw [hsome] at hresult
      cases ended with
      | none => cases hresult
      | some r =>
          obtain ⟨rfl, -⟩ := hend r rfl
          cases hresult
          have hnd : (visits.map (·.name)).Nodup := by
            have hkeys := Dict.nodup_keys_of_sorted hsorted
            rw [hsources] at hkeys
            simpa [Dict.keys, Function.comp_def] using hkeys
          exact ⟨_, r.sources, rfl, preserved_of_account hnd hq members⟩

/-- An importer that knows one address and numbers the reasons for its refusals. -/
def numbering : Importer (StateM Nat) := fun unit count =>
  (if unit = "two" then .contents "import \"./a.sol\"; import \"x.sol\";"
    else .error (unit ++ " is refused as number " ++ toString count), count + 1)

/-- Sources of every kind: addresses that fail, contents that are no text, no object, a second
address that answers, and no address at all. -/
def allKinds : Dict Json :=
  [("a.sol", .obj [("urls", .arr [.str "one", .num (.int 5), .str "three"])]),
    ("b.sol", .obj [("content", .null), ("urls", .arr [.str "two"])]),
    ("c.sol", .str "two"),
    ("d.sol", .obj [("urls", .arr [.str "one", .str "two", .str "three"])]),
    ("e.sol", .obj [("urls", .str "two")])]

/-- Those sources after the completion. -/
def allKindsLeft : Dict Json :=
  [("a.sol", .obj [("urls", .arr [.str "one", .num (.int 5), .str "three"])]),
    ("b.sol", .obj [("content", .null), ("urls", .arr [.str "two"])]),
    ("c.sol", .str "two"),
    ("d.sol", .obj [("content", .str "import \"./a.sol\"; import \"x.sol\";"),
      ("urls", .arr [.str "one", .str "two", .str "three"])]),
    ("e.sol", .obj [("urls", .str "two")])]

/-- Four questions about addresses and then one about an import. -/
theorem fetch_preserves_allKinds :
    allKinds.Sorted
      ∧ ((fetch numbering 0 (.obj [("other", .null), ("sources", .obj allKinds)])).run 0).1
        = some (.obj [("other", .null), ("sources", .obj allKindsLeft)],
          [("a.sol", "one is refused as number 0\nthree is refused as number 1"),
            ("x.sol", "x.sol is refused as number 4")])
      ∧ ∃ (visits : List Visit) (imported : Log),
        allKinds = visits.map (fun v => (v.name, v.source))
        ∧ (∀ v ∈ visits, Filled v.source v.asked v.left v.failure)
        ∧ ((fetch (recorded numbering) 0
            (.obj [("other", .null), ("sources", .obj allKinds)])).run (0, [])).2.2
          = visits.flatMap (·.asked) ++ imported
        ∧ ∃ after final,
          .obj [("other", .null), ("sources", .obj allKindsLeft)] = Json.obj after
          ∧ Preserved visits [("other", .null), ("sources", .obj allKinds)] after final
            [("a.sol", "one is refused as number 0\nthree is refused as number 1"),
              ("x.sol", "x.sol is refused as number 4")] := by
  have hsorted : allKinds.Sorted := by
    unfold Dict.Sorted
    decide +kernel
  have hrun : ((fetch numbering 0 (.obj [("other", .null), ("sources", .obj allKinds)])).run 0).1
      = some (.obj [("other", .null), ("sources", .obj allKindsLeft)],
        [("a.sol", "one is refused as number 0\nthree is refused as number 1"),
          ("x.sol", "x.sol is refused as number 4")]) := by
    decide +kernel
  obtain ⟨log, hlog, -, hall⟩ := fetch_preserves numbering 0
    (.obj [("other", .null), ("sources", .obj allKinds)]) 0
  obtain ⟨visits, imported, hsources, hvisits, hsplit, -, hends⟩ := hall _ allKinds rfl rfl hsorted
  refine ⟨hsorted, hrun, visits, imported, hsources, hvisits, ?_, hends _ _ hrun⟩
  rw [hlog, hsplit]

end SolFront.Import
