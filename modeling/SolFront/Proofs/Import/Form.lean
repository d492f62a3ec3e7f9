import SolFront.Proofs.Import.Filling
import SolFront.Proofs.Json.Values

/-!
# The form of a completed request

Completing a request puts texts into its sources, and nothing else. So a property that texts do not
take away, such as the canonical form, is kept; and a completion has no eye for the members beside
the sources, so it does not matter whether such a member is set before it or after.
-/

namespace SolFront.Import

variable {ρ : Type} {P : Json → Prop}

/-- A property of sources that texts do not take away. -/
structure KeptByTexts (P : Json → Prop) : Prop where
  /-- A source that is nothing but a text has it. -/
  text : ∀ text, P (.obj [("content", .str text)])
  /-- A source that has it keeps it when it gets contents. -/
  content : ∀ {members : Dict Json} (text : String), P (.obj members) →
    P (.obj (Dict.insert "content" (.str text) members))

/-- Sources in order, each of which has the property. -/
structure Every (P : Json → Prop) (sources : Dict Json) : Prop where
  sorted : sources.Sorted
  all : ∀ e ∈ sources, P e.2

section

variable (hP : KeptByTexts P) (importer : Importer (StateM ρ))

include hP

theorem fill_keeps {source : Json} (h : P source) (s : ρ) :
    P ((fill importer source).run s).1.1 := by
  cases source with
  | obj members =>
      rw [fill_obj_run]
      split
      · exact h
      · cases ((firstContents importer (addresses members)).run s).1 with
        | ok text => exact hP.content text h
        | error reasons => exact h
  | _ => exact h

theorem fillAll_keeps :
    ∀ {sources : Dict Json} (s : ρ), (∀ e ∈ sources, P e.2) →
      ∀ e ∈ ((fillAll importer sources).run s).1.1, P e.2
  | [], _, _, _, he => absurd he List.not_mem_nil
  | (name, source) :: sources, s, h, e, he => by
      obtain ⟨hsource, hsources⟩ := List.forall_mem_cons.mp h
      rw [fillAll_cons_run] at he
      rcases List.mem_cons.mp he with rfl | he
      · exact fill_keeps hP importer hsource s
      · exact fillAll_keeps _ hsources e he

namespace Progress

/-- An answer adds a text or nothing to the sources. -/
theorem record_keeps {p : Progress} (h : Every P p.sources) (unit : String)
    (answer : ImportAnswer) : Every P (p.record unit answer).sources := by
  cases answer with
  | contents text =>
      refine ⟨Dict.sorted_insert h.sorted _ _, fun e he => ?_⟩
      rcases Dict.mem_insert he with rfl | he
      · exact hP.text text
      · exact h.all e he
  | error reason => exact h

theorem require_keeps {p : Progress} (h : Every P p.sources) (unit : String) (s : ρ) :
    Every P ((require importer p unit).run s).1.sources := by
  unfold require
  split
  · exact h
  · exact record_keeps hP h unit _

theorem foldlM_require_keeps (units : List String) :
    ∀ {p : Progress} (s : ρ), Every P p.sources →
      Every P ((units.foldlM (require importer) p).run s).1.sources := by
  induction units with
  | nil => exact fun _ h => h
  | cons unit units ih =>
      intro p s h
      rw [List.foldlM_cons, run_then]
      exact ih _ (require_keeps hP importer h unit s)

theorem complete_keeps (rounds : Nat) :
    ∀ {p q : Progress} {s s' : ρ}, Every P p.sources →
      (complete importer rounds p).run s = (some q, s') → Every P q.sources := by
  induction rounds with
  | zero =>
      intro p q s s' h hrun
      rw [complete.eq_def] at hrun
      cases hpending : p.pending with
      | nil =>
          simp only [hpending] at hrun
          cases hrun
          exact h
      | cons name pending =>
          simp only [hpending] at hrun
          cases hrun
  | succ rounds ih =>
      intro p q s s' h hrun
      rw [complete.eq_def] at hrun
      cases hpending : p.pending with
      | nil =>
          simp only [hpending] at hrun
          cases hrun
          exact h
      | cons name pending =>
          simp only [hpending] at hrun
          rw [run_then] at hrun
          exact ih (foldlM_require_keeps hP importer _ (p := { p with pending := pending }) s h)
            hrun

end Progress

/-- **Sources keep the property when all that they import is added to them.** -/
theorem fetchSources_keeps {limit : Nat} {sources completed : Dict Json} {missing : Dict String}
    {s s' : ρ} (h : Every P sources)
    (hrun : (fetchSources importer limit sources).run s = (some (completed, missing), s')) :
    Every P completed := by
  unfold fetchSources at hrun
  rw [run_then, run_then] at hrun
  obtain ⟨hresult, -⟩ := Prod.mk.inj hrun
  obtain ⟨q, hq, hcompleted⟩ := Option.map_eq_some_iff.mp hresult
  cases hcompleted
  exact Progress.complete_keeps hP importer _
    ⟨sorted_fillAll importer h.sorted s, fillAll_keeps hP importer s h.all⟩ (Prod.ext hq rfl)

end

/-! ## The members beside the sources -/

section

variable {importer : Importer (StateM ρ)} {limit : Nat} {members : Dict Json}

theorem fetch_obj_run (importer : Importer (StateM ρ)) (limit : Nat) (members : Dict Json)
    (s : ρ) :
    (fetch importer limit (.obj members)).run s
      = match Dict.get? members "sources" with
        | some (.obj sources) =>
          let r := (fetchSources importer limit sources).run s
          (r.1.map fun x => (.obj (Dict.insert "sources" (.obj x.1) members), x.2), r.2)
        | _ => (some (.obj members, []), s) := by
  unfold fetch
  dsimp only
  cases Dict.get? members "sources" with
  | none => rfl
  | some sources => cases sources <;> rfl

/-- **A member beside the sources can be set before the completion or after it.** -/
theorem fetch_insert (hsorted : members.Sorted) {key : String} (hkey : key ≠ "sources")
    (v : Json) {request : Json} {missing : Dict String} {s s' : ρ}
    (hfetch : (fetch importer limit (.obj members)).run s = (some (request, missing), s')) :
    ∃ completed, request = .obj completed
      ∧ (fetch importer limit (.obj (Dict.insert key v members))).run s
        = (some (.obj (Dict.insert key v completed), missing), s') := by
  have hget : Dict.get? (Dict.insert key v members) "sources" = Dict.get? members "sources" :=
    (Dict.get?_insert _ _ _ _).trans (if_neg hkey.symm)
  rw [fetch_obj_run] at hfetch ⊢
  rw [hget]
  split at hfetch
  · rename_i sources hsources
    obtain ⟨hresult, hstate⟩ := Prod.mk.inj hfetch
    obtain ⟨found, hfound, hrequest⟩ := Option.map_eq_some_iff.mp hresult
    obtain ⟨rfl, rfl⟩ := Prod.mk.inj hrequest
    refine ⟨_, rfl, ?_⟩
    dsimp only
    rw [hfound, hstate, Option.map_some, Dict.insert_comm hsorted hkey]
  · cases hfetch
    exact ⟨members, rfl, rfl⟩

/-- What is completed is the request with sources that kept the property, if it has any. -/
theorem fetch_keeps (hP : KeptByTexts P)
    (hsources : ∀ sources, Dict.get? members "sources" = some (.obj sources) → Every P sources)
    {completed : Dict Json} {missing : Dict String} {s s' : ρ}
    (hfetch : (fetch importer limit (.obj members)).run s
      = (some (.obj completed, missing), s')) :
    completed = members ∨ ∃ sources, Every P sources
      ∧ completed = Dict.insert "sources" (.obj sources) members := by
  rw [fetch_obj_run] at hfetch
  split at hfetch
  · rename_i sources hobj
    obtain ⟨hresult, hstate⟩ := Prod.mk.inj hfetch
    obtain ⟨found, hfound, hrequest⟩ := Option.map_eq_some_iff.mp hresult
    cases hrequest
    exact Or.inr ⟨found.1, fetchSources_keeps hP importer (hsources sources hobj)
      (Prod.ext hfound rfl), rfl⟩
  · cases hfetch
    exact Or.inl rfl

/-- Texts in a regular request leave it regular. -/
theorem keptByTexts_regular (n : Nat) : KeptByTexts (Json.Regular (n + 1)) where
  text text := .obj (List.pairwise_singleton _ _) fun e he => by
    obtain rfl := List.mem_singleton.mp he
    exact .str n text
  content text h := h.insert (.str n text) "content"

/-- **A regular request is completed to a regular one.** -/
theorem fetch_regular {n : Nat} {completed : Dict Json} {missing : Dict String} {s s' : ρ}
    (h : Json.Regular (n + 3) (.obj members))
    (hfetch : (fetch importer limit (.obj members)).run s
      = (some (.obj completed, missing), s')) : Json.Regular (n + 3) (.obj completed) := by
  have hsources : ∀ sources, Dict.get? members "sources" = some (.obj sources) →
      Every (Json.Regular (n + 1)) sources := by
    intro sources hget
    have hregular : Json.Regular (n + 2) (.obj sources) := h.members.2 _ (Dict.mem_of_get? hget)
    exact ⟨hregular.members.1, hregular.members.2⟩
  rcases fetch_keeps (keptByTexts_regular n) hsources hfetch with rfl | ⟨sources, hkept, rfl⟩
  · exact h
  · exact h.insert (.obj hkept.sorted hkept.all) "sources"

end

end SolFront.Import
