import SolFront.Proofs.Dict
import SolFront.Proofs.Import.Runs

/-!
# Sources with addresses

Filling the sources keeps their names. A source whose addresses all fail is left without contents.
Nothing is asked for but the addresses of sources without contents, in order, and none behind one
that answers.
-/

namespace SolFront.Import

variable {ρ σ : Type}

/-! ## Runs -/

/-- One computation after another, each with the state that the one before it leaves. -/
theorem run_then {α β : Type} (x : StateM ρ α) (f : α → StateM ρ β) (s : ρ) :
    (x >>= f).run s = (f (x.run s).1).run (x.run s).2 := rfl

theorem firstContents_cons_run (importer : Importer (StateM ρ)) (url : String)
    (urls : List String) (s : ρ) :
    (firstContents importer (url :: urls)).run s
      = match (importer url).run s with
        | (.contents text, s') => (.ok text, s')
        | (.error reason, s') =>
          (((firstContents importer urls).run s').1.mapError (reason :: ·),
            ((firstContents importer urls).run s').2) := by
  rw [firstContents, run_then]
  cases (importer url).run s with
  | mk answer s' =>
      cases answer with
      | contents text => rfl
      | error reason =>
          dsimp only
          rw [run_then]
          cases (firstContents importer urls).run s' with
          | mk result s'' =>
              cases result with
              | ok text => rfl
              | error reasons => rfl

/-- What becomes of a source without contents, by what its addresses answer. -/
def filledWith (members : Dict Json) : Except (List String) String → Json × List String
  | .ok text => (.obj (Dict.insert "content" (.str text) members), [])
  | .error reasons => (.obj members, reasons)

theorem fill_obj_run (importer : Importer (StateM ρ)) (members : Dict Json) (s : ρ) :
    (fill importer (.obj members)).run s
      = if Dict.contains members "content" then ((.obj members, []), s)
        else (filledWith members ((firstContents importer (addresses members)).run s).1,
          ((firstContents importer (addresses members)).run s).2) := by
  unfold fill
  dsimp only
  split
  · rfl
  · rw [run_then]
    cases (firstContents importer (addresses members)).run s with
    | mk result s' =>
        cases result with
        | ok text => rfl
        | error reasons => rfl

theorem fillAll_cons_run (importer : Importer (StateM ρ)) (name : String) (source : Json)
    (sources : Dict Json) (s : ρ) :
    (fillAll importer ((name, source) :: sources)).run s
      = let r := (fill importer source).run s
        let t := (fillAll importer sources).run r.2
        (((name, r.1.1) :: t.1.1,
          if r.1.2.isEmpty then t.1.2
          else Dict.insert name ("\n".intercalate r.1.2) t.1.2), t.2) := rfl

/-! ## What filling leaves -/

/-- A source with reasons is an object that still has no contents. -/
theorem fill_failed (importer : Importer (StateM ρ)) (source : Json) (s : ρ)
    (h : ((fill importer source).run s).1.2.isEmpty = false) :
    ∃ members, ((fill importer source).run s).1.1 = .obj members ∧
      Dict.contains members "content" = false := by
  cases source with
  | obj members =>
      rw [fill_obj_run] at h ⊢
      split at h
      · cases h
      · rename_i hc
        rw [if_neg hc]
        cases hr : ((firstContents importer (addresses members)).run s).1 with
        | ok text =>
            rw [hr] at h
            cases h
        | error reasons => exact ⟨members, rfl, Bool.not_eq_true _ ▸ hc⟩
  | _ => cases h

/-- **Filling keeps the names of the sources.** -/
theorem keys_fillAll (importer : Importer (StateM ρ)) :
    ∀ (sources : Dict Json) (s : ρ),
      Dict.keys ((fillAll importer sources).run s).1.1 = Dict.keys sources
  | [], _ => rfl
  | (name, source) :: sources, s => by
      rw [fillAll_cons_run]
      show name :: Dict.keys _ = name :: Dict.keys _
      rw [keys_fillAll importer sources]

theorem sorted_iff_keys {α : Type} {d : Dict α} :
    d.Sorted ↔ (Dict.keys d).Pairwise (· < ·) :=
  List.pairwise_map.symm

theorem sorted_fillAll (importer : Importer (StateM ρ)) {sources : Dict Json}
    (h : sources.Sorted) (s : ρ) :
    Dict.Sorted ((fillAll importer sources).run s).1.1 := by
  rw [sorted_iff_keys, keys_fillAll]
  exact sorted_iff_keys.mp h

theorem contains_fillAll (importer : Importer (StateM ρ)) (sources : Dict Json) (s : ρ)
    (name : String) :
    Dict.contains ((fillAll importer sources).run s).1.1 name = Dict.contains sources name := by
  rw [Bool.eq_iff_iff, Dict.contains_iff_mem_keys, Dict.contains_iff_mem_keys, keys_fillAll]

theorem sorted_failed (importer : Importer (StateM ρ)) :
    ∀ (sources : Dict Json) (s : ρ), Dict.Sorted ((fillAll importer sources).run s).1.2
  | [], _ => List.Pairwise.nil
  | (name, source) :: sources, s => by
      rw [fillAll_cons_run]
      dsimp only
      split
      · exact sorted_failed importer sources _
      · exact Dict.sorted_insert (sorted_failed importer sources _) _ _

/-- **A source is missing after the filling only if it is left without contents.** -/
theorem get?_of_failed (importer : Importer (StateM ρ)) :
    ∀ (sources : Dict Json) (s : ρ), sources.Sorted → ∀ {name reason},
      Dict.get? ((fillAll importer sources).run s).1.2 name = some reason →
      ∃ members, Dict.get? ((fillAll importer sources).run s).1.1 name = some (.obj members) ∧
        Dict.contains members "content" = false
  | [], _, _, _, _, h => by cases h
  | (first, source) :: sources, s, hsorted, name, reason, h => by
      obtain ⟨hlt, hrest⟩ := List.pairwise_cons.mp hsorted
      rw [fillAll_cons_run] at h ⊢
      dsimp only at h ⊢
      rw [Dict.get?_cons]
      -- names behind the first one differ from it
      have hbehind : ∀ {other}, Dict.get? ((fillAll importer sources).run
          ((fill importer source).run s).2).1.2 name = some other →
          ∃ members, (if name = first then some ((fill importer source).run s).1.1
            else Dict.get? ((fillAll importer sources).run
              ((fill importer source).run s).2).1.1 name) = some (.obj members) ∧
            Dict.contains members "content" = false := by
        intro other hother
        obtain ⟨members, hget, hcontent⟩ := get?_of_failed importer sources _ hrest hother
        have hmem : name ∈ Dict.keys sources := by
          rw [← keys_fillAll importer sources]
          exact Dict.contains_iff_mem_keys.mp (Dict.contains_iff.mpr ⟨_, hget⟩)
        have hne : name ≠ first := by
          intro heq
          obtain ⟨e, he, hname⟩ := List.mem_map.mp hmem
          have hlt' := hlt e he
          rw [hname, heq] at hlt'
          exact String.lt_irrefl _ hlt'
        rw [if_neg hne]
        exact ⟨members, hget, hcontent⟩
      split at h
      · exact hbehind h
      · -- the first source fails, and the name is its own or one behind it
        rename_i hempty
        rw [Dict.get?_insert] at h
        by_cases heq : name = first
        · obtain ⟨members, hfill, hcontent⟩ :=
            fill_failed importer source s (Bool.not_eq_true _ ▸ hempty)
          refine ⟨members, ?_, hcontent⟩
          rw [if_pos heq, hfill]
        · rw [if_neg heq] at h
          exact hbehind h

/-- What filling leaves of the sources, and which of them it cannot fill. -/
structure FilledFrom (sources filled : Dict Json) (failed : Dict String) : Prop where
  /-- The sources are in order. -/
  sorted : filled.Sorted
  /-- Those that fail are in order. -/
  failed_sorted : failed.Sorted
  /-- The names are the same as before. -/
  names : ∀ name, Dict.contains filled name = Dict.contains sources name
  /-- Those that fail have no contents. -/
  bare : ∀ {name reason}, Dict.get? failed name = some reason →
    ∃ members, Dict.get? filled name = some (.obj members) ∧
      Dict.contains members "content" = false

theorem filledFrom_fillAll (importer : Importer (StateM ρ)) {sources filled : Dict Json}
    {failed : Dict String} {s s' : ρ} (hsorted : sources.Sorted)
    (hfill : (fillAll importer sources).run s = ((filled, failed), s')) :
    FilledFrom sources filled failed := by
  have hfilled : ((fillAll importer sources).run s).1.1 = filled := by rw [hfill]
  have hfailed : ((fillAll importer sources).run s).1.2 = failed := by rw [hfill]
  refine ⟨?_, ?_, ?_, ?_⟩
  · exact hfilled ▸ sorted_fillAll importer hsorted s
  · exact hfailed ▸ sorted_failed importer sources s
  · intro name
    rw [← hfilled]
    exact contains_fillAll importer sources s name
  · intro name reason h
    rw [← hfailed] at h
    rw [← hfilled]
    exact get?_of_failed importer sources s hsorted h

/-! ## What filling asks for -/

/-- Questions that were refused, with the reasons. -/
def refusals (refused : List (String × String)) : Log :=
  refused.map fun r => (r.1, .error r.2)

/-- Addresses that were asked in order, with the questions and what has come out. -/
inductive Tried : List String → Log → Except (List String) String → Prop where
  /-- The first address that answers is the last one that is asked. -/
  | found {refused : List (String × String)} {url text : String} {later : List String} :
      Tried (refused.map (·.1) ++ url :: later) (refusals refused ++ [(url, .contents text)])
        (.ok text)
  /-- All addresses are asked, and none answers. -/
  | failed {refused : List (String × String)} :
      Tried (refused.map (·.1)) (refusals refused) (.error (refused.map (·.2)))

theorem Tried.refuse {urls : List String} {asked : Log} {result : Except (List String) String}
    (h : Tried urls asked result) (url reason : String) :
    Tried (url :: urls) ((url, .error reason) :: asked) (result.mapError (reason :: ·)) := by
  cases h with
  | @found refused => exact @Tried.found ((url, reason) :: refused) _ _ _
  | @failed refused => exact @Tried.failed ((url, reason) :: refused)

theorem Tried.mem_urls {urls : List String} {asked : Log} {result : Except (List String) String}
    (h : Tried urls asked result) {e : String × ImportAnswer} (he : e ∈ asked) : e.1 ∈ urls := by
  cases h with
  | @found refused url text later =>
      rcases List.mem_append.mp he with he | he
      · obtain ⟨r, hr, rfl⟩ := List.mem_map.mp he
        exact List.mem_append_left _ (List.mem_map_of_mem hr)
      · rw [List.mem_singleton.mp he]
        exact List.mem_append_right _ List.mem_cons_self
  | failed =>
      obtain ⟨r, hr, rfl⟩ := List.mem_map.mp he
      exact List.mem_map_of_mem hr

theorem firstContents_tried (importer : Importer (StateM σ)) :
    ∀ (urls : List String) (s : σ) (log : Log),
      ∃ result s' asked, (firstContents (recorded importer) urls).run (s, log)
        = (result, (s', log ++ asked)) ∧ Tried urls asked result
  | [], s, log => ⟨.error [], s, [], by rw [List.append_nil]; rfl, @Tried.failed []⟩
  | url :: urls, s, log => by
      rw [firstContents_cons_run]
      have hask : (recorded importer url).run (s, log)
          = ((importer url s).1, ((importer url s).2, log ++ [(url, (importer url s).1)])) := rfl
      rw [hask]
      cases (importer url s).1 with
      | contents text =>
          exact ⟨.ok text, (importer url s).2, [(url, .contents text)], rfl, @Tried.found [] _ _ _⟩
      | error reason =>
          obtain ⟨result, s', asked, hrun, htried⟩ := firstContents_tried importer urls
            (importer url s).2 (log ++ [(url, .error reason)])
          refine ⟨result.mapError (reason :: ·), s', (url, .error reason) :: asked, ?_,
            htried.refuse url reason⟩
          dsimp only
          rw [hrun, List.append_assoc]
          rfl

/-- A source and what is left of it after its addresses were asked, with the questions, and with the
reason if it is missing then. -/
inductive Filled : Json → Log → Json → Option String → Prop where
  /-- A source with contents, of whatever kind, and one that is no object is not asked for. -/
  | kept {source : Json}
      (hkept : ∀ members, source = .obj members → Dict.contains members "content" = true) :
      Filled source [] source none
  /-- The first address that answers gives the contents. -/
  | provided {members : Dict Json} {refused : List (String × String)} {url text : String}
      {later : List String} (hbare : Dict.contains members "content" = false)
      (haddresses : addresses members = refused.map (·.1) ++ url :: later) :
      Filled (.obj members) (refusals refused ++ [(url, .contents text)])
        (.obj (Dict.insert "content" (.str text) members)) none
  /-- If no address answers, the source stays without contents. It is missing with all the reasons,
  unless it has no address. -/
  | bare {members : Dict Json} {refused : List (String × String)}
      (hbare : Dict.contains members "content" = false)
      (haddresses : addresses members = refused.map (·.1)) :
      Filled (.obj members) (refusals refused) (.obj members)
        (if refused = [] then none else some ("\n".intercalate (refused.map (·.2))))

theorem Filled.mem_addresses {source left : Json} {asked : Log} {failure : Option String}
    (h : Filled source asked left failure) {e : String × ImportAnswer} (he : e ∈ asked) :
    ∃ members, source = .obj members ∧ Dict.contains members "content" = false
      ∧ e.1 ∈ addresses members := by
  cases h with
  | kept => simp at he
  | provided hbare haddresses =>
      exact ⟨_, rfl, hbare, by rw [haddresses]; exact Tried.found.mem_urls he⟩
  | bare hbare haddresses =>
      exact ⟨_, rfl, hbare, by rw [haddresses]; exact Tried.failed.mem_urls he⟩

/-- The reason why a source is missing, from the reasons of its addresses. -/
def failureOf (reasons : List String) : Option String :=
  if reasons.isEmpty then none else some ("\n".intercalate reasons)

theorem fill_filled (importer : Importer (StateM σ)) (source : Json) (s : σ) (log : Log) :
    ∃ left reasons s' asked, (fill (recorded importer) source).run (s, log)
        = ((left, reasons), (s', log ++ asked))
      ∧ Filled source asked left (failureOf reasons) := by
  have hkept : ∀ {source : Json},
      (∀ members, source = .obj members → Dict.contains members "content" = true) →
      (fill (recorded importer) source).run (s, log) = ((source, []), (s, log)) →
      ∃ left reasons s' asked, (fill (recorded importer) source).run (s, log)
          = ((left, reasons), (s', log ++ asked))
        ∧ Filled source asked left (failureOf reasons) := by
    intro source hsource hrun
    exact ⟨source, [], s, [], by rw [hrun, List.append_nil], .kept hsource⟩
  cases source with
  | obj members =>
      cases hcontent : Dict.contains members "content" with
      | true =>
          refine hkept ?_ (by rw [fill_obj_run, if_pos hcontent])
          intro others heq
          cases heq
          exact hcontent
      | false =>
          obtain ⟨result, s', asked, hrun, htried⟩ :=
            firstContents_tried importer (addresses members) s log
          refine ⟨(filledWith members result).1, (filledWith members result).2, s', asked, ?_, ?_⟩
          · rw [fill_obj_run, if_neg (by rw [hcontent]; exact Bool.false_ne_true), hrun]
          · generalize haddresses : addresses members = urls at htried
            cases htried with
            | found => exact .provided hcontent haddresses
            | @failed refused =>
                have hfailure : failureOf (refused.map (·.2))
                    = if refused = [] then none
                      else some ("\n".intercalate (refused.map (·.2))) := by
                  cases refused <;> rfl
                show Filled _ _ _ (failureOf (refused.map (·.2)))
                rw [hfailure]
                exact .bare hcontent haddresses
  | _ => exact hkept (by intro members heq; cases heq) rfl

/-- What is done to one source: its name, what it was, what was asked for it, what is left of it, and
why it is missing if it is. -/
structure Visit where
  name : String
  source : Json
  asked : Log
  left : Json
  failure : Option String

/-- The sources that are missing after the visits. -/
def failures (visits : List Visit) : Dict String :=
  visits.foldr (fun v missing => v.failure.elim missing fun r => Dict.insert v.name r missing) []

/-- **Filling visits the sources in order.** Only addresses of sources without contents are asked
for, and no address behind one that answers. -/
theorem fillAll_visits (importer : Importer (StateM σ)) :
    ∀ (sources : Dict Json) (s : σ) (log : Log),
      ∃ (visits : List Visit) (s' : σ),
        sources = visits.map (fun v => (v.name, v.source))
        ∧ (∀ v ∈ visits, Filled v.source v.asked v.left v.failure)
        ∧ (fillAll (recorded importer) sources).run (s, log)
          = ((visits.map (fun v => (v.name, v.left)), failures visits),
              (s', log ++ visits.flatMap (·.asked)))
  | [], s, log => ⟨[], s, rfl, by simp, by rw [List.flatMap_nil, List.append_nil]; rfl⟩
  | (name, source) :: sources, s, log => by
      obtain ⟨left, reasons, s₁, asked, hfill, hfilled⟩ := fill_filled importer source s log
      obtain ⟨visits, s₂, hsources, hvisits, hrun⟩ :=
        fillAll_visits importer sources s₁ (log ++ asked)
      refine ⟨⟨name, source, asked, left, failureOf reasons⟩ :: visits, s₂, ?_, ?_, ?_⟩
      · rw [List.map_cons, ← hsources]
      · exact List.forall_mem_cons.mpr ⟨hfilled, hvisits⟩
      · rw [fillAll_cons_run, hfill]
        dsimp only
        rw [hrun, List.flatMap_cons, List.append_assoc]
        cases reasons <;> rfl

/-- Filling asks for addresses of sources without contents, and for nothing else. -/
theorem fillAll_log (importer : Importer (StateM σ)) (sources : Dict Json) (s : σ) (log : Log) :
    ∃ more, ((fillAll (recorded importer) sources).run (s, log)).2.2 = log ++ more
      ∧ ∀ e ∈ more, ∃ name members, (name, Json.obj members) ∈ sources ∧
        Dict.contains members "content" = false ∧ e.1 ∈ addresses members := by
  obtain ⟨visits, s', hsources, hvisits, hrun⟩ := fillAll_visits importer sources s log
  refine ⟨visits.flatMap (·.asked), by rw [hrun], ?_⟩
  intro e he
  obtain ⟨v, hv, hasked⟩ := List.mem_flatMap.mp he
  obtain ⟨members, hsource, hcontent, haddress⟩ := (hvisits v hv).mem_addresses hasked
  refine ⟨v.name, members, ?_, hcontent, haddress⟩
  rw [hsources, ← hsource]
  exact List.mem_map.mpr ⟨v, hv, rfl⟩

end SolFront.Import
