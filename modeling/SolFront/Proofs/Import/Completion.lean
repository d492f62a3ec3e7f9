import SolFront.Proofs.Import.Account
import SolFront.Proofs.Import.Filling

/-!
# Completed requests

The two sides of a completion: what it asks, and what it ends with.

Whoever is asked, even if the answers change from one question to the next, no unit is asked for
twice, every answer is kept, and every import of every source is a source or known to be missing.

Where the answers are fixed, the completion computes a closure: its sources and missing units are
those that the sources reach through imports, in whatever order they are looked at. If only finitely
many units can be provided, there is a number of rounds that is enough.
-/

namespace SolFront.Import

open Progress (Account Explored account_start account_pending complete_account complete_ends
  knows_eq_false_iff knows_iff)

variable {ρ σ : Type}

/-! ## From filled sources on -/

/-- Where the search for imports begins: every source is pending. -/
def searchFrom (filled : Dict Json) (failed : Dict String) : Progress :=
  ⟨filled, failed, (Dict.keys filled).reverse⟩

theorem length_searchFrom (filled : Dict Json) (failed : Dict String) :
    (searchFrom filled failed).pending.length = filled.length := by
  show (Dict.keys filled).reverse.length = _
  rw [List.length_reverse]
  exact List.length_map _

theorem explored_searchFrom (filled : Dict Json) (failed : Dict String) :
    Explored (searchFrom filled failed) := by
  intro name text h
  obtain ⟨source, hsource, _⟩ := Option.bind_eq_some_iff.mp h
  refine Or.inl (List.mem_reverse.mpr ?_)
  exact Dict.contains_iff_mem_keys.mp (Dict.contains_iff.mpr ⟨source, hsource⟩)

/-- A completion fills the sources and searches them for imports. -/
theorem fetch_run (importer : Importer (StateM ρ)) (limit : Nat) {members sources : Dict Json}
    (hs : Dict.get? members "sources" = some (.obj sources)) {s s₁ : ρ} {filled : Dict Json}
    {failed : Dict String} (hfill : (fillAll importer sources).run s = ((filled, failed), s₁)) :
    (fetch importer limit (.obj members)).run s
      = let r := (Progress.complete importer (filled.length + limit)
          (searchFrom filled failed)).run s₁
        (r.1.map fun p => (.obj (Dict.insert "sources" (.obj p.sources) members), p.missing),
          r.2) := by
  unfold fetch fetchSources
  dsimp only
  rw [hs]
  dsimp only
  rw [run_then, run_then, hfill]
  show ((Option.map _ (Option.map _ _), _) : _ × _) = _
  rw [Option.map_map]
  rfl

/-- A request without sources is complete as it stands. -/
theorem fetch_without_sources (importer : Importer (StateM ρ)) (limit : Nat) {request : Json}
    (hnone : ∀ sources, request.member? "sources" ≠ some (.obj sources)) (s : ρ) :
    (fetch importer limit request).run s = (some (request, []), s) := by
  cases request with
  | obj members =>
      unfold fetch
      dsimp only
      split
      · rename_i sources hsources
        exact absurd hsources (hnone sources)
      · rfl
  | _ => rfl

/-! ### Where the search has come to -/

section

variable {importer : Importer (StateM σ)} {sources filled : Dict Json} {failed : Dict String}
  {log : Log} {q : Progress}

/-- A source of the request stays what it is, and missing or not as it was. -/
theorem get?_of_filled (h : Account importer (searchFrom filled failed) log q) {name : String}
    (hname : Dict.contains filled name = true) :
    Dict.get? q.sources name = Dict.get? filled name ∧
      Dict.get? q.missing name = Dict.get? failed name := by
  have hlog : Dict.get? log name = none := by
    refine get?_eq_none_iff.mpr fun hmem => ?_
    have hunknown := (knows_eq_false_iff.mp (h.unknown name hmem)).1
    rw [Dict.contains_iff] at hname
    obtain ⟨source, hsource⟩ := hname
    rw [show Dict.get? filled name = none from hunknown] at hsource
    cases hsource
  rw [h.sources, h.missing, sourceAfter, reasonAfter, hlog]
  exact ⟨Option.or_none, Option.or_none⟩

/-- Of any other unit the record decides. -/
theorem get?_of_not_filled (hf : FilledFrom sources filled failed)
    (h : Account importer (searchFrom filled failed) log q) {unit : String}
    (hunit : Dict.contains filled unit = false) :
    Dict.get? q.sources unit = (Dict.get? log unit).bind ImportAnswer.source? ∧
      Dict.get? q.missing unit = (Dict.get? log unit).bind ImportAnswer.reason? := by
  have hfilled : Dict.get? filled unit = none := Dict.contains_eq_false_iff.mp hunit
  have hfailed : Dict.get? failed unit = none := by
    cases hr : Dict.get? failed unit with
    | none => rfl
    | some reason =>
        obtain ⟨members, hsource, _⟩ := hf.bare hr
        rw [hfilled] at hsource
        cases hsource
  rw [h.sources, h.missing, sourceAfter, reasonAfter]
  exact ⟨by rw [show Dict.get? (searchFrom filled failed).sources unit = none from hfilled]; rfl,
    by rw [show Dict.get? (searchFrom filled failed).missing unit = none from hfailed]; rfl⟩

theorem not_filled_of_asked (h : Account importer (searchFrom filled failed) log q)
    {unit : String} (hunit : unit ∈ Dict.keys log) : Dict.contains filled unit = false :=
  Dict.contains_eq_false_iff.mpr (knows_eq_false_iff.mp (h.unknown unit hunit)).1

theorem mem_keys_of_mem {unit : String} {answer : ImportAnswer} (h : (unit, answer) ∈ log) :
    unit ∈ Dict.keys log :=
  List.mem_map_of_mem h

end

theorem mem_importsOf {name text unit : String} :
    unit ∈ importsOf name text ↔ ∃ path ∈ scan text, unit = unitName name path := by
  simp [importsOf, eq_comm]

/-! ## What is asked -/

/-- The record of a completion in its two parts, and what has become of the answers. `filled` are
the sources between the two parts. -/
structure Transcript (sources filled final : Dict Json) (missing : Dict String)
    (addressed imported : Log) : Prop where
  /-- First the addresses of sources without contents are asked for. -/
  addresses : ∀ e ∈ addressed, ∃ name source, (name, Json.obj source) ∈ sources ∧
    Dict.contains source "content" = false ∧ e.1 ∈ addresses source
  /-- No unit is asked for twice. -/
  distinct : (Dict.keys imported).Nodup
  /-- No source of the request is asked for. -/
  unknown : ∀ unit ∈ Dict.keys imported, Dict.contains sources unit = false
  /-- Each unit is imported by a unit that is among the sources by then, with a text. -/
  wanted : ∀ before e after, imported = before ++ e :: after →
    ∃ name text path, (sourceAfter filled before name).bind contentOf? = some text ∧
      path ∈ scan text ∧ e.1 = unitName name path
  /-- A unit that is provided is a source with the text that was answered, and not missing. -/
  provided : ∀ unit text, (unit, .contents text) ∈ imported →
    Dict.get? final unit = some (.obj [("content", .str text)]) ∧
      Dict.contains missing unit = false
  /-- A unit that is refused is missing with the reason that was answered, and no source. -/
  refused : ∀ unit reason, (unit, .error reason) ∈ imported →
    Dict.get? missing unit = some reason ∧ Dict.contains final unit = false
  /-- Nothing that is missing has contents. -/
  bare : ∀ name source, Dict.contains missing name = true → Dict.get? final name = some source →
    source.member? "content" = none
  /-- All that a source imports is a source or missing. -/
  closed : ∀ name text path, (Dict.get? final name).bind contentOf? = some text →
    path ∈ scan text → Dict.contains final (unitName name path) = true ∨
      Dict.contains missing (unitName name path) = true

/-- The account of a search that has ended is the second part of a transcript. -/
theorem transcript_of_account {importer : Importer (StateM σ)} {sources filled : Dict Json}
    {failed : Dict String} {addressed imported : Log} {q : Progress}
    (hf : FilledFrom sources filled failed)
    (haddressed : ∀ e ∈ addressed, ∃ name source, (name, Json.obj source) ∈ sources ∧
      Dict.contains source "content" = false ∧ e.1 ∈ addresses source)
    (h : Account importer (searchFrom filled failed) imported q) (hexp : Explored q)
    (hpend : q.pending = []) :
    Transcript sources filled q.sources q.missing addressed imported where
  addresses := haddressed
  distinct := h.distinct
  unknown := by
    intro unit hunit
    rw [← hf.names]
    exact not_filled_of_asked h hunit
  wanted := by
    intro before e after heq
    obtain ⟨name, text, htext, himp⟩ := h.wanted before e after heq
    obtain ⟨path, hpath, hunit⟩ := mem_importsOf.mp himp
    exact ⟨name, text, path, htext, hpath, hunit⟩
  provided := by
    intro unit text hmem
    obtain ⟨hsource, hmissing⟩ :=
      get?_of_not_filled hf h (not_filled_of_asked h (mem_keys_of_mem hmem))
    rw [Dict.get?_of_mem h.distinct hmem] at hsource hmissing
    exact ⟨hsource, Dict.contains_eq_false_iff.mpr hmissing⟩
  refused := by
    intro unit reason hmem
    obtain ⟨hsource, hmissing⟩ :=
      get?_of_not_filled hf h (not_filled_of_asked h (mem_keys_of_mem hmem))
    rw [Dict.get?_of_mem h.distinct hmem] at hsource hmissing
    exact ⟨hmissing, Dict.contains_eq_false_iff.mpr hsource⟩
  bare := by
    intro name source hmissing hsource
    obtain ⟨reason, hreason⟩ := Dict.contains_iff.mp hmissing
    cases hname : Dict.contains filled name with
    | true =>
        -- missing since the filling, and left as it was then
        obtain ⟨hs, hm⟩ := get?_of_filled h hname
        obtain ⟨members, hmembers, hbare⟩ := hf.bare (hm ▸ hreason)
        rw [hs, hmembers] at hsource
        cases hsource
        exact Dict.contains_eq_false_iff.mp hbare
    | false =>
        -- refused, and then it is no source
        obtain ⟨hs, hm⟩ := get?_of_not_filled hf h hname
        rw [hs] at hsource
        rw [hm] at hreason
        cases hlog : Dict.get? imported name with
        | none =>
            rw [hlog] at hsource
            cases hsource
        | some answer =>
            rw [hlog] at hsource hreason
            cases answer with
            | contents text => cases hreason
            | error reason => cases hsource
  closed := by
    intro name text path htext hpath
    have himp : unitName name path ∈ importsOf name text := mem_importsOf.mpr ⟨path, hpath, rfl⟩
    rcases hexp name text htext with hmem | hknown
    · rw [hpend] at hmem
      cases hmem
    · exact knows_iff.mp (hknown _ himp)

/-- **A completion that ends asks for no unit twice, keeps every answer, and leaves no import
unaccounted for**, even if the importer's answers change from one question to the next. -/
theorem fetch_transcript (importer : Importer (StateM σ)) (limit : Nat)
    {members sources : Dict Json} (hs : Dict.get? members "sources" = some (.obj sources))
    (hsorted : sources.Sorted) {s s' : σ} {request : Json} {missing : Dict String}
    (hrun : (fetch importer limit (.obj members)).run s = (some (request, missing), s')) :
    ∃ filled failed final s₁ addressed imported,
      (fillAll (recorded importer) sources).run (s, []) = ((filled, failed), (s₁, addressed))
      ∧ (fetch (recorded importer) limit (.obj members)).run (s, [])
        = (some (request, missing), (s', addressed ++ imported))
      ∧ request = .obj (Dict.insert "sources" (.obj final) members)
      ∧ Transcript sources filled final missing addressed imported := by
  -- the same run under a record, cut between the addresses and the imports
  obtain ⟨log, hlog⟩ := fetch_recorded importer limit (.obj members) s
  rw [hrun] at hlog
  rcases hfill : (fillAll (recorded importer) sources).run (s, [])
    with ⟨⟨filled, failed⟩, ⟨s₁, addressed⟩⟩
  rcases hc : (Progress.complete (recorded importer) (filled.length + limit)
    (searchFrom filled failed)).run (s₁, []) with ⟨result, ⟨s₂, imported⟩⟩
  have hfetch := fetch_run (recorded importer) limit hs hfill
  -- the second part begins a record of its own
  rw [complete_behind, hc] at hfetch
  rw [hlog] at hfetch
  cases result with
  | none => cases hfetch
  | some q =>
      cases hfetch
      have hf := filledFrom_fillAll (recorded importer) hsorted hfill
      obtain ⟨more, hmore, haddressed⟩ := fillAll_log importer sources s []
      rw [hfill, List.nil_append] at hmore
      have hmore : addressed = more := hmore
      obtain ⟨hq, hexp, hpend⟩ := complete_account _
        (account_start importer hf.sorted hf.failed_sorted) (explored_searchFrom filled failed) hc
      exact ⟨filled, failed, q.sources, s₁, addressed, imported, rfl, hlog, rfl,
        transcript_of_account hf (hmore ▸ haddressed) hq hexp hpend⟩

/-- An importer that provides the first unit it is asked for and refuses all others. -/
def onceOnly : Importer (StateM Nat) := fun unit count =>
  (if count = 0 then .contents "import \"C.sol\"; import \"./B.sol\";"
    else .error (unit ++ " is refused"), count + 1)

/-- A request with a source that imports two units. -/
def twoImports : Dict Json :=
  [("Main.sol", .obj [("content", .str "import \"A.sol\"; import \"B.sol\";")])]

/-- The sources of that request when its first import is provided. -/
def twoImportsProvided : Dict Json :=
  ("A.sol", .obj [("content", .str "import \"C.sol\"; import \"./B.sol\";")]) :: twoImports

/-- Three questions, of which the first is answered with a text. -/
theorem fetch_transcript_onceOnly :
    ∃ filled failed final s₁ addressed imported,
      (fillAll (recorded onceOnly) twoImports).run (0, []) = ((filled, failed), (s₁, addressed))
      ∧ (fetch (recorded onceOnly) 1 (.obj [("sources", .obj twoImports)])).run (0, [])
        = (some (.obj [("sources", .obj twoImportsProvided)],
            [("B.sol", "B.sol is refused"), ("C.sol", "C.sol is refused")]),
          (3, addressed ++ imported))
      ∧ Json.obj [("sources", .obj twoImportsProvided)]
        = .obj (Dict.insert "sources" (.obj final) [("sources", .obj twoImports)])
      ∧ Transcript twoImports filled final
        [("B.sol", "B.sol is refused"), ("C.sol", "C.sol is refused")] addressed imported := by
  have hrun : Id.run ((fetch onceOnly 1 (.obj [("sources", .obj twoImports)])).run 0)
      = (some (.obj [("sources", .obj twoImportsProvided)],
        [("B.sol", "B.sol is refused"), ("C.sol", "C.sol is refused")]), 3) := by
    decide +kernel
  exact fetch_transcript onceOnly 1 rfl (List.pairwise_singleton _ _) hrun

/-! ## What is reached -/

/-- The text of a unit: that of its source, or, if it has none, the text that is answered. -/
def textOf? (sources : Dict Json) (answers : String → ImportAnswer) (unit : String) :
    Option String :=
  match Dict.get? sources unit, answers unit with
  | some source, _ => contentOf? source
  | none, .contents text => some text
  | none, .error _ => none

/-- A unit is reached if it is a source or if a text that is reached imports it. -/
inductive Reached (sources : Dict Json) (answers : String → ImportAnswer) : String → Prop where
  | source {unit : String} :
      Dict.contains sources unit = true → Reached sources answers unit
  | imported {name text path : String} :
      Reached sources answers name → textOf? sources answers name = some text →
      path ∈ scan text → Reached sources answers (unitName name path)

/-- The sources and missing units that a request ends with if it is closed under imports and has
nothing beyond that. -/
structure ImportClosure (answers : String → ImportAnswer) (filled : Dict Json)
    (failed : Dict String) (final : Dict Json) (missing : Dict String) : Prop where
  /-- The sources are in order. -/
  sources_sorted : final.Sorted
  /-- The missing units are in order. -/
  missing_sorted : missing.Sorted
  /-- The sources are those there were and all other units that are reached and provided. -/
  sources : ∀ unit source, Dict.get? final unit = some source ↔
    Dict.get? filled unit = some source ∨
      (Reached filled answers unit ∧ Dict.contains filled unit = false ∧
        ∃ text, answers unit = .contents text ∧ source = .obj [("content", .str text)])
  /-- Missing are those that were and all other units that are reached and refused. -/
  missing : ∀ unit reason, Dict.get? missing unit = some reason ↔
    Dict.get? failed unit = some reason ∨
      (Reached filled answers unit ∧ Dict.contains filled unit = false ∧
        answers unit = .error reason)

section

variable {answers : String → ImportAnswer} {sources filled : Dict Json} {failed : Dict String}
  {log : Log} {q : Progress}

theorem textOf?_of_filled {name : String} {source : Json}
    (h : Dict.get? filled name = some source) :
    textOf? filled answers name = contentOf? source := by
  unfold textOf?
  rw [h]

theorem textOf?_of_not_filled {name text : String} (h : Dict.get? filled name = none)
    (ha : answers name = .contents text) : textOf? filled answers name = some text := by
  unfold textOf?
  rw [h, ha]

theorem answer_of_mem (h : Account (steady answers) (searchFrom filled failed) log q)
    {unit : String} {answer : ImportAnswer} (hmem : (unit, answer) ∈ log) :
    answers unit = answer := by
  obtain ⟨_, hanswer⟩ := h.answered _ hmem
  exact hanswer

/-- Only what is reached is asked for: by induction on the questions before. -/
theorem reached_of_asked (h : Account (steady answers) (searchFrom filled failed) log q) :
    ∀ (k : Nat) (before : Log) (e : String × ImportAnswer) (after : Log),
      before.length = k → log = before ++ e :: after → Reached filled answers e.1 := by
  intro k
  induction k using Nat.strongRecOn with
  | ind k ih =>
      intro before e after hk heq
      obtain ⟨name, text, htext, himp⟩ := h.wanted before e after heq
      obtain ⟨path, hpath, hunit⟩ := mem_importsOf.mp himp
      rw [hunit]
      obtain ⟨source, hsource, hcontent⟩ := Option.bind_eq_some_iff.mp htext
      change sourceAfter filled before name = some source at hsource
      rcases Option.or_eq_some_iff.mp hsource with hold | ⟨hnone, hnew⟩
      · -- imported by a source of the request
        have hname : Reached filled answers name :=
          .source (Dict.contains_iff.mpr ⟨source, hold⟩)
        refine .imported hname ?_ hpath
        rw [textOf?_of_filled hold]
        exact hcontent
      · -- imported by a unit that was provided before
        obtain ⟨answer, hanswer, hgives⟩ := Option.bind_eq_some_iff.mp hnew
        obtain ⟨front, back, hbefore⟩ := List.append_of_mem (Dict.mem_of_get? hanswer)
        have hlog : log = front ++ (name, answer) :: (back ++ e :: after) := by
          rw [heq, hbefore, List.append_assoc, List.cons_append]
        have hlt : front.length < k := by
          rw [← hk, hbefore, List.length_append, List.length_cons]
          omega
        have hname := ih front.length hlt front (name, answer) _ rfl hlog
        refine .imported hname ?_ hpath
        have hans : answers name = answer :=
          answer_of_mem h (hlog ▸ List.mem_append_right _ List.mem_cons_self)
        cases answer with
        | error reason => cases hgives
        | contents text' =>
            rw [textOf?_of_not_filled hnone hans]
            cases hgives
            exact hcontent

/-- A unit that is no source of the request and is known has been asked for. -/
theorem asked_of_knows (hf : FilledFrom sources filled failed)
    (h : Account (steady answers) (searchFrom filled failed) log q) {unit : String}
    (hunit : Dict.contains filled unit = false) (hk : q.knows unit = true) :
    Dict.get? log unit = some (answers unit) := by
  obtain ⟨hsource, hmissing⟩ := get?_of_not_filled hf h hunit
  cases hlog : Dict.get? log unit with
  | some answer => rw [answer_of_mem h (Dict.mem_of_get? hlog)]
  | none =>
      rw [hlog] at hsource hmissing
      rw [Progress.knows, Dict.contains_eq_false_iff.mpr hsource,
        Dict.contains_eq_false_iff.mpr hmissing] at hk
      cases hk

/-- All that is reached is known once nothing is pending: by induction on how it is reached. -/
theorem knows_of_reached (hf : FilledFrom sources filled failed)
    (h : Account (steady answers) (searchFrom filled failed) log q) (hexp : Explored q)
    (hpend : q.pending = []) {unit : String} (hr : Reached filled answers unit) :
    q.knows unit = true := by
  induction hr with
  | source hunit =>
      obtain ⟨source, hsource⟩ := Dict.contains_iff.mp hunit
      refine knows_iff.mpr (Or.inl (Dict.contains_iff.mpr ⟨source, ?_⟩))
      rw [(get?_of_filled h hunit).1]
      exact hsource
  | @imported name text path _ htext hpath ih =>
      -- the importing unit is a source of the request or was provided, with the same text
      have hq : (Dict.get? q.sources name).bind contentOf? = some text := by
        cases hname : Dict.contains filled name with
        | true =>
            obtain ⟨source, hsource⟩ := Dict.contains_iff.mp hname
            rw [(get?_of_filled h hname).1, hsource]
            rw [textOf?_of_filled hsource] at htext
            exact htext
        | false =>
            have hlog := asked_of_knows hf h hname ih
            rw [(get?_of_not_filled hf h hname).1, hlog]
            unfold textOf? at htext
            rw [Dict.contains_eq_false_iff.mp hname] at htext
            cases ha : answers name with
            | contents text' =>
                rw [ha] at htext
                exact htext
            | error reason =>
                rw [ha] at htext
                cases htext
      rcases hexp name text hq with hmem | hknown
      · rw [hpend] at hmem
        cases hmem
      · exact hknown _ (mem_importsOf.mpr ⟨path, hpath, rfl⟩)

/-- **The record of a search that has ended is what is reached beyond the sources.** -/
theorem get?_log_iff (hf : FilledFrom sources filled failed)
    (h : Account (steady answers) (searchFrom filled failed) log q) (hexp : Explored q)
    (hpend : q.pending = []) (unit : String) (answer : ImportAnswer) :
    Dict.get? log unit = some answer ↔
      Reached filled answers unit ∧ Dict.contains filled unit = false ∧
        answers unit = answer := by
  constructor
  · -- nothing else is asked for
    intro hlog
    have hmem := Dict.mem_of_get? hlog
    obtain ⟨before, after, heq⟩ := List.append_of_mem hmem
    exact ⟨reached_of_asked h _ before _ after rfl heq,
      not_filled_of_asked h (mem_keys_of_mem hmem), answer_of_mem h hmem⟩
  · -- nothing is left out
    rintro ⟨hr, hunit, hanswer⟩
    rw [← hanswer]
    exact asked_of_knows hf h hunit (knows_of_reached hf h hexp hpend hr)

/-- What is found at a unit in the end, if its source or its reason is told from the answer by
`f`. -/
theorem bind_log_iff {α : Type} {f : ImportAnswer → Option α}
    (hf : FilledFrom sources filled failed)
    (h : Account (steady answers) (searchFrom filled failed) log q) (hexp : Explored q)
    (hpend : q.pending = []) (unit : String) (value : α) :
    (Dict.get? log unit).bind f = some value ↔
      Reached filled answers unit ∧ Dict.contains filled unit = false ∧
        f (answers unit) = some value := by
  rw [Option.bind_eq_some_iff]
  constructor
  · rintro ⟨answer, hlog, hvalue⟩
    obtain ⟨hr, hunit, hanswer⟩ := (get?_log_iff hf h hexp hpend unit answer).mp hlog
    exact ⟨hr, hunit, hanswer ▸ hvalue⟩
  · rintro ⟨hr, hunit, hvalue⟩
    exact ⟨answers unit, (get?_log_iff hf h hexp hpend unit _).mpr ⟨hr, hunit, rfl⟩, hvalue⟩

theorem get?_sources_iff (hf : FilledFrom sources filled failed)
    (h : Account (steady answers) (searchFrom filled failed) log q) (hexp : Explored q)
    (hpend : q.pending = []) (unit : String) (source : Json) :
    Dict.get? q.sources unit = some source ↔
      Dict.get? filled unit = some source ∨
        (Reached filled answers unit ∧ Dict.contains filled unit = false ∧
          (answers unit).source? = some source) := by
  cases hunit : Dict.contains filled unit with
  | true =>
      rw [(get?_of_filled h hunit).1]
      simp
  | false =>
      rw [(get?_of_not_filled hf h hunit).1, bind_log_iff hf h hexp hpend, hunit,
        Dict.contains_eq_false_iff.mp hunit]
      simp

theorem get?_missing_iff (hf : FilledFrom sources filled failed)
    (h : Account (steady answers) (searchFrom filled failed) log q) (hexp : Explored q)
    (hpend : q.pending = []) (unit : String) (reason : String) :
    Dict.get? q.missing unit = some reason ↔
      Dict.get? failed unit = some reason ∨
        (Reached filled answers unit ∧ Dict.contains filled unit = false ∧
          (answers unit).reason? = some reason) := by
  cases hunit : Dict.contains filled unit with
  | true =>
      rw [(get?_of_filled h hunit).2]
      simp
  | false =>
      have hfailed : Dict.get? failed unit ≠ some reason := by
        intro hr
        obtain ⟨members, hsource, _⟩ := hf.bare hr
        rw [Dict.contains_eq_false_iff.mp hunit] at hsource
        cases hsource
      rw [(get?_of_not_filled hf h hunit).2, bind_log_iff hf h hexp hpend, hunit]
      simp [hfailed]

end

/-- The run of a completion with fixed answers, under a record. -/
theorem fetch_steady_run (answers : String → ImportAnswer) (limit : Nat)
    {members sources filled : Dict Json} {failed : Dict String}
    (hs : Dict.get? members "sources" = some (.obj sources))
    (hfill : Id.run (fillAll answers sources) = (filled, failed)) :
    ∃ addressed, (fillAll (recorded (steady answers)) sources).run ((), [])
        = ((filled, failed), ((), addressed))
      ∧ Id.run (fetch answers limit (.obj members))
        = ((Progress.complete (recorded (steady answers)) (filled.length + limit)
            (searchFrom filled failed)).run ((), [])).1.map fun p =>
              (.obj (Dict.insert "sources" (.obj p.sources) members), p.missing) := by
  have hanswers : ∀ unit, (besideState Unit).alike (m := Id) (answers unit)
      (steady answers unit) := fun _ _ => rfl
  have hsteady := fillAll_alike (besideState Unit) hanswers sources ()
  obtain ⟨addressed, hfilled⟩ :=
    fillAll_alike (underRecord Unit) (recorded_alike (steady answers)) sources () []
  rw [hsteady] at hfilled
  obtain ⟨log, hfetch⟩ := fetch_recorded (steady answers) limit (.obj members) ()
  rw [fetch_steady] at hfetch
  have hfilled' : (fillAll (recorded (steady answers)) sources).run ((), [])
      = ((filled, failed), ((), addressed)) := by
    rw [hfilled, ← hfill]
    rfl
  refine ⟨addressed, hfilled', ?_⟩
  rw [fetch_run (recorded (steady answers)) limit hs hfilled'] at hfetch
  dsimp only at hfetch
  rw [complete_behind] at hfetch
  exact (congrArg Prod.fst hfetch).symm

/-- **Where the answers are fixed, a completion computes a closure**, and it ends if its limit is no
less than the number of units that can be provided at all. -/
theorem fetch_closure (answers : String → ImportAnswer) {offered : Finset String}
    (hoff : ∀ unit text, answers unit = .contents text → unit ∈ offered) {limit : Nat}
    (hlimit : offered.card ≤ limit) {members sources : Dict Json}
    (hs : Dict.get? members "sources" = some (.obj sources)) (hsorted : sources.Sorted) :
    ∃ filled failed final missing,
      Id.run (fillAll answers sources) = (filled, failed)
      ∧ Id.run (fetch answers limit (.obj members))
        = some (.obj (Dict.insert "sources" (.obj final) members), missing)
      ∧ ImportClosure answers filled failed final missing := by
  rcases hfill : Id.run (fillAll answers sources) with ⟨filled, failed⟩
  obtain ⟨addressed, hfilled, hfetch⟩ := fetch_steady_run answers limit hs hfill
  have hf := filledFrom_fillAll (recorded (steady answers)) hsorted hfilled
  have hstart : Account (steady answers) (searchFrom filled failed) []
      (searchFrom filled failed) :=
    account_start (steady answers) hf.sorted hf.failed_sorted
  have hexp₀ := explored_searchFrom filled failed
  -- every source is pending at the start, and nothing has been provided yet
  have hbound : (searchFrom filled failed).pending.length + offered.card
      ≤ filled.length + limit + (supplied []).length := by
    rw [length_searchFrom]
    omega
  obtain ⟨q, s', log, hrun⟩ :=
    complete_ends (fun unit _ text => hoff unit text) _ () hstart hexp₀ hbound
  obtain ⟨hq, hexp, hpend⟩ := complete_account _ hstart hexp₀ hrun
  rw [hrun] at hfetch
  refine ⟨filled, failed, q.sources, q.missing, rfl, hfetch, hq.sources_sorted,
    hq.missing_sorted, ?_, ?_⟩
  · intro unit source
    rw [get?_sources_iff hf hq hexp hpend, ImportAnswer.source?_eq_some_iff]
  · intro unit reason
    rw [get?_missing_iff hf hq hexp hpend, ImportAnswer.reason?_eq_some_iff]

/-- Answers that provide one unit, which imports its importer, itself and a unit that is refused. -/
def tangle (unit : String) : ImportAnswer :=
  if unit = "lib/A.sol" then
    .contents "import \"/Main.sol\"; import \"./A.sol\"; import \"../B.sol\";"
  else .error (unit ++ " is missing")

/-- A request with one source, which imports a unit that is provided and one that is refused. -/
def tangled : Dict Json :=
  [("/Main.sol", .obj [("content", .str "import \"lib/A.sol\"; import 'B.sol';")])]

/-- A cycle, a unit that imports itself and a missing unit that is imported twice. -/
theorem fetch_closure_tangled :
    (∀ unit text, tangle unit = .contents text → unit ∈ ({"lib/A.sol"} : Finset String))
    ∧ tangled.Sorted
    ∧ ∃ filled failed final missing,
      Id.run (fillAll tangle tangled) = (filled, failed)
      ∧ Id.run (fetch tangle 1 (.obj [("sources", .obj tangled)]))
        = some (.obj (Dict.insert "sources" (.obj final) [("sources", .obj tangled)]), missing)
      ∧ ImportClosure tangle filled failed final missing := by
  have hoff : ∀ unit text, tangle unit = .contents text →
      unit ∈ ({"lib/A.sol"} : Finset String) := by
    intro unit text h
    unfold tangle at h
    split at h
    · rename_i heq
      exact Finset.mem_singleton.mpr heq
    · cases h
  have hsorted : tangled.Sorted := List.pairwise_singleton _ _
  exact ⟨hoff, hsorted, fetch_closure tangle hoff (Nat.le_refl 1) rfl hsorted⟩

end SolFront.Import
