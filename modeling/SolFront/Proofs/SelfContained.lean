import SolFront.Proofs.Import.Completion
import SolFront.Proofs.Json.Values
import SolFront.Proofs.MissingUnits

/-!
# Requests that lack nothing

If every source of a request has contents and imports only sources of the request, there is nothing
to complete: no address is tried, every import is known, and the sources end as they began. So it
makes no difference whether there is someone to ask. The compiler program is given the request in
other blanks then, but with the same value, and its output is passed on as it is because no unit is
missing.
-/

namespace SolFront

/-! ## What is complete already -/

namespace Import

/-- Sources that need no others: each has contents of its own, and imports only sources that are
there. -/
structure Whole (sources : Dict Json) : Prop where
  content : ∀ e ∈ sources, ∀ members ∈ e.2.members?, Dict.contains members "content" = true
  imports : ∀ e ∈ sources, ∀ text ∈ contentOf? e.2, ∀ path ∈ scan text,
    Dict.contains sources (unitName e.1 path) = true

instance (sources : Dict Json) : Decidable (Whole sources) :=
  decidable_of_iff
    ((∀ e ∈ sources, ∀ members ∈ e.2.members?, Dict.contains members "content" = true)
      ∧ ∀ e ∈ sources, ∀ text ∈ contentOf? e.2, ∀ path ∈ scan text,
        Dict.contains sources (unitName e.1 path) = true)
    ⟨fun ⟨hcontent, himports⟩ => ⟨hcontent, himports⟩, fun h => ⟨h.content, h.imports⟩⟩

/-- A request whose sources, if it has any, need no others. -/
def SelfContained (request : Json) : Prop :=
  ∀ sources ∈ (request.member? "sources").bind Json.members?, Whole sources

instance (request : Json) : Decidable (SelfContained request) :=
  inferInstanceAs (Decidable (∀ _ ∈ _, _))

variable {m : Type → Type} [Monad m] (importer : Importer m)

theorem fill_of_content {source : Json}
    (h : ∀ members ∈ source.members?, Dict.contains members "content" = true) :
    fill importer source = pure (source, []) := by
  cases source with
  | obj members =>
      unfold fill
      dsimp only
      rw [if_pos (h members rfl)]
  | _ => rfl

theorem Progress.require_of_knows {p : Progress} {unit : String} (h : p.knows unit = true) :
    require importer p unit = pure p := by
  unfold require
  rw [if_pos h]

variable [LawfulMonad m]

theorem fillAll_of_content : ∀ {sources : Dict Json},
    (∀ e ∈ sources, ∀ members ∈ e.2.members?, Dict.contains members "content" = true) →
    fillAll importer sources = pure (sources, [])
  | [], _ => rfl
  | (name, source) :: sources, h => by
      obtain ⟨hsource, hsources⟩ := List.forall_mem_cons.mp h
      rw [fillAll, fill_of_content importer hsource, pure_bind]
      dsimp only
      rw [fillAll_of_content hsources, pure_bind]
      rfl

namespace Progress

theorem foldlM_require_of_knows {p : Progress} : ∀ {units : List String},
    (∀ unit ∈ units, p.knows unit = true) → units.foldlM (require importer) p = pure p
  | [], _ => rfl
  | unit :: units, h => by
      obtain ⟨hunit, hunits⟩ := List.forall_mem_cons.mp h
      rw [List.foldlM_cons, require_of_knows importer hunit, pure_bind,
        foldlM_require_of_knows hunits]

/-- Where every import is known, the sources are only looked through. -/
theorem complete_of_knows {p : Progress} : ∀ {pending : List String} {rounds : Nat},
    pending.length ≤ rounds →
    (∀ name ∈ pending, ∀ unit ∈ p.importsFrom name, p.knows unit = true) →
    complete importer rounds { p with pending := pending } = pure (some { p with pending := [] })
  | [], rounds, _, _ => by
      cases rounds <;> rfl
  | name :: pending, 0, hrounds, _ => absurd hrounds (Nat.not_succ_le_zero _)
  | name :: pending, rounds + 1, hrounds, h => by
      obtain ⟨hname, hpending⟩ := List.forall_mem_cons.mp h
      -- what is pending has no part in what a source imports and what is known
      have hfold : (importsFrom { p with pending := pending } name).foldlM (require importer)
          { p with pending := pending } = pure { p with pending := pending } :=
        foldlM_require_of_knows importer hname
      show ((importsFrom { p with pending := pending } name).foldlM (require importer)
          { p with pending := pending } >>= complete importer rounds) = _
      rw [hfold, pure_bind]
      exact complete_of_knows (Nat.le_of_succ_le_succ hrounds) hpending

end Progress

open Progress (complete_of_knows)

theorem fetchSources_of_whole {sources : Dict Json} (h : Whole sources) (limit : Nat) :
    fetchSources importer limit sources = pure (some (sources, [])) := by
  have hknown : ∀ name ∈ (Dict.keys sources).reverse,
      ∀ unit ∈ (searchFrom sources []).importsFrom name,
        (searchFrom sources []).knows unit = true := by
    intro name _ unit hunit
    unfold Progress.importsFrom at hunit
    cases hsource : (Dict.get? (searchFrom sources []).sources name).bind contentOf? with
    | none =>
        rw [hsource] at hunit
        cases hunit
    | some text =>
        rw [hsource] at hunit
        obtain ⟨path, hpath, rfl⟩ := List.mem_map.mp hunit
        obtain ⟨source, hget, htext⟩ := Option.bind_eq_some_iff.mp hsource
        have himport := h.imports (name, source) (Dict.mem_of_get? hget) text htext path hpath
        exact Bool.or_eq_true_iff.mpr (Or.inl himport)
  have hlength : (Dict.keys sources).reverse.length ≤ sources.length + limit :=
    (length_searchFrom sources []).le.trans (Nat.le_add_right _ _)
  have hcomplete := complete_of_knows importer hlength hknown
  unfold fetchSources
  rw [fillAll_of_content importer h.content, pure_bind]
  dsimp only
  unfold searchFrom at hcomplete
  rw [hcomplete, pure_bind]
  rfl

/-- **A self-contained request is complete as it stands**, and nobody is asked. -/
theorem fetch_of_selfContained {n : Nat} {request : Json} (hcanonical : Json.Canonical n request)
    (h : SelfContained request) (limit : Nat) :
    fetch importer limit request = pure (some (request, [])) := by
  cases hcanonical with
  | @obj _ members hsorted _ =>
      unfold fetch
      dsimp only
      split
      · rename_i sources hsources
        have hwhole : Whole sources :=
          h sources (Option.bind_eq_some_iff.mpr ⟨.obj sources, hsources, rfl⟩)
        rw [fetchSources_of_whole importer hwhole, pure_bind]
        dsimp only [Option.map_some]
        rw [Dict.insert_of_get? hsorted hsources]
      · rfl
  | _ => rfl

end Import

/-! ## The same with and without someone to ask -/

namespace Compiler

open Import (SelfContained)

section

variable {m : Type → Type} [Monad m] [LawfulMonad m]

theorem completed_of_selfContained (importer : Importer m) {request : String} {value : Json}
    (hread : Json.read request = .ok value) (hself : SelfContained value) :
    completed request (some importer) = pure (.ok (value.render false, [])) := by
  unfold completed
  rw [hread]
  dsimp only
  rw [Import.fetch_of_selfContained importer (Json.canonical_of_read hread) hself, pure_bind]

/-- What a compiler program says of an input that lacks nothing. -/
def answerTo (programs : Programs m) (executable input : String) : m (Except String String) := do
  let result ← programs.run ⟨executable, ["--standard-json"], input⟩
  return (Compilation.afterRun [] result).mapError Failure.message

theorem ofProgram_of_completed (programs : Programs m) (executable : String)
    {request input : String} {importer : Option (Importer m)}
    (h : completed request importer = pure (.ok (input, []))) :
    ofProgram programs executable request importer = answerTo programs executable input := by
  unfold ofProgram answer answerTo
  rw [h, pure_bind]
  dsimp only
  rw [bind_assoc]
  refine congrArg (programs.run _ >>= ·) (funext fun result => ?_)
  cases result with
  | error e => rw [pure_bind]; rfl
  | ok outcome => rw [pure_bind]; rfl

theorem ofProgram_without (programs : Programs m) (executable request : String) :
    ofProgram programs executable request none = answerTo programs executable request :=
  ofProgram_of_completed programs executable rfl

/-- A compiler program that goes by the value of its standard input alone. -/
def ReadsValue (programs : Programs m) (executable : String) : Prop :=
  ∀ (input input' : String) (value : Json), Json.read input = .ok value →
    Json.read input' = .ok value →
    programs.run ⟨executable, ["--standard-json"], input⟩
      = programs.run ⟨executable, ["--standard-json"], input'⟩

end

variable {σ : Type}

/-- What is seen of a compilation from outside. -/
inductive Event where
  /-- A unit has been asked for. -/
  | asked (unit : String)
  /-- A program has been run. -/
  | ran (command : Command)
  deriving DecidableEq, Repr

/-- A computation that is noted as an event before whatever comes next. -/
def noted {α : Type} (event : Event) (x : StateM σ α) : StateM (σ × List Event) α := fun t =>
  ((x.run t.1).1, ((x.run t.1).2, t.2 ++ [event]))

/-- The programs with every run noted. -/
def notedPrograms (programs : Programs (StateM σ)) : Programs (StateM (σ × List Event)) where
  run command := noted (.ran command) (programs.run command)
  available name := fun t =>
    (((programs.available name).run t.1).1, (((programs.available name).run t.1).2, t.2))

/-- Who is asked for sources, with every question noted. -/
def notedImporter (importer : Importer (StateM σ)) : Importer (StateM (σ × List Event)) :=
  fun unit => noted (.asked unit) (importer unit)

theorem answerTo_noted (programs : Programs (StateM σ)) (executable input : String) (st : σ) :
    (answerTo (notedPrograms programs) executable input).run (st, [])
      = (((answerTo programs executable input).run st).1,
          (((answerTo programs executable input).run st).2,
            [.ran ⟨executable, ["--standard-json"], input⟩])) := rfl

/-- **A request that lacks nothing is answered as if nobody could be asked.** Nobody is asked, the
program is run once on an input with the same value, and the answer or the failure is the same. -/
theorem ofProgram_selfContained (programs : Programs (StateM σ)) (executable : String)
    (hprogram : ReadsValue programs executable) (importer : Importer (StateM σ))
    {request : String} {value : Json} (hread : Json.read request = .ok value)
    (hintegers : value.Integers) (hself : SelfContained value) (st : σ) :
    ∃ input result st', Json.read input = .ok value
      ∧ (ofProgram programs executable request none).run st = (result, st')
      ∧ (ofProgram (notedPrograms programs) executable request none).run (st, [])
        = (result, (st', [.ran ⟨executable, ["--standard-json"], request⟩]))
      ∧ (ofProgram programs executable request (some importer)).run st = (result, st')
      ∧ (ofProgram (notedPrograms programs) executable request
          (some (notedImporter importer))).run (st, [])
        = (result, (st', [.ran ⟨executable, ["--standard-json"], input⟩])) := by
  have hinput : Json.read (value.render false) = .ok value :=
    Json.read_render_integers (Json.canonical_of_read hread) hintegers false
  have hsame : answerTo programs executable (value.render false)
      = answerTo programs executable request :=
    congrArg (· >>= _) (hprogram _ _ _ hinput hread)
  refine ⟨value.render false, ((answerTo programs executable request).run st).1,
    ((answerTo programs executable request).run st).2, hinput, ?_, ?_, ?_, ?_⟩
  · rw [ofProgram_without]
    rfl
  · rw [ofProgram_without, answerTo_noted]
  · rw [ofProgram_of_completed programs executable
        (completed_of_selfContained importer hread hself), hsame]
    rfl
  · rw [ofProgram_of_completed (notedPrograms programs) executable
        (completed_of_selfContained (notedImporter importer) hread hself), answerTo_noted, hsame]

/-- A compiler program that counts its runs and says in plain words whether there are sources. -/
def glance : Programs (StateM Nat) where
  run command := fun runs =>
    let sources := (Json.read command.input).toOption.bind (Json.member? · "sources")
    (.ok ⟨.code 0, (if sources.isSome then "sources" else "none").toUTF8.toList, []⟩, runs + 1)
  available _ := pure true

theorem readsValue_glance (executable : String) : ReadsValue glance executable := by
  intro input input' value hinput hinput'
  unfold glance
  dsimp only
  rw [hinput, hinput']

theorem answerTo_glance (executable input : String) (runs : Nat) :
    (answerTo glance executable input).run runs
      = let sources := (Json.read input).toOption.bind (Json.member? · "sources")
        (.ok (Text.decodeLenient (if sources.isSome then "sources" else "none").toUTF8.toList),
          runs + 1) := rfl

/-- Someone who knows no source. -/
def clueless : Importer (StateM Nat) := fun _ => pure (.error "unknown")

/-- Two sources that import each other, and two without a text. -/
def mutualSources : Dict Json :=
  [("A.sol", .obj [("content", .str "import './lib/B.sol';")]),
    ("C", .obj [("content", .num (.int 5)), ("urls", .arr [.str "far.sol"])]),
    ("D", .null),
    ("lib/B.sol", .obj [("content", .str "import '../A.sol'; import 'C';")])]

/-- A request with these sources and more blanks than are needed. -/
def spacedRequest : String :=
  "\x7b \"sources\": " ++ (Json.obj mutualSources).render false ++ " \x7d"

/-- The one who knows nothing is not asked, and the words come back as they are. -/
theorem ofProgram_selfContained_mutual :
    ReadsValue glance "solc"
      ∧ Json.read spacedRequest = .ok (.obj [("sources", .obj mutualSources)])
      ∧ (Json.obj [("sources", .obj mutualSources)]).Integers
      ∧ SelfContained (.obj [("sources", .obj mutualSources)])
      ∧ ∃ input, Json.read input = .ok (.obj [("sources", .obj mutualSources)])
        ∧ (ofProgram glance "solc" spacedRequest none).run 0 = (.ok "sources", 1)
        ∧ (ofProgram (notedPrograms glance) "solc" spacedRequest
            (some (notedImporter clueless))).run (0, [])
          = (.ok "sources", (1, [.ran ⟨"solc", ["--standard-json"], input⟩])) := by
  have hread : Json.read spacedRequest = .ok (.obj [("sources", .obj mutualSources)]) :=
    Json.eq_ok_of_toOption (by decide +kernel)
  have hintegers : (Json.obj [("sources", .obj mutualSources)]).Integers := by
    simp [mutualSources]
  have hself : SelfContained (.obj [("sources", .obj mutualSources)]) := by decide +kernel
  have hplain : (ofProgram glance "solc" spacedRequest none).run 0 = (.ok "sources", 1) := by
    rw [ofProgram_without, answerTo_glance, hread]
    exact Prod.ext (Json.eq_ok_of_toOption (by decide +kernel)) rfl
  obtain ⟨input, result, st', hinput, hwithout, -, -, hnoted⟩ :=
    ofProgram_selfContained glance "solc" (readsValue_glance "solc") clueless hread hintegers
      hself 0
  rw [hplain] at hwithout
  cases hwithout
  exact ⟨readsValue_glance "solc", hread, hintegers, hself, input, hinput, hplain, hnoted⟩

/-- A request without sources and with an integer that no 64-bit word holds. -/
def wideInteger : Json := .obj [("a", .num (.int 147573952589676412928))]

/-- **A longer integer may be given to the program as another number**: with someone to ask it is a
float when it is read, and the float that is printed is not the one that is read again. -/
theorem ofProgram_loses_digit :
    ¬ ∀ (document : Json) (programs : Programs (StateM Nat)) (importer : Importer (StateM Nat))
        (input : String), document.Integral → SelfContained document → ReadsValue programs "solc" →
      ((ofProgram (notedPrograms programs) "solc" (document.render false)
          (some (notedImporter importer))).run (0, [])).2.2
        = [.ran ⟨"solc", ["--standard-json"], input⟩] →
      Json.read input = Json.read (document.render false) := by
  intro hall
  have hintegral : wideInteger.Integral := .obj (List.forall_mem_singleton.mpr (.int _))
  have hself : SelfContained wideInteger := by decide +kernel
  have hlog : ((ofProgram (notedPrograms glance) "solc" (wideInteger.render false)
        (some (notedImporter clueless))).run (0, [])).2.2
      = [.ran ⟨"solc", ["--standard-json"], "\x7b\"a\":1.4757395258967641e+20\x7d"⟩] := by
    decide +kernel
  have hdiffers : (Json.read "\x7b\"a\":1.4757395258967641e+20\x7d").toOption
      ≠ (Json.read (wideInteger.render false)).toOption := by decide +kernel
  have hsame := hall wideInteger glance clueless _ hintegral hself (readsValue_glance "solc") hlog
  exact hdiffers (congrArg Except.toOption hsame)

end Compiler

end SolFront
