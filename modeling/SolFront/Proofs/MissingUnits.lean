import SolFront.Compilation
import SolFront.Proofs.Import.Filling
import SolFront.Proofs.Import.Report
import SolFront.Proofs.Request
import SolFront.Proofs.Response
import SolFront.Proofs.Utf8

/-!
# Missing units fail a compilation

A unit that the search path cannot provide is an error of the compilation, whatever the compiler
says about it: the report of the missing units has an error for each of them, and the report is what
is read as the answer. All that is asked of the compiler is that it does not tell a missing source
by a warning.
-/

namespace SolFront.Compilation

open Import (Explains Tells)

variable {σ : Type}

/-! ## Reading the report -/

/-- The answer is an object, its diagnostics are a list if there are any, and no warning among them
starts like a message about a missing source. -/
def NoSourceWarnings (answer : String) : Prop :=
  ∃ members, Json.read answer = .ok (.obj members)
    ∧ ∃ diagnostics, (Dict.get? members "errors" = some (.arr diagnostics)
        ∨ Dict.get? members "errors" = none ∧ diagnostics = [])
      ∧ ∀ d ∈ diagnostics, d.member? "severity" = some (.str "warning") →
        ∀ text, d.member? "message" = some (.str text) →
          Text.startsWith "Source \"".toList text.toList = false

theorem startsWith_source {unit text : String}
    (h : Text.startsWith (Diagnostic.notFoundStart unit).toList text.toList = true) :
    Text.startsWith "Source \"".toList text.toList = true := by
  unfold Text.startsWith at h ⊢
  rw [List.isPrefixOf_iff_prefix] at h ⊢
  refine List.IsPrefix.trans ?_ h
  unfold Diagnostic.notFoundStart
  rw [String.toList_append, String.toList_append, List.append_assoc]
  exact List.prefix_append _ _

theorem mem_of_mapM {α β : Type} {f : α → Option β} {xs : List α} {ys : List β}
    (h : xs.mapM f = some ys) {x : α} (hx : x ∈ xs) : ∃ y ∈ ys, f x = some y := by
  induction xs generalizing ys with
  | nil => cases hx
  | cons x' xs ih =>
      rw [List.mapM_cons] at h
      obtain ⟨y, hy, h⟩ := Option.bind_eq_some_iff.mp h
      obtain ⟨ys', hys, h⟩ := Option.bind_eq_some_iff.mp h
      cases h
      rcases List.mem_cons.mp hx with rfl | hx
      · exact ⟨y, List.mem_cons_self, hy⟩
      · obtain ⟨z, hz, hfx⟩ := ih hys hx
        exact ⟨z, List.mem_cons_of_mem y hz, hfx⟩

/-- **A diagnostic that explains a missing unit is an error** with the reason in its message. -/
theorem error_of_explains {diagnostics : List Json} {unit reason : String} {item : Json} {n : Nat}
    {d : Diagnostic} (h : Explains diagnostics unit reason item)
    (hwarnings : ∀ d ∈ diagnostics, d.member? "severity" = some (.str "warning") →
      ∀ text, d.member? "message" = some (.str text) →
        Text.startsWith "Source \"".toList text.toList = false)
    (hread : Json.decode (Diagnostic.reader n) item = some d) :
    d.message = Diagnostic.notFoundStart unit ++ reason ∧ d.isWarning = false := by
  cases h with
  | added =>
      refine ⟨Diagnostic.message_of_decode hread rfl, ?_⟩
      rw [Bool.eq_false_iff]
      intro hwarning
      have hseverity : some (Json.str "error") = some (Json.str "warning") :=
        Diagnostic.severity_of_decode hread hwarning
      exact absurd hseverity (by decide)
  | @reworded members reworded hmem htells hmessage hseverity =>
      refine ⟨Diagnostic.message_of_decode hread hmessage, ?_⟩
      rw [Bool.eq_false_iff]
      intro hwarning
      obtain ⟨text, htext, hstarts⟩ := htells
      have hsame := hseverity.symm.trans (Diagnostic.severity_of_decode hread hwarning)
      have hfalse := hwarnings _ hmem hsame text htext
      rw [startsWith_source hstarts] at hfalse
      cases hfalse

/-- The response tells of every missing unit, by an error with the reason. -/
structure TellsMissing (missing : Dict String) (response : Response) : Prop where
  hasErrors : response.hasErrors = true
  told : ∀ unit reason, Dict.get? missing unit = some reason →
    ∃ d ∈ response.diagnostics,
      d.message = "Source \"" ++ unit ++ "\" not found: " ++ reason

theorem report_obj {missing : Dict String} {members : Dict Json} {diagnostics : List Json}
    (h : Dict.get? members "errors" = some (.arr diagnostics)
      ∨ Dict.get? members "errors" = none ∧ diagnostics = []) :
    Import.report missing (.obj members)
      = .obj (Dict.insert "errors" (.arr (Import.reportIn missing diagnostics)) members) := by
  have hget : (Dict.get? members "errors").getD (.arr []) = .arr diagnostics := by
    rcases h with h | ⟨h, rfl⟩ <;> rw [h] <;> rfl
  unfold Import.report
  dsimp only
  rw [hget]

/-- **A report that is read as a response tells of every missing unit.** -/
theorem tellsMissing_of_report {missing : Dict String} (hmissing : missing ≠ [])
    {answer : String} (hsolc : NoSourceWarnings answer) {value : Json}
    (hvalue : Json.read answer = .ok value) {response : Response} {n : Nat}
    (hread : Json.decode (Response.reader n) (Import.report missing value) = some response) :
    TellsMissing missing response := by
  obtain ⟨members, hmembers, diagnostics, hdiagnostics, hwarnings⟩ := hsolc
  obtain rfl : Json.obj members = value := Except.ok.inj (hmembers.symm.trans hvalue)
  rw [report_obj hdiagnostics] at hread
  obtain ⟨k, hall⟩ := Response.errors_of_decode hread (Dict.get?_insert_self _ _ _)
  have hevery : ∀ unit reason, Dict.get? missing unit = some reason →
      ∃ d ∈ response.diagnostics,
        d.message = Diagnostic.notFoundStart unit ++ reason ∧ d.isWarning = false := by
    intro unit reason hunit
    obtain ⟨item, hitem, hexplains⟩ := Import.reportIn_explains diagnostics hunit
    obtain ⟨d, hd, hdecode⟩ := mem_of_mapM hall hitem
    exact ⟨d, hd, error_of_explains hexplains hwarnings hdecode⟩
  refine ⟨?_, fun unit reason hunit => ?_⟩
  · -- there is a missing unit, and its diagnostic is an error
    obtain ⟨⟨unit, reason⟩, rest, rfl⟩ := List.exists_cons_of_ne_nil hmissing
    have hunit : Dict.get? ((unit, reason) :: rest) unit = some reason := by
      rw [Dict.get?_cons, if_pos rfl]
    obtain ⟨d, hd, -, herror⟩ := hevery unit reason hunit
    exact List.any_eq_true.mpr ⟨d, hd, by rw [herror]; rfl⟩
  · obtain ⟨d, hd, hmessage, -⟩ := hevery unit reason hunit
    exact ⟨d, hd, hmessage⟩

/-! ## The run -/

theorem sorted_readSources (files : Files (StateM σ)) (search : SearchPath) :
    ∀ (paths : List String) (sources : Dict Source) (st : σ) {result : Dict Source} {st' : σ},
      sources.Sorted →
      (readSources files search sources paths).run st = (.ok result, st') → result.Sorted
  | [], sources, st, result, st', hsorted, h => by
      cases h
      exact hsorted
  | path :: paths, sources, st, result, st', hsorted, h => by
      rw [readSources, Import.run_then] at h
      cases hread : ((files.read path).run st).1 with
      | error e =>
          rw [hread] at h
          cases h
      | ok text =>
          rw [hread] at h
          exact sorted_readSources files search paths _ _ (Dict.sorted_insert hsorted _ _) h

theorem completed_run {importer : Importer (StateM σ)} {text : String} {value request : Json}
    {missing : Dict String} {st st' : σ} (hvalue : Json.read text = .ok value)
    (hfetch : (Import.fetch importer Compiler.importLimit value).run st
      = (some (request, missing), st')) :
    (Compiler.completed text (some importer)).run st
      = (.ok (request.render false, missing), st') := by
  unfold Compiler.completed
  rw [hvalue]
  dsimp only
  rw [Import.run_then, hfetch]
  rfl

/-- What comes of the run of a compiler program. -/
def afterRun (missing : Dict String) : Except HostError Outcome → Except Compiler.Failure String
  | .error e => .error (.cannotStart e)
  | .ok outcome => Compiler.outputOf outcome >>= Compiler.reported missing

theorem answer_run (programs : Programs (StateM σ)) (executable : String)
    {importer : Importer (StateM σ)} {text request : String} {missing : Dict String} {st st' : σ}
    (hcompleted : (Compiler.completed text (some importer)).run st
      = (.ok (request, missing), st')) :
    ((Compiler.ofProgram programs executable text (some importer)).run st).1
      = (afterRun missing ((programs.run ⟨executable, ["--standard-json"], request⟩).run st').1
          ).mapError Compiler.Failure.message := by
  unfold Compiler.ofProgram
  rw [Import.run_then]
  show ((Compiler.answer programs executable text (some importer)).run st).1.mapError _ = _
  unfold Compiler.answer
  rw [Import.run_then, hcompleted]
  show Except.mapError _
    (StateT.run (programs.run ⟨executable, ["--standard-json"], request⟩ >>= _) st').1 = _
  rw [Import.run_then]
  cases ((programs.run ⟨executable, ["--standard-json"], request⟩).run st').1 <;> rfl

/-- An answer with missing units is the text of a report of them. -/
theorem report_of_afterRun {missing : Dict String} (hmissing : missing ≠ [])
    {result : Except HostError Outcome} {answer : String}
    (h : afterRun missing result = .ok answer) :
    ∃ outcome value, result = .ok outcome ∧ outcome.status.success = true
      ∧ Json.read (Text.decodeLenient outcome.output) = .ok value
      ∧ answer = (Import.report missing value).render false := by
  cases result with
  | error e => cases h
  | ok outcome =>
      obtain ⟨output, houtput, h⟩ := Json.bind_eq_ok h
      unfold Compiler.outputOf at houtput
      split at houtput
      · rename_i hsuccess
        cases houtput
        unfold Compiler.reported at h
        rw [if_neg (by simpa using hmissing)] at h
        split at h
        · rename_i value hvalue
          cases h
          exact ⟨outcome, value, rfl, hsuccess, hvalue, rfl⟩
        · cases h
      · cases houtput

/-- An answer that is the text of a document is read as the document. -/
theorem decode_of_readResponse {v : Json} {response : Response}
    (h : readResponse (v.render false) = .ok response) :
    Json.decode (Response.reader Json.maxNesting) v = some response := by
  unfold readResponse at h
  split at h
  · cases h
  · have hread := Json.readWith_render (Response.reader_faithful Json.maxNesting) v false
    rw [Json.mapError_eq_ok h] at hread
    exact hread.symm

/-- A document that is read as a response is an answer. -/
theorem readResponse_render {v : Json} {response : Response}
    (hblank : (Json.print (.of false) 0 v).all Text.isBlank = false)
    (h : Json.decode (Response.reader Json.maxNesting) v = some response) :
    readResponse (v.render false) = .ok response := by
  have htext : (v.render false).toList = Json.print (.of false) 0 v := String.toList_ofList
  have hread := Json.readWith_render (Response.reader_faithful Json.maxNesting) v false
  unfold readResponse
  rw [htext, hblank, if_neg Bool.false_ne_true, Json.eq_ok_of_toOption (hread.trans h)]
  rfl

/-- What comes of the answer to a request for files. -/
def afterAnswer : Except String String → Except Failure Response
  | .error reason => .error (.compiler reason)
  | .ok answer => readResponse answer

theorem compileFiles_run (compiler : Compiler (StateM σ)) (files : Files (StateM σ))
    (console : Console (StateM σ)) (search : SearchPath) (options : FileOptions)
    (paths : List String) {st st₁ : σ} {sources : Dict Source}
    (hsources : (readSources files search [] paths).run st = (.ok sources, st₁)) :
    ((compileFiles compiler files console search options paths).run st).1
      = afterAnswer ((compiler
          ((Request.forSources sources options.optimize options.runs).toJson.render false)
          (some (search.find files))).run
            ((announce console "Compiling" ((Request.forSources sources options.optimize
              options.runs).toJson.render options.pretty)).run st₁).2).1 := by
  unfold compileFiles
  rw [Import.run_then, hsources]
  dsimp only
  rw [Import.run_then, Import.run_then]
  split
  · rename_i hanswer
    rw [hanswer]
    rfl
  · rename_i hanswer
    rw [hanswer]
    rfl

/-- **A unit that is missing fails the compilation.** -/
theorem compileFiles_missing (programs : Programs (StateM σ)) (executable : String)
    (files : Files (StateM σ)) (console : Console (StateM σ)) (search : SearchPath)
    (options : FileOptions) (paths : List String) {st st₁ st₂ : σ} {sources : Dict Source}
    {request : Json} {missing : Dict String}
    (hsources : (readSources files search [] paths).run st = (.ok sources, st₁))
    (hfetch : (Import.fetch (search.find files) Compiler.importLimit
        (Request.forSources sources options.optimize options.runs).toJson).run
          ((announce console "Compiling" ((Request.forSources sources options.optimize
            options.runs).toJson.render options.pretty)).run st₁).2
      = (some (request, missing), st₂))
    (hmissing : missing ≠ [])
    (hsolc : ∀ outcome st₃, (programs.run
        ⟨executable, ["--standard-json"], request.render false⟩).run st₂ = (.ok outcome, st₃) →
      outcome.status.success = true → NoSourceWarnings (Text.decodeLenient outcome.output)) :
    (∃ e, ((compileFiles (Compiler.ofProgram programs executable) files console search options
        paths).run st).1 = .error e)
    ∨ ∃ response, ((compileFiles (Compiler.ofProgram programs executable) files console search
        options paths).run st).1 = .ok response ∧ TellsMissing missing response := by
  have hsorted := sorted_readSources files search paths [] st List.Pairwise.nil hsources
  have hrequest := Request.read_forSources hsorted options.optimize options.runs false
  rw [compileFiles_run _ files console search options paths hsources,
    answer_run programs executable (completed_run hrequest hfetch)]
  cases hanswer : afterRun missing ((programs.run
      ⟨executable, ["--standard-json"], request.render false⟩).run st₂).1 with
  | error e => exact Or.inl ⟨_, rfl⟩
  | ok answer =>
      show (∃ e, readResponse answer = .error e) ∨ ∃ response, readResponse answer = .ok response
        ∧ TellsMissing missing response
      cases hread : readResponse answer with
      | error e => exact Or.inl ⟨e, rfl⟩
      | ok response =>
          obtain ⟨outcome, value, hrun, hsuccess, hvalue, rfl⟩ :=
            report_of_afterRun hmissing hanswer
          have hplain := hsolc outcome _ (Prod.ext hrun rfl) hsuccess
          exact Or.inr ⟨response, rfl,
            tellsMissing_of_report hmissing hplain hvalue (decode_of_readResponse hread)⟩

/-- A text that imports two units. -/
def importsTwo : String := "import \"B.sol\"; import \"C.sol\";"

/-- A single file with that text. -/
def loneFile : Files (StateM Unit) where
  present _ := pure false
  read path := pure (if path = "A.sol" then .ok importsTwo else .error (.os .notFound))

/-- Nothing but the working directory. -/
def hereOnly : SearchPath where
  basePath := none
  includePaths := []
  workingDirectory := Path.ofString "/w"
  base_of_include := by decide
  include_ne_empty := by decide

/-- A console that shows nothing. -/
def unheard : Console (StateM Unit) := Console.silent

/-- The request for the file. -/
def loneRequest : Json := (Request.forSources [("A.sol", ⟨importsTwo⟩)] true 200).toJson

/-- The two units with the reason for which they are missing. -/
def twoMissing : Dict String :=
  [("B.sol", "File not found inside the base path or any of the include paths."),
    ("C.sol", "File not found inside the base path or any of the include paths.")]

/-- What a compiler says that stops at the first missing source. -/
def firstOnly : String :=
  "\x7b\"errors\":[\x7b\"message\":\"Source \\\"B.sol\\\" not found: File not found.\"," ++
    "\"formattedMessage\":\"ParserError\",\"severity\":\"error\"\x7d]\x7d"

/-- A compiler that says so of every request. -/
def stopsAtFirst : Programs (StateM Unit) where
  run _ := pure (.ok ⟨.code 0, firstOnly.toUTF8.toList, []⟩)
  available _ := pure true

/-- The document that the compiler's words are. -/
def firstOnlyValue : Json :=
  .obj [("errors", .arr [.obj [("formattedMessage", .str "ParserError"),
    ("message", .str "Source \"B.sol\" not found: File not found."),
    ("severity", .str "error")]])]

theorem read_firstOnly :
    Json.read (Text.decodeLenient firstOnly.toUTF8.toList) = .ok firstOnlyValue := by
  have hdecode : Text.decodeLenient firstOnly.toUTF8.toList = firstOnly :=
    Text.decodeLenient_encode firstOnly
  have hread : (Json.read firstOnly).toOption = some firstOnlyValue := by decide +kernel
  rw [hdecode]
  exact Json.eq_ok_of_toOption hread

theorem noSourceWarnings_firstOnly :
    NoSourceWarnings (Text.decodeLenient firstOnly.toUTF8.toList) := by
  refine ⟨_, read_firstOnly, _, Or.inl rfl, fun d hd hseverity => ?_⟩
  rw [List.mem_singleton.mp hd] at hseverity
  exact absurd hseverity (by decide)

/-- The report that is made of these words can be read. -/
theorem exists_response_firstOnly :
    ∃ response, afterAnswer ((afterRun twoMissing (.ok ⟨.code 0, firstOnly.toUTF8.toList, []⟩)
      ).mapError Compiler.Failure.message) = .ok response := by
  have hanswer : afterRun twoMissing (.ok ⟨.code 0, firstOnly.toUTF8.toList, []⟩)
      = .ok ((Import.report twoMissing firstOnlyValue).render false) := by
    show Compiler.reported twoMissing (Text.decodeLenient firstOnly.toUTF8.toList) = _
    unfold Compiler.reported
    rw [read_firstOnly]
    rfl
  have hread : (Json.decode (Response.reader Json.maxNesting)
      (Import.report twoMissing firstOnlyValue)).isSome = true := by decide +kernel
  obtain ⟨response, hresponse⟩ := Option.isSome_iff_exists.mp hread
  rw [hanswer]
  exact ⟨response, readResponse_render (by decide +kernel) hresponse⟩

/-- The compiler tells of one of two missing units, and the response tells of both. -/
theorem compileFiles_missing_two :
    (readSources loneFile hereOnly [] ["A.sol"]).run ()
      = (.ok [("A.sol", ⟨importsTwo⟩)], ())
    ∧ (Import.fetch (hereOnly.find loneFile) Compiler.importLimit
        (Request.forSources [("A.sol", ⟨importsTwo⟩)] true 200).toJson).run
          ((announce unheard "Compiling" ((Request.forSources [("A.sol", ⟨importsTwo⟩)] true
            200).toJson.render false)).run ()).2
      = (some (loneRequest, twoMissing), ())
    ∧ twoMissing ≠ []
    ∧ (∀ outcome st, (stopsAtFirst.run
        ⟨"solc", ["--standard-json"], loneRequest.render false⟩).run () = (.ok outcome, st) →
      outcome.status.success = true → NoSourceWarnings (Text.decodeLenient outcome.output))
    ∧ ∃ response, ((compileFiles (Compiler.ofProgram stopsAtFirst "solc") loneFile
          unheard hereOnly ⟨true, 200, false⟩ ["A.sol"]).run ()).1 = .ok response
        ∧ TellsMissing twoMissing response := by
  have hname : hereOnly.canonicalName "A.sol" = "A.sol" := by decide +kernel
  have hsources : (readSources loneFile hereOnly [] ["A.sol"]).run ()
      = (.ok [("A.sol", ⟨importsTwo⟩)], ()) := by
    have hread : (readSources loneFile hereOnly [] ["A.sol"]).run ()
        = (.ok (Dict.insert (hereOnly.canonicalName "A.sol") ⟨importsTwo⟩ []), ()) := rfl
    rw [hread, hname]
    rfl
  have hfetch : Id.run ((Import.fetch (hereOnly.find loneFile) Compiler.importLimit
      loneRequest).run ()) = (some (loneRequest, twoMissing), ()) := by decide +kernel
  have hmissing : twoMissing ≠ [] := by decide
  have hsolc : ∀ outcome st, (stopsAtFirst.run
      ⟨"solc", ["--standard-json"], loneRequest.render false⟩).run () = (.ok outcome, st) →
      outcome.status.success = true → NoSourceWarnings (Text.decodeLenient outcome.output) := by
    intro outcome st hrun _
    cases hrun
    exact noSourceWarnings_firstOnly
  have hends := compileFiles_missing stopsAtFirst "solc" loneFile unheard hereOnly
    ⟨true, 200, false⟩ ["A.sol"] hsources hfetch hmissing hsolc
  refine ⟨hsources, hfetch, hmissing, hsolc, hends.resolve_left ?_⟩
  -- the compiler answers and the report is read, so it is not an error that comes out
  have hrequest := Request.read_forSources
    (sorted_readSources loneFile hereOnly ["A.sol"] [] () List.Pairwise.nil hsources) true 200 false
  obtain ⟨response, hresponse⟩ := exists_response_firstOnly
  rw [compileFiles_run _ loneFile unheard hereOnly ⟨true, 200, false⟩ ["A.sol"] hsources,
    answer_run stopsAtFirst "solc" (completed_run hrequest hfetch)]
  rintro ⟨e, he⟩
  cases hresponse.symm.trans he

end SolFront.Compilation
