import SolFront.CommandLine.Run
import SolFront.Proofs.Confinement
import SolFront.Proofs.Import.Limit

/-!
# Compiling files from the command line

There are two ways to fail. Whatever goes wrong before there is an answer of the compiler ends the
run, and no file has been touched by then. Once there is an answer, errors in the sources end
nothing: the diagnostics are shown, the artifacts are written all the same, and only the exit code
tells. It is zero if all diagnostics are warnings and all files have been written.

The compiler is a program that may do anything: how a call of it ends is any function of the call
and of the machine it happens on.
-/

namespace SolFront

namespace Machine

/-! ## Programs that do anything -/

/-- How the call of a program ends on a machine, or why the program cannot be started. -/
abbrev Behaviour := Machine → Command → Except HostError Outcome

/-- The machine after a call has ended. There is no call of a program that cannot be started. -/
def called (m : Machine) (command : Command) : Except HostError Outcome → Machine
  | .ok _ => { m with calls := m.calls ++ [command] }
  | .error _ => m

/-- Programs that behave like this. -/
def programsOf (behaviour : Behaviour) : Programs (StateM Machine) where
  run command := fun m => (behaviour m command, m.called command (behaviour m command))
  available name := fun m => (m.available name, m)

/-- A host with such programs. -/
def hostOf (behaviour : Behaviour) : Host (StateM Machine) :=
  { host with programs := programsOf behaviour }

/-- A machine that follows its scripts is one of these hosts. -/
theorem host_eq_hostOf : host = hostOf outcome := by
  have hrun : run = (programsOf outcome).run := by
    funext command m
    unfold run programsOf called
    dsimp only
    cases m.outcome command <;> rfl
  have hprograms : programs = programsOf outcome := by
    unfold programs
    rw [hrun]
    rfl
  unfold hostOf host
  rw [hprograms]

/-! ## Lines -/

/-- The text with more lines. -/
def withLines (text : String) (lines : List String) : String :=
  lines.foldl (fun text line => text ++ line ++ "\n") text

/-- The machine after lines have been written to the standard streams. -/
def shown (m : Machine) (printed complaints : List String) : Machine :=
  { m with
    printed := withLines m.printed printed
    complaints := withLines m.complaints complaints }

/-- The later machine has the files of the earlier one, and no compilation has been called. -/
structure Idle (m m' : Machine) : Prop where
  tree : m'.tree = m.tree
  here : m'.here = m.here
  calls : ∃ more, m'.calls = m.calls ++ more
    ∧ ∀ call ∈ more, call.arguments ≠ ["--standard-json"]

theorem Idle.refl (m : Machine) : Idle m m :=
  ⟨rfl, rfl, [], (List.append_nil _).symm, fun _ h => absurd h List.not_mem_nil⟩

/-- Lines do not count. -/
theorem Idle.shown {m m' : Machine} (h : Idle m m') (printed complaints : List String) :
    Idle m (m'.shown printed complaints) :=
  ⟨h.tree, h.here, h.calls⟩

theorem Idle.called {m m' : Machine} (h : Idle m m') {command : Command}
    (hcommand : command.arguments ≠ ["--standard-json"]) (result : Except HostError Outcome) :
    Idle m (m'.called command result) := by
  obtain ⟨more, hcalls, hmore⟩ := h.calls
  cases result with
  | error e => exact h
  | ok outcome =>
      refine ⟨h.tree, h.here, more ++ [command], ?_, ?_⟩
      · show m'.calls ++ [command] = _
        rw [hcalls, List.append_assoc]
      · intro call hcall
        rcases List.mem_append.mp hcall with hcall | hcall
        · exact hmore call hcall
        · rw [List.mem_singleton.mp hcall]
          exact hcommand

theorem tree_called (m : Machine) (command : Command) (result : Except HostError Outcome) :
    (m.called command result).tree = m.tree := by
  cases result <;> rfl

end Machine

open Machine (Behaviour programsOf hostOf Idle)

namespace Compilation

/-! ## Answers of a compiler program -/

/-- A compiler program has given no answer that can be used: it cannot be run, it fails, what it
says is nothing that missing units could be reported in, or what comes of that is blank or no
answer. -/
inductive Unanswered (missing : Dict String) : Except HostError Outcome → Prop where
  | notRun {e : HostError} : Unanswered missing (.error e)
  | failed {outcome : Outcome} : outcome.status.success = false → Unanswered missing (.ok outcome)
  | notReported {outcome : Outcome} {e : Compiler.Failure} :
      Compiler.reported missing (Text.decodeLenient outcome.output) = .error e →
      Unanswered missing (.ok outcome)
  | blank {outcome : Outcome} {answer : String} :
      Compiler.reported missing (Text.decodeLenient outcome.output) = .ok answer →
      answer.toList.all Text.isBlank = true → Unanswered missing (.ok outcome)
  | unreadable {outcome : Outcome} {answer : String} {e : Json.ReadError} :
      Compiler.reported missing (Text.decodeLenient outcome.output) = .ok answer →
      Json.readWith Response.reader answer = .error e → Unanswered missing (.ok outcome)

/-- The program has run well, and this is its answer with the missing units reported. -/
inductive Answered (missing : Dict String) : Except HostError Outcome → Response → Prop where
  | mk {outcome : Outcome} {answer : String} {response : Response} :
      outcome.status.success = true →
      Compiler.reported missing (Text.decodeLenient outcome.output) = .ok answer →
      answer.toList.all Text.isBlank = false →
      Json.readWith Response.reader answer = .ok response →
      Answered missing (.ok outcome) response

theorem Answered.not_unanswered {missing : Dict String} {result : Except HostError Outcome}
    {response : Response} (h : Answered missing result response) :
    ¬ Unanswered missing result := by
  obtain ⟨hsuccess, hreported, hblank, hread⟩ := h
  intro hnone
  cases hnone with
  | failed hfailed =>
      rw [hsuccess] at hfailed
      cases hfailed
  | notReported hnot =>
      rw [hreported] at hnot
      cases hnot
  | blank hreported' hblank' =>
      rw [hreported] at hreported'
      cases hreported'
      rw [hblank] at hblank'
      cases hblank'
  | unreadable hreported' hread' =>
      rw [hreported] at hreported'
      cases hreported'
      rw [hread] at hread'
      cases hread'

/-- What comes of the run of a compiler program, as the answer to a request for files. -/
def responseOf (missing : Dict String) (result : Except HostError Outcome) :
    Except Failure Response :=
  afterAnswer ((afterRun missing result).mapError Compiler.Failure.message)

/-- There is an answer, or there is none and the compilation fails. -/
theorem responseOf_cases (missing : Dict String) (result : Except HostError Outcome) :
    (Unanswered missing result ∧ ∃ e, responseOf missing result = .error e)
      ∨ ∃ response, Answered missing result response
        ∧ responseOf missing result = .ok response := by
  cases result with
  | error e => exact .inl ⟨.notRun, _, rfl⟩
  | ok outcome =>
      have hrun : responseOf missing (.ok outcome) = afterAnswer
          ((Compiler.outputOf outcome >>= Compiler.reported missing).mapError
            Compiler.Failure.message) := rfl
      rw [hrun]
      unfold Compiler.outputOf
      cases hsuccess : outcome.status.success with
      | false => exact .inl ⟨.failed hsuccess, _, rfl⟩
      | true =>
          rw [if_pos rfl]
          show (_ ∧ ∃ e, afterAnswer ((Compiler.reported missing _).mapError _) = .error e)
            ∨ ∃ response, _ ∧ afterAnswer ((Compiler.reported missing _).mapError _) = .ok response
          cases hreported : Compiler.reported missing (Text.decodeLenient outcome.output) with
          | error e => exact .inl ⟨.notReported hreported, _, rfl⟩
          | ok answer =>
              show (_ ∧ ∃ e, readResponse answer = .error e)
                ∨ ∃ response, _ ∧ readResponse answer = .ok response
              unfold readResponse
              cases hblank : answer.toList.all Text.isBlank with
              | true => exact .inl ⟨.blank hreported hblank, .noAnswer, rfl⟩
              | false =>
                  rw [if_neg Bool.false_ne_true]
                  cases hread : Json.readWith Response.reader answer with
                  | error e => exact .inl ⟨.unreadable hreported hread, _, rfl⟩
                  | ok response =>
                      exact .inr ⟨response, .mk hsuccess hreported hblank hread, rfl⟩

end Compilation

namespace CommandLine

open Compilation (Unanswered Answered responseOf)

/-! ## What is asked of the compiler -/

/-- The call that asks the compiler for its version. -/
def Arguments.versionCall (a : Arguments) : Command :=
  ⟨a.executable, ["--version"], ""⟩

theorem Arguments.versionCall_arguments (a : Arguments) :
    a.versionCall.arguments ≠ ["--standard-json"] := by
  show ["--version"] ≠ ["--standard-json"]
  decide

/-- The call that gives the compiler a request. -/
def Arguments.compileCall (a : Arguments) (input : String) : Command :=
  ⟨a.executable, ["--standard-json"], input⟩

/-- The request for the sources. -/
def Arguments.requestFor (a : Arguments) (sources : Dict Source) : Json :=
  (Request.forSources sources a.optimize a.optimizeRuns).toJson

/-- Why files are not compiled. -/
inductive Unready (behaviour : Behaviour) (a : Arguments) (m : Machine) : Prop where
  | arguments {e : Problem} : a.validate = .error e → Unready behaviour a m
  | searchPath {e : SearchPath.Refusal} :
      SearchPath.new a.basePath a.includePaths (Path.ofString (Machine.pathOf m.here)) = .error e →
      Unready behaviour a m
  | version {e : Compiler.Failure} : a.verbose = true →
      ((Compiler.version (programsOf behaviour) a.executable).run m).1 = .error e →
      Unready behaviour a m
  | file {path : String} {e : HostError} : path ∈ a.inputFiles →
      m.tree.read m.here path = .error e → Unready behaviour a m

/-- The machine before the compiler is called, what the compiler is given, and the units that are
missing then. -/
inductive Ready (behaviour : Behaviour) (a : Arguments) (m : Machine) :
    Machine → String → Dict String → Prop where
  | mk {search : SearchPath} {sources : Dict Source} {m₀ m₁ : Machine} {input : String}
      {missing : Dict String} (harguments : a.validate = .ok ())
      (hsearch : SearchPath.new a.basePath a.includePaths (Path.ofString (Machine.pathOf m.here))
        = .ok search)
      (hversion : (tellVersion (hostOf behaviour) a).run m = (.ok (), m₀))
      (hsources : (Compilation.readSources Machine.files search [] a.inputFiles).run m₀
        = (.ok sources, m₀))
      (hannounced : (Compilation.announce (consoleFor (hostOf behaviour) a) "Compiling"
        ((a.requestFor sources).render a.prettyJson)).run m₀ = ((), m₁))
      (hcompleted : (Compiler.completed ((a.requestFor sources).render false)
        (some (search.find Machine.files))).run m₁ = (.ok (input, missing), m₁)) :
      Ready behaviour a m m₁ input missing

/-! ## Diagnostics -/

/-- The diagnostics that are warnings, as they are shown. -/
def warningsOf (r : Response) : List String :=
  (r.diagnostics.filter (·.isWarning)).map (·.formattedMessage)

/-- The diagnostics that are no warnings, as they are shown. -/
def errorsOf (r : Response) : List String :=
  (r.diagnostics.filter (!·.isWarning)).map (·.formattedMessage)

/-- What is told of a failure to write artifacts. -/
def complaintsAbout (color : Bool) : Except Artifact.Failure Unit → List String
  | .ok () => []
  | .error e => [problemMark color ++ " " ++ (Problem.artifacts e).message]

/-- What is done with an answer: the diagnostics are shown and the files of its contracts that are
wanted are written. The exit code is zero only if there is nothing but warnings and all has been
written. -/
structure Concluded (color : Bool) (a : Arguments) (response : Response) (m : Machine)
    (code : UInt8) (m' : Machine) : Prop where
  written : ∃ plan t' result left,
    Artifact.Planned ⟨a.bytecode, a.abi, a.prettyJson⟩ (Artifact.compiled response) plan
      ∧ Artifact.Writing m.tree m.here a.outputDirectory plan t' result
      ∧ m' = { m.shown (warningsOf response) (errorsOf response ++ complaintsAbout color result)
          with tree := t', breakages := left }
      ∧ (code = 0 ↔ (∀ d ∈ response.diagnostics, d.severity = "warning") ∧ result = .ok ())
  code : code = 0 ∨ code = 1

/-- What compiling files comes to. -/
structure FileRun (behaviour : Behaviour) (color : Bool) (a : Arguments) (m : Machine)
    (code : UInt8) (m' : Machine) : Prop where
  /-- If the files are not compiled, no file changes and no compilation is called. -/
  unready : Unready behaviour a m → code = 1 ∧ Idle m m'
  /-- If there is no answer, no file changes. If there is one, it counts. -/
  ready : ¬ Unready behaviour a m → ∃ m₁ input missing, Ready behaviour a m m₁ input missing
    ∧ Idle m m₁
    ∧ (Unanswered missing (behaviour m₁ (a.compileCall input)) → code = 1 ∧ m'.tree = m.tree)
    ∧ (¬ Unanswered missing (behaviour m₁ (a.compileCall input)) → ∃ response,
        Answered missing (behaviour m₁ (a.compileCall input)) response
        ∧ Concluded color a response
          (m₁.called (a.compileCall input) (behaviour m₁ (a.compileCall input))) code m')

/-! ## The stages of a run -/

section

variable {behaviour : Behaviour} {a : Arguments} {m : Machine}

theorem withLines_append (text : String) (lines more : List String) :
    Machine.withLines text (lines ++ more)
      = Machine.withLines (Machine.withLines text lines) more := by
  unfold Machine.withLines
  rw [List.foldl_append]

/-- **Warnings go to the standard output, all else to the standard error stream**, in their
order. -/
theorem showDiagnostics_run (ds : List Diagnostic) (m : Machine) :
    (ds.forM (showDiagnostic Machine.console)).run m
      = ((), m.shown ((ds.filter (·.isWarning)).map (·.formattedMessage))
          ((ds.filter (!·.isWarning)).map (·.formattedMessage))) := by
  induction ds generalizing m with
  | nil => rfl
  | cons d ds ih =>
      have hcons : ((d :: ds).forM (showDiagnostic Machine.console)).run m
          = (showDiagnostic Machine.console d >>= fun _ =>
              ds.forM (showDiagnostic Machine.console)).run m := rfl
      rw [hcons, Import.run_then]
      cases hd : d.isWarning with
      | true =>
          have hone : (showDiagnostic Machine.console d).run m
              = ((), m.shown [d.formattedMessage] []) := by
            unfold showDiagnostic
            rw [if_pos hd]
            rfl
          rw [hone, ih, List.filter_cons_of_pos hd, List.filter_cons_of_neg (by simp [hd])]
          rfl
      | false =>
          have hone : (showDiagnostic Machine.console d).run m
              = ((), m.shown [] [d.formattedMessage]) := by
            unfold showDiagnostic
            rw [if_neg (by rw [hd]; exact Bool.false_ne_true)]
            rfl
          rw [hone, ih, List.filter_cons_of_neg (by rw [hd]; exact Bool.false_ne_true),
            List.filter_cons_of_pos (by simp [hd])]
          rfl

theorem hasErrors_eq_false_iff {r : Response} :
    r.hasErrors = false ↔ ∀ d ∈ r.diagnostics, d.severity = "warning" := by
  unfold Response.hasErrors
  rw [List.any_eq_false]
  refine forall₂_congr fun d _ => ?_
  unfold Diagnostic.isWarning Diagnostic.warningSeverity
  simp

theorem version_run (behaviour : Behaviour) (executable : String) (m : Machine) :
    ∃ result, (Compiler.version (programsOf behaviour) executable).run m
      = (result, m.called ⟨executable, ["--version"], ""⟩
          (behaviour m ⟨executable, ["--version"], ""⟩)) := by
  have hcall : ((programsOf behaviour).run ⟨executable, ["--version"], ""⟩).run m
      = (behaviour m ⟨executable, ["--version"], ""⟩, m.called ⟨executable, ["--version"], ""⟩
          (behaviour m ⟨executable, ["--version"], ""⟩)) := rfl
  unfold Compiler.version
  rw [Import.run_then, hcall]
  cases behaviour m ⟨executable, ["--version"], ""⟩ with
  | error e => exact ⟨_, rfl⟩
  | ok outcome => exact ⟨_, rfl⟩

theorem tellVersion_verbose (behaviour : Behaviour) (h : a.verbose = true) (m : Machine) :
    (tellVersion (hostOf behaviour) a).run m
      = match (Compiler.version (programsOf behaviour) a.executable).run m with
        | (.error e, m₀) => (.error (.noVersion e), m₀)
        | (.ok v, m₀) => (.ok (), m₀.shown [">>> Using " ++ a.executable ++ " " ++ v.text] []) := by
  unfold tellVersion
  rw [h]
  show (Compiler.version (programsOf behaviour) a.executable >>= _).run m = _
  rw [Import.run_then]
  rcases (Compiler.version (programsOf behaviour) a.executable).run m with ⟨e | v, m₀⟩ <;> rfl

/-- The version is told, unless it is not wanted; if there is none, the run is at its end. -/
theorem tellVersion_cases (behaviour : Behaviour) (a : Arguments) (m : Machine) :
    (∃ problem m₀, (tellVersion (hostOf behaviour) a).run m = (.error problem, m₀)
        ∧ Unready behaviour a m ∧ Idle m m₀)
      ∨ ∃ m₀, (tellVersion (hostOf behaviour) a).run m = (.ok (), m₀)
        ∧ Idle m m₀ ∧ ∀ e, a.verbose = true →
          ((Compiler.version (programsOf behaviour) a.executable).run m).1 ≠ .error e := by
  cases hverbose : a.verbose with
  | false =>
      refine .inr ⟨m, ?_, Idle.refl m, fun _ h => by cases h⟩
      unfold tellVersion
      rw [hverbose]
      rfl
  | true =>
      obtain ⟨result, hrun⟩ := version_run behaviour a.executable m
      have hidle := (Idle.refl m).called a.versionCall_arguments (behaviour m a.versionCall)
      rw [tellVersion_verbose behaviour hverbose, hrun]
      cases result with
      | error e => exact .inl ⟨_, _, rfl, .version hverbose (by rw [hrun]), hidle⟩
      | ok v =>
          refine .inr ⟨_, rfl, hidle.shown _ _, fun e _ h => ?_⟩
          cases h

/-- Files are read without a change of the machine, up to the first that cannot be read. -/
theorem readSources_cases (search : SearchPath) (m : Machine) :
    ∀ (paths : List String) (sources : Dict Source),
      (∃ path e, path ∈ paths ∧ m.tree.read m.here path = .error e
        ∧ (Compilation.readSources Machine.files search sources paths).run m
          = (.error (.unreadable path e), m))
      ∨ ∃ final, (Compilation.readSources Machine.files search sources paths).run m = (.ok final, m)
        ∧ ∀ path ∈ paths, ∀ e, m.tree.read m.here path ≠ .error e
  | [], sources => .inr ⟨sources, rfl, fun _ h => absurd h List.not_mem_nil⟩
  | path :: paths, sources => by
      have hone : (Machine.files.read path).run m = (m.tree.read m.here path, m) := rfl
      rw [Compilation.readSources, Import.run_then, hone]
      cases hread : m.tree.read m.here path with
      | error e => exact .inl ⟨path, e, List.mem_cons_self, hread, rfl⟩
      | ok text =>
          rcases readSources_cases search m paths
              (Dict.insert (search.canonicalName path) ⟨text⟩ sources) with
            ⟨bad, e, hmem, hbad, hrun⟩ | ⟨final, hrun, hall⟩
          · exact .inl ⟨bad, e, List.mem_cons_of_mem path hmem, hbad, hrun⟩
          · refine .inr ⟨final, hrun, fun other hother e => ?_⟩
            rcases List.mem_cons.mp hother with rfl | hother
            · rw [hread]
              exact fun h => by cases h
            · exact hall other hother e

/-- What is told before a compilation goes to the standard output, if it is told at all. -/
theorem announce_run (behaviour : Behaviour) (a : Arguments) (title request : String)
    (m : Machine) :
    ∃ lines, (Compilation.announce (consoleFor (hostOf behaviour) a) title request).run m
      = ((), m.shown lines []) := by
  unfold Compilation.announce consoleFor
  cases a.verbose with
  | true => exact ⟨[_], rfl⟩
  | false => exact ⟨[], rfl⟩

/-- A compiler program is called once, on what the request is completed to. -/
theorem ofProgram_on_machine {executable text input : String} {missing : Dict String}
    {importer : Importer (StateM Machine)}
    (h : (Compiler.completed text (some importer)).run m = (.ok (input, missing), m)) :
    (Compiler.ofProgram (programsOf behaviour) executable text (some importer)).run m
      = ((Compilation.afterRun missing
            (behaviour m ⟨executable, ["--standard-json"], input⟩)).mapError
              Compiler.Failure.message,
          m.called ⟨executable, ["--standard-json"], input⟩
            (behaviour m ⟨executable, ["--standard-json"], input⟩)) := by
  have hcall : ((programsOf behaviour).run ⟨executable, ["--standard-json"], input⟩).run m
      = (behaviour m ⟨executable, ["--standard-json"], input⟩,
          m.called ⟨executable, ["--standard-json"], input⟩
            (behaviour m ⟨executable, ["--standard-json"], input⟩)) := rfl
  unfold Compiler.ofProgram Compiler.answer
  rw [Import.run_then, Import.run_then, h]
  dsimp only
  rw [Import.run_then, hcall]
  cases behaviour m ⟨executable, ["--standard-json"], input⟩ <;> rfl

/-- **The answer to a request for files** is what comes of the call of the compiler. -/
theorem compileFiles_on_machine {search : SearchPath} {sources : Dict Source} {m₀ m₁ : Machine}
    {input : String} {missing : Dict String}
    (hsources : (Compilation.readSources Machine.files search [] a.inputFiles).run m₀
      = (.ok sources, m₀))
    (hannounced : (Compilation.announce (consoleFor (hostOf behaviour) a) "Compiling"
      ((a.requestFor sources).render a.prettyJson)).run m₀ = ((), m₁))
    (hcompleted : (Compiler.completed ((a.requestFor sources).render false)
      (some (search.find Machine.files))).run m₁ = (.ok (input, missing), m₁)) :
    (Compilation.compileFiles (.ofProgram (programsOf behaviour) a.executable) Machine.files
        (consoleFor (hostOf behaviour) a) search a.fileOptions a.inputFiles).run m₀
      = (responseOf missing (behaviour m₁ (a.compileCall input)),
          m₁.called (a.compileCall input) (behaviour m₁ (a.compileCall input))) := by
  have hannounced : (Compilation.announce (consoleFor (hostOf behaviour) a) "Compiling"
      ((Request.forSources sources a.fileOptions.optimize a.fileOptions.runs).toJson.render
        a.fileOptions.pretty)).run m₀ = ((), m₁) := hannounced
  have hcompiler : (Compiler.ofProgram (programsOf behaviour) a.executable
        ((Request.forSources sources a.fileOptions.optimize a.fileOptions.runs).toJson.render false)
        (some (search.find Machine.files))).run m₁
      = ((Compilation.afterRun missing (behaviour m₁ (a.compileCall input))).mapError
            Compiler.Failure.message,
          m₁.called (a.compileCall input) (behaviour m₁ (a.compileCall input))) :=
    ofProgram_on_machine hcompleted
  unfold Compilation.compileFiles
  rw [Import.run_then, hsources]
  dsimp only
  rw [Import.run_then, hannounced]
  dsimp only
  rw [Import.run_then, hcompiler]
  unfold responseOf
  cases (Compilation.afterRun missing (behaviour m₁ (a.compileCall input))).mapError
    Compiler.Failure.message <;> rfl

/-- The verdict when the artifacts of an answer have been written, or not. -/
def verdictOf (response : Response) : Except Artifact.Failure Unit → Except Problem Verdict
  | .error e => .error (.artifacts e)
  | .ok () => .ok (if response.hasErrors then .failure else .success)

/-- What the answer of the compiler leads to. The compilation fails without one; with one, the
diagnostics are shown and the artifacts are written. -/
theorem runFiles_cases {search : SearchPath} {m₀ m₂ : Machine} {missing : Dict String}
    {result : Except HostError Outcome}
    (hcompile : (Compilation.compileFiles (.ofProgram (programsOf behaviour) a.executable)
        Machine.files (consoleFor (hostOf behaviour) a) search a.fileOptions a.inputFiles).run m₀
      = (responseOf missing result, m₂)) :
    (Unanswered missing result
        ∧ ∃ e, (runFiles (hostOf behaviour) a search).run m₀ = (.error (.compilation e), m₂))
      ∨ ∃ response, Answered missing result response ∧ ∃ t' written left,
        Artifact.Writing m₂.tree m₂.here a.outputDirectory
          ((Artifact.ofResponse response).flatMap (Artifact.files a.selected)) t' written
        ∧ (runFiles (hostOf behaviour) a search).run m₀ = (verdictOf response written,
            { m₂.shown (warningsOf response) (errorsOf response) with
              tree := t', breakages := left }) := by
  have hfirst : (Compilation.compileFiles (.ofProgram (hostOf behaviour).programs a.executable)
        (hostOf behaviour).files (consoleFor (hostOf behaviour) a) search a.fileOptions
        a.inputFiles).run m₀ = (responseOf missing result, m₂) := hcompile
  unfold runFiles
  rw [Import.run_then, hfirst]
  rcases Compilation.responseOf_cases missing result with
    ⟨hnone, e, hresponse⟩ | ⟨response, hanswered, hresponse⟩
  · rw [hresponse]
    exact .inl ⟨hnone, e, rfl⟩
  · have hshow : (response.diagnostics.forM (showDiagnostic (hostOf behaviour).console)).run m₂
        = ((), m₂.shown (warningsOf response) (errorsOf response)) :=
      showDiagnostics_run response.diagnostics m₂
    obtain ⟨t', written, left, hwrite, hwriting⟩ := Artifact.writeAll_run a.outputDirectory
      a.selected (Artifact.ofResponse response)
      (m₂.shown (warningsOf response) (errorsOf response))
    have hwrite : (Artifact.writeAll (hostOf behaviour).directory a.outputDirectory a.selected
        (Artifact.ofResponse response)).run (m₂.shown (warningsOf response) (errorsOf response))
          = (written, { m₂.shown (warningsOf response) (errorsOf response) with
              tree := t', breakages := left }) := hwrite
    refine .inr ⟨response, hanswered, t', written, left, hwriting, ?_⟩
    rw [hresponse]
    dsimp only
    rw [Import.run_then, hshow]
    dsimp only
    rw [Import.run_then, hwrite]
    cases written <;> rfl

end

/-! ## Runs -/

/-- The exit code of a run, and what is told at its end. -/
def concluding (color : Bool) : Except Problem Verdict × Machine → UInt8 × Machine
  | (.error problem, m) => (1, m.shown [] [problemMark color ++ " " ++ problem.message])
  | (.ok verdict, m) => (verdict.exitCode, m)

theorem run_of_parse {args : List String} {a : Arguments} (hparse : parse args = .ok (.run a))
    (behaviour : Behaviour) (color : Bool) (m : Machine) :
    (run (hostOf behaviour) color args).run m
      = concluding color ((runArguments (hostOf behaviour) a).run m) := by
  unfold run
  rw [hparse]
  dsimp only
  rw [Import.run_then]
  rcases (runArguments (hostOf behaviour) a).run m with ⟨problem | verdict, m'⟩ <;> rfl

/-- **The exit code counts the diagnostics and the files.** -/
theorem concluded_of_writing {color : Bool} {a : Arguments} {response : Response} {m : Machine}
    {t' : FileTree} {written : Except Artifact.Failure Unit} {left : List (Option Breakage)}
    (h : Artifact.Writing m.tree m.here a.outputDirectory
      ((Artifact.ofResponse response).flatMap (Artifact.files a.selected)) t' written) :
    ∃ code m', concluding color (verdictOf response written,
        { m.shown (warningsOf response) (errorsOf response) with
          tree := t', breakages := left }) = (code, m')
      ∧ Concluded color a response m code m' := by
  have hplanned := Artifact.planned_ofResponse a.selected response
  cases written with
  | error e =>
      refine ⟨_, _, rfl, ⟨_, t', _, left, hplanned, h, ?_, ?_⟩, .inr rfl⟩
      · unfold Machine.shown complaintsAbout
        rw [withLines_append]
        rfl
      · refine ⟨fun hcode => absurd hcode (by decide), fun hall => ?_⟩
        cases hall.2
  | ok _ =>
      cases herrors : response.hasErrors with
      | true =>
          refine ⟨1, _, by unfold verdictOf; rw [herrors]; rfl,
            ⟨_, t', _, left, hplanned, h, ?_, ?_⟩, .inr rfl⟩
          · unfold complaintsAbout
            rw [List.append_nil]
          · refine ⟨fun hcode => absurd hcode (by decide), fun hall => ?_⟩
            rw [hasErrors_eq_false_iff.mpr hall.1] at herrors
            cases herrors
      | false =>
          refine ⟨0, _, by unfold verdictOf; rw [herrors]; rfl,
            ⟨_, t', _, left, hplanned, h, ?_, ?_⟩, .inl rfl⟩
          · unfold complaintsAbout
            rw [List.append_nil]
          · exact ⟨fun _ => ⟨hasErrors_eq_false_iff.mp herrors, rfl⟩, fun _ => rfl⟩

/-- A file that cannot be read ends the run. -/
theorem runFiles_of_unreadable {behaviour : Behaviour} {a : Arguments} {search : SearchPath}
    {m : Machine} {e : Compilation.Failure}
    (h : (Compilation.readSources Machine.files search [] a.inputFiles).run m = (.error e, m)) :
    (runFiles (hostOf behaviour) a search).run m = (.error (.compilation e), m) := by
  have hread : (Compilation.readSources (hostOf behaviour).files search [] a.inputFiles).run m
      = (.error e, m) := h
  unfold runFiles Compilation.compileFiles
  rw [Import.run_then, Import.run_then, hread]
  rfl

/-- **Whatever fails before the compilation fails first**: files are compiled only if nothing does,
and until then nothing has been done. -/
theorem runArguments_cases {a : Arguments} (hfiles : a.standardJson = false)
    (behaviour : Behaviour) (m : Machine) :
    (Unready behaviour a m ∧ ∃ problem m', Idle m m'
        ∧ (runArguments (hostOf behaviour) a).run m = (.error problem, m'))
      ∨ ¬ Unready behaviour a m ∧ ∃ search m₀ sources, Idle m m₀
        ∧ a.validate = .ok ()
        ∧ SearchPath.new a.basePath a.includePaths (Path.ofString (Machine.pathOf m.here))
          = .ok search
        ∧ (tellVersion (hostOf behaviour) a).run m = (.ok (), m₀)
        ∧ (Compilation.readSources Machine.files search [] a.inputFiles).run m₀
          = (.ok sources, m₀)
        ∧ (runArguments (hostOf behaviour) a).run m
          = (runFiles (hostOf behaviour) a search).run m₀ := by
  have hhere : (hostOf behaviour).workingDirectory.run m = (Machine.pathOf m.here, m) := rfl
  unfold runArguments
  cases hvalid : a.validate with
  | error e => exact .inl ⟨.arguments hvalid, _, m, Idle.refl m, rfl⟩
  | ok _ =>
      dsimp only
      rw [Import.run_then, hhere]
      cases hsearch : SearchPath.new a.basePath a.includePaths
          (Path.ofString (Machine.pathOf m.here)) with
      | error e =>
          exact .inl ⟨.searchPath hsearch, .searchPath e, m, Idle.refl m, rfl⟩
      | ok search =>
          dsimp only
          rw [Import.run_then]
          rcases tellVersion_cases behaviour a m with
            ⟨problem, m₀, htell, hunready, hidle⟩ | ⟨m₀, htell, hidle, hversion⟩
          · rw [htell]
            exact .inl ⟨hunready, problem, m₀, hidle, rfl⟩
          · rw [htell]
            dsimp only
            rw [hfiles, if_neg Bool.false_ne_true]
            rcases readSources_cases search m₀ a.inputFiles [] with
              ⟨path, e, hmem, hread, hsources⟩ | ⟨sources, hsources, hall⟩
            · rw [hidle.tree, hidle.here] at hread
              exact .inl ⟨.file hmem hread, _, m₀, hidle, runFiles_of_unreadable hsources⟩
            · refine .inr ⟨?_, search, m₀, sources, hidle, rfl, rfl, rfl, hsources, rfl⟩
              rw [hidle.tree, hidle.here] at hall
              intro hunready
              cases hunready with
              | arguments h =>
                  rw [hvalid] at h
                  cases h
              | searchPath h =>
                  rw [hsearch] at h
                  cases h
              | version hverbose h => exact hversion _ hverbose h
              | file hmem h => exact hall _ hmem _ h

/-- What a compiler says about a contract: a warning and an error, and an interface and a bytecode
all the same. -/
def criticism : String :=
  "\x7b\"contracts\":\x7b\"A.sol\":\x7b\"A\":\x7b\"abi\":[],\"evm\":"
    ++ "\x7b\"bytecode\":\x7b\"object\":\"6080\"\x7d\x7d\x7d\x7d\x7d,\"errors\":["
    ++ "\x7b\"formattedMessage\":\"W\",\"severity\":\"warning\"\x7d,"
    ++ "\x7b\"formattedMessage\":\"E\",\"severity\":\"error\"\x7d]\x7d"

/-- A machine with one file and a compiler. -/
def workplace : Machine where
  tree := ⟨[(["A.sol"], .file (Text.encode "contract A \x7b\x7d"))]⟩
  here := []
  scripts := [("solc", .outcomes ⟨.code 0, Text.encode criticism, []⟩ [])]
  input := []
  calls := []
  printed := ""
  complaints := ""

/-- The bytecode and the interface of a contract are wanted. -/
def wantsBoth : Arguments where
  inputFiles := ["A.sol"]
  basePath := none
  includePaths := []
  outputDirectory := "out"
  bytecode := true
  abi := true
  optimize := false
  optimizeRuns := 200
  standardJson := false
  prettyJson := false
  verbose := false
  solc := none

end CommandLine

end SolFront
