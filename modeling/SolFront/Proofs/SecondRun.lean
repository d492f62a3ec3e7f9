import SolFront.Proofs.Import.Form
import SolFront.Proofs.ProgramRun

/-!
# The second run of a compiler program

A request is compiled a second time with the answers to the queries that the first output asks for.
The second run starts again from the text of the request and asks again for all that it imports.
Still the program is given what it was given before, and nothing is new but the answers: completing
a request commutes with setting a member beside the sources, a report leaves the queries alone, and
a document is read as what was printed.

The last of these needs numbers that come back from their text. Integers do, if they fit a 64-bit
word. Integers that do not are floats when they are read, and a float may lose its last digit on
the way.
-/

namespace SolFront.Compilation

variable {σ : Type}

/-! ## The queries -/

/-- What is read of a member of a printed object is read of the member of that name. -/
theorem exists_member_of_decode {n : Nat} {ms ms' : Dict Json} (hsorted : ms.Sorted)
    (h : Json.decode (Json.value n) (.obj ms) = some (.obj ms')) {key : String} {v : Json}
    (hget : Dict.get? ms' key = some v) :
    ∃ k before, Dict.get? ms key = some before ∧ Json.decode (Json.value k) before = some v := by
  obtain ⟨k, read, -, hread, rfl⟩ := Json.mapM_of_decode h
  rw [Json.ofList_of_mapM hsorted hread, Json.get?_of_mapM hread] at hget
  obtain ⟨before, hbefore, hdecode⟩ := Option.bind_eq_some_iff.mp hget
  exact ⟨k, before, hbefore, hdecode⟩

/-- Texts are read as themselves. -/
theorem eq_of_mapM_texts {n : Nat} {ms read : Dict Json}
    (h : ms.mapM (Json.decodeMember (Json.value n)) = some read)
    (htexts : ∀ e ∈ read, ∃ text, e.2 = .str text) : ms = read := by
  induction ms generalizing read with
  | nil =>
      cases h
      rfl
  | cons e ms ih =>
      rw [List.mapM_cons] at h
      obtain ⟨e', he', h⟩ := Option.bind_eq_some_iff.mp h
      obtain ⟨read', hread', h⟩ := Option.bind_eq_some_iff.mp h
      obtain ⟨v, hv, rfl⟩ := Option.map_eq_some_iff.mp he'
      cases h
      obtain ⟨⟨text, rfl⟩, hrest⟩ := List.forall_mem_cons.mp htexts
      have hvalue : e.2 = .str text := by
        have hkind := Json.sameKind_of_decode hv
        generalize e.2 = before at hkind
        cases hkind
        rfl
      rw [ih hread' hrest, ← hvalue]

theorem exists_obj_of_decode {n : Nat} {v : Json} {ms' : Dict Json}
    (h : Json.decode (Json.value n) v = some (.obj ms')) : ∃ ms, v = .obj ms := by
  have hkind := Json.sameKind_of_decode h
  cases hkind with
  | obj ms ms' => exact ⟨ms, rfl⟩

/-- **A report leaves the queries alone**: those that are read of its text are those that the output
asks for. -/
theorem asks_of_reported {missing : Dict String} {output text : String} {answer : Json}
    {members queries : Dict Json} (hreported : Compiler.reported missing output = .ok text)
    (hread : Json.read text = .ok answer) (hasks : Asks answer members queries)
    (htexts : ∀ e ∈ queries, ∃ query, e.2 = .str query) :
    ∃ value before, Json.read output = .ok value ∧ Asks value before queries := by
  unfold Compiler.reported at hreported
  split at hreported
  · cases hreported
    exact ⟨answer, members, hread, hasks⟩
  split at hreported
  · rename_i value hvalue
    cases hreported
    obtain ⟨rfl, ⟨auxiliary, hauxiliary, hqueries⟩, hnonempty⟩ := hasks
    have hdecode := Json.toOption_read_render (Import.report missing value) false
    rw [hread] at hdecode
    obtain ⟨reported, hobj⟩ := exists_obj_of_decode hdecode.symm
    obtain ⟨before, rfl, hkeeps, hothers⟩ := Import.report_members hobj
    have hcanonical := Json.canonical_of_read hvalue
    have hsorted : before.Sorted := by
      cases hcanonical with
      | obj hsorted _ => exact hsorted
    -- from the report to what it asks for, and from there to the queries
    rw [hobj] at hdecode
    obtain ⟨k, requested, hrequested, hdecode'⟩ :=
      exists_member_of_decode (hkeeps hsorted) hdecode.symm hauxiliary
    obtain ⟨inner, rfl⟩ := exists_obj_of_decode hdecode'
    rw [hothers _ (by decide)] at hrequested
    obtain ⟨_, hinner, hinnerSorted⟩ := sorted_of_get? hcanonical hrequested
    obtain ⟨k', listed, hlisted, hdecode''⟩ :=
      exists_member_of_decode hinnerSorted hdecode' hqueries
    obtain ⟨found, rfl⟩ := exists_obj_of_decode hdecode''
    obtain ⟨_, -, hfoundSorted⟩ := sorted_of_get? hinner hlisted
    obtain ⟨_, read, -, hmapM, rfl⟩ := Json.mapM_of_decode hdecode''
    rw [Json.ofList_of_mapM hfoundSorted hmapM] at hnonempty htexts ⊢
    obtain rfl := eq_of_mapM_texts hmapM htexts
    exact ⟨_, before, hvalue, rfl, ⟨inner, hrequested, hlisted⟩, hnonempty⟩
  · cases hreported

/-! ## The answers -/

/-- The answers of a solver to queries, each under the hash of its query and in the order of the
queries, from the state before the first one to the state after the last. -/
inductive Solved (programs : Programs (StateM σ)) (solver : Smt.Solver) :
    σ → Dict Json → Dict Json → σ → Prop where
  | nil (s : σ) : Solved programs solver s [] [] s
  | cons {s s₁ s₂ : σ} {hash query answer : String} {queries answers : Dict Json}
      (hsolve : (solver.solve programs query).run s = (.ok answer, s₁))
      (hrest : Solved programs solver s₁ queries answers s₂) :
      Solved programs solver s ((hash, .str query) :: queries) ((hash, .str answer) :: answers) s₂

section

variable {programs : Programs (StateM σ)} {solver : Smt.Solver} {s s' : σ}
  {queries answers : Dict Json}

theorem Solved.keys (h : Solved programs solver s queries answers s') :
    Dict.keys answers = Dict.keys queries := by
  induction h with
  | nil _ => rfl
  | @cons _ _ _ hash _ _ _ _ _ _ ih => exact congrArg (hash :: ·) ih

theorem Solved.texts (h : Solved programs solver s queries answers s') :
    (∀ e ∈ queries, ∃ query, e.2 = .str query) ∧ ∀ e ∈ answers, ∃ answer, e.2 = .str answer := by
  induction h with
  | nil _ => simp
  | cons _ _ ih =>
      exact ⟨List.forall_mem_cons.mpr ⟨⟨_, rfl⟩, ih.1⟩, List.forall_mem_cons.mpr ⟨⟨_, rfl⟩, ih.2⟩⟩

/-- Answers to queries are a regular document. -/
theorem Solved.regular (h : Solved programs solver s queries answers s')
    (hqueries : queries.Sorted) (n : Nat) : Json.Regular (n + 1) (.obj answers) := by
  have hsorted : answers.Sorted := by
    rw [Import.sorted_iff_keys, h.keys]
    exact Import.sorted_iff_keys.mp hqueries
  refine .obj hsorted fun e he => ?_
  obtain ⟨answer, hanswer⟩ := h.texts.2 e he
  rw [hanswer]
  exact .str n answer

/-- **What is solved is solved query by query.** -/
theorem solved_of_solveAll :
    ∀ {queries answers : Dict Json} {s s' : σ},
      (Smt.solveAll (solveWith programs solver) queries).run s = (.ok answers, s') →
      Solved programs solver s queries answers s'
  | [], _, s, _, h => by
      cases h
      exact .nil s
  | (hash, query) :: queries, answers, s, s', h => by
      cases query with
      | str query =>
          rw [Smt.solveAll, Import.run_then] at h
          have hwith : (solveWith programs solver query).run s
              = (((solver.solve programs query).run s).1.mapError Smt.Solver.Failure.message,
                  ((solver.solve programs query).run s).2) := rfl
          rw [hwith] at h
          rcases hsolve : (solver.solve programs query).run s with ⟨result, s₁⟩
          rw [hsolve] at h
          cases result with
          | error e => cases h
          | ok answer =>
              dsimp only [Except.mapError] at h
              rw [Import.run_then] at h
              rcases hrest : (Smt.solveAll (solveWith programs solver) queries).run s₁
                with ⟨rest, s₂⟩
              rw [hrest] at h
              cases rest with
              | error e => cases h
              | ok rest =>
                  cases h
                  exact .cons hsolve (solved_of_solveAll hrest)
      | _ => cases h

end

/-! ## The two inputs -/

/-- The members of a request with answers to queries. -/
def withResponses (answers members : Dict Json) : Dict Json :=
  Dict.insert "auxiliaryInput" (.obj [("smtlib2responses", .obj answers)]) members

theorem regular_withResponses {n : Nat} {answers members : Dict Json}
    (hmembers : Json.Regular (n + 3) (.obj members))
    (hanswers : Json.Regular (n + 1) (.obj answers)) :
    Json.Regular (n + 3) (.obj (withResponses answers members)) := by
  refine hmembers.insert ?_ "auxiliaryInput"
  refine .obj (List.pairwise_singleton _ _) fun e he => ?_
  obtain rfl := List.mem_singleton.mp he
  exact hanswers

namespace ProgramSetting

variable {p : ProgramSetting σ}

/-- With someone to ask for sources, the program is given the text of the completed request. -/
theorem given_of_answers {answers : String → ImportAnswer} (hanswers : p.answers = some answers)
    {request input : String} {value : Json} {missing : Dict String}
    (hread : Json.read request = .ok value) (h : p.given request = .ok (input, missing)) :
    ∃ completed, (Import.fetch (Import.steady answers) Compiler.importLimit value).run ()
        = (some (completed, missing), ())
      ∧ input = completed.render false := by
  unfold given Compiler.completed at h
  rw [hanswers, hread] at h
  rw [Import.fetch_steady]
  dsimp only at h
  rw [Id.run_bind] at h
  cases hfetch : (Import.fetch (m := Id) answers Compiler.importLimit value).run with
  | none =>
      rw [hfetch] at h
      cases h
  | some result =>
      rw [hfetch] at h
      cases h
      exact ⟨result.1, rfl, rfl⟩

/-- **The two inputs differ in nothing but the answers**: whether the sources are completed before
the answers are put in or after, the outcome is the same. -/
theorem reads_of_given {request first second : String} {members answers : Dict Json}
    {missing missing' : Dict String} (hread : Json.read request = .ok (.obj members))
    (hintegers : Json.Integers (.obj members))
    (hanswers : Json.Regular 125 (.obj answers))
    (hfirst : p.given request = .ok (first, missing))
    (hsecond : p.given (requestAgain members answers) = .ok (second, missing')) :
    ∃ completed, Json.read first = .ok (.obj completed)
      ∧ Json.read second = .ok (.obj (withResponses answers completed)) := by
  have hregular : Json.Regular (124 + 3) (.obj members) :=
    ⟨Json.canonical_of_read hread, hintegers⟩
  have hagain : Json.read (requestAgain members answers)
      = .ok (.obj (withResponses answers members)) :=
    Json.Regular.read_render (regular_withResponses hregular hanswers) false
  cases hasked : p.answers with
  | none =>
      unfold given Compiler.completed at hfirst hsecond
      rw [hasked] at hfirst hsecond
      cases hfirst
      cases hsecond
      exact ⟨members, hread, hagain⟩
  | some answers' =>
      obtain ⟨value, hfetch, rfl⟩ := given_of_answers hasked hread hfirst
      obtain ⟨value', hfetch', rfl⟩ := given_of_answers hasked hagain hsecond
      obtain ⟨completed, rfl, hcompleted⟩ := Import.fetch_insert hregular.members.1
        (by decide : "auxiliaryInput" ≠ "sources")
        (.obj [("smtlib2responses", .obj answers)]) hfetch
      have hregular' := Import.fetch_regular hregular hfetch
      obtain rfl : value' = .obj (withResponses answers completed) := by
        have heq := hfetch'.symm.trans hcompleted
        exact congrArg Prod.fst (Option.some.inj (congrArg Prod.fst heq))
      exact ⟨completed, hregular'.read_render false,
        Json.Regular.read_render (regular_withResponses hregular' hanswers) false⟩

end ProgramSetting

/-! ## The second run -/

/-- The request that the compiler is given after `request`, with the answers to the queries that the
first answer asks for. -/
inductive Again (s : RequestSetting (StateM σ)) (request : String) (st : σ) : String → Prop where
  | mk {text : String} {answer : Json} {asking queries members answers : Dict Json}
      {solver : Smt.Solver} {solvers : List Smt.Solver}
      (hfirst : (firstRun s request st).1 = .ok text) (hread : Json.read text = .ok answer)
      (hasks : Asks answer asking queries) (hsolver : s.solvers = solver :: solvers)
      (hjson : Json.read request = .ok (.obj members))
      (hsolve : ((solving s solver queries).run (firstRun s request st).2).1 = .ok answers) :
      Again s request st (requestAgain members answers)

theorem Repetition.again {s : RequestSetting (StateM σ)} {solver : Smt.Solver}
    {request again : String} {queries : Dict Json} {st : σ} {result : Except String String}
    {more : List String} (h : Repetition s solver request queries st result more)
    (hmem : again ∈ more) :
    ∃ members answers, Json.read request = .ok (.obj members)
      ∧ ((solving s solver queries).run st).1 = .ok answers
      ∧ again = requestAgain members answers := by
  cases h with
  | failed hjson hsolve _ => exact ⟨_, _, hjson, hsolve, List.mem_singleton.mp hmem⟩
  | answered hjson hsolve _ => exact ⟨_, _, hjson, hsolve, List.mem_singleton.mp hmem⟩
  | _ => cases hmem

theorem Ending.again {s : RequestSetting (StateM σ)} {request text shown again : String}
    {answer : Json} {st : σ} {more : List String}
    (hfirst : (firstRun s request st).1 = .ok text) (hread : Json.read text = .ok answer)
    (h : Ending s request text answer (firstRun s request st).2 shown more)
    (hmem : again ∈ more) : Again s request st again := by
  cases h with
  | kept _ => cases hmem
  | replaced hasks hsolver hagain =>
      obtain ⟨members, answers, hjson, hsolve, rfl⟩ := hagain.again hmem
      exact .mk hfirst hread hasks hsolver hjson hsolve
  | warned hasks hsolver hagain _ =>
      obtain ⟨members, answers, hjson, hsolve, rfl⟩ := hagain.again hmem
      exact .mk hfirst hread hasks hsolver hjson hsolve

/-- The compiler is given the request, and at most one more, with answers to its queries. -/
theorem exists_requests (s : RequestSetting (StateM σ)) (request : String) (st : σ) :
    ∃ result st' more, (compileRequest s request).run st = (result, st')
      ∧ (compileRequest s.recorded request).run (st, []) = (result, (st', request :: more))
      ∧ more.length ≤ 1 ∧ ∀ again ∈ more, Again s request st again := by
  have hnone : ∀ again ∈ ([] : List String), Again s request st again :=
    fun _ hmem => absurd hmem List.not_mem_nil
  rw [compileRequest_run s, compileRequest_run s.recorded, firstRun_recorded]
  cases hfirst : (firstRun s request st).1 with
  | error reason => exact ⟨_, _, [], rfl, rfl, Nat.zero_le 1, hnone⟩
  | ok text =>
      cases hread : Json.read text with
      | error e =>
          exact ⟨.error (.answerUnreadable e), _, [], afterFirst_notJson s request hread _,
            afterFirst_notJson s.recorded request hread _, Nat.zero_le 1, hnone⟩
      | ok answer =>
          obtain ⟨result, st', shown, more, hrun, hrecorded, hshown, hending⟩ :=
            retry_run s request hread (firstRun s request st).2 [request]
          exact ⟨.ok (Json.reformat shown s.pretty), st', more, afterFirst_run hrun hshown,
            afterFirst_run hrecorded hshown, hending.length_more,
            fun again hmem => hending.again hfirst hread hmem⟩

/-- The first run of the program ends well, and its output asks for the queries. -/
inductive FirstOutput (p : ProgramSetting σ) (request : String) (st : σ) (first : String)
    (queries : Dict Json) : σ → Prop where
  | mk {st' : σ} {outcome : Outcome} {value : Json} {members : Dict Json}
      (hrun : (p.programs.run ⟨p.executable, ["--standard-json"], first⟩).run
        ((announce p.console "Compiling" (Json.reformat request p.pretty)).run st).2
          = (.ok outcome, st'))
      (hsuccess : outcome.status.success = true)
      (hread : Json.read (Text.decodeLenient outcome.output) = .ok value)
      (hasks : Asks value members queries) : FirstOutput p request st first queries st'

/-- The second input is the first one with the answers of the preferred solver to the queries that
the first output asks for. -/
inductive Resumes (p : ProgramSetting σ) (request : String) (st : σ) (first second : String) :
    Prop where
  | mk {st₁ st₂ : σ} {solver : Smt.Solver} {solvers : List Smt.Solver}
      {queries answers members : Dict Json}
      (houtput : FirstOutput p request st first queries st₁)
      (hsolver : p.solvers = solver :: solvers)
      (hsolved : Solved p.programs solver st₁ queries answers st₂)
      (hfirst : Json.read first = .ok (.obj members))
      (hsecond : Json.read second = .ok (.obj (withResponses answers members))) :
      Resumes p request st first second

namespace ProgramSetting

variable (p : ProgramSetting σ)

/-- An answer of the compiler comes from a run that ends well. -/
theorem firstRun_ok {request text : String} {st : σ}
    (h : (firstRun p.toSetting request st).1 = .ok text) :
    ∃ first missing outcome, p.given request = .ok (first, missing)
      ∧ (p.programs.run ⟨p.executable, ["--standard-json"], first⟩).run
          ((announce p.console "Compiling" (Json.reformat request p.pretty)).run st).2
        = (.ok outcome, (firstRun p.toSetting request st).2)
      ∧ outcome.status.success = true
      ∧ Compiler.reported missing (Text.decodeLenient outcome.output) = .ok text := by
  have hrun := ofProgram_run p.programs p.executable p.answers request
    ((announce p.console "Compiling" (Json.reformat request p.pretty)).run st).2
  have hfirst : firstRun p.toSetting request st
      = (Compiler.ofProgram p.programs p.executable request (answering σ p.answers)).run
          ((announce p.console "Compiling" (Json.reformat request p.pretty)).run st).2 := rfl
  rw [← hfirst] at hrun
  cases hgiven : p.given request with
  | error e =>
      have hcompleted : (Compiler.completed (m := Id) request p.answers).run = .error e := hgiven
      rw [hcompleted] at hrun
      rw [hrun] at h
      cases h
  | ok result =>
      obtain ⟨first, missing⟩ := result
      have hcompleted : (Compiler.completed (m := Id) request p.answers).run
          = .ok (first, missing) := hgiven
      rw [hcompleted] at hrun
      rw [hrun] at h ⊢
      have hafter := Json.mapError_eq_ok h
      rcases houtcome : (p.programs.run ⟨p.executable, ["--standard-json"], first⟩).run
          ((announce p.console "Compiling" (Json.reformat request p.pretty)).run st).2
        with ⟨result, st'⟩
      rw [houtcome] at hafter
      cases result with
      | error e => cases hafter
      | ok outcome =>
          obtain ⟨output, houtput, hreported⟩ := Json.bind_eq_ok hafter
          unfold Compiler.outputOf at houtput
          split at houtput
          · rename_i hsuccess
            cases houtput
            exact ⟨first, missing, outcome, rfl, houtcome.trans (by dsimp only; rw [houtcome]),
              hsuccess, hreported⟩
          · cases houtput

/-- **A second request resumes the first one.** -/
theorem resumes_of_again {request again first second : String} {st : σ}
    {missing missing' : Dict String}
    (hintegers : ∀ value, Json.read request = .ok value → value.Integers)
    (h : Again p.toSetting request st again) (hfirst : p.given request = .ok (first, missing))
    (hsecond : p.given again = .ok (second, missing')) : Resumes p request st first second := by
  cases h with
  | @mk text answer asking queries members answers solver solvers htext hread hasks hsolver hjson
      hsolve =>
    have hsolved : Solved p.programs solver (firstRun p.toSetting request st).2 queries answers
        ((solving p.toSetting solver queries).run (firstRun p.toSetting request st).2).2 :=
      solved_of_solveAll (Prod.ext hsolve rfl)
    obtain ⟨first', missing', outcome, hgiven, hrun, hsuccess, hreported⟩ := p.firstRun_ok htext
    obtain ⟨rfl, rfl⟩ := Prod.mk.inj (Except.ok.inj (hfirst.symm.trans hgiven))
    obtain ⟨value, before, hvalue, hbefore⟩ :=
      asks_of_reported hreported hread hasks hsolved.texts.1
    have hsorted : queries.Sorted := hasks.sorted (Json.canonical_of_read hread)
    obtain ⟨completed, hreads, hreads'⟩ := reads_of_given hjson (hintegers _ hjson)
      (hsolved.regular hsorted 124) hfirst hsecond
    exact .mk (.mk hrun hsuccess hvalue hbefore) hsolver hsolved hreads hreads'

end ProgramSetting

/-- The sources of the second input are those of the first one. -/
theorem Resumes.sources {p : ProgramSetting σ} {request first second : String} {st : σ}
    (h : Resumes p request st first second) {value value' : Json}
    (hfirst : Json.read first = .ok value) (hsecond : Json.read second = .ok value') :
    value'.member? "sources" = value.member? "sources" := by
  cases h with
  | mk _ _ _ hreads hreads' =>
      obtain rfl := Except.ok.inj (hreads.symm.trans hfirst)
      obtain rfl := Except.ok.inj (hreads'.symm.trans hsecond)
      exact (Dict.get?_insert _ _ _ _).trans (if_neg (by decide))

/-- **The second run compiles the same program.** The compiler program is run at most twice, and the
second time it is given the same document as the first time, but for the answers to the queries. -/
theorem compileRequest_resumes (p : ProgramSetting σ) (request : String) (st : σ)
    (hintegers : ∀ value, Json.read request = .ok value → value.Integers) :
    ∃ result st' inputs,
      (compileRequest p.toSetting request).run st = (result, st')
      ∧ (compileRequest p.fedSetting request).run (st, []) = (result, (st', inputs))
      ∧ inputs.length ≤ 2
      ∧ ∀ first second, inputs = [first, second] →
        Resumes p request st first second
        ∧ ∀ value value', Json.read first = .ok value → Json.read second = .ok value' →
          value'.member? "sources" = value.member? "sources" := by
  obtain ⟨result, st', more, hrun, hrecorded, hmore, hagain⟩ :=
    exists_requests p.toSetting request st
  have hfed := p.fed_run hrecorded
  have hone := p.length_inputsOf request
  rw [List.flatMap_cons] at hfed
  match more, hmore with
  | [], _ =>
      rw [List.flatMap_nil, List.append_nil] at hfed
      refine ⟨result, st', p.inputsOf request, hrun, hfed, Nat.le_succ_of_le hone, ?_⟩
      intro first second hinputs
      rw [hinputs] at hone
      exact absurd hone (by simp)
  | [again], _ =>
      rw [List.flatMap_singleton] at hfed
      have hlength : (p.inputsOf request ++ p.inputsOf again).length ≤ 2 := by
        rw [List.length_append]
        exact Nat.add_le_add hone (p.length_inputsOf again)
      refine ⟨result, st', _, hrun, hfed, hlength, fun first second hinputs => ?_⟩
      obtain ⟨⟨missing, hfirst⟩, ⟨missing', hsecond⟩⟩ := ProgramSetting.given_of_pair hinputs
      have hresumes := p.resumes_of_again hintegers (hagain again List.mem_cons_self) hfirst hsecond
      exact ⟨hresumes, fun _ _ => hresumes.sources⟩

/-- What a compiler says that asks for a query. -/
def asksForQuery : String :=
  "\x7b\"auxiliaryInputRequested\":\x7b\"smtlib2queries\":\x7b\"0x01\":\"(check-sat)\"\x7d\x7d\x7d"

/-- A compiler that asks for a query the first time it is run, and a solver that has an answer to
every query. -/
def modelChecker : Programs (StateM Nat) where
  run command := fun runs =>
    if command.executable = "z3" then (.ok ⟨.code 0, "unsat\n".toUTF8.toList, []⟩, runs)
    else
      (.ok ⟨.code 0, (if runs = 0 then asksForQuery else "\x7b\x7d").toUTF8.toList, []⟩, runs + 1)
  available _ := pure true

/-- The compiler with the solver, and someone who provides every source. -/
def checking : ProgramSetting Nat where
  programs := modelChecker
  executable := "solc"
  console := Console.silent
  answers := some fun unit => .contents (if unit = "B" then "import 'C';" else "")
  solvers := [⟨"z3", "z3", ["-in"]⟩]
  pretty := false

/-- A request with a number and a source that has an address. -/
def addressed : Json :=
  .obj [("n", .num (.int 7)), ("sources", .obj [("A", .obj [("urls", .arr [.str "B"])])])]

/-- The source at the address imports another one, and the compiler asks for a query. -/
theorem compileRequest_resumes_addressed :
    (∀ value, Json.read (addressed.render false) = .ok value → value.Integers)
      ∧ ∃ result st' inputs,
        (compileRequest checking.toSetting (addressed.render false)).run 0 = (result, st')
        ∧ (compileRequest checking.fedSetting (addressed.render false)).run (0, [])
          = (result, (st', inputs))
        ∧ (∃ first second, inputs = [first, second])
        ∧ ∀ first second, inputs = [first, second] →
          Resumes checking (addressed.render false) 0 first second
          ∧ ∀ value value', Json.read first = .ok value → Json.read second = .ok value' →
            value'.member? "sources" = value.member? "sources" := by
  have hintegers : ∀ value, Json.read (addressed.render false) = .ok value →
      value.Integers := by
    intro value hvalue
    have hread : (Json.read (addressed.render false)).toOption = some addressed := by
      decide +kernel
    rw [hvalue] at hread
    obtain rfl := Option.some.inj hread
    have hsource : Json.Integers (.obj [("urls", .arr [.str "B"])]) :=
      .obj (List.forall_mem_singleton.mpr (.arr (List.forall_mem_singleton.mpr (.str "B"))))
    exact .obj (List.forall_mem_cons.mpr
      ⟨.int 7, List.forall_mem_singleton.mpr (.obj (List.forall_mem_singleton.mpr hsource))⟩)
  obtain ⟨result, st', inputs, hrun, hfed, -, hresumes⟩ :=
    compileRequest_resumes checking (addressed.render false) 0 hintegers
  have htwo : ((compileRequest checking.fedSetting (addressed.render false)).run
      (0, [])).2.2.length = 2 := by decide +kernel
  rw [hfed] at htwo
  exact ⟨hintegers, result, st', inputs, hrun, hfed, List.length_eq_two.mp htwo, hresumes⟩

/-- A request with an integer that no 64-bit word holds. -/
def longInteger : Json := .obj [("a", .num (.int 147573952589676412928))]

/-- What the compiler program is given for it the second time. -/
def rounded : String :=
  "\x7b\"a\":1.4757395258967641e+20,\"auxiliaryInput\":\x7b\"smtlib2responses\":" ++
    "\x7b\"0x01\":\"unsat\\n\"\x7d\x7d\x7d"

/-- **A longer integer may come out as another number**: it is a float when it is read, and the
float that is printed is not the one that is read again. -/
theorem compileRequest_loses_digit :
    ¬ ∀ (p : ProgramSetting Nat) (request : Json) (st : Nat), request.Integral →
      ∀ first second, ((compileRequest p.fedSetting (request.render false)).run (st, [])).2.2
          = [first, second] →
        Resumes p (request.render false) st first second := by
  intro hall
  have hinputs : ((compileRequest ({ checking with answers := none }).fedSetting
      (longInteger.render false)).run (0, [])).2.2 = [longInteger.render false, rounded] := by
    decide +kernel
  have hdiffers : (Json.read (longInteger.render false)).toOption.bind (Json.member? · "a")
      ≠ (Json.read rounded).toOption.bind (Json.member? · "a") := by decide +kernel
  have hintegral : longInteger.Integral := .obj (List.forall_mem_singleton.mpr (.int _))
  cases hall _ longInteger 0 hintegral _ _ hinputs with
  | @mk _ _ _ _ _ answers members _ _ _ hfirst hsecond =>
      -- the member would be the same in both inputs
      have hsame : Dict.get? (withResponses answers members) "a" = Dict.get? members "a" :=
        (Dict.get?_insert _ _ _ _).trans (if_neg (by decide))
      rw [hfirst, hsecond] at hdiffers
      exact hdiffers hsame.symm

end SolFront.Compilation
