import SolFront.Proofs.Import.Filling
import SolFront.Proofs.SearchPath

/-!
# What is asked of the files

An import is looked for file by file, in the order of the prefixes. The files are asked whether the
first one exists, then the next one, up to the first that does; that one is read, and nothing else
is. So what stands behind it has no part in the answer, and more include paths make a difference
only to what is not found without them.

The files may answer differently from one question to the next: a file may be gone when it is read.
-/

namespace SolFront.SearchPath

variable {σ ρ : Type}

/-! ## Candidates -/

/-- Without a base path there is no other prefix, and no prefix is empty behind a base path. -/
theorem prefixes_cases (s : SearchPath) : s.prefixes = [""] ∨ "" ∉ s.prefixes := by
  unfold prefixes
  by_cases hbase : s.basePath.getD "" = ""
  · left
    have hnot : givesBase s.basePath = false := by
      cases h : s.basePath with
      | none => rfl
      | some base =>
          rw [h] at hbase
          obtain rfl : base = "" := hbase
          rfl
    have hincludes : s.includePaths = [] := by
      refine Decidable.byContradiction fun hne => ?_
      have hgives := s.base_of_include hne
      rw [hnot] at hgives
      cases hgives
    rw [hbase, hincludes]
  · right
    intro hmem
    rcases List.mem_cons.mp hmem with h | h
    · exact hbase h.symm
    · exact s.include_ne_empty "" h rfl

/-- The files that an import can be: the import itself if there is only the empty prefix, and else
the import below each prefix. -/
inductive Candidates (unit : String) : List String → List String → Prop where
  | bare : Candidates unit [""] [unit]
  | below {prefixes : List String} (h : "" ∉ prefixes) :
      Candidates unit prefixes (prefixes.map (· ++ "/" ++ unit))

theorem candidates_prefixes (s : SearchPath) (unit : String) :
    Candidates unit s.prefixes (s.prefixes.map (candidate · unit)) := by
  rcases s.prefixes_cases with h | h
  · rw [h]
    exact .bare
  · have hbelow : s.prefixes.map (candidate · unit) = s.prefixes.map (· ++ "/" ++ unit) := by
      refine List.map_congr_left fun p hp => ?_
      exact if_neg (ne_of_mem_of_not_mem hp h)
    rw [hbelow]
    exact .below h

/-! ## Questions to the files -/

/-- A question to the files, with what they answer. -/
inductive Access where
  | checked (path : String) (there : Bool)
  | opened (path : String) (result : Except HostError String)

/-- The files under a record of what they are asked and what they answer. -/
def watched (files : Files (StateM σ)) : Files (StateM (σ × List Access)) where
  present path := fun t =>
    let there := (files.present path).run t.1
    (there.1, (there.2, t.2 ++ [.checked path there.1]))
  read path := fun t =>
    let result := (files.read path).run t.1
    (result.1, (result.2, t.2 ++ [.opened path result.1]))

/-- Candidates, the questions about them in order, and the answer to the import. -/
inductive Probed : List String → List Access → ImportAnswer → Prop where
  /-- The first file that exists is read, and the ones after it are not asked for. -/
  | found {before after : List String} {path text : String} :
      Probed (before ++ path :: after)
        (before.map (.checked · false) ++ [.checked path true, .opened path (.ok text)])
        (.contents text)
  /-- If it cannot be read, that is the answer. -/
  | unreadable {before after : List String} {path : String} {e : HostError} :
      Probed (before ++ path :: after)
        (before.map (.checked · false) ++ [.checked path true, .opened path (.error e)])
        (.error ("Error reading " ++ path ++ ": " ++ e.message))
  /-- If none exists, each is asked for once and none is read. -/
  | absent {paths : List String} : Probed paths (paths.map (.checked · false))
      (.error "File not found inside the base path or any of the include paths.")

/-- One more file in front, which does not exist. -/
theorem Probed.cons {paths : List String} {log : List Access} {answer : ImportAnswer}
    (h : Probed paths log answer) (path : String) :
    Probed (path :: paths) (.checked path false :: log) answer := by
  cases h with
  | @found before => exact @Probed.found (path :: before) _ _ _
  | @unreadable before => exact @Probed.unreadable (path :: before) _ _ _
  | @absent => exact @Probed.absent (path :: paths)

theorem readFirst_cons_run (files : Files (StateM ρ)) (path : String) (paths : List String)
    (s : ρ) :
    (readFirst files (path :: paths)).run s
      = match (files.present path).run s with
        | (true, s') =>
          (answerFor path ((files.read path).run s').1, ((files.read path).run s').2)
        | (false, s') => (readFirst files paths).run s' := by
  rw [readFirst, Import.run_then]
  rcases (files.present path).run s with ⟨there, s'⟩
  cases there <;> rfl

/-- **Files are asked for in order up to the first that exists**, and that one is read. The record
changes nothing. -/
theorem readFirst_probed (files : Files (StateM σ)) :
    ∀ (paths : List String) (s : σ) (log : List Access), ∃ answer s' more,
      (readFirst files paths).run s = (answer, s')
      ∧ (readFirst (watched files) paths).run (s, log) = (answer, (s', log ++ more))
      ∧ Probed paths more answer
  | [], s, log => ⟨notFound, s, [], rfl, by rw [List.append_nil]; rfl, @Probed.absent []⟩
  | path :: paths, s, log => by
      rw [readFirst_cons_run, readFirst_cons_run]
      have hwatched : ((watched files).present path).run (s, log)
          = (((files.present path).run s).1,
              (((files.present path).run s).2,
                log ++ [.checked path ((files.present path).run s).1])) := rfl
      rw [hwatched]
      rcases (files.present path).run s with ⟨there, s₁⟩
      cases there with
      | false =>
          obtain ⟨answer, s', more, hrun, hmore, hprobed⟩ :=
            readFirst_probed files paths s₁ (log ++ [.checked path false])
          refine ⟨answer, s', .checked path false :: more, hrun, ?_, hprobed.cons path⟩
          rw [List.append_assoc] at hmore
          exact hmore
      | true =>
          have hread : ((watched files).read path).run (s₁, log ++ [.checked path true])
              = (((files.read path).run s₁).1, (((files.read path).run s₁).2,
                  log ++ [.checked path true, .opened path ((files.read path).run s₁).1])) := by
            show (_, (_, log ++ _ ++ _)) = _
            rw [List.append_assoc]
            rfl
          dsimp only
          rw [hread]
          refine ⟨_, _, _, rfl, rfl, ?_⟩
          cases ((files.read path).run s₁).1 with
          | ok text => exact @Probed.found [] paths path text
          | error e => exact @Probed.unreadable [] paths path e

/-- **What is found stays what it is** when there are more files behind. -/
theorem readFirst_append_run (files : Files (StateM ρ)) (more : List String) :
    ∀ (paths : List String) (s : ρ), ((readFirst files paths).run s).1 ≠ notFound →
      (readFirst files (paths ++ more)).run s = (readFirst files paths).run s
  | [], _, h => absurd rfl h
  | path :: paths, s, h => by
      rw [readFirst_cons_run] at h
      rw [List.cons_append, readFirst_cons_run, readFirst_cons_run]
      rcases hpresent : (files.present path).run s with ⟨there, s'⟩
      rw [hpresent] at h
      cases there with
      | true => rfl
      | false => exact readFirst_append_run files more paths s' h

/-- **An import is looked for in order, and one file is opened at most.** The questions to the files
are those about the candidates up to the first that exists, with one reading at the end, and the
answer is what has been read or why it cannot be; or they are about each candidate once, and the
answer is that there is none. If a candidate exists, readable or not, more include paths change
neither the answer nor the questions. -/
theorem find_probed {base : Option String} {includes : List String} {cwd : Path} {s : SearchPath}
    (hnew : new base includes cwd = .ok s) (files : Files (StateM σ)) (unit : String) (st : σ) :
    ∃ paths answer st' log, Candidates unit (base.getD "" :: includes) paths
      ∧ (s.find files unit).run st = (answer, st')
      ∧ (s.find (watched files) unit).run (st, []) = (answer, (st', log))
      ∧ Probed paths log answer
      ∧ ∀ (more : List String) (s' : SearchPath), new base (includes ++ more) cwd = .ok s' →
          answer ≠ notFound →
          (s'.find (watched files) unit).run (st, []) = (answer, (st', log)) := by
  obtain ⟨hbase, hincludes, -⟩ := fields_of_new hnew
  have hprefixes : s.prefixes = base.getD "" :: includes := by rw [← hbase, ← hincludes]; rfl
  obtain ⟨answer, st', log, hrun, hwatched, hprobed⟩ :=
    readFirst_probed files (s.prefixes.map (candidate · unit)) st []
  rw [List.nil_append] at hwatched
  refine ⟨_, answer, st', log, hprefixes ▸ s.candidates_prefixes unit, hrun, hwatched, hprobed, ?_⟩
  intro more s' hnew' hfound
  obtain ⟨hbase', hincludes', -⟩ := fields_of_new hnew'
  have hprefixes' : s'.prefixes = s.prefixes ++ more := by
    rw [hprefixes]
    unfold prefixes
    rw [hbase', hincludes', List.cons_append]
  unfold find
  rw [hprefixes', List.map_append, readFirst_append_run, hwatched]
  rw [hwatched]
  exact hfound

/-- Files that are not there at the first question, are there from then on, and are gone again when
they are read. -/
def fleeting : Files (StateM Nat) where
  present _ := fun questions => (questions != 0, questions + 1)
  read _ := fun questions => (.error (.os .notFound), questions + 1)

/-- Three prefixes, and the second one answers that the file exists. -/
def threePrefixes : SearchPath :=
  ⟨some "src", ["inc", "lib"], Path.ofString "/w", by decide, by decide⟩

/-- The same prefixes, and one more that is the second one again. -/
def fourPrefixes : SearchPath :=
  ⟨some "src", ["inc", "lib", "inc"], Path.ofString "/w", by decide, by decide⟩

/-- The third prefix is not asked for although the file below the second one cannot be read, and a
fourth one makes no difference. -/
theorem find_probed_fleeting :
    new (some "src") ["inc", "lib"] (Path.ofString "/w") = .ok threePrefixes
      ∧ new (some "src") (["inc", "lib"] ++ ["inc"]) (Path.ofString "/w") = .ok fourPrefixes
      ∧ (fourPrefixes.find (watched fleeting) "a.sol").run (0, [])
        = (.error "Error reading inc/a.sol: No such file or directory (os error 2)", (3,
          [.checked "src/a.sol" false, .checked "inc/a.sol" true,
            .opened "inc/a.sol" (.error (.os .notFound))])) := by
  have hthree := new_fields threePrefixes
  have hfour := new_fields fourPrefixes
  have hruns : (threePrefixes.find (watched fleeting) "a.sol").run (0, [])
      = (.error "Error reading inc/a.sol: No such file or directory (os error 2)", (3,
        [.checked "src/a.sol" false, .checked "inc/a.sol" true,
          .opened "inc/a.sol" (.error (.os .notFound))])) := rfl
  obtain ⟨_, answer, _, _, -, -, hwatched, -, hmore⟩ := find_probed hthree fleeting "a.sol" 0
  rw [hruns] at hwatched
  cases hwatched
  exact ⟨hthree, hfour, hmore ["inc"] fourPrefixes hfour (by decide)⟩

end SolFront.SearchPath
