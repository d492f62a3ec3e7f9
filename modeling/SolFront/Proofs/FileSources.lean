import SolFront.Compilation
import SolFront.Proofs.Dict

/-!
# Files as sources

Every file named on the command line is put under its unit name. Names can coincide: the base path
and an include path may each have a file of the same relative path, and both files are called by
that path. The dictionary keeps one of them, the one that is named last.

So what is under a name is the last file of that name, and no file is lost exactly if files of one
name have the same contents.
-/

namespace SolFront.Compilation

open SearchPath (canonicalName)

variable {m : Type → Type} [Monad m] [LawfulMonad m]

/-- The last of the files that has the unit name. -/
def lastNamed? (search : SearchPath) (paths : List String) (name : String) : Option String :=
  (paths.filter fun path => search.canonicalName path == name).getLast?

/-- The source that a file gives, if it can be read. -/
def sourceOf? : Except HostError String → Option Source
  | .ok text => some ⟨text⟩
  | .error _ => none

theorem sourceOf?_eq_some_iff {result : Except HostError String} {source : Source} :
    sourceOf? result = some source ↔ result = .ok source.content := by
  cases result with
  | ok text => cases source; simp [sourceOf?]
  | error e => simp [sourceOf?]

theorem lastNamed?_cons (search : SearchPath) (path : String) (paths : List String)
    (name : String) :
    lastNamed? search (path :: paths) name
      = (lastNamed? search paths name).or
          (if search.canonicalName path = name then some path else none) := by
  unfold lastNamed?
  rw [Dict.getLast?_filter_cons]
  simp only [beq_iff_eq]

theorem mem_of_lastNamed? {search : SearchPath} {paths : List String} {name path : String}
    (h : lastNamed? search paths name = some path) :
    path ∈ paths ∧ search.canonicalName path = name := by
  have hmem := List.mem_filter.mp (List.mem_of_getLast? h)
  exact ⟨hmem.1, beq_iff_eq.mp hmem.2⟩

theorem exists_lastNamed? {search : SearchPath} {paths : List String} {path : String}
    (h : path ∈ paths) :
    ∃ last, lastNamed? search paths (search.canonicalName path) = some last := by
  refine Option.isSome_iff_exists.mp (List.getLast?_isSome.mpr ?_)
  intro hnil
  exact List.filter_eq_nil_iff.mp hnil path h (beq_self_eq_true _)

section

variable {files : Files m} {contents : String → Except HostError String}

/-- **What the reading of unchanging files leaves.** The first file that cannot be read ends it; if
all can be read, each name has the last file of that name, or what it had before. -/
theorem readSources_run (hread : ∀ path, files.read path = pure (contents path))
    (search : SearchPath) : ∀ (paths : List String) (sources : Dict Source),
      (∃ path e, path ∈ paths ∧ contents path = .error e
        ∧ readSources files search sources paths = pure (.error (.unreadable path e)))
      ∨ ∃ final, readSources files search sources paths = pure (.ok final)
        ∧ (∀ path ∈ paths, ∃ text, contents path = .ok text)
        ∧ ∀ name, Dict.get? final name
          = ((lastNamed? search paths name).bind fun path => sourceOf? (contents path)).or
              (Dict.get? sources name)
  | [], sources => Or.inr ⟨sources, rfl, by simp, fun _ => rfl⟩
  | path :: paths, sources => by
      cases hpath : contents path with
      | error e =>
          refine Or.inl ⟨path, e, List.mem_cons_self, hpath, ?_⟩
          rewrite [readSources, hread, pure_bind, hpath]
          rfl
      | ok text =>
          have hstep : readSources files search sources (path :: paths)
              = readSources files search
                  (Dict.insert (search.canonicalName path) ⟨text⟩ sources) paths := by
            rewrite [readSources, hread, pure_bind, hpath]
            rfl
          rw [hstep]
          rcases readSources_run hread search paths
              (Dict.insert (search.canonicalName path) ⟨text⟩ sources) with
            ⟨bad, e, hmem, hbad, hrun⟩ | ⟨final, hrun, hall, hget⟩
          · exact Or.inl ⟨bad, e, List.mem_cons_of_mem path hmem, hbad, hrun⟩
          · refine Or.inr ⟨final, hrun, ?_, ?_⟩
            · intro other hother
              rcases List.mem_cons.mp hother with heq | hother
              · exact ⟨text, heq ▸ hpath⟩
              · exact hall other hother
            · intro name
              rw [hget name, Dict.get?_insert, lastNamed?_cons]
              cases hlast : lastNamed? search paths name with
              | some last =>
                  -- a later file of the name is there, and it can be read
                  obtain ⟨later, hlater⟩ := hall last (mem_of_lastNamed? hlast).1
                  simp [hlater, sourceOf?]
              | none =>
                  by_cases hname : name = search.canonicalName path
                  · simp [hname, hpath, sourceOf?]
                  · simp [hname, Ne.symm hname]

/-- **Of the files of one name the last one is kept.** Reading files that do not change ends with
the first that cannot be read, or all can be read and the request has the last file of every name
and nothing else. Then every file is there under its own name exactly if files of one name have the
same contents. -/
theorem readSources_keeps_last (hread : ∀ path, files.read path = pure (contents path))
    (search : SearchPath) (paths : List String) (optimize : Bool) (runs : UInt64) :
    (∃ path e, path ∈ paths ∧ contents path = .error e
      ∧ readSources files search [] paths = pure (.error (.unreadable path e)))
    ∨ ∃ sources, readSources files search [] paths = pure (.ok sources)
      ∧ (∀ path ∈ paths, ∃ text, contents path = .ok text)
      ∧ (∀ name source,
          Dict.get? (Request.forSources sources optimize runs).sources name = some source ↔
            ∃ path, lastNamed? search paths name = some path
              ∧ contents path = .ok source.content)
      ∧ ((∀ path ∈ paths, ∃ source,
            Dict.get? (Request.forSources sources optimize runs).sources
              (search.canonicalName path) = some source ∧ contents path = .ok source.content) ↔
          ∀ p ∈ paths, ∀ q ∈ paths, search.canonicalName p = search.canonicalName q →
            contents p = contents q) := by
  rcases readSources_run hread search paths [] with hbad | ⟨sources, hrun, hall, hget⟩
  · exact Or.inl hbad
  · have hkept : ∀ name source, Dict.get? sources name = some source ↔
        ∃ path, lastNamed? search paths name = some path
          ∧ contents path = .ok source.content := by
      intro name source
      rw [hget name, Dict.get?_nil, Option.or_none, Option.bind_eq_some_iff]
      exact exists_congr fun path => and_congr_right fun _ => sourceOf?_eq_some_iff
    refine Or.inr ⟨sources, hrun, hall, hkept, ?_, ?_⟩
    · -- two files of one name are both equal to what is there
      intro hown p hp q hq heq
      obtain ⟨source, hsource, hcontents⟩ := hown p hp
      obtain ⟨source', hsource', hcontents'⟩ := hown q hq
      have hsame : source = source' :=
        Option.some.inj (hsource.symm.trans ((congrArg _ heq).trans hsource'))
      rw [hcontents, hcontents', hsame]
    · -- the last file of the name is there, and it has the same contents
      intro hsame path hpath
      obtain ⟨last, hlast⟩ := exists_lastNamed? hpath
      obtain ⟨hmem, hname⟩ := mem_of_lastNamed? hlast
      obtain ⟨text, htext⟩ := hall last hmem
      exact ⟨⟨text⟩, (hkept _ _).mpr ⟨last, hlast, htext⟩,
        (hsame path hpath last hmem hname.symm).trans htext⟩

end

/-- Two files of one relative path in two directories, and a third file. -/
def siblings (path : String) : Except HostError String :=
  if path = "src/A.sol" then .ok "contract A"
  else if path = "inc/A.sol" then .ok "contract B"
  else if path = "src/C.sol" then .ok "contract C"
  else .error (.os .notFound)

/-- The base path `src` and the include path `inc`, seen from `/w`. -/
def srcAndInc : SearchPath where
  basePath := some "src"
  includePaths := ["inc"]
  workingDirectory := Path.ofString "/w"
  base_of_include := by decide
  include_ne_empty := by decide

/-- **A file is lost** if a later one has its name: both files called `A.sol` are read, and only the
second is in the request. -/
theorem readSources_loses_file :
    ¬ ∀ (search : SearchPath) (contents : String → Except HostError String) (paths : List String)
        (sources : Dict Source),
      Id.run (readSources (m := Id) ⟨fun _ => true, contents⟩ search [] paths) = .ok sources →
      ∀ path ∈ paths, ∃ source,
        Dict.get? sources (search.canonicalName path) = some source
          ∧ contents path = .ok source.content := by
  intro hall
  have hname : srcAndInc.canonicalName "src/A.sol" = "A.sol" := by decide +kernel
  have hsecond : srcAndInc.canonicalName "inc/A.sol" = "A.sol" := by decide +kernel
  have hrun : Id.run (readSources (m := Id) ⟨fun _ => true, siblings⟩ srcAndInc []
      ["src/A.sol", "inc/A.sol"]) = .ok [("A.sol", ⟨"contract B"⟩)] := by
    have hread : Id.run (readSources (m := Id) ⟨fun _ => true, siblings⟩ srcAndInc []
        ["src/A.sol", "inc/A.sol"])
        = .ok (Dict.insert (srcAndInc.canonicalName "inc/A.sol") ⟨"contract B"⟩
            (Dict.insert (srcAndInc.canonicalName "src/A.sol") ⟨"contract A"⟩ [])) := rfl
    rw [hread, hname, hsecond]
    rfl
  obtain ⟨source, hsource, hcontents⟩ :=
    hall srcAndInc siblings _ _ hrun "src/A.sol" List.mem_cons_self
  rw [hname] at hsource
  cases hsource
  have hfirst : siblings "src/A.sol" = .ok "contract A" := rfl
  rw [hfirst] at hcontents
  exact absurd (Except.ok.inj hcontents) (by decide)

/-- Three files of which two have one name. All can be read, so they are put into a request. -/
theorem readSources_keeps_last_siblings :
    (∀ path, (⟨fun _ => true, siblings⟩ : Files Id).read path = pure (siblings path))
    ∧ ∃ sources, readSources (m := Id) ⟨fun _ => true, siblings⟩ srcAndInc []
          ["src/A.sol", "inc/A.sol", "src/C.sol"] = pure (.ok sources)
      ∧ (∀ path ∈ ["src/A.sol", "inc/A.sol", "src/C.sol"], ∃ text, siblings path = .ok text)
      ∧ (∀ name source,
          Dict.get? (Request.forSources sources true 200).sources name = some source ↔
            ∃ path, lastNamed? srcAndInc ["src/A.sol", "inc/A.sol", "src/C.sol"] name = some path
              ∧ siblings path = .ok source.content)
      ∧ ((∀ path ∈ ["src/A.sol", "inc/A.sol", "src/C.sol"], ∃ source,
            Dict.get? (Request.forSources sources true 200).sources
              (srcAndInc.canonicalName path) = some source
              ∧ siblings path = .ok source.content) ↔
          ∀ p ∈ ["src/A.sol", "inc/A.sol", "src/C.sol"],
            ∀ q ∈ ["src/A.sol", "inc/A.sol", "src/C.sol"],
              srcAndInc.canonicalName p = srcAndInc.canonicalName q →
                siblings p = siblings q) := by
  have hread : ∀ path, (⟨fun _ => true, siblings⟩ : Files Id).read path = pure (siblings path) :=
    fun _ => rfl
  have hkeeps := readSources_keeps_last hread srcAndInc ["src/A.sol", "inc/A.sol", "src/C.sol"]
    true 200
  refine ⟨hread, hkeeps.resolve_left ?_⟩
  rintro ⟨path, e, hmem, hbad, -⟩
  have hreadable : ∀ path ∈ ["src/A.sol", "inc/A.sol", "src/C.sol"],
      (siblings path).isOk = true := by decide
  have hok := hreadable path hmem
  rw [hbad] at hok
  cases hok

end SolFront.Compilation
