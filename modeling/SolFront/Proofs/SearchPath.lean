import SolFront.Proofs.Path.Bytewise
import SolFront.SearchPath

/-!
# Names and files

A file named on the command line gets its unit name from the first directory it lies in, and
what is imported under that name is looked for below the prefixes as given. Both go the same way:
the name below a prefix leads where the way behind the prefix leads, and that is the file. So the
file itself is found, unless something else of the same name stands before it.
-/

namespace SolFront.SearchPath

open SolFront.Path (Onward Resolved ofString resolve written_ofString resolve_resolved)

/-! ## Directories -/

/-- What a search path is made from. -/
theorem fields_of_new {base : Option String} {includes : List String} {cwd : Path}
    {s : SearchPath} (h : new base includes cwd = .ok s) :
    s.basePath = base ∧ s.includePaths = includes ∧ s.workingDirectory = cwd := by
  unfold new at h
  split at h
  · split at h
    · cases h
      exact ⟨rfl, rfl, rfl⟩
    · cases h
  · cases h

theorem new_fields (s : SearchPath) : new s.basePath s.includePaths s.workingDirectory = .ok s := by
  unfold new
  rw [dif_pos s.base_of_include, dif_pos s.include_ne_empty]

theorem workingDirectory_of_new {base : Option String} {includes : List String} {cwd : Path}
    {s : SearchPath} (h : new base includes cwd = .ok s) : s.workingDirectory = cwd :=
  (fields_of_new h).2.2

/-- Nothing and `.` both lead to the working directory. -/
theorem resolve_here (cwd : Path) : resolve cwd (ofString ".") = resolve cwd (ofString "") := by
  have hhere : ofString "." = ofString "" ++ [.here] := by decide +kernel
  rw [hhere, Path.resolve_append cwd _ rfl]
  exact List.reverse_reverse _

theorem getD_of_not_givesBase {base : Option String} (h : givesBase base = false) :
    base.getD "" = "" := by
  cases base with
  | none => rfl
  | some path =>
      have hne : (path != "") = false := h
      exact bne_eq_false_iff_eq.mp hne

/-- The directories are where the prefixes lead; an empty prefix is the working directory. -/
theorem directories_eq (s : SearchPath) :
    s.directories = s.prefixes.map fun p => resolve s.workingDirectory (ofString p) := by
  unfold directories prefixes
  rw [List.map_cons, List.map_cons]
  by_cases hbase : s.hasBase = true
  · rw [if_pos hbase]
  · rw [if_neg hbase, resolve_here, getD_of_not_givesBase (Bool.eq_false_iff.mpr hbase)]

/-! ## Files whose paths are text -/

theorem seenFrom_ofString (cwd : Path) (text : String) :
    (OsPath.ofString text).seenFrom cwd = (resolve cwd (ofString text)).bytewise :=
  Path.resolve_path_ofString cwd text

/-- Where a path leads is resolved, be it text or not. -/
theorem resolved_of_seenFrom {cwd : String} (habs : (ofString cwd).isAbsolute = true)
    {file : OsPath} {source : Path} (h : file.seenFrom (ofString cwd) = source.bytewise) :
    Resolved source := by
  refine Path.resolved_of_bytewise ?_
  rw [← h, OsPath.seenFrom, ← Path.path_ofString]
  refine resolve_resolved (written_ofString _) ?_ (written_ofString _)
  exact (congrArg _ (Path.path_ofString cwd)).trans ((Path.isAbsolute_bytewise _).trans habs)

theorem nameIn?_bytewise (directory source : Path) :
    nameIn? directory.bytewise source.bytewise = (nameIn? directory source).map Path.bytewise := by
  unfold nameIn?
  rw [Path.relativeTo?_bytewise]
  cases directory.relativeTo? source with
  | none => rfl
  | some way =>
      rw [Option.map_some, Option.filter_some, Option.filter_some, Path.isEscaping_bytewise]
      cases way.isEscaping <;> rfl

/-- **The name of a file is made from the text of its path**, if where the path leads is text. -/
theorem nameOf_eq {s : SearchPath} {file : OsPath} {source : Path}
    (h : file.seenFrom s.workingDirectory = source.bytewise) :
    s.nameOf file = Path.toString ((s.directories.findSome? (nameIn? · source)).getD source) := by
  have hfirst : s.directories.findSome? (nameIn? ·.bytewise source.bytewise)
      = (s.directories.findSome? (nameIn? · source)).map Path.bytewise := by
    rw [List.map_findSome?]
    exact congrArg (List.findSome? · s.directories) (funext (nameIn?_bytewise · source))
  unfold nameOf
  dsimp only
  rw [h, hfirst, Option.getD_map, Path.shown_bytewise]

theorem canonicalName_eq (s : SearchPath) (file : String) :
    s.canonicalName file
      = Path.toString ((s.directories.findSome?
          (nameIn? · (resolve s.workingDirectory (ofString file)))).getD
        (resolve s.workingDirectory (ofString file))) :=
  nameOf_eq (seenFrom_ofString _ file)

/-! ## Names below prefixes -/

theorem ofString_candidate (p : String) {way : Path} (h : Onward way) :
    ofString (candidate p (Path.toString way)) = ofString p ++ way := by
  unfold candidate
  by_cases hp : p = ""
  · rw [if_pos hp, hp, Path.ofString_toString h]
    rfl
  · rw [if_neg hp, Path.ofString_append hp, Path.segments_toString h]

/-- **The way from a prefix to a file leads to the file**, put below the prefix as a text. -/
theorem resolve_candidate {cwd : Path} (hcwd : Path.Written cwd) (habs : cwd.isAbsolute = true)
    {p : String} {source way : Path} (hsource : Resolved source)
    (hway : (resolve cwd (ofString p)).relativeTo? source = some way) :
    resolve cwd (ofString (candidate p (Path.toString way))) = source := by
  have hprefix := resolve_resolved hcwd habs (written_ofString p)
  obtain ⟨way', hway', honward, hwalk⟩ := Path.relativeTo?_resolved hprefix hsource
  rw [hway'] at hway
  cases hway
  rw [ofString_candidate p honward, Path.resolve_append cwd _ honward.isAbsolute, hwalk]

/-- A name is given to a file by the first directory that it lies in. -/
theorem exists_first {s : SearchPath} {file : OsPath} {source : Path}
    (hsource : file.seenFrom s.workingDirectory = source.bytewise) {k : Nat}
    (hk : (s.directories.findIdx? fun directory => (nameIn? directory source).isSome) = some k) :
    ∃ p way, s.prefixes = s.prefixes.take k ++ p :: s.prefixes.drop (k + 1) ∧
      (resolve s.workingDirectory (ofString p)).relativeTo? source = some way ∧
      s.nameOf file = Path.toString way := by
  -- the first directory with a name for the file is the one that is counted
  obtain ⟨hlt, hsome, hbefore⟩ := List.findIdx?_eq_some_iff_getElem.mp hk
  obtain ⟨way, hway⟩ := Option.isSome_iff_exists.mp hsome
  have hlen : k < s.prefixes.length := by
    rw [directories_eq, List.length_map] at hlt
    exact hlt
  have hat : s.directories[k] = resolve s.workingDirectory (ofString s.prefixes[k]) := by
    simp only [directories_eq, List.getElem_map]
  have hfirst : s.directories.findSome? (nameIn? · source) = some way := by
    refine List.findSome?_eq_some_iff.mpr
      ⟨s.directories.take k, s.directories[k], s.directories.drop (k + 1), ?_, hway, ?_⟩
    · rw [← List.drop_eq_getElem_cons hlt, List.take_append_drop]
    · intro directory hmem
      obtain ⟨j, hj, heq⟩ := List.getElem_of_mem hmem
      rw [List.length_take] at hj
      rw [List.getElem_take] at heq
      have hnot := hbefore j (by omega)
      rw [heq] at hnot
      exact Option.not_isSome_iff_eq_none.mp hnot
  refine ⟨s.prefixes[k], way, ?_, ?_, ?_⟩
  · rw [← List.drop_eq_getElem_cons hlen, List.take_append_drop]
  · rw [← hat]
    exact (Option.filter_eq_some_iff.mp hway).1
  · rw [nameOf_eq hsource, hfirst]
    rfl

/-! ## Finding files -/

variable {m : Type → Type} [Monad m] [LawfulMonad m]

/-- The answers about a file depend only on where its path leads. -/
structure Located (files : Files m) (cwd : Path) (present : Path → Bool)
    (contents : Path → Except HostError String) : Prop where
  present_eq : ∀ path, files.present path = pure (present ((OsPath.ofString path).seenFrom cwd))
  read_eq : ∀ path, files.read path = pure (contents ((OsPath.ofString path).seenFrom cwd))

theorem readFirst_cons_absent {files : Files m} {path : String}
    (h : files.present path = pure false) (paths : List String) :
    readFirst files (path :: paths) = readFirst files paths := by
  rw [readFirst, h, pure_bind, if_neg Bool.false_ne_true]

/-- **Files that are not there are passed over**, as many as there are. -/
theorem readFirst_append_absent {files : Files m} {absent : List String}
    (h : ∀ path ∈ absent, files.present path = pure false) (paths : List String) :
    readFirst files (absent ++ paths) = readFirst files paths := by
  induction absent with
  | nil => rfl
  | cons path absent ih =>
      rw [List.cons_append, readFirst_cons_absent (h path List.mem_cons_self)]
      exact ih fun other hother => h other (List.mem_cons_of_mem path hother)

theorem readFirst_cons_present {files : Files m} {path : String}
    (h : files.present path = pure true) (paths : List String) :
    readFirst files (path :: paths) = answerFor path <$> files.read path := by
  rw [readFirst, h, pure_bind, if_pos rfl, map_eq_pure_bind]

/-- **A file is found under its own name**, if where its path leads is text. The import of the unit
name that the file has been given is answered with the contents of the file, if none of the prefixes
before the one that gave the name has something there. -/
theorem find_nameOf {base : Option String} {includes : List String} {cwd : String}
    {s : SearchPath} (hnew : new base includes (ofString cwd) = .ok s)
    (habs : (ofString cwd).isAbsolute = true) {files : Files m} {present : Path → Bool}
    {contents : Path → Except HostError String}
    (hfiles : Located files (ofString cwd) present contents) {file : OsPath} {source : Path}
    (hsource : file.seenFrom (ofString cwd) = source.bytewise)
    (hpresent : present (file.seenFrom (ofString cwd)) = true) {text : String}
    (htext : contents (file.seenFrom (ofString cwd)) = .ok text) {k : Nat}
    (hk : (s.directories.findIdx? fun directory =>
      (nameIn? directory.bytewise (file.seenFrom (ofString cwd))).isSome) = some k)
    (hbefore : ∀ p ∈ s.prefixes.take k,
      present ((OsPath.ofString (candidate p (s.nameOf file))).seenFrom (ofString cwd)) = false) :
    s.find files (s.nameOf file) = pure (.contents text) := by
  have hcwd := workingDirectory_of_new hnew
  rw [hsource] at hpresent htext hk
  simp only [nameIn?_bytewise, Option.isSome_map] at hk
  obtain ⟨p, way, hprefixes, hway, hname⟩ := exists_first (hcwd.symm ▸ hsource) hk
  rw [hcwd] at hway
  have hplace := resolve_candidate (written_ofString cwd) habs (resolved_of_seenFrom habs hsource)
    hway
  -- the candidates before the file are absent, and the next one is the file
  have habsent : ∀ path ∈ (s.prefixes.take k).map (candidate · (s.nameOf file)),
      files.present path = pure false := by
    intro path hmem
    obtain ⟨q, hq, rfl⟩ := List.mem_map.mp hmem
    rw [hfiles.present_eq, hbefore q hq]
  have hthere : files.present (candidate p (s.nameOf file)) = pure true := by
    rw [hfiles.present_eq, seenFrom_ofString, hname, hplace, hpresent]
  have hread : files.read (candidate p (s.nameOf file)) = pure (.ok text) := by
    rw [hfiles.read_eq, seenFrom_ofString, hname, hplace, htext]
  unfold find
  rw [hprefixes, List.map_append, List.map_cons, readFirst_append_absent habsent,
    readFirst_cons_present hthere, hread, map_pure]
  rfl

/-- Two directories seen from `/w`. -/
def libAndInc : SearchPath where
  basePath := some "lib/../src"
  includePaths := ["./inc/"]
  workingDirectory := ofString "/w"
  base_of_include := by decide
  include_ne_empty := by decide

/-- There is one file, and it is where `file` leads from `/w`. -/
def onlyFile (file : OsPath) : Files Id where
  present path := (OsPath.ofString path).seenFrom (ofString "/w") == file.seenFrom (ofString "/w")
  read _ := .ok "contract A"

theorem located_onlyFile (file : OsPath) :
    Located (onlyFile file) (ofString "/w") (· == file.seenFrom (ofString "/w"))
      fun _ => .ok "contract A" :=
  ⟨fun _ => rfl, fun _ => rfl⟩

/-- The path is not text, since a byte of it begins no character, but it leads to `/w/inc/ä.sol`.
This file is called `ä.sol` for the include path, and it is found there behind a base path that has
no `ä.sol`. -/
theorem find_nameOf_included :
    new (some "lib/../src") ["./inc/"] (ofString "/w") = .ok libAndInc
      ∧ libAndInc.nameOf ⟨0xff :: Text.encode "/../inc/ä.sol"⟩ = "ä.sol"
      ∧ libAndInc.find (onlyFile ⟨0xff :: Text.encode "/../inc/ä.sol"⟩)
          (libAndInc.nameOf ⟨0xff :: Text.encode "/../inc/ä.sol"⟩)
        = pure (.contents "contract A") := by
  have hnew := new_fields libAndInc
  have hsource : OsPath.seenFrom ⟨0xff :: Text.encode "/../inc/ä.sol"⟩ (ofString "/w")
      = (ofString "/w/inc/ä.sol").bytewise := by decide +kernel
  refine ⟨hnew, by decide +kernel, ?_⟩
  exact find_nameOf hnew (by decide +kernel) (located_onlyFile _) hsource (by decide +kernel) rfl
    (show _ = some 1 by decide +kernel) (by decide +kernel)

/-- It has to be text where the path leads. A name with a byte that begins no character is replaced
by a text, and there is no file of that text. -/
theorem not_find_nameOf :
    ¬ ∀ (base : Option String) (includes : List String) (cwd : String) (s : SearchPath),
      new base includes (ofString cwd) = .ok s → (ofString cwd).isAbsolute = true →
      ∀ (files : Files Id) (present : Path → Bool) (contents : Path → Except HostError String),
        Located files (ofString cwd) present contents →
      ∀ (file : OsPath) (text : String) (k : Nat),
        present (file.seenFrom (ofString cwd)) = true →
        contents (file.seenFrom (ofString cwd)) = .ok text →
        (s.directories.findIdx? fun directory =>
          (nameIn? directory.bytewise (file.seenFrom (ofString cwd))).isSome) = some k →
        (∀ p ∈ s.prefixes.take k,
          present ((OsPath.ofString (candidate p (s.nameOf file))).seenFrom (ofString cwd))
            = false) →
        s.find files (s.nameOf file) = pure (.contents text) := by
  intro h
  have hname : libAndInc.nameOf ⟨Text.encode "src/" ++ [0xff]⟩ = "\ufffd" := by decide +kernel
  have habsent : ∀ path ∈ libAndInc.prefixes.map (candidate · "\ufffd"),
      (onlyFile ⟨Text.encode "src/" ++ [0xff]⟩).present path = pure false := by
    have helsewhere : ∀ path ∈ libAndInc.prefixes.map (candidate · "\ufffd"),
        ((OsPath.ofString path).seenFrom (ofString "/w")
          == OsPath.seenFrom ⟨Text.encode "src/" ++ [0xff]⟩ (ofString "/w")) = false := by
      decide +kernel
    exact helsewhere
  have hfound := h (some "lib/../src") ["./inc/"] "/w" libAndInc (new_fields libAndInc)
    (by decide +kernel) (onlyFile ⟨Text.encode "src/" ++ [0xff]⟩) _ _ (located_onlyFile _)
    ⟨Text.encode "src/" ++ [0xff]⟩ "contract A" 0 (beq_self_eq_true _) rfl (by decide +kernel)
    (fun p hp => absurd hp List.not_mem_nil)
  have hmissed := readFirst_append_absent habsent []
  rw [List.append_nil, ← hname] at hmissed
  cases hmissed.symm.trans hfound

end SolFront.SearchPath
