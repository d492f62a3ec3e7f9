import SolFront.Artifacts
import SolFront.Machine
import SolFront.Proofs.FileTree.Directories
import SolFront.Proofs.Import.Filling
import SolFront.Proofs.Text

/-!
# What the artifact files hold

Files are written one after the other, so a file holds what was written to it last. Two contracts
write to the same file if their file names are equal, which they are for some that lie in different
units: all separators become the same character. Then the last of the contracts is the one that is
kept. In a directory with links, different names can be one file too.
-/

namespace SolFront.Artifact

open FileTree (LeadsTo IsLink Names Proper)

/-! ## Paths in a directory -/

theorem startsWith_slash_append (cs ds : List Char) :
    Text.startsWith ['/'] (cs ++ '/' :: ds) = Text.startsWith ['/'] (cs ++ ['/']) := by
  cases cs <;> rfl

/-- Unless the directory is the working directory, its text and a separator are before the name. -/
theorem exists_pathIn {directory : String} (h : directory ≠ "") :
    ∃ before : List Char,
      (directory.toList = before ∨ directory.toList = before ++ ['/'])
      ∧ ∀ name, (pathIn directory name).toList = before ++ '/' :: name.toList := by
  by_cases hslash : directory.toList.getLast? = some '/'
  · obtain ⟨before, hdirectory⟩ := List.getLast?_eq_some_iff.mp hslash
    refine ⟨before, .inr hdirectory, fun name => ?_⟩
    unfold pathIn
    rw [if_pos (by simp [hslash]), String.toList_append, hdirectory, List.append_assoc,
      List.singleton_append]
  · refine ⟨directory.toList, .inl rfl, fun name => ?_⟩
    unfold pathIn
    rw [if_neg (by simp [h, hslash]), String.toList_append, String.toList_append,
      List.append_assoc]
    rfl

theorem pathIn_empty (name : String) : pathIn "" name = name := by
  unfold pathIn
  rw [if_pos (by decide), String.empty_append]

/-- **The path of a file** is that of the directory and one more name. -/
theorem names_pathIn (directory : String) {name : String} (hproper : Proper name)
    (hslash : '/' ∉ name.toList) : Names directory (pathIn directory name) name := by
  have hnil : name.toList ≠ [] := fun h => hproper.ne_empty (String.toList_eq_nil_iff.mp h)
  have hname : ∀ before : List (List Char),
      (before ++ [name.toList]).getLast? ≠ some []
        ∧ ((before ++ [name.toList]).filter (· ≠ [])).map String.ofList
          = (before.filter (· ≠ [])).map String.ofList ++ [name] := by
    intro before
    simp [hnil]
  by_cases hempty : directory = ""
  · rw [hempty, pathIn_empty]
    refine ⟨?_, fun here => ?_, hproper⟩
    · unfold FileTree.namesOf
      rw [Text.splitOn_of_not_mem hslash]
      simp [hnil, Text.splitOn]
    · unfold FileTree.startOf
      cases hcs : name.toList with
      | nil => exact absurd hcs hnil
      | cons c cs =>
          have hc : c ≠ '/' := fun h => hslash (hcs ▸ h ▸ List.mem_cons_self)
          simp [Text.startsWith, Ne.symm hc]
  · obtain ⟨before, hdirectory, hbefore⟩ := exists_pathIn hempty
    have hsplit : Text.splitOn '/' (pathIn directory name).toList
        = Text.splitOn '/' before ++ [name.toList] := by
      rw [hbefore, Text.splitOn_append_cons, Text.splitOn_of_not_mem hslash]
    refine ⟨?_, fun here => ?_, hproper⟩
    · rw [FileTree.filter_namesOf]
      unfold FileTree.namesOf
      rw [hsplit]
      dsimp only
      rw [if_neg (hname _).1, (hname _).2]
      rcases hdirectory with hdirectory | hdirectory
      · rw [hdirectory]
      · -- the piece behind the last separator is empty
        rw [hdirectory, Text.splitOn_append_cons]
        simp [Text.splitOn]
    · unfold FileTree.startOf
      rw [hbefore, startsWith_slash_append]
      rcases hdirectory with hdirectory | hdirectory
      · rw [hdirectory]
        cases hcs : before with
        | nil => exact absurd (String.toList_eq_nil_iff.mp (hdirectory.trans hcs)) hempty
        | cons c cs => rfl
      · rw [hdirectory]

/-- The file name of a contract. -/
def stem (a : Artifact) : String := fileName a.unit a.contract

theorem not_mem_stem (a : Artifact) {c : Char} (h : isSeparator c = true) :
    c ∉ a.stem.toList := by
  unfold stem fileName
  rw [String.toList_ofList]
  intro hmem
  obtain ⟨d, -, hd⟩ := List.mem_map.mp hmem
  split at hd
  · subst hd
    exact absurd h (by decide)
  · rename_i hnot
    exact hnot (hd ▸ h)

/-- Behind an extension the file name is a name in the directory. -/
theorem proper_stem (a : Artifact) {extension : String}
    (h : extension = ".abi" ∨ extension = ".bin") :
    Proper (a.stem ++ extension) ∧ '/' ∉ (a.stem ++ extension).toList := by
  have hslash := not_mem_stem a (c := '/') (by decide)
  have hfour : extension.length = 4 := by rcases h with rfl | rfl <;> rfl
  have hlast : ∀ name : String, name.length < 4 → a.stem ++ extension ≠ name := by
    rintro name hlength rfl
    rw [String.length_append] at hlength
    omega
  refine ⟨⟨hlast "" (by decide), hlast "." (by decide), hlast ".." (by decide)⟩, ?_⟩
  rw [String.toList_append, List.mem_append]
  rintro (hmem | hmem)
  · exact hslash hmem
  · rcases h with rfl | rfl <;> exact absurd hmem (by decide)

/-! ## Writing files -/

/-- The last of the files whose path in the directory leads to the location. -/
def lastAt? (t : FileTree) (here : Location) (directory : String) (files : List File)
    (location : Location) : Option File :=
  (files.filter fun f => t.location? here (pathIn directory f.name) == some location).getLast?

theorem lastAt?_cons (t : FileTree) (here : Location) (directory : String) (f : File)
    (files : List File) (location : Location) :
    lastAt? t here directory (f :: files) location
      = (lastAt? t here directory files location).or
          (if t.location? here (pathIn directory f.name) = some location then some f
            else none) := by
  unfold lastAt?
  rw [Dict.getLast?_filter_cons]
  simp only [beq_iff_eq]

/-- What is in a file after the last writing to it, if there is any. -/
def contentsOf (last : Option File) (before : Entry) : Entry :=
  (last.map fun f => Entry.file (Text.encode f.text)).getD before

/-- How a file can be written to a tree: as a whole, not at all, or up to where the disk breaks. -/
inductive Attempt (t : FileTree) (here : Location) (path : String) (bytes : List UInt8) :
    FileTree → Except HostError Unit → Prop where
  | whole {t' : FileTree} (h : t.write here path bytes = .ok t') :
      Attempt t here path bytes t' (.ok ())
  | refused {e : HostError} (h : t.write here path bytes = .error e) :
      Attempt t here path bytes t (.error e)
  | broken {t' : FileTree} {e : HostError} {n : Nat} (hn : n < bytes.length)
      (h : t.write here path (bytes.take n) = .ok t') : Attempt t here path bytes t' (.error e)

/-- A file is filled, or it cannot be opened and nothing changes. -/
theorem fill_run (m : Machine) (path : String) (bytes : List UInt8)
    (result : Except HostError Unit) :
    (∃ t', m.tree.write m.here path bytes = .ok t'
      ∧ Machine.fill path bytes result m
        = (result, { m with tree := t', breakages := m.breakages.tail }))
    ∨ ∃ e, m.tree.write m.here path bytes = .error e
      ∧ Machine.fill path bytes result m = (.error e, m) := by
  unfold Machine.fill
  cases m.tree.write m.here path bytes with
  | ok t' => exact .inl ⟨t', rfl, rfl⟩
  | error e => exact .inr ⟨e, rfl, rfl⟩

/-- What is filled into a file that is written: all of the text, or what is written of it by the time
the disk breaks. -/
theorem write_fills (m : Machine) (path text : String) :
    (Machine.directory.write path text).run m = match m.breakage? (Text.encode text) with
      | some b => Machine.fill path ((Text.encode text).take b.written) (.error b.error) m
      | none => Machine.fill path (Text.encode text) (.ok ()) m := by
  show Machine.write path text m = _
  unfold Machine.write
  rfl

/-- **A file is written as far as the disk lets it.** Nothing else changes in the machine. -/
theorem attempt_run (m : Machine) (path text : String) :
    ∃ t' result left, (Machine.directory.write path text).run m
        = (result, { m with tree := t', breakages := left })
      ∧ Attempt m.tree m.here path (Text.encode text) t' result := by
  rw [write_fills]
  cases hbreakage : m.breakage? (Text.encode text) with
  | none =>
      rcases fill_run m path (Text.encode text) (.ok ()) with
        ⟨t', hwrite, hrun⟩ | ⟨e, hwrite, hrun⟩
      · exact ⟨t', _, _, hrun, .whole hwrite⟩
      · exact ⟨m.tree, _, m.breakages, hrun, .refused hwrite⟩
  | some b =>
      have hlt : b.written < (Text.encode text).length := by
        simpa using (Option.filter_eq_some_iff.mp hbreakage).2
      rcases fill_run m path ((Text.encode text).take b.written) (.error b.error) with
        ⟨t', hwrite, hrun⟩ | ⟨e, hwrite, hrun⟩
      · exact ⟨t', _, _, hrun, .broken hlt hwrite⟩
      · -- a file that takes no beginning of the text does not take the text
        exact ⟨m.tree, _, m.breakages, hrun, .refused (FileTree.write_eq_error hwrite _)⟩

/-- A file that is written without an error is written as a whole. -/
theorem write_run {m m' : Machine} {path text : String}
    (h : (Machine.directory.write path text).run m = (.ok (), m')) :
    m.tree.write m.here path (Text.encode text) = .ok m'.tree ∧ m'.here = m.here := by
  obtain ⟨t', result, left, hrun, hattempt⟩ := attempt_run m path text
  rw [h] at hrun
  obtain ⟨rfl, rfl⟩ := Prod.mk.inj hrun
  cases hattempt with
  | whole hwrite => exact ⟨hwrite, rfl⟩

/-- What a writing of files leaves, from one machine to another. -/
structure Wrote (directory : String) (files : List File) (m m' : Machine) : Prop where
  here : m'.here = m.here
  /-- Whatever a path led to is where it was, and it is as it was if it is not one of the files. -/
  kept : ∀ {path location entry}, LeadsTo m.tree m.here path location entry →
    LeadsTo m'.tree m'.here path location
      (contentsOf (lastAt? m'.tree m'.here directory files location) entry)
  /-- Each file holds what was written last where its path leads. -/
  written : ∀ f ∈ files, ∃ location last,
    lastAt? m'.tree m'.here directory files location = some last
      ∧ LeadsTo m'.tree m'.here (pathIn directory f.name) location
          (.file (Text.encode last.text))

/-- **Writing files.** -/
theorem wrote_of_run {directory : String} :
    ∀ {files : List File} {m m' : Machine},
      (writeFiles Machine.directory directory files).run m = (.ok (), m') →
      Wrote directory files m m'
  | [], m, m', h => by
      cases h
      exact ⟨rfl, fun h => h, fun _ hmem => absurd hmem List.not_mem_nil⟩
  | f :: files, m, m', h => by
      rw [writeFiles, Import.run_then] at h
      rcases hfirst : (Machine.directory.write (pathIn directory f.name) f.text).run m
        with ⟨result, m₁⟩
      rw [hfirst] at h
      cases result with
      | error e => cases h
      | ok _ =>
          obtain ⟨hwrite, hhere⟩ := write_run hfirst
          obtain ⟨location, hw, htree, hleads⟩ := FileTree.write_eq_ok hwrite
          have hrest := wrote_of_run h
          rw [← hhere] at hleads
          -- the first file stays where it is put
          have hfile := hrest.kept hleads
          have hlocation : m'.tree.location? m'.here (pathIn directory f.name)
              = some location := FileTree.location?_eq_some_iff.mpr ⟨_, hfile⟩
          refine ⟨hrest.here.trans hhere, fun {path l entry} hpath => ?_, fun g hg => ?_⟩
          · have hput := hpath.put hw (Text.encode f.text)
            rw [← htree, ← hhere] at hput
            have hkept := hrest.kept hput
            rw [lastAt?_cons, hlocation]
            cases hlast : lastAt? m'.tree m'.here directory files l with
            | some last =>
                rw [hlast] at hkept
                exact hkept
            | none =>
                rw [hlast] at hkept
                by_cases heq : l = location
                · rw [if_pos heq] at hkept
                  rw [if_pos (congrArg some heq.symm)]
                  exact hkept
                · rw [if_neg heq] at hkept
                  rw [if_neg (fun h => heq (Option.some.inj h).symm)]
                  exact hkept
          · rcases List.mem_cons.mp hg with rfl | hg
            · cases hlast : lastAt? m'.tree m'.here directory files location with
              | some last =>
                  rw [hlast] at hfile
                  exact ⟨location, last, by rw [lastAt?_cons, hlast, Option.some_or], hfile⟩
              | none =>
                  rw [hlast] at hfile
                  exact ⟨location, g, by rw [lastAt?_cons, hlast, hlocation, if_pos rfl]; rfl,
                    hfile⟩
            · obtain ⟨l, last, hlast, hfile⟩ := hrest.written g hg
              exact ⟨l, last, by rw [lastAt?_cons, hlast, Option.some_or], hfile⟩

/-- **In a directory without links a file holds what was written last under its name.** -/
theorem Wrote.by_name {directory : String} {files : List File} {m m' : Machine}
    (h : Wrote directory files m m')
    (hproper : ∀ f ∈ files, Proper f.name ∧ '/' ∉ f.name.toList)
    (hlinks : ∀ f ∈ files, ¬ IsLink m'.tree m'.here (pathIn directory f.name))
    {f : File} (hf : f ∈ files) :
    ∃ last, (files.filter fun g => g.name == f.name).getLast? = some last
      ∧ m'.tree.readBytes m'.here (pathIn directory f.name) = .ok (Text.encode last.text) := by
  obtain ⟨location, last, hlast, hleads⟩ := h.written f hf
  have hnames : ∀ g ∈ files, Names directory (pathIn directory g.name) g.name := fun g hg =>
    names_pathIn directory (hproper g hg).1 (hproper g hg).2
  -- the files at the location are those of the name
  have hsame : ∀ g ∈ files, (m'.tree.location? m'.here (pathIn directory g.name)
      == some location) = (g.name == f.name) := by
    intro g hg
    rw [Bool.eq_iff_iff, beq_iff_eq, beq_iff_eq]
    constructor
    · intro hlocation
      obtain ⟨entry, hentry⟩ := FileTree.location?_eq_some_iff.mp hlocation
      exact FileTree.name_unique hentry hleads (hlinks g hg) (hlinks f hf) (hproper g hg).1
        (hproper f hf).1 (((hnames g hg).start _).trans ((hnames f hf).start _).symm)
        (hnames g hg).names (hnames f hf).names
    · intro hname
      rw [hname]
      exact FileTree.location?_eq_some_iff.mpr ⟨_, hleads⟩
  unfold lastAt? at hlast
  rw [List.filter_congr hsame] at hlast
  exact ⟨last, hlast, FileTree.readBytes_of_leadsTo hleads⟩

/-! ## Contracts -/

/-- The text of the file for the interface. -/
def abiText (pretty : Bool) (a : Artifact) : String := (a.abi.getD .null).render pretty

/-- The contracts that have the file name of a contract, in the order they are written in. -/
def sharing (artifacts : List Artifact) (a : Artifact) : List Artifact :=
  artifacts.filter fun b => b.stem == a.stem

/-- All files of the contracts, in the order they are written in. -/
def allFiles (pretty : Bool) (artifacts : List Artifact) : List File :=
  artifacts.flatMap (files ⟨true, true, pretty⟩)

theorem files_both (pretty : Bool) (a : Artifact) :
    files ⟨true, true, pretty⟩ a
      = (a.bytecode.map fun code => ⟨a.stem ++ ".bin", code⟩).toList
        ++ [⟨a.stem ++ ".abi", a.abiText pretty⟩] := rfl

/-- Names with extensions are equal only if the names are and the extensions are. -/
theorem append_extension_inj {name name' extension extension' : String}
    (h : name ++ extension = name' ++ extension') (hlength : extension.length = extension'.length) :
    name = name' ∧ extension = extension' := by
  have hlist := congrArg String.toList h
  rw [String.toList_append, String.toList_append] at hlist
  obtain ⟨hname, hextension⟩ := List.append_inj' hlist
    (by rw [String.length_toList, String.length_toList, hlength])
  exact ⟨String.toList_inj.mp hname, String.toList_inj.mp hextension⟩

theorem extension_beq (b a : Artifact) (extension : String) :
    (b.stem ++ extension == a.stem ++ extension) = (b.stem == a.stem) := by
  rw [Bool.eq_iff_iff, beq_iff_eq, beq_iff_eq]
  exact ⟨fun h => (append_extension_inj h rfl).1, fun h => by rw [h]⟩

theorem extension_beq_false (b a : Artifact) {extension extension' : String}
    (hlength : extension.length = extension'.length) (hne : extension ≠ extension') :
    (b.stem ++ extension == a.stem ++ extension') = false :=
  beq_eq_false_iff_ne.mpr fun h => hne (append_extension_inj h hlength).2

/-- The files of the name of an interface are the interfaces of the contracts that share it. -/
theorem filter_abi (pretty : Bool) (artifacts : List Artifact) (a : Artifact) :
    (allFiles pretty artifacts).filter (fun f => f.name == a.stem ++ ".abi")
      = (sharing artifacts a).map fun b => ⟨b.stem ++ ".abi", b.abiText pretty⟩ := by
  induction artifacts with
  | nil => rfl
  | cons b artifacts ih =>
      have hbin : ((b.bytecode.map fun code => (⟨b.stem ++ ".bin", code⟩ : File)).toList).filter
          (fun f => f.name == a.stem ++ ".abi") = [] := by
        refine List.filter_eq_nil_iff.mpr fun f hf => ?_
        obtain ⟨code, -, rfl⟩ := Option.map_eq_some_iff.mp (Option.mem_toList.mp hf)
        exact Bool.eq_false_iff.mp (extension_beq_false b a (by decide) (by decide))
      unfold allFiles sharing at ih ⊢
      rw [List.flatMap_cons, List.filter_append, files_both, List.filter_append, hbin, ih,
        List.nil_append, List.filter_cons, List.filter_cons, extension_beq]
      cases b.stem == a.stem <;> rfl

/-- The files of the name of a bytecode are the bytecodes of the contracts that share it. -/
theorem filter_bin (pretty : Bool) (artifacts : List Artifact) (a : Artifact) :
    ((allFiles pretty artifacts).filter (fun f => f.name == a.stem ++ ".bin")).map File.text
      = (sharing artifacts a).filterMap bytecode := by
  induction artifacts with
  | nil => rfl
  | cons b artifacts ih =>
      have habi : ([⟨b.stem ++ ".abi", b.abiText pretty⟩] : List File).filter
          (fun f => f.name == a.stem ++ ".bin") = [] := by
        refine List.filter_eq_nil_iff.mpr fun f hf => ?_
        rw [List.mem_singleton.mp hf]
        exact Bool.eq_false_iff.mp (extension_beq_false b a (by decide) (by decide))
      unfold allFiles sharing at ih ⊢
      rw [List.flatMap_cons, List.filter_append, files_both, List.filter_append, habi,
        List.append_nil, List.map_append, ih, List.filter_cons]
      cases hcode : b.bytecode with
      | none => cases b.stem == a.stem <;> simp [hcode]
      | some code => cases hstem : b.stem == a.stem <;> simp [hcode, hstem, extension_beq]

theorem proper_of_mem {pretty : Bool} {artifacts : List Artifact} {f : File}
    (h : f ∈ allFiles pretty artifacts) : Proper f.name ∧ '/' ∉ f.name.toList := by
  obtain ⟨a, -, hf⟩ := List.mem_flatMap.mp h
  rw [files_both] at hf
  rcases List.mem_append.mp hf with hf | hf
  · obtain ⟨code, -, rfl⟩ := Option.map_eq_some_iff.mp (Option.mem_toList.mp hf)
    exact proper_stem a (Or.inr rfl)
  · rw [List.mem_singleton.mp hf]
    exact proper_stem a (Or.inl rfl)

/-- What is read of the artifacts of a contract: the interface of the last contract of its file
name, and the bytecode of the last one that has any. -/
structure HoldsLast (artifacts : List Artifact) (pretty : Bool)
    (read : String → Except HostError (List UInt8)) (a : Artifact) : Prop where
  abi : ∃ last, (sharing artifacts a).getLast? = some last
    ∧ read (a.stem ++ ".abi") = .ok (Text.encode (last.abiText pretty))
  bytecode : ∀ code, a.bytecode = some code →
    ∃ last, ((sharing artifacts a).filterMap Artifact.bytecode).getLast? = some last
      ∧ read (a.stem ++ ".bin") = .ok (Text.encode last)

/-- What is read of the artifacts of a contract is its own. -/
structure HoldsOwn (pretty : Bool) (read : String → Except HostError (List UInt8))
    (a : Artifact) : Prop where
  abi : read (a.stem ++ ".abi") = .ok (Text.encode (a.abiText pretty))
  bytecode : ∀ code, a.bytecode = some code → read (a.stem ++ ".bin") = .ok (Text.encode code)

/-- A contract that shares its file name with no other has its own artifacts. -/
theorem HoldsLast.own {artifacts : List Artifact} {pretty : Bool}
    {read : String → Except HostError (List UInt8)} {a : Artifact}
    (h : HoldsLast artifacts pretty read a)
    (halone : ∀ b ∈ artifacts, b.stem = a.stem → b = a) : HoldsOwn pretty read a := by
  have hsharing : ∀ b ∈ sharing artifacts a, b = a := fun b hb =>
    halone b (List.mem_filter.mp hb).1 (beq_iff_eq.mp (List.mem_filter.mp hb).2)
  constructor
  · obtain ⟨last, hlast, hread⟩ := h.abi
    rw [hread, hsharing last (List.mem_of_getLast? hlast)]
  · intro code hcode
    obtain ⟨last, hlast, hread⟩ := h.bytecode code hcode
    obtain ⟨b, hb, hlast⟩ := List.mem_filterMap.mp (List.mem_of_getLast? hlast)
    rw [hsharing b hb, hcode] at hlast
    rw [hread, Option.some.inj hlast]

/-- **What the artifact files hold.** Each file that is written holds what was written last to the
place it leads to. Without links among the files that place has one name, and so the artifacts of a
contract are those of the last one of its file name: its own, if there is no other. -/
theorem writeAll_keeps_last {directory : String} {pretty : Bool} {artifacts : List Artifact}
    {m m' : Machine}
    (hrun : (writeAll Machine.directory directory ⟨true, true, pretty⟩ artifacts).run m
      = (.ok (), m')) :
    (∀ f ∈ allFiles pretty artifacts, ∃ location last,
      lastAt? m'.tree m'.here directory (allFiles pretty artifacts) location = some last
      ∧ LeadsTo m'.tree m'.here (pathIn directory f.name) location (.file (Text.encode last.text)))
    ∧ ((∀ f ∈ allFiles pretty artifacts, ¬ IsLink m'.tree m'.here (pathIn directory f.name)) →
      ∀ a ∈ artifacts,
        HoldsLast artifacts pretty
          (fun name => m'.tree.readBytes m'.here (pathIn directory name)) a
        ∧ ((∀ b ∈ artifacts, b.stem = a.stem → b = a) →
          HoldsOwn pretty (fun name => m'.tree.readBytes m'.here (pathIn directory name)) a)) := by
  have hwrote : ∃ m₁, Wrote directory (allFiles pretty artifacts) m₁ m' := by
    unfold writeAll at hrun
    rw [Import.run_then] at hrun
    rcases hcreate : (Machine.directory.create directory).run m with ⟨result, m₁⟩
    rw [hcreate] at hrun
    cases result with
    | error e => cases hrun
    | ok _ => exact ⟨m₁, wrote_of_run hrun⟩
  obtain ⟨m₁, hwrote⟩ := hwrote
  refine ⟨hwrote.written, fun hlinks a ha => ?_⟩
  have hmem : ∀ f ∈ files ⟨true, true, pretty⟩ a, f ∈ allFiles pretty artifacts := fun f hf =>
    List.mem_flatMap.mpr ⟨a, ha, hf⟩
  have hlast : HoldsLast artifacts pretty
      (fun name => m'.tree.readBytes m'.here (pathIn directory name)) a := by
    constructor
    · have habi : (⟨a.stem ++ ".abi", a.abiText pretty⟩ : File)
          ∈ files ⟨true, true, pretty⟩ a := by
        rw [files_both]
        exact List.mem_append_right _ (List.mem_singleton_self _)
      obtain ⟨last, hlast, hread⟩ := hwrote.by_name (fun _ => proper_of_mem) hlinks (hmem _ habi)
      rw [filter_abi, List.getLast?_map] at hlast
      obtain ⟨b, hb, rfl⟩ := Option.map_eq_some_iff.mp hlast
      exact ⟨b, hb, hread⟩
    · intro code hcode
      have hbin : (⟨a.stem ++ ".bin", code⟩ : File) ∈ files ⟨true, true, pretty⟩ a := by
        rw [files_both, hcode]
        exact List.mem_append_left _ (List.mem_singleton_self _)
      obtain ⟨last, hlast, hread⟩ := hwrote.by_name (fun _ => proper_of_mem) hlinks (hmem _ hbin)
      refine ⟨last.text, ?_, hread⟩
      rw [← filter_bin pretty, List.getLast?_map, hlast]
      rfl
  exact ⟨hlast, hlast.own⟩

/-- A machine with nothing on it. -/
def bare : Machine where
  tree := ⟨[]⟩
  here := []
  scripts := []
  input := []
  calls := []
  printed := ""
  complaints := ""

/-- The machine after the artifacts have been written to a directory of it. -/
def afterWriting (artifacts : List Artifact) : Machine :=
  ((writeAll Machine.directory "out" ⟨true, true, false⟩ artifacts).run bare).2

theorem run_afterWriting {artifacts : List Artifact}
    (h : ((writeAll Machine.directory "out" ⟨true, true, false⟩ artifacts).run bare).1.toOption
      = some ()) :
    (writeAll Machine.directory "out" ⟨true, true, false⟩ artifacts).run bare
      = (.ok (), afterWriting artifacts) := by
  refine Prod.ext ?_ rfl
  revert h
  cases ((writeAll Machine.directory "out" ⟨true, true, false⟩ artifacts).run bare).1 with
  | error e => exact fun h => by cases h
  | ok _ => exact fun _ => rfl

/-- Two contracts of different file names, one of them without an interface. -/
def apart : List Artifact :=
  [⟨"a.sol", "B", none, some "01"⟩, ⟨"lib/a.sol", "B", some (.arr []), some "02"⟩]

/-- Both contracts keep their artifacts. -/
theorem writeAll_keeps_last_apart :
    (writeAll Machine.directory "out" ⟨true, true, false⟩ apart).run bare
      = (.ok (), afterWriting apart)
    ∧ (∀ f ∈ allFiles false apart, ¬ IsLink (afterWriting apart).tree (afterWriting apart).here
        (pathIn "out" f.name))
    ∧ ∀ a ∈ apart, HoldsOwn false
        (fun name => (afterWriting apart).tree.readBytes (afterWriting apart).here
          (pathIn "out" name)) a := by
  have hrun := @run_afterWriting apart (by decide +kernel)
  have hlinks : ∀ f ∈ allFiles false apart, ¬ IsLink (afterWriting apart).tree
      (afterWriting apart).here (pathIn "out" f.name) := by decide +kernel
  have halone : ∀ a ∈ apart, ∀ b ∈ apart, b.stem = a.stem → b = a := by decide +kernel
  refine ⟨hrun, hlinks, fun a ha => ?_⟩
  exact ((writeAll_keeps_last hrun).2 hlinks a ha).2 (halone a ha)

/-- Two contracts of one file name. -/
def colliding : List Artifact :=
  [⟨"a.sol", "B", some (.arr []), some "01"⟩, ⟨"a_sol", "B", none, some "02"⟩]

/-- **Artifacts can be lost**: the contracts are different ones, but their file names are equal. -/
theorem writeAll_loses_artifact :
    ¬ ∀ (directory : String) (pretty : Bool) (artifacts : List Artifact) (m m' : Machine),
      artifacts.Pairwise (fun a b => (a.unit, a.contract) ≠ (b.unit, b.contract)) →
      (writeAll Machine.directory directory ⟨true, true, pretty⟩ artifacts).run m = (.ok (), m') →
      ∀ a ∈ artifacts,
        HoldsOwn pretty (fun name => m'.tree.readBytes m'.here (pathIn directory name)) a := by
  intro hall
  have hrun := @run_afterWriting colliding (by decide +kernel)
  have hown := (hall "out" false colliding bare (afterWriting colliding) (by decide) hrun _
    List.mem_cons_self).abi
  have hread : ((afterWriting colliding).tree.readBytes (afterWriting colliding).here
      (pathIn "out" "a_sol_B.abi")).toOption = some (Text.encode "null") := by decide +kernel
  have hstem : stem ⟨"a.sol", "B", some (.arr []), some "01"⟩ ++ ".abi" = "a_sol_B.abi" := by
    decide +kernel
  rw [hstem] at hown
  rw [hown] at hread
  exact absurd hread (by decide +kernel)

end SolFront.Artifact
