import SolFront.Proofs.Artifacts
import SolFront.Proofs.Json.Invariants

/-!
# Artifacts stay in their directory

The names of contracts and units come from the compiler and can be anything, but the name of an
artifact file is one component of a path: all that separates is replaced, and there is an extension
behind it. So in a directory without links a file is written as an entry of the directory, whatever
it is called, and nothing else in the tree is touched but for the directories that are created on
the way.

Files are written in order up to the first that cannot be written as a whole. What a file holds
after that is the last that was written under its name, but the file that the writing stops at may
hold a beginning of what was to be written.
-/

namespace SolFront.Artifact

open FileTree (LinkFree Grown Names Opens Proper)
open Json.Reader (Gives gives_true gives_field gives_record)

/-! ## Names of files -/

/-- The name of an artifact file: one component of a path, with an extension. -/
structure OneName (name : String) : Prop where
  proper : Proper name
  free : '/' ∉ name.toList
  extension : ∃ stem, name = stem ++ ".bin" ∨ name = stem ++ ".abi"

theorem mem_files_iff {selected : Selected} {a : Artifact} {f : File} :
    f ∈ files selected a
      ↔ (selected.bytecode = true ∧ ∃ code, a.bytecode = some code
            ∧ f = ⟨a.stem ++ ".bin", code⟩)
        ∨ (selected.abi = true ∧ f = ⟨a.stem ++ ".abi", a.abiText selected.pretty⟩) := by
  have hbin : f ∈ a.bytecodeFile
      ↔ ∃ code, a.bytecode = some code ∧ f = ⟨a.stem ++ ".bin", code⟩ := by
    unfold bytecodeFile
    rw [Option.mem_toList, Option.map_eq_some_iff]
    exact exists_congr fun code => and_congr_right fun _ => eq_comm
  unfold files
  rw [List.mem_append]
  refine or_congr ?_ ?_
  · by_cases h : selected.bytecode = true
    · rw [if_pos h, hbin]
      exact (and_iff_right h).symm
    · simp [h]
  · by_cases h : selected.abi = true
    · rw [if_pos h, List.mem_singleton]
      exact (and_iff_right h).symm
    · simp [h]

theorem oneName_of_mem {selected : Selected} {artifacts : List Artifact} {f : File}
    (h : f ∈ artifacts.flatMap (files selected)) : OneName f.name := by
  obtain ⟨a, -, hf⟩ := List.mem_flatMap.mp h
  rcases mem_files_iff.mp hf with ⟨-, code, -, rfl⟩ | ⟨-, rfl⟩
  · obtain ⟨hproper, hfree⟩ := @proper_stem a ".bin" (.inr rfl)
    exact ⟨hproper, hfree, a.stem, .inl rfl⟩
  · obtain ⟨hproper, hfree⟩ := @proper_stem a ".abi" (.inl rfl)
    exact ⟨hproper, hfree, a.stem, .inr rfl⟩

theorem OneName.names {name : String} (h : OneName name) (directory : String) :
    Names directory (pathIn directory name) name :=
  names_pathIn directory h.proper h.free

/-! ## The files of contracts -/

/-- A contract of an answer, with its unit and its name. -/
structure Compiled where
  unit : String
  name : String
  contract : Contract

/-- The contracts of an answer, in its order. -/
def compiled (r : Response) : List Compiled :=
  (r.contracts.getD []).flatMap fun (unit, contracts) =>
    contracts.map fun (name, contract) => ⟨unit, name, contract⟩

/-- The name that the files of a contract have before their extensions: that of the unit and that of
the contract, in which all that separates is replaced. -/
def Compiled.stem (c : Compiled) : String :=
  String.ofList ((c.unit ++ ":" ++ c.name).toList.map fun ch =>
    if ch ∈ [':', '.', '/', '\\'] then '_' else ch)

/-- Which file there is for the bytecode of a contract: the one with the code, if it is wanted and
there is code. -/
inductive BytecodeFile (selected : Selected) (c : Compiled) : List File → Prop where
  | code {evm : MachineCode} {bytecode : Bytecode} (hwanted : selected.bytecode = true)
      (hevm : c.contract.evm = some evm) (hbytecode : evm.bytecode = some bytecode) :
      BytecodeFile selected c [⟨c.stem ++ ".bin", bytecode.object⟩]
  | absent (h : ∀ evm, c.contract.evm = some evm → evm.bytecode = none) :
      BytecodeFile selected c []
  | unwanted (h : selected.bytecode = false) : BytecodeFile selected c []

/-- Which file there is for the interface of a contract: one, if it is wanted. -/
inductive InterfaceFile (selected : Selected) (c : Compiled) : List File → Prop where
  | abi {abi : Json} (hwanted : selected.abi = true) (habi : c.contract.abi = some abi) :
      InterfaceFile selected c [⟨c.stem ++ ".abi", abi.render selected.pretty⟩]
  | absent (hwanted : selected.abi = true) (h : c.contract.abi = none) :
      InterfaceFile selected c [⟨c.stem ++ ".abi", "null"⟩]
  | unwanted (h : selected.abi = false) : InterfaceFile selected c []

/-- The files of contracts, one contract after the other. -/
inductive Planned (selected : Selected) : List Compiled → List File → Prop where
  | nil : Planned selected [] []
  | cons {c : Compiled} {cs : List Compiled} {bytecode interface files : List File}
      (hbytecode : BytecodeFile selected c bytecode)
      (hinterface : InterfaceFile selected c interface) (hrest : Planned selected cs files) :
      Planned selected (c :: cs) (bytecode ++ interface ++ files)

/-- What is written of a contract. -/
def Compiled.artifact (c : Compiled) : Artifact :=
  ⟨c.unit, c.name, c.contract.abi, c.contract.bytecode?⟩

theorem ofResponse_eq (r : Response) : ofResponse r = (compiled r).map Compiled.artifact := by
  unfold ofResponse compiled
  rw [List.map_flatMap]
  refine congrArg (List.flatMap · _) (funext fun (unit, contracts) => ?_)
  dsimp only
  rw [List.map_map]
  rfl

theorem fileName_eq (c : Compiled) : fileName c.unit c.name = c.stem := by
  unfold fileName Compiled.stem
  refine congrArg String.ofList (List.map_congr_left fun ch _ => if_congr ?_ rfl rfl)
  simp [isSeparator, or_assoc]

theorem bytecode?_eq_some_iff {c : Contract} {code : String} :
    c.bytecode? = some code ↔
      ∃ evm bytecode, c.evm = some evm ∧ evm.bytecode = some bytecode
        ∧ bytecode.object = code := by
  unfold Contract.bytecode?
  simp [Option.bind_eq_some_iff]

theorem bytecodeFile_artifact (selected : Selected) (c : Compiled) :
    BytecodeFile selected c (if selected.bytecode then c.artifact.bytecodeFile else []) := by
  cases hwanted : selected.bytecode with
  | false => exact .unwanted hwanted
  | true =>
      rw [if_pos rfl]
      unfold bytecodeFile
      show BytecodeFile selected c
        (c.contract.bytecode?.map fun code => ⟨fileName c.unit c.name ++ ".bin", code⟩).toList
      rw [fileName_eq]
      cases hcode : c.contract.bytecode? with
      | some code =>
          obtain ⟨evm, bytecode, hevm, hbytecode, rfl⟩ := bytecode?_eq_some_iff.mp hcode
          exact .code hwanted hevm hbytecode
      | none =>
          -- if there were a bytecode, there would be a code
          refine .absent fun evm hevm => ?_
          rw [Option.eq_none_iff_forall_ne_some]
          intro bytecode hbytecode
          have hsome := bytecode?_eq_some_iff.mpr ⟨evm, bytecode, hevm, hbytecode, rfl⟩
          rw [hcode] at hsome
          cases hsome

theorem interfaceFile_artifact (selected : Selected) (c : Compiled) :
    InterfaceFile selected c
      (if selected.abi then [c.artifact.abiFile selected.pretty] else []) := by
  have hnull : Json.null.render selected.pretty = "null" := by
    cases selected.pretty <;> rfl
  cases hwanted : selected.abi with
  | false => exact .unwanted hwanted
  | true =>
      rw [if_pos rfl]
      unfold abiFile
      show InterfaceFile selected c
        [⟨fileName c.unit c.name ++ ".abi", (c.contract.abi.getD .null).render selected.pretty⟩]
      rw [fileName_eq]
      cases habi : c.contract.abi with
      | none =>
          rw [Option.getD_none, hnull]
          exact .absent hwanted habi
      | some abi => exact .abi hwanted habi

/-- **The files of an answer are those of its contracts.** -/
theorem planned_ofResponse (selected : Selected) (r : Response) :
    Planned selected (compiled r) ((ofResponse r).flatMap (files selected)) := by
  rw [ofResponse_eq]
  induction compiled r with
  | nil => exact .nil
  | cons c cs ih =>
      exact .cons (bytecodeFile_artifact selected c) (interfaceFile_artifact selected c) ih

/-! ## The order of contracts -/

/-- Contracts in ascending order of their units, and in a unit of their names. -/
def Precedes (a b : Compiled) : Prop :=
  a.unit < b.unit ∨ a.unit = b.unit ∧ a.name < b.name

/-- The units ascend, and so do the contracts of each unit. -/
def Ascending (r : Response) : Prop :=
  ∀ units ∈ r.contracts, units.Sorted ∧ ∀ e ∈ units, e.2.Sorted

/-- The same of an answer that is being read. -/
def AscendingDraft (d : Response.Draft) : Prop :=
  ∀ units ∈ d.contracts.getD none, units.Sorted ∧ ∀ e ∈ units, e.2.Sorted

theorem ascendingDraft_of_field {field : Json.Reader.RecordField Response.Draft}
    (hfield : field ∈ Response.fields) {d : Response.Draft} (hd : AscendingDraft d) :
    (field.fill d).Gives AscendingDraft := by
  unfold Response.fields at hfield
  simp only [List.mem_cons, List.not_mem_nil, or_false] at hfield
  rcases hfield with rfl | rfl | rfl
  · have hunits := (gives_true Contract.reader).dict.dict.nullable
    refine gives_field (hunits.imp fun units hread => ?_)
    intro units hunits
    exact ⟨(hread units hunits).1, fun e he => ((hread units hunits).2 e he).1⟩
  · exact gives_field ((gives_true _).imp fun _ _ => hd)
  · exact gives_field ((gives_true _).imp fun _ _ => hd)

/-- **An answer that is read ascends**, as all that is read into dictionaries does. -/
theorem ascending_of_read {text : String} {r : Response}
    (h : Json.readWith Response.reader text = .ok r) : Ascending r := by
  obtain ⟨rest, hreader, -⟩ := Json.readWith_eq_ok h
  have hempty : AscendingDraft ⟨none, none, none⟩ := fun units hunits => by cases hunits
  have hrecord := gives_record "struct Output" hempty fun _ hfield _ =>
    ascendingDraft_of_field hfield
  have hascending : Response.reader.Gives Ascending := Gives.map hrecord
  exact hascending _ _ _ _ hreader

theorem precedes_compiled {r : Response} (h : Ascending r) :
    (compiled r).Pairwise Precedes := by
  unfold compiled
  cases hcontracts : r.contracts with
  | none => exact List.Pairwise.nil
  | some units =>
      obtain ⟨hunits, hnames⟩ := h units hcontracts
      rw [Option.getD_some, List.pairwise_flatMap]
      constructor
      · intro e he
        rw [List.pairwise_map]
        exact (hnames e he).imp fun hlt => .inr ⟨rfl, hlt⟩
      · refine hunits.imp fun {e e'} hlt a ha b hb => ?_
        obtain ⟨c, -, rfl⟩ := List.mem_map.mp ha
        obtain ⟨c', -, rfl⟩ := List.mem_map.mp hb
        exact .inl hlt

/-! ## Files one after the other -/

/-- The files are written, each to the tree that the one before leaves. -/
inductive Written (here : Location) (directory : String) :
    List File → FileTree → FileTree → Prop where
  | nil {t : FileTree} : Written here directory [] t t
  | cons {f : File} {files : List File} {t t₁ t' : FileTree} :
      t.write here (pathIn directory f.name) (Text.encode f.text) = .ok t₁ →
      Written here directory files t₁ t' → Written here directory (f :: files) t t'

/-- How the writing comes to an end: no file is left, or the next one is not written as a whole. -/
inductive WritingEnds (t : FileTree) (here : Location) (directory : String) :
    List File → FileTree → Except Failure Unit → Prop where
  | last : WritingEnds t here directory [] t (.ok ())
  | stopped {f : File} {rest : List File} {t' : FileTree} {e : HostError}
      (h : Attempt t here (pathIn directory f.name) (Text.encode f.text) t' (.error e)) :
      WritingEnds t here directory (f :: rest) t' (.error (.file (pathIn directory f.name) e))

/-- **Files are written up to the first that cannot be written as a whole.** -/
theorem writeFiles_run (directory : String) :
    ∀ (files : List File) (m : Machine), ∃ done rest t₁ t' result left, files = done ++ rest
      ∧ (writeFiles Machine.directory directory files).run m
        = (result, { m with tree := t', breakages := left })
      ∧ Written m.here directory done m.tree t₁ ∧ WritingEnds t₁ m.here directory rest t' result
  | [], m => ⟨[], [], m.tree, m.tree, .ok (), m.breakages, rfl, rfl, .nil, .last⟩
  | f :: files, m => by
      obtain ⟨t₁, result, left, hfirst, hattempt⟩ := attempt_run m (pathIn directory f.name) f.text
      rw [writeFiles, Import.run_then, hfirst]
      cases result with
      | error e => exact ⟨[], f :: files, m.tree, t₁, _, left, rfl, rfl, .nil, .stopped hattempt⟩
      | ok _ =>
          cases hattempt with
          | whole hwrite =>
              obtain ⟨done, rest, t₂, t', result, left', rfl, hrun, hwritten, hends⟩ :=
                writeFiles_run directory files { m with tree := t₁, breakages := left }
              exact ⟨f :: done, rest, t₂, t', result, left', rfl, hrun, .cons hwrite hwritten,
                hends⟩

/-- What writing files does to a tree, and with what result. The directory is created before. -/
inductive Writing (t : FileTree) (here : Location) (directory : String) (files : List File) :
    FileTree → Except Failure Unit → Prop where
  | refused {e : HostError} : (t.create here directory).2 = .error e →
      Writing t here directory files (t.create here directory).1 (.error (.directory directory e))
  | ended {done rest : List File} {t₁ t' : FileTree} {result : Except Failure Unit} :
      (t.create here directory).2 = .ok () → files = done ++ rest →
      Written here directory done (t.create here directory).1 t₁ →
      WritingEnds t₁ here directory rest t' result → Writing t here directory files t' result

/-- **Artifacts are written as files**, and nothing but the tree changes. -/
theorem writeAll_run (directory : String) (selected : Selected) (artifacts : List Artifact)
    (m : Machine) :
    ∃ t' result left, (writeAll Machine.directory directory selected artifacts).run m
        = (result, { m with tree := t', breakages := left })
      ∧ Writing m.tree m.here directory (artifacts.flatMap (files selected)) t' result := by
  have hcreate : (Machine.directory.create directory).run m
      = ((m.tree.create m.here directory).2,
          { m with tree := (m.tree.create m.here directory).1 }) := rfl
  unfold writeAll
  rw [Import.run_then, hcreate]
  cases hcreated : (m.tree.create m.here directory).2 with
  | error e => exact ⟨_, _, m.breakages, rfl, .refused hcreated⟩
  | ok _ =>
      obtain ⟨done, rest, t₁, t', result, left, hfiles, hrun, hwritten, hends⟩ :=
        writeFiles_run directory (artifacts.flatMap (files selected))
          { m with tree := (m.tree.create m.here directory).1 }
      exact ⟨t', result, left, hrun, .ended hcreated hfiles hwritten hends⟩

/-- The last of the files with the name, as an entry. -/
def lastEntry (files : List File) (name : String) : Option Entry :=
  ((files.filter fun f => f.name == name).getLast?).map fun f => .file (Text.encode f.text)

theorem lastEntry_cons (f : File) (files : List File) (name : String) :
    lastEntry (f :: files) name
      = (lastEntry files name).or
          (if f.name = name then some (.file (Text.encode f.text)) else none) := by
  unfold lastEntry
  rw [Dict.getLast?_filter_cons, Option.map_or]
  simp only [beq_iff_eq]
  by_cases h : f.name = name
  · rw [if_pos h, if_pos h, Option.map_some]
  · rw [if_neg h, if_neg h, Option.map_none]

/-- What writing files under names in a directory leaves of a tree. -/
structure Deposited (location : Location) (files : List File) (t t' : FileTree) : Prop where
  /-- An entry of the directory is the last file of its name, or what it was. -/
  inside : ∀ name, t'.entry? (location ++ [name])
    = (lastEntry files name).or (t.entry? (location ++ [name]))
  /-- Everything else is what it was. -/
  outside : ∀ other, (∀ f ∈ files, other ≠ location ++ [f.name]) → t'.entry? other = t.entry? other

/-- **In a directory without links, files are put into the directory.** The path of the directory
leads there as before, and still there are no links in it. -/
theorem deposited_of_written {here location : Location} {directory : String} {files : List File}
    {t t' : FileTree} (h : Written here directory files t t')
    (hnames : ∀ f ∈ files, OneName f.name) (hopens : Opens t here directory location)
    (hlinks : t.LinkFree location) :
    Deposited location files t t' ∧ Opens t' here directory location ∧ t'.LinkFree location := by
  induction h with
  | nil => exact ⟨⟨fun _ => rfl, fun _ _ => rfl⟩, hopens, hlinks⟩
  | @cons f files t t₁ t' hwrite _ ih =>
      have hname := (hnames f List.mem_cons_self).names directory
      obtain ⟨rfl, hopens₁, hlinks₁⟩ := hopens.write hname hlinks hwrite
      obtain ⟨hrest, hopens', hlinks'⟩ :=
        ih (fun g hg => hnames g (List.mem_cons_of_mem f hg)) hopens₁ hlinks₁
      have hput : location ++ [f.name] ≠ [] := by simp
      refine ⟨⟨fun name => ?_, fun other hother => ?_⟩, hopens', hlinks'⟩
      · rw [hrest.inside, lastEntry_cons, FileTree.entry?_put t hput]
        by_cases hsame : f.name = name
        · rw [if_pos hsame, if_pos (by rw [hsame])]
          cases lastEntry files name <;> rfl
        · rw [if_neg hsame, Option.or_none, if_neg]
          intro heq
          exact hsame (List.singleton_inj.mp (List.append_cancel_left heq)).symm
      · rw [hrest.outside other fun g hg => hother g (List.mem_cons_of_mem f hg),
          FileTree.entry?_put t hput, if_neg (hother f List.mem_cons_self)]

/-! ## Writing artifacts -/

/-- A file that is not written as a whole: it cannot be opened and nothing changes, or a beginning
of it is put into the directory. -/
inductive Stopped (location here : Location) (directory : String) (f : File) (t : FileTree) :
    FileTree → HostError → Prop where
  | refused {e : HostError}
      (h : t.write here (pathIn directory f.name) (Text.encode f.text) = .error e) :
      Stopped location here directory f t t e
  | broken {e : HostError} {n : Nat} (hn : n < (Text.encode f.text).length) :
      Stopped location here directory f t
        (t.put (location ++ [f.name]) (.file ((Text.encode f.text).take n))) e

/-- What writing artifacts does to a tree, with what result. -/
structure Confined (r : Response) (directory : String) (selected : Selected) (here : Location)
    (t : FileTree) (plan : List File) (t' : FileTree) (result : Except Failure Unit) : Prop where
  /-- The contracts are taken in ascending order. -/
  order : (compiled r).Pairwise Precedes
  /-- The files are those of the contracts. -/
  planned : Planned selected (compiled r) plan
  /-- The name of a file is one component of a path. -/
  names : ∀ f ∈ plan, OneName f.name
  /-- Creating the directory adds directories only. -/
  grown : Grown t (t.create here directory).1
  /-- If all goes well, all files are put into the directory. -/
  succeeded : result = .ok () → ∃ location,
    Opens (t.create here directory).1 here directory location
      ∧ Deposited location plan (t.create here directory).1 t'
  /-- If a file is not written as a whole, those before it are put into the directory. -/
  stopped : ∀ path e, result = .error (.file path e) → ∃ location done f rest t₁,
    Opens (t.create here directory).1 here directory location ∧ plan = done ++ f :: rest
      ∧ Deposited location done (t.create here directory).1 t₁
      ∧ path = pathIn directory f.name ∧ Stopped location here directory f t₁ t' e
  /-- If the directory cannot be created, no file is written. -/
  refused : ∀ path e, result = .error (.directory path e) →
    path = directory ∧ (t.create here directory).2 = .error e ∧ t' = (t.create here directory).1

/-- **Writing artifacts stays in the output directory**, whatever the contracts are called. -/
theorem writeAll_confined {r : Response} (hr : Ascending r) {directory : String}
    {selected : Selected} {m : Machine}
    (hlinks : ∀ location, Opens (m.tree.create m.here directory).1 m.here directory location →
      LinkFree (m.tree.create m.here directory).1 location) :
    ∃ plan t' result left,
      (writeAll Machine.directory directory selected (ofResponse r)).run m
        = (result, { m with tree := t', breakages := left })
      ∧ Confined r directory selected m.here m.tree plan t' result := by
  obtain ⟨t', result, left, hrun, hwriting⟩ := writeAll_run directory selected (ofResponse r) m
  have horder := precedes_compiled hr
  have hplanned := planned_ofResponse selected r
  have hgrown := FileTree.grown_create m.tree m.here directory
  have hnames : ∀ f ∈ (ofResponse r).flatMap (files selected), OneName f.name := fun f hf =>
    oneName_of_mem hf
  refine ⟨(ofResponse r).flatMap (files selected), t', result, left, hrun, ?_⟩
  cases hwriting with
  | @refused e hcreated =>
      refine ⟨horder, hplanned, hnames, hgrown, ?_, ?_, ?_⟩
      · intro hresult
        cases hresult
      · intro path e' hresult
        cases hresult
      · intro path e' hresult
        cases hresult
        exact ⟨rfl, hcreated, rfl⟩
  | @ended done rest t₁ _ _ hcreated hfiles hwritten hends =>
      obtain ⟨location, hlocation⟩ := FileTree.exists_opens_create hcreated
      obtain ⟨hdeposited, hopens, hlinks₁⟩ := deposited_of_written hwritten
        (fun f hf => hnames f (hfiles ▸ List.mem_append_left rest hf)) hlocation
        (hlinks location hlocation)
      refine ⟨horder, hplanned, hnames, hgrown, ?_, ?_, ?_⟩
      · rintro rfl
        cases hends
        rw [List.append_nil] at hfiles
        exact ⟨location, hlocation, hfiles ▸ hdeposited⟩
      · -- the files before it are done, and it is an entry of the directory like them
        rintro path e rfl
        cases hends with
        | @stopped f rest _ _ hattempt =>
            refine ⟨location, done, f, rest, t₁, hlocation, hfiles, hdeposited, rfl, ?_⟩
            cases hattempt with
            | refused hwrite => exact .refused hwrite
            | broken hn hwrite =>
                have hname := (hnames f (hfiles ▸ List.mem_append_right done
                  List.mem_cons_self)).names directory
                obtain ⟨rfl, -, -⟩ := hopens.write hname hlinks₁ hwrite
                exact .broken hn
      · rintro path e rfl
        cases hends

/-- Contracts whose names look like paths to other directories. The last one has no interface. -/
def escaping : Response where
  contracts := some
    [("../a.sol", [("/etc/C", ⟨some (.arr []), some ⟨some ⟨"01"⟩⟩⟩)]),
     ("/lib\\b.sol", [("..", ⟨none, some ⟨some ⟨"02"⟩⟩⟩)])]
  sources := none
  errors := none

/-- A machine with an output directory, whose disk breaks with the fourth file. -/
def breaking : Machine :=
  { bare with
    tree := ⟨[(["out"], .directory)]⟩
    breakages := [none, none, none, some ⟨3, .other "No space left on device"⟩] }

/-- The last file is not written as a whole, and the three before it are in the directory. -/
theorem writeAll_confined_escaping :
    Ascending escaping
    ∧ (∀ location, Opens (breaking.tree.create breaking.here "out").1 breaking.here "out" location →
        LinkFree (breaking.tree.create breaking.here "out").1 location)
    ∧ ∃ plan t' result left, (writeAll Machine.directory "out" ⟨true, true, false⟩
          (ofResponse escaping)).run breaking = (result, { breaking with
            tree := t', breakages := left })
        ∧ result.toBool = false
        ∧ [("___a_sol__etc_C.bin", "01"), ("___a_sol__etc_C.abi", "[]"),
            ("_lib_b_sol___.bin", "02"), ("_lib_b_sol___.abi", "nul")].all
            (fun (name, text) => t'.entry? ["out", name] == some (.file (Text.encode text)))
        ∧ Confined escaping "out" ⟨true, true, false⟩ breaking.here breaking.tree plan t'
            result := by
  have hascending : Ascending escaping := by
    intro units hunits
    cases hunits
    unfold Dict.Sorted
    decide +kernel
  have hlinks : ∀ location,
      Opens (breaking.tree.create breaking.here "out").1 breaking.here "out" location →
      LinkFree (breaking.tree.create breaking.here "out").1 location := fun location _ =>
    FileTree.linkFree_of_entries (by decide +kernel) location
  obtain ⟨plan, t', result, left, hrun, hconfined⟩ :=
    @writeAll_confined escaping hascending "out" ⟨true, true, false⟩ breaking hlinks
  have hresult : result = ((writeAll Machine.directory "out" ⟨true, true, false⟩
      (ofResponse escaping)).run breaking).1 := by rw [hrun]
  have htree : t' = ((writeAll Machine.directory "out" ⟨true, true, false⟩
      (ofResponse escaping)).run breaking).2.tree := by rw [hrun]
  refine ⟨hascending, hlinks, plan, t', result, left, hrun, ?_, ?_, hconfined⟩
  · rw [hresult]
    decide +kernel
  · rw [htree]
    decide +kernel

end SolFront.Artifact
