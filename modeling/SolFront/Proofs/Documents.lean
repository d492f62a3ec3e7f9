import SolFront.Import.Answer
import SolFront.Proofs.Json.Restoring
import SolFront.Proofs.Response
import SolFront.Request

/-!
# Documents come back

Requests, responses and their parts are read into records and printed from them. What has been read
of a text, whether its records are objects or lists, with or without fields that nobody knows, is
what is read of the printed record: a required field is printed always, a field with a default is
printed with the value that it got, and one that may be absent is printed if it is there. Raw values
inside a record are kept if their numbers are integers.

Each record has a theorem `restores`, which says this for its reader at any number of brackets that
may still be opened; it uses the theorems of the records inside it.
-/

namespace SolFront

open Json
open Json.Reader

variable {α δ : Type}

/-- A member that may be absent fills its field in where it is there. -/
theorem fillMembers_optional {fields : List (RecordField δ)} {k : Nat} {name : String}
    {required : Bool} {reader : Reader α} {get : δ → Option (Option α)} {set : δ → Option α → δ}
    {draft : δ} (draft' : δ) (hfind : fields.find? (fun field => field.name == name)
      = some (.of name required (.nullable reader) get set))
    (hnone : get draft = none) {document : α → Json} {o : Option α}
    (ho : ∀ x ∈ o, Decodes (nullable reader k) (document x) (some (some x)))
    (hdraft : (o.elim draft fun x => set draft (some x)) = draft') (ms : List (String × Json)) :
    fillMembers k fields draft (optionalMember name (o.map document) ++ ms)
      = fillMembers k fields draft' ms := by
  subst hdraft
  cases o with
  | none => rfl
  | some x => exact fillMembers_member hfind hnone (ho x rfl) ms

theorem getD_map_some (o : Option α) : (o.map some).getD none = o := by
  cases o <;> rfl

/-! ## Diagnostics -/

namespace SourceLocation

theorem fillMembers_toJson (k : Nat) (l : SourceLocation) :
    ∃ ms d, l.toJson = .obj ms ∧ fillMembers k fields ⟨none, none, none⟩ ms = some d
      ∧ ⟨d.file.getD "", d.start.getD 0, d.stop.getD 0⟩ = l := by
  refine ⟨_, ⟨some l.file, some l.start, some l.stop⟩, rfl, ?_, rfl⟩
  refine (fillMembers_member rfl rfl (string_str k l.file) _).trans ?_
  refine (fillMembers_member rfl rfl (signedWord_int k l.start) _).trans ?_
  refine (fillMembers_member rfl rfl (signedWord_int k l.stop) _).trans ?_
  rfl

theorem restores (n : Nat) : Restores (reader n) toJson fun _ => True :=
  restores_plain fields_faithful fillMembers_toJson n

end SourceLocation

namespace Diagnostic

/-- What of a diagnostic is read again with so many brackets to open: its location too. -/
def Restored (k : Nat) (d : Diagnostic) : Prop :=
  ∀ l ∈ d.sourceLocation, Decodes (nullable SourceLocation.reader k) l.toJson (some (some l))

theorem restored_of_read (n : Nat) : Yields (record "struct Error" fields emptyDraft n)
    fun d => ∃ k, n = k + 1 ∧ Restored k (ofDraft d) := by
  have hlocations : ∀ k, RestoresSome (nullable SourceLocation.reader k) SourceLocation.toJson
      fun _ => True :=
    fun k => nullable_restores (fun _ => by simp [SourceLocation.toJson])
      (SourceLocation.restores k)
  refine yields_record _ (fun k l hl => (by cases hl)) ?_ n
  exact preserves_other (fun _ _ _ hd => hd) <| preserves_other (fun _ _ _ hd => hd) <|
    preserves_other (fun _ _ _ hd => hd) <| preserves_other (fun _ _ _ hd => hd) <|
    preserves_other (fun _ _ _ hd => hd) <|
    preserves_cons (fun k _ _ => (hlocations k).imp fun _ hx l hl => hx l hl trivial) <|
    preserves_other (fun _ _ _ hd => hd) <| preserves_nil _

theorem fillMembers_toJson {k : Nat} {d : Diagnostic} (h : Restored k d) :
    ∃ ms d', d.toJson = .obj ms ∧ fillMembers k fields emptyDraft ms = some d'
      ∧ ofDraft d' = d := by
  have hcode : ∀ code ∈ d.errorCode,
      Decodes (nullable string k) (.str code) (some (some code)) :=
    fun code _ => nullable_decodes (by simp) (string_str k code)
  refine ⟨_, ⟨some d.component, d.errorCode.map some, some d.formattedMessage, some d.message,
    some d.severity, d.sourceLocation.map some, some d.kind⟩, rfl, ?_, ?_⟩
  · simp only [List.append_assoc, List.cons_append, List.nil_append]
    refine (fillMembers_member rfl rfl (string_str k d.component) _).trans ?_
    refine (fillMembers_optional ⟨_, d.errorCode.map some, _, _, _, _, _⟩ rfl rfl hcode
      (by cases d.errorCode <;> rfl) _).trans ?_
    refine (fillMembers_member rfl rfl (string_str k d.formattedMessage) _).trans ?_
    refine (fillMembers_member rfl rfl (string_str k d.message) _).trans ?_
    refine (fillMembers_member rfl rfl (string_str k d.severity) _).trans ?_
    refine (fillMembers_optional ⟨_, _, _, _, _, d.sourceLocation.map some, _⟩ rfl rfl h
      (by cases d.sourceLocation <;> rfl) _).trans ?_
    refine (fillMembers_member rfl rfl (string_str k d.kind) _).trans ?_
    rfl
  · simp only [ofDraft, Option.getD_some, getD_map_some]

theorem restores (n : Nat) : Restores (reader n) toJson fun _ => True :=
  restores_record fields_faithful restored_of_read (fun _ _ h _ => fillMembers_toJson h) n

end Diagnostic

/-! ## Contracts -/

namespace Bytecode

theorem fillMembers_toJson (k : Nat) (b : Bytecode) :
    ∃ ms d, b.toJson = .obj ms ∧ fillMembers k fields ⟨none⟩ ms = some d
      ∧ ⟨d.object.getD ""⟩ = b := by
  refine ⟨_, ⟨some b.object⟩, rfl, ?_, rfl⟩
  refine (fillMembers_member rfl rfl (string_str k b.object) _).trans ?_
  rfl

theorem restores (n : Nat) : Restores (reader n) toJson fun _ => True :=
  restores_plain fields_faithful fillMembers_toJson n

end Bytecode

namespace MachineCode

/-- What of the machine code is read again with so many brackets to open. -/
def Restored (k : Nat) (m : MachineCode) : Prop :=
  ∀ b ∈ m.bytecode, Decodes (nullable Bytecode.reader k) b.toJson (some (some b))

theorem restored_of_read (n : Nat) : Yields (record "struct EVM" fields ⟨none⟩ n)
    fun d => ∃ k, n = k + 1 ∧ Restored k ⟨d.bytecode.getD none⟩ := by
  have hcodes : ∀ k, RestoresSome (nullable Bytecode.reader k) Bytecode.toJson fun _ => True :=
    fun k => nullable_restores (fun _ => by simp [Bytecode.toJson]) (Bytecode.restores k)
  refine yields_record _ (fun k b hb => (by cases hb)) ?_ n
  exact preserves_cons (fun k _ _ => (hcodes k).imp fun _ hx b hb => hx b hb trivial) <|
    preserves_nil _

theorem fillMembers_toJson {k : Nat} {m : MachineCode} (h : Restored k m) :
    ∃ ms d, m.toJson = .obj ms ∧ fillMembers k fields ⟨none⟩ ms = some d
      ∧ ⟨d.bytecode.getD none⟩ = m := by
  refine ⟨optionalMember "bytecode" (m.bytecode.map (·.toJson)) ++ [], ⟨m.bytecode.map some⟩,
    ?_, ?_, ?_⟩
  · rw [List.append_nil]
    rfl
  · refine (fillMembers_optional ⟨m.bytecode.map some⟩ rfl rfl h
      (by cases m.bytecode <;> rfl) _).trans ?_
    rfl
  · simp only [getD_map_some]

theorem restores (n : Nat) : Restores (reader n) toJson fun _ => True :=
  restores_record fields_faithful restored_of_read (fun _ _ h _ => fillMembers_toJson h) n

end MachineCode

namespace Contract

/-- The raw values in a contract. -/
def embedded (c : Contract) : List Json := c.abi.toList

/-- What of a contract is read again with so many brackets to open. -/
structure Restored (k : Nat) (c : Contract) : Prop where
  abi : ∀ abi ∈ c.abi, abi.Integers → Decodes (nullable json k) (id abi) (some (some abi))
  evm : ∀ evm ∈ c.evm, Decodes (nullable MachineCode.reader k) evm.toJson (some (some evm))

theorem restored_of_read (n : Nat) : Yields (record "struct Contract" fields ⟨none, none⟩ n)
    fun d => ∃ k, n = k + 1 ∧ Restored k ⟨d.abi.getD none, d.evm.getD none⟩ := by
  have hcodes : ∀ k, RestoresSome (nullable MachineCode.reader k) MachineCode.toJson
      fun _ => True :=
    fun k => nullable_restores (fun _ => by simp [MachineCode.toJson]) (MachineCode.restores k)
  refine yields_record _ (fun k => ⟨fun _ h => (by cases h), fun _ h => (by cases h)⟩) ?_ n
  exact preserves_cons (fun k _ hd => (nullable_json_restores k).imp fun _ hx => ⟨hx, hd.evm⟩) <|
    preserves_cons (fun k _ hd => (hcodes k).imp
      fun _ hx => ⟨hd.abi, fun evm hevm => hx evm hevm trivial⟩) <|
    preserves_nil _

theorem fillMembers_toJson {k : Nat} {c : Contract} (h : Restored k c)
    (hintegers : ∀ v ∈ c.embedded, v.Integers) :
    ∃ ms d, c.toJson = .obj ms ∧ fillMembers k fields ⟨none, none⟩ ms = some d
      ∧ ⟨d.abi.getD none, d.evm.getD none⟩ = c := by
  have habi : ∀ abi ∈ c.abi, Decodes (nullable json k) (id abi) (some (some abi)) :=
    fun abi hmem => h.abi abi hmem (hintegers abi (Option.mem_toList.mpr hmem))
  refine ⟨optionalMember "abi" (c.abi.map id) ++
    (optionalMember "evm" (c.evm.map (·.toJson)) ++ []), ⟨c.abi.map some, c.evm.map some⟩,
    ?_, ?_, ?_⟩
  · rw [List.append_nil, Option.map_id]
    rfl
  · refine (fillMembers_optional ⟨c.abi.map some, _⟩ rfl rfl habi
      (by cases c.abi <;> rfl) _).trans ?_
    refine (fillMembers_optional ⟨_, c.evm.map some⟩ rfl rfl h.evm
      (by cases c.evm <;> rfl) _).trans ?_
    rfl
  · simp only [getD_map_some]

theorem restores (n : Nat) : Restores (reader n) toJson fun c => ∀ v ∈ c.embedded, v.Integers :=
  restores_record fields_faithful restored_of_read (fun _ _ => fillMembers_toJson) n

end Contract

/-! ## Responses -/

namespace SourceId

theorem fillMembers_toJson (k : Nat) (s : SourceId) :
    ∃ ms d, s.toJson = .obj ms ∧ fillMembers k fields ⟨none⟩ ms = some d
      ∧ ⟨d.id.getD 0⟩ = s := by
  refine ⟨_, ⟨some s.id⟩, rfl, ?_, rfl⟩
  refine (fillMembers_member rfl rfl (word_nat k s.id) _).trans ?_
  rfl

theorem restores (n : Nat) : Restores (reader n) toJson fun _ => True :=
  restores_plain fields_faithful fillMembers_toJson n

end SourceId

namespace Response

/-- The raw values in a response. -/
def embedded (r : Response) : List Json :=
  (r.contracts.getD []).flatMap fun file => file.2.flatMap fun c => c.2.embedded

/-- The contracts as a document. -/
def contractsJson (files : Dict (Dict Contract)) : Json :=
  .obj (files.map fun f => (f.1, .obj (f.2.map fun c => (c.1, c.2.toJson))))

/-- The numbers of the sources as a document. -/
def sourcesJson (sources : Dict SourceId) : Json :=
  .obj (sources.map fun s => (s.1, s.2.toJson))

/-- The diagnostics as a document. -/
def errorsJson (errors : List Diagnostic) : Json :=
  .arr (errors.map (·.toJson))

/-- What of a response is read again with so many brackets to open. -/
structure Restored (k : Nat) (r : Response) : Prop where
  contracts : ∀ files ∈ r.contracts,
    (∀ file ∈ files, ∀ c ∈ file.2, ∀ v ∈ c.2.embedded, v.Integers) →
    Decodes (nullable (dict (dict Contract.reader)) k) (contractsJson files) (some (some files))
  sources : ∀ sources ∈ r.sources,
    Decodes (nullable (dict SourceId.reader) k) (sourcesJson sources) (some (some sources))
  errors : ∀ errors ∈ r.errors,
    Decodes (nullable (list Diagnostic.reader) k) (errorsJson errors) (some (some errors))

theorem restored_of_read (n : Nat) : Yields (record "struct Output" fields emptyDraft n)
    fun d => ∃ k, n = k + 1 ∧ Restored k (ofDraft d) := by
  have hcontracts : ∀ k, RestoresSome (nullable (dict (dict Contract.reader)) k) contractsJson _ :=
    fun k => nullable_restores (fun _ => by simp [contractsJson]) <|
      dict_restores (dict_faithful Contract.reader_faithful)
        (dict_restores Contract.reader_faithful Contract.restores) k
  have hsources : ∀ k, RestoresSome (nullable (dict SourceId.reader) k) sourcesJson _ :=
    fun k => nullable_restores (fun _ => by simp [sourcesJson]) <|
      dict_restores SourceId.reader_faithful SourceId.restores k
  have herrors : ∀ k, RestoresSome (nullable (list Diagnostic.reader) k) errorsJson _ :=
    fun k => nullable_restores (fun _ => by simp [errorsJson]) <|
      list_restores Diagnostic.reader_faithful Diagnostic.restores k
  have hempty : ∀ k, Restored k (ofDraft emptyDraft) :=
    fun k => ⟨fun _ h => (by cases h), fun _ h => (by cases h), fun _ h => (by cases h)⟩
  refine yields_record _ (I := fun k d => Restored k (ofDraft d)) hempty ?_ n
  exact preserves_cons (fun k _ hd => (hcontracts k).imp
      fun _ hx => ⟨hx, hd.sources, hd.errors⟩) <|
    preserves_cons (fun k _ hd => (hsources k).imp fun _ hx =>
      ⟨hd.contracts, fun s hs => hx s hs fun _ _ => trivial, hd.errors⟩) <|
    preserves_cons (fun k _ hd => (herrors k).imp fun _ hx =>
      ⟨hd.contracts, hd.sources, fun e he => hx e he fun _ _ => trivial⟩) <|
    preserves_nil _

theorem mem_embedded {r : Response} {files : Dict (Dict Contract)} (hfiles : r.contracts = some files)
    {file : String × Dict Contract} (hfile : file ∈ files) {c : String × Contract}
    (hc : c ∈ file.2) {v : Json} (hv : v ∈ c.2.embedded) : v ∈ r.embedded := by
  unfold embedded
  rw [hfiles, Option.getD_some]
  exact List.mem_flatMap.mpr ⟨file, hfile, List.mem_flatMap.mpr ⟨c, hc, hv⟩⟩

theorem fillMembers_toJson {k : Nat} {r : Response} (h : Restored k r)
    (hintegers : ∀ v ∈ r.embedded, v.Integers) :
    ∃ ms d, r.toJson = .obj ms ∧ fillMembers k fields emptyDraft ms = some d
      ∧ ofDraft d = r := by
  have hcontracts : ∀ files ∈ r.contracts, Decodes (nullable (dict (dict Contract.reader)) k)
      (contractsJson files) (some (some files)) :=
    fun files hfiles => h.contracts files hfiles fun file hfile c hc v hv =>
      hintegers v (mem_embedded hfiles hfile hc hv)
  refine ⟨optionalMember "contracts" (r.contracts.map contractsJson) ++
    (optionalMember "sources" (r.sources.map sourcesJson) ++
      (optionalMember "errors" (r.errors.map errorsJson) ++ [])),
    ⟨r.contracts.map some, r.sources.map some, r.errors.map some⟩, ?_, ?_, ?_⟩
  · rw [List.append_nil, ← List.append_assoc]
    rfl
  · refine (fillMembers_optional ⟨r.contracts.map some, _, _⟩ rfl rfl hcontracts
      (by cases r.contracts <;> rfl) _).trans ?_
    refine (fillMembers_optional ⟨_, r.sources.map some, _⟩ rfl rfl h.sources
      (by cases r.sources <;> rfl) _).trans ?_
    refine (fillMembers_optional ⟨_, _, r.errors.map some⟩ rfl rfl h.errors
      (by cases r.errors <;> rfl) _).trans ?_
    rfl
  · simp only [ofDraft, getD_map_some]

theorem restores (n : Nat) : Restores (reader n) toJson fun r => ∀ v ∈ r.embedded, v.Integers :=
  restores_record fields_faithful restored_of_read (fun _ _ => fillMembers_toJson) n

end Response

/-! ## Requests -/

namespace Language

theorem reader_faithful (n : Nat) : Faithful (reader n) :=
  constant_faithful variants n

theorem reader_toJson (n : Nat) (language : Language) :
    Decodes (reader n) language.toJson (some language) := by
  unfold reader constant
  cases language <;> exact choice_str variants .ok n _

end Language

namespace Optimizer

theorem fields_faithful : FaithfulFields fields :=
  faithfulFields_cons bool_faithful <| faithfulFields_cons word_faithful faithfulFields_nil

theorem reader_faithful (n : Nat) : Faithful (reader n) :=
  map_faithful (record_faithful fields_faithful _ n) _

theorem fillMembers_toJson (k : Nat) (o : Optimizer) :
    ∃ ms d, o.toJson = .obj ms ∧ fillMembers k fields ⟨none, none⟩ ms = some d
      ∧ ⟨d.enabled.getD false, d.runs.getD 0⟩ = o := by
  refine ⟨_, ⟨some o.enabled, some o.runs⟩, rfl, ?_, rfl⟩
  refine (fillMembers_member rfl rfl (bool_bool k o.enabled) _).trans ?_
  refine (fillMembers_member rfl rfl (word_nat k o.runs) _).trans ?_
  rfl

theorem restores (n : Nat) : Restores (reader n) toJson fun _ => True :=
  restores_plain fields_faithful fillMembers_toJson n

end Optimizer

namespace Settings

/-- The raw values in the settings. -/
def embedded (s : Settings) : List Json := [s.outputSelection]

/-- What of the settings is read again with so many brackets to open. -/
structure Restored (k : Nat) (s : Settings) : Prop where
  optimizer : Decodes (Optimizer.reader k) s.optimizer.toJson (some s.optimizer)
  outputSelection : s.outputSelection.Integers →
    Decodes (json k) s.outputSelection (some s.outputSelection)

theorem fields_faithful : FaithfulFields fields :=
  faithfulFields_cons Optimizer.reader_faithful <|
  faithfulFields_cons value_faithful faithfulFields_nil

theorem reader_faithful (n : Nat) : Faithful (reader n) :=
  map_faithful (record_faithful fields_faithful _ n) _

theorem gathers_fields : Gathers fields := by
  intro field hfield
  simp only [fields, List.mem_cons, List.not_mem_nil, or_false] at hfield
  rcases hfield with rfl | rfl <;>
    exact fun d _ => yields_field fun _ _ _ _ => ⟨rfl, by simp [fields, RecordField.of]⟩

theorem restored_of_read (n : Nat) : Yields (record "struct Settings" fields ⟨none, none⟩ n)
    fun d => ∃ k, n = k + 1
      ∧ Restored k ⟨d.optimizer.getD default, d.outputSelection.getD default⟩ := by
  have hrecord := yields_record_given "struct Settings" ⟨none, none⟩
    (I := fun k d =>
      (∀ o ∈ d.optimizer, Decodes (Optimizer.reader k) o.toJson (some o))
        ∧ ∀ v ∈ d.outputSelection, v.Integers → Decodes (json k) v (some v))
    gathers_fields (fun _ => ⟨fun _ h => (by cases h), fun _ h => (by cases h)⟩)
    (preserves_cons (fun k _ hd => (Optimizer.restores k).imp
        fun o ho => ⟨fun _ h => Option.some.inj h ▸ ho trivial, hd.2⟩) <|
      preserves_cons (fun k _ hd => (json_restores k).imp
        fun v hv => ⟨hd.1, fun _ h => Option.some.inj h ▸ hv⟩) <|
      preserves_nil _) n
  -- neither field may be lacking, so neither default is used
  refine hrecord.imp fun d ⟨k, hk, hd, hgiven⟩ => ⟨k, hk, ?_⟩
  obtain ⟨⟨o, ho⟩, hgiven⟩ := hgiven.exists_cons
  obtain ⟨⟨v, hv⟩, -⟩ := hgiven.exists_cons
  rw [ho, hv]
  exact ⟨hd.1 o ho, hd.2 v hv⟩

theorem fillMembers_toJson {k : Nat} {s : Settings} (h : Restored k s)
    (hintegers : ∀ v ∈ s.embedded, v.Integers) :
    ∃ ms d, s.toJson = .obj ms ∧ fillMembers k fields ⟨none, none⟩ ms = some d
      ∧ ⟨d.optimizer.getD default, d.outputSelection.getD default⟩ = s := by
  have hselection := h.outputSelection (hintegers _ List.mem_cons_self)
  refine ⟨_, ⟨some s.optimizer, some s.outputSelection⟩, rfl, ?_, rfl⟩
  refine (fillMembers_member rfl rfl h.optimizer _).trans ?_
  refine (fillMembers_member rfl rfl hselection _).trans ?_
  rfl

theorem restores (n : Nat) : Restores (reader n) toJson fun s => ∀ v ∈ s.embedded, v.Integers :=
  restores_record fields_faithful restored_of_read (fun _ _ => fillMembers_toJson) n

end Settings

namespace Source

theorem fields_faithful : FaithfulFields fields :=
  faithfulFields_cons string_faithful faithfulFields_nil

theorem reader_faithful (n : Nat) : Faithful (reader n) :=
  map_faithful (record_faithful fields_faithful _ n) _

theorem fillMembers_toJson (k : Nat) (s : Source) :
    ∃ ms d, s.toJson = .obj ms ∧ fillMembers k fields ⟨none⟩ ms = some d
      ∧ ⟨d.content.getD ""⟩ = s := by
  refine ⟨_, ⟨some s.content⟩, rfl, ?_, rfl⟩
  refine (fillMembers_member rfl rfl (string_str k s.content) _).trans ?_
  rfl

theorem restores (n : Nat) : Restores (reader n) toJson fun _ => True :=
  restores_plain fields_faithful fillMembers_toJson n

end Source

namespace Request

/-- The raw values in a request. -/
def embedded (r : Request) : List Json := r.settings.embedded

/-- The sources as a document. -/
def sourcesJson (sources : Dict Source) : Json :=
  .obj (sources.map fun e => (e.1, e.2.toJson))

/-- What of a request is read again with so many brackets to open. -/
structure Restored (k : Nat) (r : Request) : Prop where
  settings : (∀ v ∈ r.settings.embedded, v.Integers) →
    Decodes (Settings.reader k) r.settings.toJson (some r.settings)
  sources : Decodes (dict Source.reader k) (sourcesJson r.sources) (some r.sources)

theorem fields_faithful : FaithfulFields fields :=
  faithfulFields_cons Language.reader_faithful <|
  faithfulFields_cons Settings.reader_faithful <|
  faithfulFields_cons (dict_faithful Source.reader_faithful) faithfulFields_nil

theorem gathers_fields : Gathers fields := by
  intro field hfield
  simp only [fields, List.mem_cons, List.not_mem_nil, or_false] at hfield
  rcases hfield with rfl | rfl | rfl <;>
    exact fun d _ => yields_field fun _ _ _ _ => ⟨rfl, by simp [fields, RecordField.of]⟩

theorem restored_of_read (n : Nat) : Yields (record "struct Input" fields ⟨none, none, none⟩ n)
    fun d => ∃ k, n = k + 1
      ∧ Restored k ⟨d.language.getD default, d.settings.getD default, d.sources.getD []⟩ := by
  have hsources : ∀ k, Restores (dict Source.reader k) sourcesJson _ :=
    dict_restores Source.reader_faithful Source.restores
  have hrecord := yields_record_given "struct Input" ⟨none, none, none⟩
    (I := fun k d =>
      (∀ s ∈ d.settings, (∀ v ∈ s.embedded, v.Integers) →
        Decodes (Settings.reader k) s.toJson (some s))
        ∧ ∀ s ∈ d.sources, Decodes (dict Source.reader k) (sourcesJson s) (some s))
    gathers_fields (fun _ => ⟨fun _ h => (by cases h), fun _ h => (by cases h)⟩)
    (preserves_other (fun _ _ _ hd => hd) <|
      preserves_cons (fun k _ hd => (Settings.restores k).imp
        fun s hs => ⟨fun _ h => Option.some.inj h ▸ hs, hd.2⟩) <|
      preserves_cons (fun k _ hd => (hsources k).imp
        fun s hs => ⟨hd.1, fun _ h => Option.some.inj h ▸ hs fun _ _ => trivial⟩) <|
      preserves_nil _) n
  -- no field may be lacking, so no default is used
  refine hrecord.imp fun d ⟨k, hk, hd, hgiven⟩ => ⟨k, hk, ?_⟩
  obtain ⟨-, hgiven⟩ := hgiven.exists_cons
  obtain ⟨⟨settings, hsettings⟩, hgiven⟩ := hgiven.exists_cons
  obtain ⟨⟨sources, hsources⟩, -⟩ := hgiven.exists_cons
  rw [hsettings, hsources]
  exact ⟨hd.1 settings hsettings, hd.2 sources hsources⟩

theorem fillMembers_toJson {k : Nat} {r : Request} (h : Restored k r)
    (hintegers : ∀ v ∈ r.embedded, v.Integers) :
    ∃ ms d, r.toJson = .obj ms ∧ fillMembers k fields ⟨none, none, none⟩ ms = some d
      ∧ ⟨d.language.getD default, d.settings.getD default, d.sources.getD []⟩ = r := by
  refine ⟨_, ⟨some r.language, some r.settings, some r.sources⟩, rfl, ?_, rfl⟩
  refine (fillMembers_member rfl rfl (Language.reader_toJson k r.language) _).trans ?_
  refine (fillMembers_member rfl rfl (h.settings hintegers) _).trans ?_
  refine (fillMembers_member rfl rfl h.sources _).trans ?_
  rfl

theorem restores (n : Nat) : Restores (reader n) toJson fun r => ∀ v ∈ r.embedded, v.Integers :=
  restores_record fields_faithful restored_of_read (fun _ _ => fillMembers_toJson) n

end Request

/-! ## Answers to imports -/

namespace ImportAnswer

theorem restores (n : Nat) : Restores (reader n) toJson fun _ => True := by
  have hpayload : ∀ k (f : String → ImportAnswer), Faithful (map f string k) :=
    fun k f => map_faithful (string_faithful k) f
  refine (yields_choice (fun _ _ h => by cases h) n).imp fun answer ⟨k, hk⟩ _ => ?_
  subst hk
  cases answer with
  | contents text =>
      exact choice_member variants _ (hpayload k) rfl (map_decodes (string_str k text))
  | error reason =>
      exact choice_member variants _ (hpayload k) rfl (map_decodes (string_str k reason))

end ImportAnswer

/-! ## Every kind of document -/

/-- The kinds of documents that are read and printed. -/
inductive DocumentKind where
  | response
  | request
  | settings
  | diagnostic
  | importAnswer
  deriving DecidableEq, Repr

namespace DocumentKind

/-- What a document of the kind says. -/
abbrev Value : DocumentKind → Type
  | response => Response
  | request => Request
  | settings => Settings
  | diagnostic => Diagnostic
  | importAnswer => ImportAnswer

/-- Reads a document of the kind. -/
def reader : (kind : DocumentKind) → Reader kind.Value
  | response => Response.reader
  | request => Request.reader
  | settings => Settings.reader
  | diagnostic => Diagnostic.reader
  | importAnswer => ImportAnswer.reader

/-- The document. -/
def toJson : (kind : DocumentKind) → kind.Value → Json
  | response => Response.toJson
  | request => Request.toJson
  | settings => Settings.toJson
  | diagnostic => Diagnostic.toJson
  | importAnswer => ImportAnswer.toJson

/-- The raw values in it. -/
def embedded : (kind : DocumentKind) → kind.Value → List Json
  | response => Response.embedded
  | request => Request.embedded
  | settings => Settings.embedded
  | diagnostic => fun _ => []
  | importAnswer => fun _ => []

/-- The text of a document read and printed again. -/
def rewrite (kind : DocumentKind) (pretty : Bool) (text : String) : Except ReadError String := do
  let x ← readWith kind.reader text
  .ok ((kind.toJson x).render pretty)

theorem restores (kind : DocumentKind) (n : Nat) :
    Restores (kind.reader n) kind.toJson fun x => ∀ v ∈ kind.embedded x, v.Integers := by
  cases kind with
  | response => exact Response.restores n
  | request => exact Request.restores n
  | settings => exact Settings.restores n
  | diagnostic => exact (Diagnostic.restores n).imp fun _ hx _ => hx trivial
  | importAnswer => exact (ImportAnswer.restores n).imp fun _ hx _ => hx trivial

/-- **What is read of a document is read again when it is printed**, and printing it once more makes
no difference. -/
theorem readWith_toJson (kind : DocumentKind) {text : String} {x : kind.Value}
    (hread : readWith kind.reader text = .ok x)
    (hintegers : ∀ v ∈ kind.embedded x, v.Integers) (pretty : Bool) :
    readWith kind.reader ((kind.toJson x).render pretty) = .ok x
      ∧ ∀ pretty', kind.rewrite pretty' ((kind.toJson x).render pretty)
        = .ok ((kind.toJson x).render pretty') := by
  have hagain := readWith_of_restores (kind.restores maxNesting) hread hintegers pretty
  refine ⟨hagain, fun pretty' => ?_⟩
  unfold rewrite
  rw [hagain]
  rfl

/-- A response with records as objects and as lists, a field that nobody knows, and fields that are
absent or `null`. -/
def mixedText : String :=
  "\x7b\"note\":1,\"errors\":[[\"general\",null,\"W\\n\",\"\",\"warning\",[\"a\",-1,9],\"\"]," ++
    "\x7b\"severity\":\"error\",\"formattedMessage\":\"\\u00fc\"," ++
    "\"sourceLocation\":null\x7d],\"contracts\":\x7b\"a\":\x7b\"A\":[]," ++
    "\"B\":[[18446744073709551615,-0,null],[[\"60\"]]]\x7d\x7d,\"sources\":null\x7d"

/-- What it says. -/
def mixed : Response where
  contracts := some
    [("a",
      [("A", ⟨none, none⟩),
        ("B", ⟨some (.arr [.num (.int 18446744073709551615), .num (.float (-0)), .null]),
          some ⟨some ⟨"60"⟩⟩⟩)])]
  sources := none
  errors := some
    [⟨"general", none, "W\n", "", "warning", some ⟨"a", -1, 9⟩, ""⟩,
      ⟨"", none, "\u00fc", "", "error", none, ""⟩]

/-- All that the response says comes back. -/
theorem readWith_toJson_mixed :
    readWith (reader .response) mixedText = .ok mixed
      ∧ (∀ v ∈ embedded .response mixed, v.Integers)
      ∧ ∀ pretty, readWith (reader .response) ((toJson .response mixed).render pretty) = .ok mixed
        ∧ ∀ pretty', rewrite .response pretty' ((toJson .response mixed).render pretty)
          = .ok ((toJson .response mixed).render pretty') := by
  have hread : readWith (reader .response) mixedText = .ok mixed :=
    eq_ok_of_toOption (by decide +kernel)
  have hintegers : ∀ v ∈ embedded .response mixed, v.Integers := by
    simp [embedded, Response.embedded, mixed, Contract.embedded]
  exact ⟨hread, hintegers, readWith_toJson .response hread hintegers⟩

/-- A response whose interface has an integer that no 64-bit word holds. -/
def wideInterface : Json :=
  .obj [("contracts", .obj [("a.sol", .obj [("A", .obj
    [("abi", .arr [.num (.int 147573952589676412928)])])])])]

/-- **A longer integer may not come back**: it is a float when it is read, and the float that is
printed is not the one that is read again. -/
theorem toJson_loses_digit :
    ¬ ∀ (kind : DocumentKind) (document : Json) (x : kind.Value), document.Integral →
      readWith kind.reader (document.render false) = .ok x →
      readWith kind.reader ((kind.toJson x).render false) = .ok x := by
  intro hall
  have hintegral : wideInterface.Integral := by
    have habi : Integral (.arr [.num (.int 147573952589676412928)]) :=
      .arr (List.forall_mem_singleton.mpr (.int _))
    exact .obj (List.forall_mem_singleton.mpr (.obj (List.forall_mem_singleton.mpr
      (.obj (List.forall_mem_singleton.mpr (.obj (List.forall_mem_singleton.mpr habi)))))))
  have hsome : (readWith Response.reader (wideInterface.render false)).toOption.isSome = true := by
    decide +kernel
  have hdiffers : ((readWith Response.reader (wideInterface.render false)).toOption.bind fun r =>
      (readWith Response.reader (r.toJson.render false)).toOption)
        ≠ (readWith Response.reader (wideInterface.render false)).toOption := by decide +kernel
  cases hread : readWith Response.reader (wideInterface.render false) with
  | error e =>
      rw [hread] at hsome
      cases hsome
  | ok r =>
      have hagain : readWith Response.reader (r.toJson.render false) = .ok r :=
        hall .response wideInterface r hintegral hread
      rw [hread] at hdiffers
      exact hdiffers (congrArg Except.toOption hagain)

end DocumentKind

end SolFront
