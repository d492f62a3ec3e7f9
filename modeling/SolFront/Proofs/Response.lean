import SolFront.Proofs.Json.Records
import SolFront.Response

/-!
# Reading responses

What is read of a printed response depends on the response alone, and its diagnostics are read one
by one. A diagnostic that is an object has the message and the severity that its members say.
-/

namespace SolFront

open Json
open Json.Reader

/-! ## Readers -/

theorem SourceLocation.fields_faithful : FaithfulFields SourceLocation.fields :=
  faithfulFields_cons string_faithful <|
  faithfulFields_cons signedWord_faithful <|
  faithfulFields_cons signedWord_faithful faithfulFields_nil

theorem SourceLocation.reader_faithful (n : Nat) : Faithful (SourceLocation.reader n) :=
  map_faithful (record_faithful SourceLocation.fields_faithful _ n) _

theorem Diagnostic.fields_faithful : FaithfulFields Diagnostic.fields :=
  faithfulFields_cons string_faithful <|
  faithfulFields_cons (fun n => nullable_faithful (string_faithful n)) <|
  faithfulFields_cons string_faithful <|
  faithfulFields_cons string_faithful <|
  faithfulFields_cons string_faithful <|
  faithfulFields_cons (fun n => nullable_faithful (SourceLocation.reader_faithful n)) <|
  faithfulFields_cons string_faithful faithfulFields_nil

theorem Diagnostic.reader_faithful (n : Nat) : Faithful (Diagnostic.reader n) :=
  map_faithful (record_faithful Diagnostic.fields_faithful _ n) _

theorem Bytecode.fields_faithful : FaithfulFields Bytecode.fields :=
  faithfulFields_cons string_faithful faithfulFields_nil

theorem Bytecode.reader_faithful (n : Nat) : Faithful (Bytecode.reader n) :=
  map_faithful (record_faithful Bytecode.fields_faithful _ n) _

theorem MachineCode.fields_faithful : FaithfulFields MachineCode.fields :=
  faithfulFields_cons (fun n => nullable_faithful (Bytecode.reader_faithful n)) faithfulFields_nil

theorem MachineCode.reader_faithful (n : Nat) : Faithful (MachineCode.reader n) :=
  map_faithful (record_faithful MachineCode.fields_faithful _ n) _

theorem Contract.fields_faithful : FaithfulFields Contract.fields :=
  faithfulFields_cons (fun n => nullable_faithful (value_faithful n)) <|
  faithfulFields_cons (fun n => nullable_faithful (MachineCode.reader_faithful n))
    faithfulFields_nil

theorem Contract.reader_faithful (n : Nat) : Faithful (Contract.reader n) :=
  map_faithful (record_faithful Contract.fields_faithful _ n) _

theorem SourceId.fields_faithful : FaithfulFields SourceId.fields :=
  faithfulFields_cons word_faithful faithfulFields_nil

theorem SourceId.reader_faithful (n : Nat) : Faithful (SourceId.reader n) :=
  map_faithful (record_faithful SourceId.fields_faithful _ n) _

theorem Response.fields_faithful : FaithfulFields Response.fields :=
  faithfulFields_cons
    (fun n => nullable_faithful (dict_faithful (dict_faithful Contract.reader_faithful) n)) <|
  faithfulFields_cons (fun n => nullable_faithful (dict_faithful SourceId.reader_faithful n)) <|
  faithfulFields_cons (fun n => nullable_faithful (list_faithful Diagnostic.reader_faithful n))
    faithfulFields_nil

theorem Response.reader_faithful (n : Nat) : Faithful (Response.reader n) :=
  map_faithful (record_faithful Response.fields_faithful _ n) _

/-! ## Diagnostics -/

namespace Diagnostic

/-- The diagnostic of a draft. -/
def ofDraft (d : Draft) : Diagnostic :=
  ⟨d.component.getD "", d.errorCode.getD none, d.formattedMessage.getD "", d.message.getD "",
    d.severity.getD "", d.sourceLocation.getD none, d.kind.getD ""⟩

/-- A diagnostic before any of its fields is read. -/
def emptyDraft : Draft := ⟨none, none, none, none, none, none, none⟩

theorem decode_obj {n : Nat} {ms : Dict Json} {d : Diagnostic}
    (h : decode (reader n) (.obj ms) = some d) :
    ∃ k draft, fillMembers k fields emptyDraft ms = some draft ∧ ofDraft draft = d := by
  have hmap : decode (reader n) (.obj ms)
      = (decode (record "struct Error" fields emptyDraft n) (.obj ms)).map ofDraft :=
    decode_map _ _ n _
  rw [hmap] at h
  obtain ⟨draft, hdraft, hd⟩ := Option.map_eq_some_iff.mp h
  obtain ⟨k, -, hfill⟩ := decode_record_obj fields_faithful hdraft
  exact ⟨k, draft, hfill, hd⟩

theorem keeps_message (n : Nat) : Keeps n "message" Draft.message fields :=
  keeps_other (fun _ _ => rfl) <| keeps_other (fun _ _ => rfl) <| keeps_other (fun _ _ => rfl) <|
  keeps_self <| keeps_other (fun _ _ => rfl) <| keeps_other (fun _ _ => rfl) <|
  keeps_other (fun _ _ => rfl) <| keeps_nil n _ _

theorem keeps_severity (n : Nat) : Keeps n "severity" Draft.severity fields :=
  keeps_other (fun _ _ => rfl) <| keeps_other (fun _ _ => rfl) <| keeps_other (fun _ _ => rfl) <|
  keeps_other (fun _ _ => rfl) <| keeps_self <| keeps_other (fun _ _ => rfl) <|
  keeps_other (fun _ _ => rfl) <| keeps_nil n _ _

/-- The message of a diagnostic is the text of its member. -/
theorem message_of_decode {n : Nat} {ms : Dict Json} {d : Diagnostic} {text : String}
    (h : decode (reader n) (.obj ms) = some d)
    (hmessage : Dict.get? ms "message" = some (.str text)) : d.message = text := by
  obtain ⟨k, draft, hfill, rfl⟩ := decode_obj h
  have hfind : fields.find? (fun field => field.name == "message")
      = some (.of "message" false .string Draft.message fun d x => { d with message := some x }) :=
    rfl
  obtain ⟨x, hx, hget⟩ := get_fillMembers hfind (fun _ _ => rfl) (keeps_message k) ms emptyDraft
    draft hmessage hfill
  cases decode_string hx
  simp [ofDraft, hget]

/-- A diagnostic is a warning only if its member says so. -/
theorem severity_of_decode {n : Nat} {ms : Dict Json} {d : Diagnostic}
    (h : decode (reader n) (.obj ms) = some d) (hwarning : d.isWarning = true) :
    Dict.get? ms "severity" = some (.str "warning") := by
  obtain ⟨k, draft, hfill, rfl⟩ := decode_obj h
  have hseverity : draft.severity.getD "" = "warning" := beq_iff_eq.mp hwarning
  have hfind : fields.find? (fun field => field.name == "severity")
      = some (.of "severity" true .string Draft.severity fun d x =>
          { d with severity := some x }) := rfl
  cases hv : Dict.get? ms "severity" with
  | none =>
      have hget := get_fillMembers_of_absent (keeps_severity k) ms emptyDraft draft hv hfill
      rw [hget] at hseverity
      exact absurd hseverity (by decide)
  | some v =>
      obtain ⟨x, hx, hget⟩ := get_fillMembers hfind (fun _ _ => rfl) (keeps_severity k) ms
        emptyDraft draft hv hfill
      cases decode_string hx
      rw [hget] at hseverity
      exact congrArg (fun s => some (Json.str s)) hseverity

end Diagnostic

/-! ## The list of diagnostics -/

namespace Response

/-- The response of a draft. -/
def ofDraft (d : Draft) : Response :=
  ⟨d.contracts.getD none, d.sources.getD none, d.errors.getD none⟩

/-- A response before any of its fields is read. -/
def emptyDraft : Draft := ⟨none, none, none⟩

theorem keeps_errors (n : Nat) : Keeps n "errors" Draft.errors fields :=
  keeps_other (fun _ _ => rfl) <| keeps_other (fun _ _ => rfl) <| keeps_self <| keeps_nil n _ _

/-- **The diagnostics of a response are read one by one.** -/
theorem errors_of_decode {n : Nat} {ms : Dict Json} {r : Response} {items : List Json}
    (h : decode (reader n) (.obj ms) = some r)
    (hitems : Dict.get? ms "errors" = some (.arr items)) :
    ∃ k, items.mapM (decode (Diagnostic.reader k)) = some r.diagnostics := by
  have hmap : decode (reader n) (.obj ms)
      = (decode (record "struct Output" fields emptyDraft n) (.obj ms)).map ofDraft :=
    decode_map _ _ n _
  rw [hmap] at h
  obtain ⟨draft, hdraft, rfl⟩ := Option.map_eq_some_iff.mp h
  obtain ⟨k, -, hfill⟩ := decode_record_obj fields_faithful hdraft
  have hfind : fields.find? (fun field => field.name == "errors")
      = some (.of "errors" false (.nullable (.list Diagnostic.reader)) Draft.errors fun d x =>
          { d with errors := some x }) := rfl
  obtain ⟨x, hx, hget⟩ := get_fillMembers hfind (fun _ _ => rfl) (keeps_errors k) ms emptyDraft
    draft hitems hfill
  have hlist := list_faithful Diagnostic.reader_faithful k
  rw [(nullable_decodes (by simp) (hlist.decodes (.arr items))).decode_eq] at hx
  obtain ⟨ds, hds, rfl⟩ := Option.map_eq_some_iff.mp hx
  obtain ⟨k, -, hall⟩ := decode_list_arr Diagnostic.reader_faithful hds
  refine ⟨k, ?_⟩
  simpa [ofDraft, diagnostics, hget] using hall

end Response

end SolFront
