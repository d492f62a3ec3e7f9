import SolFront.Json.Record
import SolFront.Json.Printer

/-!
# Compilation responses

What the compiler answers: contracts by file and name, the numbers of the sources, and diagnostics.
All three may be absent, and `null` counts as absent. What is absent is not written.
-/

namespace SolFront

open Json (Reader)
open Json.Reader (RecordField)

/-- A member that is written only where it has a value. -/
def optionalMember (key : String) (value : Option Json) : List (String × Json) :=
  match value with
  | some v => [(key, v)]
  | none => []

/-- Where in a source file a diagnostic applies. -/
structure SourceLocation where
  file : String
  start : Int64
  stop : Int64
  deriving DecidableEq, Inhabited, Repr

namespace SourceLocation

/-- A location being read. -/
structure Draft where
  file : Option String
  start : Option Int64
  stop : Option Int64

/-- The fields of a location. -/
def fields : List (RecordField Draft) :=
  [.of "file" true .string (·.file) fun d x => { d with file := some x },
   .of "start" true .signedWord (·.start) fun d x => { d with start := some x },
   .of "end" true .signedWord (·.stop) fun d x => { d with stop := some x }]

/-- Reads a location. -/
def reader : Reader SourceLocation :=
  .map (fun d => ⟨d.file.getD "", d.start.getD 0, d.stop.getD 0⟩)
    (.record "struct SourceLocation" fields ⟨none, none, none⟩)

/-- The location as a document. -/
def toJson (l : SourceLocation) : Json :=
  .obj [("file", .str l.file), ("start", .num (.int l.start.toInt)),
    ("end", .num (.int l.stop.toInt))]

end SourceLocation

/-- A message of the compiler about the sources. -/
structure Diagnostic where
  /-- The part of the compiler that speaks. -/
  component : String
  errorCode : Option String
  /-- The message with its place and an excerpt of the source, as it is shown. -/
  formattedMessage : String
  message : String
  severity : String
  sourceLocation : Option SourceLocation
  /-- The class of the diagnostic, such as `ParserError`. -/
  kind : String
  deriving DecidableEq, Inhabited, Repr

namespace Diagnostic

/-- The severity that lets a compilation succeed. -/
def warningSeverity : String := "warning"

/-- A warning that belongs to no source. -/
def warning (message : String) : Diagnostic where
  component := "general"
  errorCode := none
  formattedMessage := message
  message := message
  severity := warningSeverity
  sourceLocation := none
  kind := "Warning"

/-- How the message about an import that cannot be provided starts. -/
def notFoundStart (path : String) : String :=
  "Source \"" ++ path ++ "\" not found: "

/-- The error about an import that cannot be provided. -/
def sourceNotFound (path reason : String) : Diagnostic where
  component := "general"
  errorCode := none
  formattedMessage := "ParserError: " ++ (notFoundStart path ++ reason) ++ "\n"
  message := notFoundStart path ++ reason
  severity := "error"
  sourceLocation := none
  kind := "ParserError"

/-- Whether the diagnostic lets the compilation succeed. -/
def isWarning (d : Diagnostic) : Bool :=
  d.severity == warningSeverity

/-- A diagnostic being read. -/
structure Draft where
  component : Option String
  errorCode : Option (Option String)
  formattedMessage : Option String
  message : Option String
  severity : Option String
  sourceLocation : Option (Option SourceLocation)
  kind : Option String

/-- The fields of a diagnostic. -/
def fields : List (RecordField Draft) :=
  [.of "component" false .string (·.component) fun d x => { d with component := some x },
   .of "errorCode" false (.nullable .string) (·.errorCode) fun d x =>
     { d with errorCode := some x },
   .of "formattedMessage" true .string (·.formattedMessage) fun d x =>
     { d with formattedMessage := some x },
   .of "message" false .string (·.message) fun d x => { d with message := some x },
   .of "severity" true .string (·.severity) fun d x => { d with severity := some x },
   .of "sourceLocation" false (.nullable SourceLocation.reader) (·.sourceLocation) fun d x =>
     { d with sourceLocation := some x },
   .of "type" false .string (·.kind) fun d x => { d with kind := some x }]

/-- Reads a diagnostic. -/
def reader : Reader Diagnostic :=
  .map (fun d => ⟨d.component.getD "", d.errorCode.getD none, d.formattedMessage.getD "",
      d.message.getD "", d.severity.getD "", d.sourceLocation.getD none, d.kind.getD ""⟩)
    (.record "struct Error" fields ⟨none, none, none, none, none, none, none⟩)

/-- The diagnostic as a document. -/
def toJson (d : Diagnostic) : Json :=
  .obj ([("component", .str d.component)] ++ optionalMember "errorCode" (d.errorCode.map .str) ++
    [("formattedMessage", .str d.formattedMessage), ("message", .str d.message),
      ("severity", .str d.severity)] ++
    optionalMember "sourceLocation" (d.sourceLocation.map (·.toJson)) ++ [("type", .str d.kind)])

end Diagnostic

/-- The code to deploy, in hexadecimal digits. -/
structure Bytecode where
  object : String
  deriving DecidableEq, Inhabited, Repr

namespace Bytecode

/-- Bytecode being read. -/
structure Draft where
  object : Option String

/-- The fields of bytecode. -/
def fields : List (RecordField Draft) :=
  [.of "object" true .string (·.object) fun d x => { d with object := some x }]

/-- Reads bytecode. -/
def reader : Reader Bytecode :=
  .map (fun d => ⟨d.object.getD ""⟩) (.record "struct Bytecode" fields ⟨none⟩)

/-- The bytecode as a document. -/
def toJson (b : Bytecode) : Json :=
  .obj [("object", .str b.object)]

end Bytecode

/-- What the compiler made of a contract for the virtual machine. -/
structure MachineCode where
  bytecode : Option Bytecode
  deriving DecidableEq, Inhabited, Repr

namespace MachineCode

/-- Machine code being read. -/
structure Draft where
  bytecode : Option (Option Bytecode)

/-- The fields of machine code. -/
def fields : List (RecordField Draft) :=
  [.of "bytecode" false (.nullable Bytecode.reader) (·.bytecode) fun d x =>
    { d with bytecode := some x }]

/-- Reads machine code. -/
def reader : Reader MachineCode :=
  .map (fun d => ⟨d.bytecode.getD none⟩) (.record "struct EVM" fields ⟨none⟩)

/-- The machine code as a document. -/
def toJson (m : MachineCode) : Json :=
  .obj (optionalMember "bytecode" (m.bytecode.map (·.toJson)))

end MachineCode

/-- What the compiler made of a contract. -/
structure Contract where
  /-- The interface, in whatever form the compiler gives it. -/
  abi : Option Json
  evm : Option MachineCode
  deriving DecidableEq, Inhabited, Repr

namespace Contract

/-- The bytecode of the contract, if there is any. -/
def bytecode? (c : Contract) : Option String := do
  let evm ← c.evm
  let bytecode ← evm.bytecode
  pure bytecode.object

/-- A contract being read. -/
structure Draft where
  abi : Option (Option Json)
  evm : Option (Option MachineCode)

/-- The fields of a contract. -/
def fields : List (RecordField Draft) :=
  [.of "abi" false (.nullable .json) (·.abi) fun d x => { d with abi := some x },
   .of "evm" false (.nullable MachineCode.reader) (·.evm) fun d x => { d with evm := some x }]

/-- Reads a contract. -/
def reader : Reader Contract :=
  .map (fun d => ⟨d.abi.getD none, d.evm.getD none⟩)
    (.record "struct Contract" fields ⟨none, none⟩)

/-- The contract as a document. -/
def toJson (c : Contract) : Json :=
  .obj (optionalMember "abi" c.abi ++ optionalMember "evm" (c.evm.map (·.toJson)))

end Contract

/-- The number of a source. -/
structure SourceId where
  id : UInt64
  deriving DecidableEq, Inhabited, Repr

namespace SourceId

/-- A source number being read. -/
structure Draft where
  id : Option UInt64

/-- The fields of a source number. -/
def fields : List (RecordField Draft) :=
  [.of "id" true .word (·.id) fun d x => { d with id := some x }]

/-- Reads a source number. -/
def reader : Reader SourceId :=
  .map (fun d => ⟨d.id.getD 0⟩) (.record "struct Source" fields ⟨none⟩)

/-- The source number as a document. -/
def toJson (s : SourceId) : Json :=
  .obj [("id", .nat s.id.toNat)]

end SourceId

/-- The answer to a compilation request. -/
structure Response where
  /-- The contracts by file and name. -/
  contracts : Option (Dict (Dict Contract))
  /-- The numbers of the sources by unit name. -/
  sources : Option (Dict SourceId)
  errors : Option (List Diagnostic)
  deriving DecidableEq, Inhabited, Repr

namespace Response

/-- The diagnostics in the order of the answer. -/
def diagnostics (r : Response) : List Diagnostic :=
  r.errors.getD []

/-- Whether a diagnostic is more severe than a warning. -/
def hasErrors (r : Response) : Bool :=
  r.diagnostics.any fun d => !d.isWarning

/-- An answer being read. -/
structure Draft where
  contracts : Option (Option (Dict (Dict Contract)))
  sources : Option (Option (Dict SourceId))
  errors : Option (Option (List Diagnostic))

/-- The fields of an answer. -/
def fields : List (RecordField Draft) :=
  [.of "contracts" false (.nullable (.dict (.dict Contract.reader))) (·.contracts) fun d x =>
     { d with contracts := some x },
   .of "sources" false (.nullable (.dict SourceId.reader)) (·.sources) fun d x =>
     { d with sources := some x },
   .of "errors" false (.nullable (.list Diagnostic.reader)) (·.errors) fun d x =>
     { d with errors := some x }]

/-- Reads an answer. -/
def reader : Reader Response :=
  .map (fun d => ⟨d.contracts.getD none, d.sources.getD none, d.errors.getD none⟩)
    (.record "struct Output" fields ⟨none, none, none⟩)

/-- The answer as a document. -/
def toJson (r : Response) : Json :=
  .obj (optionalMember "contracts" (r.contracts.map fun files =>
      .obj (files.map fun f => (f.1, .obj (f.2.map fun c => (c.1, c.2.toJson))))) ++
    optionalMember "sources" (r.sources.map fun sources =>
      .obj (sources.map fun s => (s.1, s.2.toJson))) ++
    optionalMember "errors" (r.errors.map fun errors => .arr (errors.map (·.toJson))))

end Response

end SolFront
