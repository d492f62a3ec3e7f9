import SolFront.Json.Record
import SolFront.Json.Printer

/-!
# Compilation requests

What the compiler is asked for: sources by unit name, the optimizer settings, and which outputs are
wanted. A request is written with its fields in the order of their declaration.
-/

namespace SolFront

open Json (Reader)
open Json.Reader (RecordField)

/-- The language of the sources. -/
inductive Language where
  | solidity
  | yul
  deriving DecidableEq, Inhabited, Repr

namespace Language

/-- The languages by name. -/
def variants : List (String × Language) :=
  [("Solidity", .solidity), ("Yul", .yul)]

/-- The name of the language. -/
def name : Language → String
  | solidity => "Solidity"
  | yul => "Yul"

/-- Reads a language. -/
def reader : Reader Language :=
  .constant variants

/-- The language as a document. -/
def toJson (language : Language) : Json :=
  .str language.name

end Language

/-- An output that is asked for each contract. -/
inductive Selection where
  | abi
  | bytecode
  deriving DecidableEq, Inhabited, Repr

namespace Selection

/-- The selections by name. -/
def variants : List (String × Selection) :=
  [("abi", .abi), ("evm.bytecode", .bytecode)]

/-- The name of the selection. -/
def name : Selection → String
  | abi => "abi"
  | bytecode => "evm.bytecode"

/-- Reads a selection. -/
def reader : Reader Selection :=
  .constant variants

/-- The selection as a document. -/
def toJson (selection : Selection) : Json :=
  .str selection.name

end Selection

/-- How the compiler optimizes. -/
structure Optimizer where
  enabled : Bool
  /-- How often the code is expected to run. -/
  runs : UInt64
  deriving DecidableEq, Inhabited, Repr

namespace Optimizer

/-- The number of runs where none is given. -/
def defaultRuns : UInt64 := 200

/-- An optimizer being read. -/
structure Draft where
  enabled : Option Bool
  runs : Option UInt64

/-- The fields of an optimizer. -/
def fields : List (RecordField Draft) :=
  [.of "enabled" true .bool (·.enabled) fun d x => { d with enabled := some x },
   .of "runs" true .word (·.runs) fun d x => { d with runs := some x }]

/-- Reads an optimizer. -/
def reader : Reader Optimizer :=
  .map (fun d => ⟨d.enabled.getD false, d.runs.getD 0⟩)
    (.record "struct Optimizer" fields ⟨none, none⟩)

/-- The optimizer as a document. -/
def toJson (o : Optimizer) : Json :=
  .obj [("enabled", .bool o.enabled), ("runs", .nat o.runs.toNat)]

end Optimizer

/-- The settings of a compilation. -/
structure Settings where
  optimizer : Optimizer
  /-- The outputs wanted, as a pattern on file and contract names. -/
  outputSelection : Json
  deriving DecidableEq, Inhabited, Repr

namespace Settings

/-- The pattern that asks for the interface and the bytecode of every contract of every file. -/
def everyContract : Json :=
  .obj [("*", .obj [("*", .arr [Selection.abi.toJson, Selection.bytecode.toJson])])]

/-- The settings for an optimizer that is on or off and tunes for a number of runs. -/
def new (optimize : Bool) (runs : UInt64) : Settings :=
  ⟨⟨optimize, runs⟩, everyContract⟩

/-- Settings being read. -/
structure Draft where
  optimizer : Option Optimizer
  outputSelection : Option Json

/-- The fields of the settings. -/
def fields : List (RecordField Draft) :=
  [.of "optimizer" true Optimizer.reader (·.optimizer) fun d x => { d with optimizer := some x },
   .of "outputSelection" true .json (·.outputSelection) fun d x =>
     { d with outputSelection := some x }]

/-- Reads settings. -/
def reader : Reader Settings :=
  .map (fun d => ⟨d.optimizer.getD default, d.outputSelection.getD default⟩)
    (.record "struct Settings" fields ⟨none, none⟩)

/-- The settings as a document. -/
def toJson (s : Settings) : Json :=
  .obj [("optimizer", s.optimizer.toJson), ("outputSelection", s.outputSelection)]

end Settings

/-- The text of a source file. -/
structure Source where
  content : String
  deriving DecidableEq, Inhabited, Repr

namespace Source

/-- A source being read. -/
structure Draft where
  content : Option String

/-- The fields of a source. -/
def fields : List (RecordField Draft) :=
  [.of "content" true .string (·.content) fun d x => { d with content := some x }]

/-- Reads a source. -/
def reader : Reader Source :=
  .map (fun d => ⟨d.content.getD ""⟩) (.record "struct Source" fields ⟨none⟩)

/-- The source as a document. -/
def toJson (s : Source) : Json :=
  .obj [("content", .str s.content)]

end Source

/-- A compilation request. -/
structure Request where
  language : Language
  settings : Settings
  /-- The sources by unit name. -/
  sources : Dict Source
  deriving DecidableEq, Inhabited, Repr

namespace Request

/-- A request being read. -/
structure Draft where
  language : Option Language
  settings : Option Settings
  sources : Option (Dict Source)

/-- The fields of a request. -/
def fields : List (RecordField Draft) :=
  [.of "language" true Language.reader (·.language) fun d x => { d with language := some x },
   .of "settings" true Settings.reader (·.settings) fun d x => { d with settings := some x },
   .of "sources" true (.dict Source.reader) (·.sources) fun d x => { d with sources := some x }]

/-- Reads a request. -/
def reader : Reader Request :=
  .map (fun d => ⟨d.language.getD default, d.settings.getD default, d.sources.getD []⟩)
    (.record "struct Input" fields ⟨none, none, none⟩)

/-- The request as a document. -/
def toJson (r : Request) : Json :=
  .obj [("language", r.language.toJson), ("settings", r.settings.toJson),
    ("sources", .obj (r.sources.map fun e => (e.1, e.2.toJson)))]

/-- A request for sources in Solidity. -/
def forSources (sources : Dict Source) (optimize : Bool) (runs : UInt64) : Request :=
  ⟨.solidity, .new optimize runs, sources⟩

end Request

end SolFront
