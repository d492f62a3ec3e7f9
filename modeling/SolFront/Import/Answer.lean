import SolFront.Json.Record
import SolFront.Json.Printer

/-!
# Answers to imports

Who is asked for a source unit answers with its contents or with the reason why there are none.
-/

namespace SolFront

open Json (Reader)

/-- The answer to an import. -/
inductive ImportAnswer where
  | contents (text : String)
  | error (reason : String)
  deriving DecidableEq, Inhabited, Repr

/-- Who can be asked for the contents of a source unit. -/
abbrev Importer (m : Type → Type) := String → m ImportAnswer

namespace ImportAnswer

/-- The answers by name. -/
def variants : List (String × (String → ImportAnswer)) :=
  [("contents", .contents), ("error", .error)]

/-- Reads an answer. Its name alone is none, for the text is missing. -/
def reader : Reader ImportAnswer :=
  .choice variants (fun _ => .error ⟨.wrongType .unitVariant "newtype variant", none⟩)
    fun answer => .map answer .string

/-- The answer as a document. -/
def toJson : ImportAnswer → Json
  | contents text => .obj [("contents", .str text)]
  | error reason => .obj [("error", .str reason)]

end ImportAnswer

end SolFront
