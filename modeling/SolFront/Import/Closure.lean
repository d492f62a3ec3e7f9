import SolFront.Import.Answer
import SolFront.Import.Scan
import SolFront.Import.UnitName

/-!
# Completing a request with its imports

A compiler in a process of its own cannot ask for the sources it lacks, so they are put into the
request beforehand. Sources that only name addresses get their contents from the first address that
answers. After that every unit that a source imports is asked for once, and what is answered is a
source like the others. A request is complete when every import of every source is in the request or
is known to be missing.

Who answers may always have one more unit to offer, so the number of units to add has a limit.
-/

namespace SolFront.Import

variable {m : Type → Type} [Monad m]

/-! ## Addresses -/

/-- The addresses of a source, in order of preference. -/
def addresses (source : Dict Json) : List String :=
  (((Dict.get? source "urls").bind Json.items?).getD []).filterMap Json.text?

/-- The contents from the first address that has them, or the reasons of all addresses. -/
def firstContents (importer : Importer m) : List String → m (Except (List String) String)
  | [] => pure (.error [])
  | url :: urls => do
    match ← importer url with
    | .contents text => pure (.ok text)
    | .error reason =>
      match ← firstContents importer urls with
      | .ok text => pure (.ok text)
      | .error reasons => pure (.error (reason :: reasons))

/-- The source with contents from its addresses if it has none of its own, and the reasons if its
addresses fail. -/
def fill (importer : Importer m) : Json → m (Json × List String)
  | .obj source => do
    if Dict.contains source "content" then return (.obj source, [])
    match ← firstContents importer (addresses source) with
    | .ok text => return (.obj (Dict.insert "content" (.str text) source), [])
    | .error reasons => return (.obj source, reasons)
  | source => pure (source, [])

/-- The sources filled in order, and those whose addresses fail with all the reasons. -/
def fillAll (importer : Importer m) : Dict Json → m (Dict Json × Dict String)
  | [] => pure ([], [])
  | (name, source) :: sources => do
    let (source, reasons) ← fill importer source
    let (sources, missing) ← fillAll importer sources
    let missing :=
      if reasons.isEmpty then missing
      else Dict.insert name ("\n".intercalate reasons) missing
    return ((name, source) :: sources, missing)

/-! ## Imports -/

/-- The contents of a source, if they are a text. -/
def contentOf? (source : Json) : Option String :=
  (source.member? "content").bind Json.text?

/-- The units that a text imports under the name of its own unit. -/
def importsOf (name text : String) : List String :=
  (scan text).map (unitName name)

/-- A request that is being completed. -/
structure Progress where
  sources : Dict Json
  /-- The units that cannot be provided, with the reasons. -/
  missing : Dict String
  /-- The sources whose imports have not been looked at, the next one first. -/
  pending : List String
  deriving DecidableEq, Repr

namespace Progress

/-- Whether the unit is a source or known to be missing. -/
def knows (p : Progress) (unit : String) : Bool :=
  Dict.contains p.sources unit || Dict.contains p.missing unit

/-- The units that a source imports. A source without a text imports none. -/
def importsFrom (p : Progress) (name : String) : List String :=
  (((Dict.get? p.sources name).bind contentOf?).map (importsOf name)).getD []

/-- The progress after the answer for a unit. -/
def record (p : Progress) (unit : String) : ImportAnswer → Progress
  | .contents text =>
    { p with
      sources := Dict.insert unit (.obj [("content", .str text)]) p.sources
      pending := unit :: p.pending }
  | .error reason => { p with missing := Dict.insert unit reason p.missing }

/-- Asks for a unit unless it is known. -/
def require (importer : Importer m) (p : Progress) (unit : String) : m Progress := do
  if p.knows unit then return p
  return p.record unit (← importer unit)

/-- Looks at the imports of the next source until there is none left. Nothing comes out if `rounds`
sources are not all. -/
def complete (importer : Importer m) (rounds : Nat) (p : Progress) : m (Option Progress) :=
  match rounds, p.pending with
  | _, [] => pure (some p)
  | 0, _ :: _ => pure none
  | rounds + 1, name :: pending => do
    let p := { p with pending := pending }
    complete importer rounds (← (p.importsFrom name).foldlM (require importer) p)

end Progress

/-- The sources with all that they import, and the units that cannot be provided with the reasons.
Nothing comes out if more than `limit` units would have to be added. -/
def fetchSources (importer : Importer m) (limit : Nat) (sources : Dict Json) :
    m (Option (Dict Json × Dict String)) := do
  let (filled, missing) ← fillAll importer sources
  let result ← Progress.complete importer (filled.length + limit)
    ⟨filled, missing, (Dict.keys filled).reverse⟩
  return result.map fun p => (p.sources, p.missing)

/-- The request with all that its sources import, and the units that cannot be provided with the
reasons. A request without sources is complete as it stands. -/
def fetch (importer : Importer m) (limit : Nat) (request : Json) :
    m (Option (Json × Dict String)) := do
  match request with
  | .obj members =>
    match Dict.get? members "sources" with
    | some (.obj sources) =>
      let result ← fetchSources importer limit sources
      return result.map fun (sources, missing) =>
        (.obj (Dict.insert "sources" (.obj sources) members), missing)
    | _ => return some (request, [])
  | _ => return some (request, [])

end SolFront.Import
