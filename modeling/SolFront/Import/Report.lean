import SolFront.Response
import SolFront.Text.Split

/-!
# Reporting missing units

The compiler knows that a unit is missing and where it is imported, but not why. Its own diagnostics
about missing units get the reason, and those missing units it says nothing about get a diagnostic
of their own.
-/

namespace SolFront.Import

/-- The first of the missing units whose absence the message tells, with the reason. -/
def subject? (missing : Dict String) (message : String) : Option (String × String) :=
  missing.find? fun e => Text.startsWith (Diagnostic.notFoundStart e.1).toList message.toList

/-- The diagnostic's members with a new message, which replaces the old one where it is quoted. -/
def reword (members : Dict Json) (old new : String) : Dict Json :=
  Dict.insert "message" (.str new)
    (match (Dict.get? members "formattedMessage").bind Json.text? with
    | some shown =>
      Dict.insert "formattedMessage"
        (.str (String.ofList (Text.replaceFirst old.toList new.toList shown.toList))) members
    | none => members)

/-- The diagnostic, with the reason put in if it is about a missing unit, and that unit. -/
def explain (missing : Dict String) (diagnostic : Json) : Json × Option String :=
  match diagnostic, (diagnostic.member? "message").bind Json.text? with
  | .obj members, some message =>
    match subject? missing message with
    | some (unit, reason) =>
      (.obj (reword members message (Diagnostic.notFoundStart unit ++ reason)), some unit)
    | none => (diagnostic, none)
  | _, _ => (diagnostic, none)

/-- The diagnostics with the reasons put in, and behind them one for each missing unit that none of
them is about. -/
def reportIn (missing : Dict String) (diagnostics : List Json) : List Json :=
  let explained := diagnostics.map (explain missing)
  let told := explained.filterMap (·.2)
  explained.map (·.1) ++
    (missing.filter fun e => !told.contains e.1).map fun e =>
      (Diagnostic.sourceNotFound e.1 e.2).toJson

/-- The compiler's answer with the missing units reported. If its diagnostics are no list, it is left
as it is. -/
def report (missing : Dict String) : Json → Json
  | .obj members =>
    match (Dict.get? members "errors").getD (.arr []) with
    | .arr diagnostics =>
      .obj (Dict.insert "errors" (.arr (reportIn missing diagnostics)) members)
    | _ => .obj members
  | answer => answer

end SolFront.Import
