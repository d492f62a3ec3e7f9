import SolFront.Json.Reader
import SolFront.Json.Printer

/-!
# Reformatting a JSON text

A text is laid out anew only where that is wanted and it is JSON. Any other text is passed on as it
is, so a message of a program that prints no JSON is not lost.
-/

namespace SolFront.Json

/-- The text in the pretty layout if `pretty` is set and it is JSON, and else the text itself. -/
def reformat (text : String) (pretty : Bool) : String :=
  if pretty then
    match read text with
    | .ok v => render v true
    | .error _ => text
  else text

end SolFront.Json
