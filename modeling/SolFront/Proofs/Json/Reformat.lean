import SolFront.Json.Reformat
import SolFront.Proofs.Json.Values

/-!
# Reformatted texts

A text that is no JSON is passed on as it is, and so is every text if no layout is wanted. A JSON
text whose numbers are integers keeps its value when it is laid out: the value is in canonical form,
so its strings come back through their escapes, its members in their order, and its brackets are not
deeper than a text may have them. The second time there is nothing left to lay out.
-/

namespace SolFront.Json

theorem reformat_of_read {text : String} {v : Json} (h : read text = .ok v) :
    reformat text true = v.render true := by
  simp only [reformat, if_true, h]

theorem reformat_of_not_read {text : String} (h : ∀ v, read text ≠ .ok v) (pretty : Bool) :
    reformat text pretty = text := by
  cases pretty with
  | false => rfl
  | true =>
      cases hread : read text with
      | ok v => exact absurd hread (h v)
      | error e => simp only [reformat, if_true, hread]

/-- **A layout does not change what a text says.** -/
theorem reformat_keeps_value (text : String) :
    reformat text false = text
      ∧ ((∀ v, read text ≠ .ok v) → reformat text true = text)
      ∧ ∀ v, read text = .ok v → v.Integers →
        read (reformat text true) = .ok v
        ∧ reformat (reformat text true) true = reformat text true
        ∧ ∀ pretty, read (v.render pretty) = .ok v := by
  refine ⟨rfl, fun h => reformat_of_not_read h true, fun v hread hintegers => ?_⟩
  have hback : ∀ pretty, read (v.render pretty) = .ok v :=
    read_render_integers (canonical_of_read hread) hintegers
  have hlaid : reformat text true = v.render true := reformat_of_read hread
  rw [hlaid]
  exact ⟨hback true, reformat_of_read (hback true), hback⟩

/-- A text with escapes, a key twice, the longest words and brackets with nothing inside. -/
def tangled : String :=
  "\x7b \"\\u00e9\\n\": [-9223372036854775808, 18446744073709551615, -0], \"b\": \x7b\x7d,\n" ++
    "\t\"b\": \"\\ud83d\\ude00\\u0007\\/\", \"a\": [[], [null, true, \"\u00fc\"]] \x7d"

/-- What it says. -/
def untangled : Json :=
  .obj
    [("a", .arr [.arr [], .arr [.null, .bool true, .str "\u00fc"]]),
      ("b", .str "😀\x07/"),
      ("\u00e9\n",
        .arr [.num (.int (-9223372036854775808)), .num (.int 18446744073709551615),
          .num (.float (-0))])]

/-- The text is laid out with its value, and a message is left alone. -/
theorem reformat_keeps_value_tangled :
    (∀ v, read "not json" ≠ .ok v) ∧ reformat "not json" true = "not json"
      ∧ read tangled = .ok untangled ∧ untangled.Integers
      ∧ read (reformat tangled true) = .ok untangled
      ∧ reformat (reformat tangled true) true = reformat tangled true
      ∧ ∀ pretty, read (untangled.render pretty) = .ok untangled := by
  have hmessage : ∀ v, read "not json" ≠ .ok v := by
    intro v hread
    have hnone : (read "not json").toOption = none := by decide +kernel
    rw [hread] at hnone
    cases hnone
  have hread : read tangled = .ok untangled := eq_ok_of_toOption (by decide +kernel)
  have hintegers : untangled.Integers := by simp [untangled]
  obtain ⟨-, hleft, -⟩ := reformat_keeps_value "not json"
  obtain ⟨-, -, hkept⟩ := reformat_keeps_value tangled
  exact ⟨hmessage, hleft hmessage, hread, hintegers, hkept untangled hread hintegers⟩

end SolFront.Json
