import SolFront.Proofs.Json.Values
import SolFront.Request

/-!
# Requests as documents

The document of a request has its members in ascending order and no number but the number of runs,
so the text of a request is read as that document.
-/

namespace SolFront

open Json

theorem sorted_of_keys {α : Type} {d : Dict α} (keys : List String)
    (hkeys : Dict.keys d = keys) (h : keys.Pairwise (· < ·)) : d.Sorted := by
  rw [← hkeys] at h
  exact List.pairwise_map.mp h

namespace Settings

theorem canonical_everyContract (n : Nat) : Canonical (n + 3) everyContract := by
  have hselected : Canonical (n + 1) (.arr [Selection.abi.toJson, Selection.bytecode.toJson]) := by
    refine .arr fun x hx => ?_
    simp only [List.mem_cons, List.not_mem_nil, or_false] at hx
    rcases hx with rfl | rfl <;> exact .str _
  exact .obj (List.pairwise_singleton _ _) fun e he => by
    obtain rfl := List.mem_singleton.mp he
    exact .obj (List.pairwise_singleton _ _) fun e he => by
      obtain rfl := List.mem_singleton.mp he
      exact hselected

theorem integral_everyContract : Integral everyContract := by
  have hselected : Integral (.arr [Selection.abi.toJson, Selection.bytecode.toJson]) := by
    refine .arr fun x hx => ?_
    simp only [List.mem_cons, List.not_mem_nil, or_false] at hx
    rcases hx with rfl | rfl <;> exact .str _
  exact .obj fun e he => by
    obtain rfl := List.mem_singleton.mp he
    exact .obj fun e he => by
      obtain rfl := List.mem_singleton.mp he
      exact hselected

end Settings

namespace Request

/-- The document of a request is in canonical form. -/
theorem canonical_toJson {r : Request} {n : Nat} (hsources : r.sources.Sorted)
    (hselection : Canonical (n + 1) r.settings.outputSelection) :
    Canonical (n + 3) r.toJson := by
  have hruns : Number.InRange (.int r.settings.optimizer.runs.toNat) := by
    have hlt : r.settings.optimizer.runs.toNat < UInt64.size := r.settings.optimizer.runs.toNat_lt
    exact ⟨by omega, by omega⟩
  have hoptimizer : Canonical (n + 1) r.settings.optimizer.toJson := by
    refine .obj (sorted_of_keys ["enabled", "runs"] rfl (by decide)) fun e he => ?_
    simp only [List.mem_cons, List.not_mem_nil, or_false] at he
    rcases he with rfl | rfl
    · exact .bool _
    · exact .num hruns
  have hsettings : Canonical (n + 2) r.settings.toJson := by
    refine .obj (sorted_of_keys ["optimizer", "outputSelection"] rfl (by decide))
      fun e he => ?_
    simp only [List.mem_cons, List.not_mem_nil, or_false] at he
    rcases he with rfl | rfl
    · exact hoptimizer
    · exact hselection
  have hcontent : ∀ source : Source, Canonical (n + 1) source.toJson := fun source =>
    .obj (List.pairwise_singleton _ _) fun e he => by
      obtain rfl := List.mem_singleton.mp he
      exact .str _
  refine .obj (sorted_of_keys ["language", "settings", "sources"] rfl (by decide))
    fun e he => ?_
  simp only [List.mem_cons, List.not_mem_nil, or_false] at he
  rcases he with rfl | rfl | rfl
  · exact .str _
  · exact hsettings
  · refine .obj (List.pairwise_map.mpr hsources) fun e he => ?_
    obtain ⟨source, -, rfl⟩ := List.mem_map.mp he
    exact hcontent source.2

theorem integral_toJson {r : Request} (hselection : Integral r.settings.outputSelection) :
    Integral r.toJson := by
  have hoptimizer : Integral r.settings.optimizer.toJson := .obj fun e he => by
    simp only [List.mem_cons, List.not_mem_nil, or_false] at he
    rcases he with rfl | rfl
    · exact .bool _
    · exact .int _
  have hsettings : Integral r.settings.toJson := .obj fun e he => by
    simp only [List.mem_cons, List.not_mem_nil, or_false] at he
    rcases he with rfl | rfl
    · exact hoptimizer
    · exact hselection
  refine .obj fun e he => ?_
  simp only [List.mem_cons, List.not_mem_nil, or_false] at he
  rcases he with rfl | rfl | rfl
  · exact .str _
  · exact hsettings
  · refine .obj fun e he => ?_
    obtain ⟨source, -, rfl⟩ := List.mem_map.mp he
    exact .obj fun e he => by
      obtain rfl := List.mem_singleton.mp he
      exact .str _

/-- **The text of a request for sources is read as its document.** -/
theorem read_forSources {sources : Dict Source} (h : sources.Sorted) (optimize : Bool)
    (runs : UInt64) (pretty : Bool) :
    read ((forSources sources optimize runs).toJson.render pretty)
      = .ok (forSources sources optimize runs).toJson :=
  read_render (canonical_toJson h (Settings.canonical_everyContract 122))
    (integral_toJson Settings.integral_everyContract) pretty

end Request

end SolFront
