import SolFront.Proofs.Import.Escape

/-!
# Relative imports as paths

The name of an imported unit is joined from segments alone, before anyone knows in which directory
the units are. Still it is the right name: whatever directory the names are read from, the unit lies
where its path leads from the directory of the importing unit.

Both names have the same lead, which is the root if they are absolute and else nothing. It takes the
place of the directory in a walk, so only what is behind it has to be compared.
-/

namespace SolFront.Import

open SolFront.Path (Plain Resolved ofString resolve)

/-! ## Names of units as paths -/

/-- What is before the segments of a unit name: the empty segment before the separator that an
absolute one starts with. -/
def unitLead (unit : String) : List (List Char) :=
  match Text.splitOn '/' unit.toList with
  | [] :: _ :: _ => [[]]
  | _ => []

/-- The segments of a unit name, without what is before the separator that an absolute one starts
with. -/
def unitSegments (unit : String) : List (List Char) :=
  (Text.splitOn '/' unit.toList).drop (unitLead unit).length

/-- What is before the components of a path with this lead. -/
def topOf (lead : List (List Char)) : Path :=
  if lead = [] then [] else [.root]

theorem unitLead_cases (unit : String) : unitLead unit = [] ∨ unitLead unit = [[]] := by
  unfold unitLead
  split
  · exact Or.inr rfl
  · exact Or.inl rfl

theorem splitOn_unit (unit : String) :
    Text.splitOn '/' unit.toList = unitLead unit ++ unitSegments unit := by
  unfold unitSegments unitLead
  split
  · rename_i s more heq
    rw [heq]
    rfl
  · rfl

theorem unitSegments_ne_nil (unit : String) : unitSegments unit ≠ [] := by
  have hne := Text.splitOn_ne_nil '/' unit.toList
  unfold unitSegments unitLead
  split
  · rename_i s more heq
    rw [heq]
    simp
  · exact hne

theorem free_of_mem_unitSegments {unit : String} {s : List Char} (h : s ∈ unitSegments unit) :
    '/' ∉ s := by
  have hmem : s ∈ Text.splitOn '/' unit.toList := by
    rw [splitOn_unit]
    exact List.mem_append_right _ h
  exact Text.not_mem_of_mem_splitOn hmem

/-- Segments that lead down are those of a path of names. -/
theorem exists_names_of_segments {segments : List (List Char)} (hfree : ∀ s ∈ segments, '/' ∉ s)
    (hnames : ∀ s ∈ segments, s ≠ [] ∧ Forward s) :
    ∃ names, Plain names ∧ names.map Component.segment = segments := by
  induction segments with
  | nil => exact ⟨[], by intro c hc; simp at hc, rfl⟩
  | cons s segments ih =>
      obtain ⟨hs, hrest⟩ := List.forall_mem_cons.mp hfree
      obtain ⟨⟨hempty, hforward⟩, hnames⟩ := List.forall_mem_cons.mp hnames
      obtain ⟨names, hplain, hsegments⟩ := ih hrest hnames
      refine ⟨.name (String.ofList s) :: names,
        plain_cons_name hplain hs hempty (leadsDown_iff.mpr hforward), ?_⟩
      rw [List.map_cons, hsegments]
      exact congrArg (· :: segments) String.toList_ofList

/-! ## Where a joined name leads -/

section

variable {lead : List (List Char)} {names : Path}

theorem free_of_joined (hlead : lead = [] ∨ lead = [[]]) (hplain : Plain names) :
    ∀ s ∈ lead ++ names.map Component.segment, '/' ∉ s := by
  intro s hs
  rcases List.mem_append.mp hs with hs | hs
  · rcases hlead with rfl | rfl
    · simp at hs
    · rw [List.mem_singleton.mp hs]
      simp
  · obtain ⟨c, hc, rfl⟩ := List.mem_map.mp hs
    exact (hplain c hc).1.free

/-- **A joined name is read as its names**, behind the root if the name is absolute. -/
theorem ofString_joined (hlead : lead = [] ∨ lead = [[]]) (hplain : Plain names)
    (hne : names ≠ []) :
    ofString (String.ofList (Text.joinWith '/' (lead ++ names.map Component.segment)))
      = topOf lead ++ names := by
  have hsegments : names.map Component.segment ≠ [] := by simpa using hne
  have hnames := Path.filterMap_segment hplain.onward
  unfold Path.ofString Path.ofSegments
  rw [String.toList_ofList, Text.splitOn_joinWith (List.append_ne_nil_of_right_ne_nil _ hsegments)
    (free_of_joined hlead hplain)]
  rcases hlead with rfl | rfl
  · -- the first segment is that of a name
    obtain ⟨c, rest, rfl⟩ := List.exists_cons_of_ne_nil hne
    have hfirst := (hplain c List.mem_cons_self).1
    rw [List.nil_append, hnames, List.map_cons, Path.start_cons hfirst.segment_ne_nil,
      if_neg hfirst.segment_ne_here]
    rfl
  · obtain ⟨c, rest, rfl⟩ := List.exists_cons_of_ne_nil hne
    rw [List.filterMap_append, hnames]
    rfl

/-- Names lead down from where the path before them leads. -/
theorem resolve_append_names (directory top : Path) (hplain : Plain names) :
    resolve directory (top ++ names) = resolve directory top ++ names := by
  rw [Path.resolve_append directory top hplain.onward.isAbsolute, Path.foldl_walk_plain hplain,
    List.reverse_append, List.reverse_reverse, List.reverse_reverse]

theorem resolved_top {directory : String} (habs : (ofString directory).isAbsolute = true)
    (lead : List (List Char)) : Resolved (resolve (ofString directory) (topOf lead)) := by
  refine Path.resolve_resolved (Path.written_ofString directory) habs ?_
  intro c hc
  unfold topOf at hc
  split at hc
  · simp at hc
  · exact Or.inl (List.mem_singleton.mp hc)

end

/-- Names below a resolved path. -/
theorem resolved_append {floor : Path} (h : Resolved floor) (hplain : Plain names) :
    Resolved (floor ++ names) := by
  obtain ⟨base, rfl, hbase⟩ := h
  refine ⟨base ++ names, rfl, ?_⟩
  intro c hc
  rcases List.mem_append.mp hc with hc | hc
  · exact hbase c hc
  · exact hplain c hc

/-! ## Importing and imported units -/

/-- A unit lies below the top under its names. -/
theorem ofString_unit {unit : String} {names : Path} (hplain : Plain names)
    (hnames : names.map Component.segment = unitSegments unit) :
    ofString unit = topOf (unitLead unit) ++ names := by
  have hne : names ≠ [] := by
    rintro rfl
    exact unitSegments_ne_nil unit hnames.symm
  have htext := Text.joinWith_splitOn '/' unit.toList
  rw [splitOn_unit, ← hnames] at htext
  rw [← ofString_joined (unitLead_cases unit) hplain hne, htext, String.ofList_toList]

/-- The directory of a unit has the names but the last, on what is before them. -/
theorem directoryOf_eq {unit : String} {names : Path}
    (hnames : names.map Component.segment = unitSegments unit) :
    directoryOf unit.toList
      = names.dropLast.reverse.map Component.segment ++ (unitLead unit).reverse := by
  unfold directoryOf
  rw [splitOn_unit, List.tail_reverse, List.dropLast_append_of_ne_nil (unitSegments_ne_nil unit),
    List.reverse_append, ← hnames, List.map_reverse, List.map_dropLast]

/-- **Names of units follow the paths.** If the segments of the importing unit are names, and the
path has no gap, ends in a name and does not lead out at the top, then from every directory the
imported unit lies where the path leads from the directory of the importing one. Any other path is a
name as it stands. -/
theorem resolve_unitName (importer path : String) :
    ((['.', '/'] <+: path.toList ∨ ['.', '.', '/'] <+: path.toList) →
      (∀ s ∈ unitSegments importer, s ≠ [] ∧ Forward s) →
      Descends ((unitSegments importer).length - 1) path →
      ∀ directory : String, (ofString directory).isAbsolute = true →
        resolve (ofString directory) (ofString (unitName importer path))
          = resolve (resolve (ofString directory) (ofString importer)).dropLast (ofString path))
    ∧ (¬ ['.', '/'] <+: path.toList → ¬ ['.', '.', '/'] <+: path.toList →
        unitName importer path = path) := by
  refine ⟨?_, ?_⟩
  · intro hstart himporter hpath directory habs
    have hrelative : isRelative path.toList = true := by
      rcases hstart with h | h
      · exact Bool.or_eq_true_iff.mpr (Or.inl (List.isPrefixOf_iff_prefix.mpr h))
      · exact Bool.or_eq_true_iff.mpr (Or.inr (List.isPrefixOf_iff_prefix.mpr h))
    have hlead := unitLead_cases importer
    obtain ⟨names, hplain, hnames⟩ :=
      exists_names_of_segments (fun s hs => free_of_mem_unitSegments hs) himporter
    have hne : names ≠ [] := by
      rintro rfl
      exact unitSegments_ne_nil importer hnames.symm
    generalize hfloor : resolve (ofString directory) (topOf (unitLead importer)) = floor
    have hbelow : Resolved floor := hfloor ▸ resolved_top habs (unitLead importer)
    have hplain' : Plain names.dropLast := fun c hc => hplain c (List.mem_of_mem_dropLast hc)
    have hdirectory : (resolve (ofString directory) (ofString importer)).dropLast
        = floor ++ names.dropLast := by
      rw [ofString_unit hplain hnames, resolve_append_names _ _ hplain, hfloor,
        List.dropLast_append_of_ne_nil hne]
    -- the path leads to the same pile of names on both sides
    have hdepth : (unitSegments importer).length - 1 = names.dropLast.reverse.length := by
      rw [← hnames]
      simp
    rw [hdepth] at hpath
    obtain ⟨pile, hpile, hleads⟩ := hpath.exists_leads (Path.plain_reverse hplain')
    have hpile' : pile.reverse ≠ [] := by simpa using hpile
    rw [hdirectory, resolve_of_leads (resolved_append hbelow hplain') hrelative hleads,
      unitName_of_leads (directoryOf_eq hnames) hrelative hleads, List.reverse_reverse,
      ofString_joined hlead (Path.plain_reverse hleads.plain) hpile',
      resolve_append_names _ _ (Path.plain_reverse hleads.plain), hfloor]
  · intro hhere hparent
    have hrelative : ¬ isRelative path.toList = true := by
      intro h
      rcases Bool.or_eq_true_iff.mp h with h | h
      · exact hhere (List.isPrefixOf_iff_prefix.mp h)
      · exact hparent (List.isPrefixOf_iff_prefix.mp h)
    rw [unitName, if_neg hrelative]

/-- An absolute unit with a path that climbs to the root and down and up from there, a relative unit,
and a path that is not relative. -/
theorem resolve_unitName_climbing :
    (∀ s ∈ unitSegments "/lib/sub/A.sol", s ≠ [] ∧ Forward s)
    ∧ Descends ((unitSegments "/lib/sub/A.sol").length - 1) ".././../x/../B.sol"
    ∧ unitName "/lib/sub/A.sol" ".././../x/../B.sol" = "/B.sol"
    ∧ (∀ directory : String, (ofString directory).isAbsolute = true →
        resolve (ofString directory) (ofString (unitName "/lib/sub/A.sol" ".././../x/../B.sol"))
          = resolve (resolve (ofString directory) (ofString "/lib/sub/A.sol")).dropLast
              (ofString ".././../x/../B.sol"))
    ∧ resolve (ofString "/w/../d") (ofString (unitName "lib/A.sol" "./B.sol"))
      = resolve (resolve (ofString "/w/../d") (ofString "lib/A.sol")).dropLast (ofString "./B.sol")
    ∧ unitName "lib/A.sol" "x/../B.sol" = "x/../B.sol" := by
  have hclimbing : ∀ s ∈ unitSegments "/lib/sub/A.sol", s ≠ [] ∧ Forward s := by
    unfold Forward
    decide +kernel
  have hplain : ∀ s ∈ unitSegments "lib/A.sol", s ≠ [] ∧ Forward s := by
    unfold Forward
    decide +kernel
  have hpath : Descends 2 ".././../x/../B.sol" :=
    ⟨by decide +kernel, ⟨[['.', '.'], ['.'], ['.', '.'], ['x'], ['.', '.']],
      ['B', '.', 's', 'o', 'l'], by decide +kernel, by decide⟩, by decide +kernel⟩
  have hpath' : Descends 1 "./B.sol" :=
    ⟨by decide +kernel, ⟨[['.']], ['B', '.', 's', 'o', 'l'], by decide +kernel, by decide⟩,
      by decide +kernel⟩
  have hdepth : (unitSegments "/lib/sub/A.sol").length - 1 = 2 := by decide +kernel
  have hdepth' : (unitSegments "lib/A.sol").length - 1 = 1 := by decide +kernel
  have hname : unitName "/lib/sub/A.sol" ".././../x/../B.sol" = "/B.sol" := by decide +kernel
  refine ⟨hclimbing, by rw [hdepth]; exact hpath, hname, ?_, ?_, ?_⟩
  · exact (resolve_unitName "/lib/sub/A.sol" ".././../x/../B.sol").1 (Or.inr (by decide +kernel))
      hclimbing (by rw [hdepth]; exact hpath)
  · exact (resolve_unitName "lib/A.sol" "./B.sol").1 (Or.inl (by decide +kernel)) hplain
      (by rw [hdepth']; exact hpath') "/w/../d" (by decide +kernel)
  · exact (resolve_unitName "lib/A.sol" "x/../B.sol").2 (by decide +kernel) (by decide +kernel)

end SolFront.Import
