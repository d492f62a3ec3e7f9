import SolFront.Proofs.Import.Neighbours
import SolFront.Proofs.Path.Joining

/-!
# Relative imports that leave the source tree

A relative import never climbs out: at the top `..` leads nowhere, and no `..` is left in the name
of the unit. So the name leads to a place below whatever directory it is looked for in, with one
exception. An empty segment counts as a name here, and a path reads nothing but a separator in it.
If the import has climbed to the top and goes on with an empty segment there, the name of the unit
starts with a separator: it is an absolute path, and leads to the same place from everywhere.

So a path such as `.//etc/passwd` is not relative to the unit that imports it.
-/

namespace SolFront.Import

open SolFront.Path (Plain Resolved ofString resolve)

/-! ## Segments that are entered -/

/-- The segment does not move on from where it stands, nor back. -/
def Forward (segment : List Char) : Prop :=
  segment ≠ ['.'] ∧ segment ≠ ['.', '.']

theorem leadsDown_iff {segment : List Char} : leadsDown segment = true ↔ Forward segment := by
  simp [leadsDown, Forward]

theorem forward_enter {directory : List (List Char)} (h : ∀ s ∈ directory, Forward s)
    (segment : List Char) : ∀ s ∈ enter directory segment, Forward s := by
  intro s hs
  unfold enter at hs
  split at hs
  · exact h s hs
  · rename_i hhere
    split at hs
    · exact h s (List.mem_of_mem_tail hs)
    · rename_i hparent
      rcases List.mem_cons.mp hs with rfl | hs
      · exact ⟨hhere, hparent⟩
      · exact h s hs

/-- Nothing that leads back is left after a way has been entered. -/
theorem forward_foldl_enter {directory : List (List Char)} (h : ∀ s ∈ directory, Forward s)
    (segments : List (List Char)) : ∀ s ∈ segments.foldl enter directory, Forward s := by
  induction segments generalizing directory with
  | nil => exact h
  | cons segment segments ih => exact ih (forward_enter h segment)

theorem mem_of_mem_enter {directory : List (List Char)} {segment s : List Char}
    (h : s ∈ enter directory segment) : s = segment ∨ s ∈ directory := by
  unfold enter at h
  split at h
  · exact .inr h
  · split at h
    · exact .inr (List.mem_of_mem_tail h)
    · exact List.mem_cons.mp h

theorem mem_of_mem_foldl_enter {directory segments : List (List Char)} {s : List Char}
    (h : s ∈ segments.foldl enter directory) : s ∈ segments ∨ s ∈ directory := by
  induction segments generalizing directory with
  | nil => exact .inr h
  | cons segment segments ih =>
      rcases ih h with hmem | hmem
      · exact .inl (List.mem_cons_of_mem _ hmem)
      · rcases mem_of_mem_enter hmem with rfl | hmem
        · exact .inl List.mem_cons_self
        · exact .inr hmem

/-! ## What lies at the bottom -/

theorem staysBelow_nil (depth : Nat) : StaysBelow depth [] := by
  intro front hfront
  rw [List.prefix_nil.mp hfront]
  simp

theorem staysBelow_here_iff {depth : Nat} {segments : List (List Char)} :
    StaysBelow depth (['.'] :: segments) ↔ StaysBelow depth segments := by
  refine ⟨StaysBelow.here, fun h front hfront => ?_⟩
  rcases List.prefix_cons_iff.mp hfront with rfl | ⟨rest, rfl, hrest⟩
  · simp
  · rw [List.count_cons_of_ne (by decide), List.countP_cons_of_neg (by decide)]
    exact h rest hrest

theorem staysBelow_parent_iff {depth : Nat} {segments : List (List Char)} :
    StaysBelow (depth + 1) (['.', '.'] :: segments) ↔ StaysBelow depth segments := by
  constructor
  · intro h
    obtain ⟨depth', hdepth, h⟩ := h.parent
    rwa [Nat.succ.inj hdepth]
  · intro h front hfront
    rcases List.prefix_cons_iff.mp hfront with rfl | ⟨rest, rfl, hrest⟩
    · simp
    · have hmore := h rest hrest
      rw [List.count_cons_self, List.countP_cons_of_neg (by decide)]
      omega

theorem staysBelow_name_iff {depth : Nat} {segment : List Char} {segments : List (List Char)}
    (hname : leadsDown segment = true) :
    StaysBelow depth (segment :: segments) ↔ StaysBelow (depth + 1) segments := by
  refine ⟨StaysBelow.name hname, fun h front hfront => ?_⟩
  have hparent : segment ≠ ['.', '.'] := (leadsDown_iff.mp hname).2
  rcases List.prefix_cons_iff.mp hfront with rfl | ⟨rest, rfl, hrest⟩
  · simp
  · have hmore := h rest hrest
    rw [List.count_cons_of_ne hparent, List.countP_cons_of_pos hname]
    omega

/-- Somewhere on the way the pile is empty, and what is put on it there is never taken off. -/
def Founded (bottom : List Char) (directory segments : List (List Char)) : Prop :=
  ∃ front more, segments = front ++ bottom :: more ∧ front.foldl enter directory = []
    ∧ StaysBelow 0 more

theorem founded_cons_iff {bottom segment : List Char} {directory segments : List (List Char)} :
    Founded bottom directory (segment :: segments)
      ↔ (directory = [] ∧ segment = bottom ∧ StaysBelow 0 segments)
        ∨ Founded bottom (enter directory segment) segments := by
  constructor
  · rintro ⟨front, more, hsplit, hempty, hstays⟩
    cases front with
    | nil =>
        obtain ⟨rfl, rfl⟩ := List.cons.inj hsplit
        exact .inl ⟨hempty, rfl, hstays⟩
    | cons first front =>
        obtain ⟨rfl, rfl⟩ := List.cons.inj hsplit
        exact .inr ⟨front, more, rfl, hempty, hstays⟩
  · rintro (⟨rfl, rfl, hstays⟩ | ⟨front, more, rfl, hempty, hstays⟩)
    · exact ⟨[], segments, rfl, rfl, hstays⟩
    · exact ⟨segment :: front, more, rfl, hempty, hstays⟩

/-- **What lies at the bottom of a pile** has lain there from the start, or it was put on the empty
pile; and from then on it was never taken off. -/
theorem getLast?_foldl_enter {bottom : List Char} (hbottom : leadsDown bottom = true)
    {directory segments : List (List Char)} :
    (segments.foldl enter directory).getLast? = some bottom
      ↔ (directory.getLast? = some bottom ∧ StaysBelow (directory.length - 1) segments)
        ∨ Founded bottom directory segments := by
  induction segments generalizing directory with
  | nil =>
      have hnone : ¬ Founded bottom directory [] := by
        rintro ⟨front, more, hsplit, -⟩
        simp at hsplit
      simp [hnone, staysBelow_nil]
  | cons segment segments ih =>
      rw [List.foldl_cons, ih, founded_cons_iff, ← or_assoc]
      refine or_congr_left ?_
      by_cases hhere : segment = ['.']
      · have henter : enter directory segment = directory := by rw [enter, if_pos hhere]
        have hne : segment ≠ bottom := by
          rintro rfl
          exact (leadsDown_iff.mp hbottom).1 hhere
        rw [henter, hhere, staysBelow_here_iff]
        simp [← hhere, hne]
      by_cases hparent : segment = ['.', '.']
      · have henter : enter directory segment = directory.tail := by
          rw [enter, if_neg hhere, if_pos hparent]
        have hne : segment ≠ bottom := by
          rintro rfl
          exact (leadsDown_iff.mp hbottom).2 hparent
        rw [henter, hparent]
        match directory with
        | [] => simp [← hparent, hne]
        | [only] =>
            -- the bottom itself is taken off
            have hleaves : ¬ StaysBelow 0 (['.', '.'] :: segments) := fun h => by
              obtain ⟨depth, hdepth, -⟩ := h.parent
              omega
            simp [hleaves]
        | top :: next :: below =>
            show _ ∧ StaysBelow below.length segments ↔ (_ ∧ StaysBelow (below.length + 1) _) ∨ _
            rw [staysBelow_parent_iff]
            simp
      · have hname : leadsDown segment = true := leadsDown_iff.mpr ⟨hhere, hparent⟩
        rw [enter_of_leadsDown hname]
        match directory with
        | [] => simp
        | top :: below =>
            show _ ∧ StaysBelow (below.length + 1) segments ↔ (_ ∧ StaysBelow below.length _) ∨ _
            rw [staysBelow_name_iff hname]
            simp

/-- On segments that stay below, the pile grows by a name for each name and shrinks by one for each
`..`. -/
theorem length_foldl_enter {directory segments : List (List Char)}
    (h : StaysBelow directory.length segments) :
    (segments.foldl enter directory).length + segments.count ['.', '.']
      = directory.length + segments.countP leadsDown := by
  induction segments generalizing directory with
  | nil => rfl
  | cons segment segments ih =>
      rw [List.foldl_cons]
      by_cases hhere : segment = ['.']
      · subst hhere
        rw [List.count_cons_of_ne (by decide), List.countP_cons_of_neg (by decide)]
        exact ih h.here
      by_cases hparent : segment = ['.', '.']
      · subst hparent
        obtain ⟨depth, hdepth, hbelow⟩ := h.parent
        match directory, hdepth with
        | top :: below, hdepth =>
            obtain rfl : below.length = depth := Nat.succ.inj hdepth
            have hrest := ih hbelow
            rw [List.count_cons_self, List.countP_cons_of_neg (by decide), List.length_cons]
            change (segments.foldl enter below).length + _ = _
            omega
      · have hname : leadsDown segment = true := leadsDown_iff.mpr ⟨hhere, hparent⟩
        have hrest := @ih (segment :: directory) (h.name hname)
        rw [enter_of_leadsDown hname, List.count_cons_of_ne hparent,
          List.countP_cons_of_pos hname]
        rw [List.length_cons] at hrest
        omega

/-! ## Names of units -/

/-- The pile of segments that the name of an imported unit is joined from, last first. -/
def entered (importer path : String) : List (List Char) :=
  (Text.splitOn '/' path.toList).foldl enter (directoryOf importer.toList)

section

variable {importer path : String}

theorem mem_splitOn_of_mem_directoryOf {s : List Char} (h : s ∈ directoryOf importer.toList) :
    s ∈ Text.splitOn '/' importer.toList :=
  List.mem_reverse.mp (List.mem_of_mem_tail h)

theorem free_of_mem_entered {s : List Char} (h : s ∈ entered importer path) : '/' ∉ s := by
  rcases mem_of_mem_foldl_enter h with hmem | hmem
  · exact Text.not_mem_of_mem_splitOn hmem
  · exact Text.not_mem_of_mem_splitOn (mem_splitOn_of_mem_directoryOf hmem)

/-- The segments of the name are the pile, or the one of the empty name. -/
theorem splitOn_unitName (hrelative : isRelative path.toList = true) :
    Text.splitOn '/' (unitName importer path).toList
      = if entered importer path = [] then [[]] else (entered importer path).reverse := by
  have hname : (unitName importer path).toList
      = Text.joinWith '/' (entered importer path).reverse := by
    unfold unitName joinPath
    rw [if_pos hrelative, String.toList_ofList]
    rfl
  rw [hname]
  by_cases hempty : entered importer path = []
  · rw [if_pos hempty, hempty]
    rfl
  · rw [if_neg hempty, Text.splitOn_joinWith (mt List.reverse_eq_nil_iff.mp hempty)]
    intro s hs
    exact free_of_mem_entered (List.mem_reverse.mp hs)

/-- A text is an absolute path if it starts with a separator. -/
theorem isAbsolute_ofString_iff {text : String} :
    (ofString text).isAbsolute = true
      ↔ ∃ s more, Text.splitOn '/' text.toList = [] :: s :: more := by
  have honward := (Path.onward_segments text.toList).isAbsolute
  unfold Path.ofString Path.ofSegments
  constructor
  · intro h
    unfold Path.start at h
    split at h
    · rename_i s more heq
      exact ⟨s, more, heq⟩
    · cases h
    · rw [List.nil_append, honward] at h
      cases h
  · rintro ⟨s, more, heq⟩
    rw [heq]
    rfl

theorem isAbsolute_unitName_iff (hrelative : isRelative path.toList = true) :
    (ofString (unitName importer path)).isAbsolute = true
      ↔ (entered importer path).getLast? = some [] ∧ 2 ≤ (entered importer path).length := by
  rw [isAbsolute_ofString_iff, splitOn_unitName hrelative]
  by_cases hempty : entered importer path = []
  · rw [if_pos hempty, hempty]
    simp
  · rw [if_neg hempty, ← List.head?_reverse, ← List.length_reverse]
    match (entered importer path).reverse with
    | [] => simp
    | [s] => simp
    | s :: next :: more => simp

end

/-! ## Leaving the tree -/

/-- No segment of the name is empty, `.` or `..`. -/
def Tidy (unit : String) : Prop :=
  ∀ s ∈ Text.splitOn '/' unit.toList, s ≠ [] ∧ Forward s

/-- The path climbs to the topmost directory and goes on with an empty segment, and below that it
ends with a name at least. -/
def Detaches (directory segments : List (List Char)) : Prop :=
  ∃ front more, segments = front ++ [] :: more ∧ front.foldl enter directory = []
    ∧ StaysBelow 0 more ∧ more.count ['.', '.'] < more.countP leadsDown

section

variable {importer path : String}

theorem isAbsolute_iff_detaches (himporter : Tidy importer)
    (hrelative : isRelative path.toList = true) :
    (ofString (unitName importer path)).isAbsolute = true
      ↔ Detaches (directoryOf importer.toList) (Text.splitOn '/' path.toList) := by
  have hfull : (directoryOf importer.toList).getLast? ≠ some [] := fun h =>
    (himporter [] (mem_splitOn_of_mem_directoryOf (List.mem_of_getLast? h))).1 rfl
  rw [isAbsolute_unitName_iff hrelative]
  unfold entered
  rw [getLast?_foldl_enter (by decide)]
  -- how high the pile is on the empty segment
  have hheight : ∀ front more, front.foldl enter (directoryOf importer.toList) = [] →
      StaysBelow 0 more →
      (((front ++ [] :: more).foldl enter (directoryOf importer.toList)).length
        + more.count ['.', '.'] = 1 + more.countP leadsDown) := by
    intro front more hempty hstays
    have hname : leadsDown [] = true := by decide
    have hbelow : StaysBelow ([[]] : List (List Char)).length more := fun part hpart =>
      Nat.le_trans (hstays part hpart) (by simp)
    rw [List.foldl_append, hempty, List.foldl_cons, enter_of_leadsDown hname]
    exact length_foldl_enter hbelow
  constructor
  · rintro ⟨⟨hlast, -⟩ | ⟨front, more, hsplit, hempty, hstays⟩, hlong⟩
    · exact absurd hlast hfull
    · have hlength := hheight front more hempty hstays
      rw [← hsplit] at hlength
      exact ⟨front, more, hsplit, hempty, hstays, by omega⟩
  · rintro ⟨front, more, hsplit, hempty, hstays, hmore⟩
    have hlength := hheight front more hempty hstays
    rw [← hsplit] at hlength
    exact ⟨.inr ⟨front, more, hsplit, hempty, hstays⟩, by omega⟩

/-- A path that leaves the tree has an empty segment in it. -/
theorem Detaches.gap {directory segments : List (List Char)} (h : Detaches directory segments) :
    [] ∈ segments.dropLast := by
  obtain ⟨front, more, rfl, -, -, hmore⟩ := h
  have hne : more ≠ [] := by
    rintro rfl
    simp at hmore
  rw [List.dropLast_append_of_ne_nil (List.cons_ne_nil _ _), List.dropLast_cons_of_ne_nil hne]
  simp

theorem forward_unitName (himporter : Tidy importer) (hrelative : isRelative path.toList = true) :
    ∀ s ∈ Text.splitOn '/' (unitName importer path).toList, Forward s := by
  intro s hs
  rw [splitOn_unitName hrelative] at hs
  split at hs
  · rw [List.mem_singleton.mp hs]
    exact ⟨by decide, by decide⟩
  · refine forward_foldl_enter (fun t ht => ?_) _ s (List.mem_reverse.mp hs)
    exact (himporter t (mem_splitOn_of_mem_directoryOf ht)).2

/-- The components of segments that lead on. -/
theorem plain_of_forward {segments : List (List Char)} (hfree : ∀ s ∈ segments, '/' ∉ s)
    (hforward : ∀ s ∈ segments, Forward s) : Plain (segments.filterMap Component.ofSegment?) := by
  intro c hc
  obtain ⟨s, hs, hsome⟩ := List.mem_filterMap.mp hc
  refine ⟨Component.inner_of_ofSegment? (hfree s hs) hsome, ?_⟩
  rintro rfl
  exact (hforward s hs).2 (Component.segment_of_ofSegment? hsome).symm

/-- **A text without `.` and `..` that is no absolute path leads below.** -/
theorem resolve_prefix_of_forward {text : String}
    (hforward : ∀ s ∈ Text.splitOn '/' text.toList, Forward s)
    (hrelative : (ofString text).isAbsolute = false) (directory : Path) :
    resolve directory (ofString "") <+: resolve directory (ofString text) := by
  have hplain : Plain (Path.added text) :=
    plain_of_forward (fun s hs => Text.not_mem_of_mem_splitOn hs) hforward
  have hempty : ofString "" = [] := rfl
  rw [hempty, Path.resolve_of_relative directory hrelative, Path.foldl_walk_plain hplain,
    List.reverse_append, List.reverse_reverse, List.reverse_reverse]
  exact List.prefix_append _ _

/-- An absolute path does not lie below every directory. -/
theorem exists_not_prefix_of_isAbsolute {text : String}
    (habs : (ofString text).isAbsolute = true) :
    ∃ directory : String, (ofString directory).isAbsolute = true
      ∧ ¬ resolve (ofString directory) (ofString "") <+: resolve (ofString directory)
          (ofString text) := by
  obtain ⟨names, hnames, hplain⟩ :=
    Path.collapse_resolved (Path.written_ofString text) habs
  -- a directory in the place that the path leads to
  have hdeeper : Resolved (.root :: (names ++ [.name "x"])) := by
    refine ⟨names ++ [.name "x"], rfl, fun c hc => ?_⟩
    rcases List.mem_append.mp hc with hc | hc
    · exact hplain c hc
    · rw [List.mem_singleton.mp hc]
      exact ⟨⟨by decide +kernel, by decide +kernel⟩, by decide⟩
  refine ⟨Path.toString (.root :: (names ++ [.name "x"])), ?_, ?_⟩
  · rw [hdeeper.ofString_toString]
    rfl
  · intro hfirst
    have hhere : resolve (.root :: (names ++ [.name "x"])) (ofString "")
        = .root :: (names ++ [.name "x"]) := by
      show Path.collapse ((.root :: (names ++ [.name "x"])) ++ []) = _
      rw [List.append_nil, hdeeper.collapse_eq]
    have hthere : resolve (.root :: (names ++ [.name "x"])) (ofString text) = .root :: names := by
      unfold Path.resolve
      rw [if_pos habs, hnames]
    rw [hdeeper.ofString_toString, hhere, hthere] at hfirst
    have hlength := hfirst.length_le
    simp at hlength

/-- **Where a relative import leads.** There is no `..` in the name of the unit, so it leads below
whatever directory it is looked for in, unless it is an absolute path; and that it is if the path
climbs to the top and has an empty segment there. -/
theorem unitName_stays_iff (himporter : Tidy importer) (hrelative : isRelative path.toList = true) :
    (∀ s ∈ Text.splitOn '/' (unitName importer path).toList, Forward s)
    ∧ ((∀ directory : String, (ofString directory).isAbsolute = true →
          resolve (ofString directory) (ofString "")
            <+: resolve (ofString directory) (ofString (unitName importer path)))
        ↔ (ofString (unitName importer path)).isAbsolute = false)
    ∧ ((ofString (unitName importer path)).isAbsolute = true
        ↔ Detaches (directoryOf importer.toList) (Text.splitOn '/' path.toList))
    ∧ ([] ∉ (Text.splitOn '/' path.toList).dropLast →
        (ofString (unitName importer path)).isAbsolute = false) := by
  have hforward := forward_unitName himporter hrelative
  have hdetaches := isAbsolute_iff_detaches himporter hrelative
  refine ⟨hforward, ⟨fun hbelow => ?_, fun hname directory _ => ?_⟩, hdetaches, fun hfull => ?_⟩
  · rw [Bool.eq_false_iff]
    intro habs
    obtain ⟨directory, hdirectory, hnot⟩ := exists_not_prefix_of_isAbsolute habs
    exact hnot (hbelow directory hdirectory)
  · exact resolve_prefix_of_forward hforward hname _
  · rw [Bool.eq_false_iff]
    intro habs
    exact hfull (hdetaches.mp habs).gap

/-- An empty segment below the top does no harm. -/
theorem unitName_stays_below_top :
    Tidy "lib/A.sol" ∧ isRelative ".././x//B.sol".toList = true
      ∧ unitName "lib/A.sol" ".././x//B.sol" = "x//B.sol"
      ∧ ∀ directory : String, (ofString directory).isAbsolute = true →
        resolve (ofString directory) (ofString "")
          <+: resolve (ofString directory) (ofString (unitName "lib/A.sol" ".././x//B.sol")) := by
  have himporter : Tidy "lib/A.sol" := by
    unfold Tidy Forward
    decide +kernel
  have hrelative : isRelative ".././x//B.sol".toList = true := by decide +kernel
  have hname : unitName "lib/A.sol" ".././x//B.sol" = "x//B.sol" := by decide +kernel
  have hstays : (ofString (unitName "lib/A.sol" ".././x//B.sol")).isAbsolute = false := by
    decide +kernel
  exact ⟨himporter, hrelative, hname,
    (unitName_stays_iff himporter hrelative).2.1.mpr hstays⟩

/-- **A relative import can leave the source tree**: an empty segment makes an absolute path of
it. -/
theorem unitName_leaves_tree :
    ¬ ∀ importer path directory : String, Tidy importer → isRelative path.toList = true →
      (ofString directory).isAbsolute = true →
      resolve (ofString directory) (ofString "")
        <+: resolve (ofString directory) (ofString (unitName importer path)) := by
  intro hall
  have himporter : Tidy "A.sol" := by
    unfold Tidy Forward
    decide +kernel
  have hbelow := hall "A.sol" ".//etc/passwd" "/w" himporter (by decide +kernel)
    (by decide +kernel)
  exact absurd hbelow (by decide +kernel)

end

end SolFront.Import
