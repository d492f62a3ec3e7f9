import Mathlib.Data.List.Infix
import SolFront.Import.UnitName
import SolFront.Proofs.CanonicalName

/-!
# Where relative imports lead

A relative import is joined to the directory of its unit on segments, and a path is walked on
components. The two keep the same pile of names as long as `..` only takes off names that are there.
What lies under the pile, the directory that all names start from on one side and nothing or the
empty segment before the first separator on the other, is not looked at.
-/

namespace SolFront.Import

open SolFront.Path (Plain Resolved ofString resolve walk)

/-! ## Segments that stay below -/

/-- The segment is a name: it leads one directory down. -/
def leadsDown (segment : List Char) : Bool :=
  segment ≠ ['.'] && segment ≠ ['.', '.']

/-- From a place so many directories down, the segments never lead out at the top. -/
def StaysBelow (depth : Nat) (segments : List (List Char)) : Prop :=
  ∀ front, front <+: segments → front.count ['.', '.'] ≤ depth + front.countP leadsDown

instance (depth : Nat) (segments : List (List Char)) : Decidable (StaysBelow depth segments) :=
  decidable_of_iff
    (∀ front ∈ segments.inits, front.count ['.', '.'] ≤ depth + front.countP leadsDown)
    (forall_congr' fun _ => by rw [List.mem_inits])

variable {depth : Nat} {segment : List Char} {segments : List (List Char)}

theorem StaysBelow.here (h : StaysBelow depth (['.'] :: segments)) : StaysBelow depth segments := by
  intro front hfront
  have hmore := h (['.'] :: front) (List.cons_prefix_cons.mpr ⟨rfl, hfront⟩)
  rw [List.count_cons_of_ne (by decide), List.countP_cons_of_neg (by decide)] at hmore
  exact hmore

theorem StaysBelow.parent (h : StaysBelow depth (['.', '.'] :: segments)) :
    ∃ depth', depth = depth' + 1 ∧ StaysBelow depth' segments := by
  have hfirst := h [['.', '.']] (List.cons_prefix_cons.mpr ⟨rfl, List.nil_prefix⟩)
  rw [List.count_singleton_self, List.countP_cons_of_neg (by decide), List.countP_nil] at hfirst
  refine ⟨depth - 1, by omega, ?_⟩
  intro front hfront
  have hmore := h (['.', '.'] :: front) (List.cons_prefix_cons.mpr ⟨rfl, hfront⟩)
  rw [List.count_cons_self, List.countP_cons_of_neg (by decide)] at hmore
  omega

theorem StaysBelow.name (hname : leadsDown segment = true)
    (h : StaysBelow depth (segment :: segments)) : StaysBelow (depth + 1) segments := by
  intro front hfront
  have hparent : segment ≠ ['.', '.'] := by
    rintro rfl
    exact absurd hname (by decide)
  have hmore := h (segment :: front) (List.cons_prefix_cons.mpr ⟨rfl, hfront⟩)
  rw [List.count_cons_of_ne hparent, List.countP_cons_of_pos hname] at hmore
  omega

theorem StaysBelow.front {more : List (List Char)} (h : StaysBelow depth (segments ++ more)) :
    StaysBelow depth segments :=
  fun front hfront => h front (hfront.trans (List.prefix_append segments more))

/-! ## Two walks -/

/-- Walking and entering lead from one pile of names to the other, whatever lies under them. -/
structure Leads (segments : List (List Char)) (pile pile' : Path) : Prop where
  plain : Plain pile'
  walked : ∀ behind : Path,
    (segments.filterMap Component.ofSegment?).foldl walk (pile ++ behind) = pile' ++ behind
  entered : ∀ below : List (List Char),
    segments.foldl enter (pile.map Component.segment ++ below)
      = pile'.map Component.segment ++ below

theorem leads_nil {pile : Path} (h : Plain pile) : Leads [] pile pile :=
  ⟨h, fun _ => rfl, fun _ => rfl⟩

theorem Leads.here {pile pile' : Path} (h : Leads segments pile pile') :
    Leads (['.'] :: segments) pile pile' :=
  ⟨h.plain, h.walked, h.entered⟩

theorem Leads.parent {pile pile' : Path} {name : String} (h : Leads segments pile pile') :
    Leads (['.', '.'] :: segments) (.name name :: pile) pile' :=
  ⟨h.plain, h.walked, h.entered⟩

theorem ofSegment?_of_leadsDown (hempty : segment ≠ []) (hname : leadsDown segment = true) :
    Component.ofSegment? segment = some (.name (String.ofList segment)) := by
  obtain ⟨hhere, hparent⟩ := Bool.and_eq_true_iff.mp hname
  unfold Component.ofSegment?
  rw [if_neg (by simp [hempty, of_decide_eq_true hhere]), if_neg (of_decide_eq_true hparent)]

theorem enter_of_leadsDown (hname : leadsDown segment = true) (below : List (List Char)) :
    enter below segment = segment :: below := by
  obtain ⟨hhere, hparent⟩ := Bool.and_eq_true_iff.mp hname
  unfold enter
  rw [if_neg (of_decide_eq_true hhere), if_neg (of_decide_eq_true hparent)]

theorem Leads.name {pile pile' : Path} (hempty : segment ≠ []) (hname : leadsDown segment = true)
    (h : Leads segments (.name (String.ofList segment) :: pile) pile') :
    Leads (segment :: segments) pile pile' where
  plain := h.plain
  walked := by
    intro behind
    rw [List.filterMap_cons_some (ofSegment?_of_leadsDown hempty hname), List.foldl_cons]
    exact h.walked behind
  entered := by
    intro below
    have hsegment : (Component.name (String.ofList segment)).segment = segment :=
      String.toList_ofList
    have hentered := h.entered below
    rw [List.map_cons, hsegment, List.cons_append] at hentered
    rw [List.foldl_cons, enter_of_leadsDown hname, hentered]

theorem plain_cons_name {pile : Path} (hpile : Plain pile) (hfree : '/' ∉ segment)
    (hempty : segment ≠ []) (hname : leadsDown segment = true) :
    Plain (.name (String.ofList segment) :: pile) := by
  intro c hc
  rcases List.mem_cons.mp hc with rfl | hc
  · exact ⟨Component.inner_of_ofSegment? hfree (ofSegment?_of_leadsDown hempty hname), by simp⟩
  · exact hpile c hc

/-- **Segments that stay below lead both walks to the same pile.** -/
theorem exists_leads {pile : Path} (hpile : Plain pile)
    (hsegments : ∀ segment ∈ segments, segment ≠ [] ∧ '/' ∉ segment)
    (hstays : StaysBelow pile.length segments) : ∃ pile', Leads segments pile pile' := by
  induction segments generalizing pile with
  | nil => exact ⟨pile, leads_nil hpile⟩
  | cons segment segments ih =>
      obtain ⟨⟨hempty, hfree⟩, hrest⟩ := List.forall_mem_cons.mp hsegments
      by_cases hhere : segment = ['.']
      · subst hhere
        obtain ⟨pile', h⟩ := ih hpile hrest hstays.here
        exact ⟨pile', h.here⟩
      by_cases hparent : segment = ['.', '.']
      · -- there is a name to take off, or the segments would lead out
        subst hparent
        obtain ⟨depth', hdepth, hbelow⟩ := hstays.parent
        match pile, hpile, hdepth with
        | c :: pile, hpile, hdepth =>
            obtain ⟨hinner, hne⟩ := hpile c List.mem_cons_self
            obtain ⟨name, rfl⟩ := hinner.exists_name hne
            obtain rfl : pile.length = depth' := Nat.succ.inj hdepth
            obtain ⟨pile', h⟩ := ih hpile.tail hrest hbelow
            exact ⟨pile', h.parent⟩
      · have hname : leadsDown segment = true := by simp [leadsDown, hhere, hparent]
        obtain ⟨pile', h⟩ :=
          ih (plain_cons_name hpile hfree hempty hname) hrest (hstays.name hname)
        exact ⟨pile', h.name hempty hname⟩

theorem Leads.append {more : List (List Char)} {pile pile' pile'' : Path}
    (h : Leads segments pile pile') (h' : Leads more pile' pile'') :
    Leads (segments ++ more) pile pile'' where
  plain := h'.plain
  walked := by
    intro behind
    rw [List.filterMap_append, List.foldl_append, h.walked, h'.walked]
  entered := by
    intro below
    rw [List.foldl_append, h.entered, h'.entered]

/-- A path of segments without gaps that ends in a name and stays below. -/
structure Descends (depth : Nat) (path : String) : Prop where
  /-- No segment is empty. -/
  full : [] ∉ Text.splitOn '/' path.toList
  /-- The last segment is a name. -/
  last : ∃ front name, Text.splitOn '/' path.toList = front ++ [name] ∧ leadsDown name = true
  /-- The path never leads out at the top. -/
  below : StaysBelow depth (Text.splitOn '/' path.toList)

/-- A path that descends leads to a pile with a name on top. -/
theorem Descends.exists_leads {pile : Path} (hpile : Plain pile) {path : String}
    (h : Descends pile.length path) :
    ∃ pile', pile' ≠ [] ∧ Leads (Text.splitOn '/' path.toList) pile pile' := by
  obtain ⟨front, name, hsplit, hname⟩ := h.last
  have hsegments : ∀ segment ∈ Text.splitOn '/' path.toList, segment ≠ [] ∧ '/' ∉ segment :=
    fun segment hmem => ⟨fun heq => h.full (heq ▸ hmem), Text.not_mem_of_mem_splitOn hmem⟩
  have hbelow := h.below
  rw [hsplit] at hsegments hbelow ⊢
  obtain ⟨hempty, hfree⟩ := hsegments name (List.mem_append_right front List.mem_cons_self)
  obtain ⟨pile', hfront⟩ := Import.exists_leads hpile
    (fun segment hmem => hsegments segment (List.mem_append_left _ hmem)) hbelow.front
  have hplain := plain_cons_name hfront.plain hfree hempty hname
  exact ⟨_, List.cons_ne_nil _ _, hfront.append (.name hempty hname (leads_nil hplain))⟩

/-! ## Relative imports -/

/-- What a relative path starts with is no step. -/
theorem foldl_start_of_isRelative {path : String} (h : isRelative path.toList = true)
    (behind : Path) :
    (ofString path).isAbsolute = false
      ∧ (ofString path).foldl walk behind
        = ((Text.splitOn '/' path.toList).filterMap Component.ofSegment?).foldl walk behind := by
  have honward := Path.onward_segments path.toList
  unfold Path.ofString Path.ofSegments
  rcases Bool.or_eq_true_iff.mp h with h | h
  · obtain ⟨rest, hrest⟩ := List.isPrefixOf_iff_prefix.mp h
    have hsplit := Text.splitOn_append_cons '/' ['.'] rest
    rw [show ['.'] ++ '/' :: rest = path.toList from hrest] at hsplit
    rw [hsplit]
    exact ⟨rfl, rfl⟩
  · obtain ⟨rest, hrest⟩ := List.isPrefixOf_iff_prefix.mp h
    have hsplit := Text.splitOn_append_cons '/' ['.', '.'] rest
    rw [show ['.', '.'] ++ '/' :: rest = path.toList from hrest] at hsplit
    rw [hsplit]
    exact ⟨rfl, rfl⟩

/-- **A relative path is walked from the names of its directory**, on top of what is above them. -/
theorem resolve_of_leads {floor names pile : Path} (hdirectory : Resolved (floor ++ names))
    {path : String} (hrelative : isRelative path.toList = true)
    (h : Leads (Text.splitOn '/' path.toList) names.reverse pile) :
    resolve (floor ++ names) (ofString path) = floor ++ pile.reverse := by
  obtain ⟨habsolute, hwalk⟩ := foldl_start_of_isRelative hrelative (floor ++ names).reverse
  rw [Path.resolve_eq_walk hdirectory habsolute, hwalk, List.reverse_append, h.walked,
    List.reverse_append, List.reverse_reverse]

/-- **The name of the unit is joined from the same pile**, behind what the importer's name starts
with. -/
theorem unitName_of_leads {importer : String} {names pile : Path} {below : List (List Char)}
    (hdirectory : directoryOf importer.toList = names.reverse.map Component.segment ++ below)
    {path : String} (hrelative : isRelative path.toList = true)
    (h : Leads (Text.splitOn '/' path.toList) names.reverse pile) :
    unitName importer path
      = String.ofList (Text.joinWith '/' (below.reverse ++ pile.reverse.map Component.segment)) := by
  unfold unitName joinPath
  rw [if_pos hrelative, hdirectory, h.entered, List.reverse_append, List.map_reverse]

end SolFront.Import
