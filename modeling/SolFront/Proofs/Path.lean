import SolFront.Path
import SolFront.Proofs.Text

/-!
# Where paths lead

A path read from a text has components of three kinds: the root or a leading `.`, `..`, and names. A
resolved path has the root and then only names. Resolving walks over a path with what is behind it
on a stack: a name is put on top, `..` takes the top off, and so the way from one resolved path to
another, walked from the first, ends at the second.

The text of a way is the text of a path with the same components again, alone or below another path.
That is all that joining texts with a separator has to do with walking.
-/

namespace SolFront

/-! ## Components -/

namespace Component

/-- `..` or a name: the component's segment holds no separator and stands for the component. -/
structure Inner (c : Component) : Prop where
  free : '/' ∉ c.segment
  ofSegment : ofSegment? c.segment = some c

theorem segment_of_ofSegment? {segment : List Char} {c : Component}
    (h : ofSegment? segment = some c) : c.segment = segment := by
  unfold ofSegment? at h
  by_cases hnone : (segment = [] || segment = ['.'] : Bool) = true
  · rw [if_pos hnone] at h
    cases h
  · rw [if_neg hnone] at h
    by_cases hparent : segment = ['.', '.']
    · rw [if_pos hparent] at h
      cases h
      exact hparent.symm
    · rw [if_neg hparent] at h
      cases h
      exact String.toList_ofList

theorem inner_of_ofSegment? {segment : List Char} {c : Component} (hfree : '/' ∉ segment)
    (h : ofSegment? segment = some c) : Inner c := by
  have hsegment := segment_of_ofSegment? h
  exact ⟨by rw [hsegment]; exact hfree, by rw [hsegment]; exact h⟩

theorem inner_parent : Inner .parent :=
  ⟨by decide, rfl⟩

theorem Inner.ne_root {c : Component} (h : Inner c) : c ≠ .root := by
  intro heq
  rw [heq] at h
  cases h.ofSegment

theorem Inner.ne_here {c : Component} (h : Inner c) : c ≠ .here := by
  intro heq
  rw [heq] at h
  cases h.ofSegment

theorem Inner.segment_ne_nil {c : Component} (h : Inner c) : c.segment ≠ [] := by
  intro heq
  have hsome := h.ofSegment
  rw [heq] at hsome
  cases hsome

theorem Inner.segment_ne_here {c : Component} (h : Inner c) : c.segment ≠ ['.'] := by
  intro heq
  have hsome := h.ofSegment
  rw [heq] at hsome
  cases hsome

theorem Inner.exists_name {c : Component} (h : c.Inner) (hparent : c ≠ .parent) :
    ∃ s, c = .name s := by
  cases c with
  | root => exact absurd rfl h.ne_root
  | here => exact absurd rfl h.ne_here
  | parent => exact absurd rfl hparent
  | name s => exact ⟨s, rfl⟩

end Component

namespace Path

/-! ## Texts of paths -/

/-- A path that a text can have. -/
def Written (path : Path) : Prop :=
  ∀ c ∈ path, c = .root ∨ c = .here ∨ c.Inner

/-- The path leads on from where it is put: there is no root and no `.` in it. -/
def Onward (way : Path) : Prop :=
  ∀ c ∈ way, c.Inner

theorem mem_start {segments : List (List Char)} {c : Component} (h : c ∈ start segments) :
    c = .root ∨ c = .here := by
  unfold start at h
  split at h
  · exact .inl (List.mem_singleton.mp h)
  · exact .inr (List.mem_singleton.mp h)
  · exact absurd h List.not_mem_nil

theorem onward_segments (cs : List Char) :
    Onward ((Text.splitOn '/' cs).filterMap Component.ofSegment?) := by
  intro c hc
  obtain ⟨segment, hmem, hsome⟩ := List.mem_filterMap.mp hc
  exact Component.inner_of_ofSegment? (Text.not_mem_of_mem_splitOn hmem) hsome

/-- Every text is the text of a path. -/
theorem written_ofString (text : String) : Written (ofString text) := by
  intro c hc
  rcases List.mem_append.mp hc with hstart | hrest
  · rcases mem_start hstart with hroot | hhere
    · exact .inl hroot
    · exact .inr (.inl hhere)
  · exact .inr (.inr (onward_segments text.toList c hrest))

theorem exists_of_isAbsolute {path : Path} (h : path.isAbsolute = true) :
    ∃ rest, path = .root :: rest := by
  unfold isAbsolute at h
  split at h
  · exact ⟨_, rfl⟩
  · cases h

theorem isAbsolute_append {path : Path} (hne : path ≠ []) (more : Path) :
    isAbsolute (path ++ more) = path.isAbsolute := by
  cases path with
  | nil => exact absurd rfl hne
  | cons c path => cases c <;> rfl

theorem Onward.isAbsolute {way : Path} (h : Onward way) : way.isAbsolute = false := by
  rw [Bool.eq_false_iff]
  intro habs
  obtain ⟨rest, rfl⟩ := exists_of_isAbsolute habs
  exact (h .root List.mem_cons_self).ne_root rfl

theorem toList_toString {way : Path} (h : Onward way) :
    (toString way).toList = Text.joinWith '/' (way.map Component.segment) := by
  unfold toString
  split
  · exact absurd rfl (h .root List.mem_cons_self).ne_root
  · exact String.toList_ofList

theorem splitOn_toString {way : Path} (h : Onward way) (hne : way ≠ []) :
    Text.splitOn '/' (toString way).toList = way.map Component.segment := by
  have hfree : ∀ segment ∈ way.map Component.segment, '/' ∉ segment := by
    intro segment hmem
    obtain ⟨c, hc, heq⟩ := List.mem_map.mp hmem
    exact heq ▸ (h c hc).free
  rw [toList_toString h, Text.splitOn_joinWith (mt List.map_eq_nil_iff.mp hne) hfree]

theorem filterMap_segment {way : Path} (h : Onward way) :
    (way.map Component.segment).filterMap Component.ofSegment? = way := by
  induction way with
  | nil => rfl
  | cons c way ih =>
      have hc := h c List.mem_cons_self
      rw [List.map_cons, List.filterMap_cons_some hc.ofSegment,
        ih fun d hd => h d (List.mem_cons_of_mem _ hd)]

/-- **A way comes back** from the segments of its text. -/
theorem segments_toString {way : Path} (h : Onward way) :
    (Text.splitOn '/' (toString way).toList).filterMap Component.ofSegment? = way := by
  by_cases hne : way = []
  · rw [hne]
    rfl
  · rw [splitOn_toString h hne, filterMap_segment h]

/-- A segment that is not empty tells how the path starts, whatever follows. -/
theorem start_cons {segment : List Char} (hne : segment ≠ []) (segments : List (List Char)) :
    start (segment :: segments) = if segment = ['.'] then [.here] else [] := by
  by_cases hhere : segment = ['.']
  · rw [if_pos hhere, hhere]
    rfl
  · rw [if_neg hhere]
    unfold start
    split
    · rename_i heq
      exact absurd (List.cons.inj heq).1 hne
    · rename_i heq
      exact absurd (List.cons.inj heq).1 hhere
    · rfl

theorem ofString_toString {way : Path} (h : Onward way) : ofString (toString way) = way := by
  have hstart : start (Text.splitOn '/' (toString way).toList) = [] := by
    cases way with
    | nil => rfl
    | cons c way =>
        have hc := h c List.mem_cons_self
        rw [splitOn_toString h (List.cons_ne_nil c way), List.map_cons,
          start_cons hc.segment_ne_nil, if_neg hc.segment_ne_here]
  show start _ ++ _ = way
  rw [hstart, segments_toString h, List.nil_append]

theorem start_append {segments : List (List Char)} (hne : segments ≠ []) (hnil : segments ≠ [[]])
    (more : List (List Char)) : start (segments ++ more) = start segments := by
  cases segments with
  | nil => exact absurd rfl hne
  | cons first others =>
      by_cases hfirst : first = []
      · -- the root, for another segment follows
        rw [hfirst] at hnil ⊢
        cases others with
        | nil => exact absurd rfl hnil
        | cons second others => rfl
      · rw [List.cons_append, start_cons hfirst, start_cons hfirst]

/-- **A text behind a separator** adds the components of its segments. -/
theorem ofString_append {text : String} (hne : text ≠ "") (more : String) :
    ofString (text ++ "/" ++ more)
      = ofString text ++ (Text.splitOn '/' more.toList).filterMap Component.ofSegment? := by
  have hsplit : Text.splitOn '/' (text ++ "/" ++ more).toList
      = Text.splitOn '/' text.toList ++ Text.splitOn '/' more.toList := by
    rw [String.toList_append, String.toList_append, List.append_assoc]
    exact Text.splitOn_append_cons '/' text.toList more.toList
  -- only the empty text has a single empty segment
  have hnil : Text.splitOn '/' text.toList ≠ [[]] := by
    intro heq
    have hjoin := Text.joinWith_splitOn '/' text.toList
    rw [heq] at hjoin
    exact hne (String.toList_eq_nil_iff.mp hjoin.symm)
  unfold ofString ofSegments
  rw [hsplit, start_append (Text.splitOn_ne_nil '/' _) hnil, List.filterMap_append,
    List.append_assoc]

/-! ## Walking -/

/-- Only names. -/
def Plain (path : Path) : Prop :=
  ∀ c ∈ path, c.Inner ∧ c ≠ .parent

theorem Plain.tail {c : Component} {path : Path} (h : Plain (c :: path)) : Plain path :=
  fun d hd => h d (List.mem_cons_of_mem c hd)

theorem foldl_walk_plain {path : Path} (h : Plain path) (behind : Path) :
    path.foldl walk behind = path.reverse ++ behind := by
  induction path generalizing behind with
  | nil => rfl
  | cons c path ih =>
      obtain ⟨hc, hparent⟩ := h c List.mem_cons_self
      obtain ⟨s, rfl⟩ := hc.exists_name hparent
      rw [List.foldl_cons, ih h.tail, List.reverse_cons, List.append_assoc]
      rfl

/-- As many `..` as there are names on the pile take them off. -/
theorem foldl_walk_parents {path : Path} (h : Plain path) (behind : Path) :
    (List.replicate path.length Component.parent).foldl walk (path ++ behind) = behind := by
  induction path with
  | nil => rfl
  | cons c path ih =>
      obtain ⟨hc, hparent⟩ := h c List.mem_cons_self
      obtain ⟨s, rfl⟩ := hc.exists_name hparent
      rw [List.length_cons, List.replicate_succ, List.foldl_cons]
      exact ih h.tail

theorem plain_reverse {path : Path} (h : Plain path) : Plain path.reverse :=
  fun c hc => h c (List.mem_reverse.mp hc)

/-- **A way goes as far back as the paths differ**: it leaves what the base has behind the common
part and goes down what the other path has there. -/
theorem wayFrom_spec (base path : Path) :
    ∃ common left right, base = common ++ left ∧ path = common ++ right ∧
      wayFrom base path = List.replicate left.length .parent ++ right ∧
      ∀ b ∈ left.head?, ∀ p ∈ right.head?, b ≠ p := by
  induction base generalizing path with
  | nil => exact ⟨[], [], path, rfl, rfl, by rw [wayFrom]; simp, by simp⟩
  | cons b base ih =>
      cases path with
      | nil => exact ⟨[], b :: base, [], rfl, rfl, by rw [wayFrom]; simp, by simp⟩
      | cons p path =>
          by_cases heq : b = p
          · -- a first component that they share belongs to the common part
            obtain ⟨common, left, right, hbase, hpath, hway, hne⟩ := ih path
            refine ⟨b :: common, left, right, ?_, ?_, ?_, hne⟩
            · rw [hbase, List.cons_append]
            · rw [← heq, hpath, List.cons_append]
            · rw [wayFrom, if_pos heq, hway]
          · refine ⟨[], b :: base, p :: path, rfl, rfl, ?_, ?_⟩
            · rw [wayFrom, if_neg heq, List.length_cons]
            · intro b' hb p' hp
              cases hb
              cases hp
              exact heq

/-- **The way from one path to another leads there.** -/
theorem foldl_walk_wayFrom {base path : Path} (hbase : Plain base) (hpath : Plain path)
    (behind : Path) :
    (wayFrom base path).foldl walk (base.reverse ++ behind) = path.reverse ++ behind := by
  obtain ⟨common, left, right, rfl, rfl, hway, _⟩ := wayFrom_spec base path
  have hleft : Plain left.reverse :=
    plain_reverse fun c hc => hbase c (List.mem_append_right common hc)
  have hright : Plain right := fun c hc => hpath c (List.mem_append_right common hc)
  rw [hway, List.foldl_append, List.reverse_append, List.append_assoc, ← List.length_reverse,
    foldl_walk_parents hleft, foldl_walk_plain hright, List.reverse_append, List.append_assoc]

theorem onward_wayFrom (base : Path) {path : Path} (h : Plain path) :
    Onward (wayFrom base path) := by
  obtain ⟨common, left, right, _, rfl, hway, _⟩ := wayFrom_spec base path
  rw [hway]
  intro c hc
  rcases List.mem_append.mp hc with hparent | hmem
  · rw [List.eq_of_mem_replicate hparent]
    exact Component.inner_parent
  · exact (h c (List.mem_append_right common hmem)).1

/-! ## Resolved paths -/

/-- The path starts at the root and has only names behind it. -/
def Resolved (path : Path) : Prop :=
  ∃ names, path = .root :: names ∧ Plain names

theorem resolved_root : Resolved [.root] :=
  ⟨[], rfl, fun _ hmem => absurd hmem List.not_mem_nil⟩

/-- A step keeps what is behind resolved. -/
theorem walk_resolved {behind : Path} (h : Resolved behind.reverse) {c : Component}
    (hc : c = .root ∨ c = .here ∨ c.Inner) : Resolved (walk behind c).reverse := by
  obtain ⟨names, hbehind, hplain⟩ := h
  have hreverse : behind = names.reverse ++ [.root] := by
    rw [← List.reverse_reverse behind, hbehind, List.reverse_cons]
  rcases hc with rfl | rfl | hinner
  · exact resolved_root
  · exact ⟨names, hbehind, hplain⟩
  · by_cases hparent : c = .parent
    · -- `..` takes off a name, or leaves the root where it is
      rw [hparent, hreverse]
      have hrev := plain_reverse hplain
      generalize names.reverse = pile at hrev
      cases pile with
      | nil => exact resolved_root
      | cons d rest =>
          obtain ⟨hd, hne⟩ := hrev d List.mem_cons_self
          obtain ⟨s, rfl⟩ := hd.exists_name hne
          refine ⟨rest.reverse, ?_, plain_reverse hrev.tail⟩
          show (rest ++ [Component.root]).reverse = _
          rw [List.reverse_append]
          rfl
    · -- a name is put on top
      obtain ⟨s, rfl⟩ := hinner.exists_name hparent
      refine ⟨names ++ [.name s], ?_, ?_⟩
      · show (Component.name s :: behind).reverse = _
        rw [List.reverse_cons, hbehind]
        rfl
      · intro d hd
        rcases List.mem_append.mp hd with hmem | hmem
        · exact hplain d hmem
        · rw [List.mem_singleton.mp hmem]
          exact ⟨hinner, hparent⟩

/-- **A walk keeps what is behind resolved.** -/
theorem foldl_walk_resolved {path : Path} (hpath : Written path) {behind : Path}
    (h : Resolved behind.reverse) : Resolved (path.foldl walk behind).reverse := by
  induction path generalizing behind with
  | nil => exact h
  | cons c path ih =>
      exact ih (fun d hd => hpath d (List.mem_cons_of_mem c hd))
        (walk_resolved h (hpath c List.mem_cons_self))

theorem collapse_resolved {path : Path} (hpath : Written path) (habs : path.isAbsolute = true) :
    Resolved path.collapse := by
  obtain ⟨rest, rfl⟩ := exists_of_isAbsolute habs
  exact foldl_walk_resolved (fun c hc => hpath c (List.mem_cons_of_mem _ hc)) resolved_root

/-- **What is seen from an absolute directory is resolved.** -/
theorem resolve_resolved {cwd path : Path} (hcwd : Written cwd) (habs : cwd.isAbsolute = true)
    (hpath : Written path) : Resolved (resolve cwd path) := by
  unfold resolve
  by_cases h : path.isAbsolute = true
  · rw [if_pos h]
    exact collapse_resolved hpath h
  · rw [if_neg h]
    refine collapse_resolved ?_ ?_
    · intro c hc
      rcases List.mem_append.mp hc with hmem | hmem
      · exact hcwd c hmem
      · exact hpath c hmem
    · obtain ⟨rest, rfl⟩ := exists_of_isAbsolute habs
      rfl

/-- **A way behind a path** is walked from where the path leads. -/
theorem resolve_append (cwd path : Path) {way : Path} (hway : way.isAbsolute = false) :
    resolve cwd (path ++ way) = (way.foldl walk (resolve cwd path).reverse).reverse := by
  have habs : isAbsolute (path ++ way) = path.isAbsolute := by
    by_cases hne : path = []
    · rw [hne]
      exact hway
    · exact isAbsolute_append hne way
  unfold resolve
  rw [habs]
  by_cases h : path.isAbsolute = true
  · -- the working directory is not looked at
    rw [if_pos h, if_pos h]
    unfold collapse
    rw [List.foldl_append, List.reverse_reverse]
  · rw [if_neg h, if_neg h, ← List.append_assoc]
    unfold collapse
    rw [List.foldl_append, List.reverse_reverse]

/-- Two resolved paths have the root in common, and the way from one leads to the other. -/
theorem relativeTo?_resolved {base path : Path} (hbase : Resolved base) (hpath : Resolved path) :
    ∃ way, relativeTo? base path = some way ∧ Onward way ∧
      (way.foldl walk base.reverse).reverse = path := by
  obtain ⟨names, rfl, hnames⟩ := hbase
  obtain ⟨others, rfl, hothers⟩ := hpath
  refine ⟨wayFrom names others, by rw [relativeTo?, if_pos rfl], onward_wayFrom names hothers, ?_⟩
  rw [List.reverse_cons, foldl_walk_wayFrom hnames hothers, List.reverse_append,
    List.reverse_reverse]
  rfl

end Path

end SolFront
