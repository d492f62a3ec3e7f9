import SolFront.Proofs.CanonicalName

/-!
# Resolving in stages

The text of a path can be put behind that of another one. What it leads to is then seen from where
the first path leads, wherever the two are cut apart: a text behind a separator adds the components
of its segments, and walking over them starts on the pile that the first path has left.

So a resolved path is a normal form. It has names only, resolving it again changes nothing, and all
later steps start from it: a name goes one directory down, and `..` goes one up unless it stands at
the root.
-/

namespace SolFront.Path

/-! ## Joining texts -/

/-- The text of a path behind that of another one. A path that starts at the root stands for
itself. -/
def joinTexts (text more : String) : String :=
  if (ofString more).isAbsolute then more
  else if text = "" ∨ text.toList.getLast? = some '/' then text ++ more
  else text ++ "/" ++ more

/-- The components that a text adds behind a separator. -/
def added (text : String) : Path :=
  (Text.splitOn '/' text.toList).filterMap Component.ofSegment?

theorem added_append (text more : String) :
    added (text ++ "/" ++ more) = added text ++ added more := by
  unfold added
  rw [String.toList_append, String.toList_append, List.append_assoc, ← List.filterMap_append]
  exact congrArg _ (Text.splitOn_append_cons '/' text.toList more.toList)

theorem onward_added (text : String) : Onward (added text) :=
  onward_segments text.toList

/-- A separator at the end leaves no trace, unless it is the root. -/
theorem ofString_slash {text : String} (hne : text ≠ "") :
    ofString (text ++ "/") = ofString text := by
  have hnothing : added "" = [] := rfl
  have h : ofString (text ++ "/" ++ "") = ofString text ++ added "" := ofString_append hne ""
  rwa [String.append_empty, hnothing, List.append_nil] at h

/-- **A text behind a separator** adds its components to what is before them, be it the root. -/
theorem ofString_behind (text more : String) :
    ofString (text ++ "/" ++ more) = ofString (text ++ "/") ++ added more := by
  by_cases hne : text = ""
  · -- the separator is the root, for at least one segment follows
    have hroot : ofString ("" ++ "/") = [.root] := by decide +kernel
    have hseparator : ("" ++ "/").toList = ['/'] := rfl
    obtain ⟨segment, segments, hsegments⟩ :=
      List.exists_cons_of_ne_nil (Text.splitOn_ne_nil '/' more.toList)
    rw [hne, hroot]
    unfold ofString ofSegments added
    rw [String.toList_append, hseparator, List.singleton_append, Text.splitOn, if_pos rfl,
      hsegments]
    rfl
  · rw [ofString_append hne, ofString_slash hne]
    rfl

/-- What is added by a text that goes up first. -/
theorem added_up (text : String) : added ("../" ++ text) = .parent :: added text :=
  added_append ".." text

/-- A text that does not start at the root may start with a `.`, and then it adds its components. -/
theorem ofString_of_relative {text : String} (h : (ofString text).isAbsolute = false) :
    ofString text = added text ∨ ofString text = .here :: added text := by
  have hstart : ofString text = start (Text.splitOn '/' text.toList) ++ added text := rfl
  rw [hstart] at h ⊢
  unfold start at h ⊢
  split at h
  · cases h
  · exact .inr rfl
  · exact .inl rfl

/-! ## Stages -/

/-- **A path that does not start at the root** is walked from the directory it is seen from. -/
theorem resolve_of_relative (cwd : Path) {text : String} (h : (ofString text).isAbsolute = false) :
    resolve cwd (ofString text) = ((added text).foldl walk (resolve cwd []).reverse).reverse := by
  have hwalk := resolve_append cwd [] h
  rw [List.nil_append] at hwalk
  rw [hwalk]
  rcases ofString_of_relative h with htext | htext
  · rw [htext]
  · -- the `.` is kept in the path, but the walk does not see it
    rw [htext, List.foldl_cons]
    rfl

/-- **What is joined is walked from where the first path leads.** -/
theorem resolve_joinTexts (cwd : Path) (text : String) {more : String}
    (h : (ofString more).isAbsolute = false) :
    resolve cwd (ofString (joinTexts text more))
      = ((added more).foldl walk (resolve cwd (ofString text)).reverse).reverse := by
  have honward := (onward_added more).isAbsolute
  unfold joinTexts
  rw [if_neg (by rw [h]; exact Bool.false_ne_true)]
  by_cases hne : text = ""
  · rw [if_pos (.inl hne), hne, String.empty_append, resolve_of_relative cwd h]
    rfl
  · by_cases hlast : text.toList.getLast? = some '/'
    · -- the separator is there already
      obtain ⟨front, hfront⟩ := List.getLast?_eq_some_iff.mp hlast
      obtain rfl : text = String.ofList front ++ "/" := by
        refine String.toList_inj.mp ?_
        rw [hfront, String.toList_append, String.toList_ofList]
        rfl
      rw [if_pos (.inr hlast), ofString_behind, resolve_append cwd _ honward]
    · rw [if_neg (not_or.mpr ⟨hne, hlast⟩), ofString_append hne, ← resolve_append cwd _ honward]
      rfl

/-- **Resolving collapses the joined text.** -/
theorem resolve_ofString (cwd path : String) :
    resolve (ofString cwd) (ofString path) = collapse (ofString (joinTexts cwd path)) := by
  have hcollapse : ∀ p : Path, resolve [] p = collapse p := by
    intro p
    unfold resolve
    rw [List.nil_append, ite_self]
  cases h : (ofString path).isAbsolute with
  | true =>
      unfold joinTexts resolve
      rw [if_pos h, if_pos h]
  | false =>
      have hcwd : resolve (ofString cwd) [] = resolve [] (ofString cwd) := by
        rw [hcollapse]
        exact congrArg collapse (List.append_nil _)
      rw [← hcollapse, resolve_joinTexts [] cwd h, resolve_of_relative _ h, hcwd]

/-! ## Normal form -/

/-- A name that a component can have. -/
structure OrdinaryName (name : String) : Prop where
  ne_empty : name ≠ ""
  ne_here : name ≠ "."
  ne_parent : name ≠ ".."
  free : '/' ∉ name.toList

theorem OrdinaryName.ofSegment? {name : String} (h : OrdinaryName name) :
    Component.ofSegment? name.toList = some (.name name) := by
  have hempty : name.toList ≠ [] := mt String.toList_eq_nil_iff.mp h.ne_empty
  have hhere : name.toList ≠ ['.'] := fun heq => h.ne_here (String.toList_inj.mp heq)
  have hparent : name.toList ≠ ['.', '.'] := fun heq => h.ne_parent (String.toList_inj.mp heq)
  unfold Component.ofSegment?
  rw [if_neg (by simp [hempty, hhere]), if_neg hparent, String.ofList_toList]

theorem OrdinaryName.added {name : String} (h : OrdinaryName name) : added name = [.name name] := by
  unfold Path.added
  rw [Text.splitOn_of_not_mem h.free, List.filterMap_cons_some h.ofSegment?, List.filterMap_nil]

theorem OrdinaryName.ofString {name : String} (h : OrdinaryName name) :
    ofString name = [.name name] := by
  have hempty : name.toList ≠ [] := mt String.toList_eq_nil_iff.mp h.ne_empty
  have hhere : name.toList ≠ ['.'] := fun heq => h.ne_here (String.toList_inj.mp heq)
  have hadded := h.added
  unfold Path.added at hadded
  unfold Path.ofString ofSegments
  rw [hadded, Text.splitOn_of_not_mem h.free, start_cons hempty, if_neg hhere, List.nil_append]

theorem ordinaryName_of_inner {name : String} (h : (Component.name name).Inner) :
    OrdinaryName name := by
  have hsegment := h.ofSegment
  refine ⟨?_, ?_, ?_, h.free⟩
  · rintro rfl
    exact h.segment_ne_nil rfl
  · rintro rfl
    exact h.segment_ne_here rfl
  · rintro rfl
    cases hsegment

theorem Resolved.exists_ordinary {path : Path} (h : Resolved path) :
    ∃ names : List String, path = .root :: names.map .name ∧ ∀ name ∈ names, OrdinaryName name := by
  obtain ⟨rest, rfl, hplain⟩ := h
  obtain ⟨names, rfl⟩ := hplain.exists_names
  exact ⟨names, rfl, fun name hname =>
    ordinaryName_of_inner (hplain (.name name) (List.mem_map_of_mem hname)).1⟩

/-- `..` takes off the last name, and at the root it does nothing. -/
theorem walk_parent_names (names : List String) :
    (walk (Component.root :: names.map .name).reverse .parent).reverse
      = .root :: names.dropLast.map .name := by
  rcases List.eq_nil_or_concat' names with rfl | ⟨front, last, rfl⟩
  · rfl
  · rw [List.map_append, List.reverse_cons, List.reverse_append, List.dropLast_concat]
    show ((front.map Component.name).reverse ++ [Component.root]).reverse = _
    rw [List.reverse_append, List.reverse_reverse]
    rfl

/-- What a path is resolved to, and how it goes on from there. -/
structure Normalised (cwd path : String) (names : List String) : Prop where
  /-- The path is joined to the directory it is seen from and collapsed. -/
  joined : resolve (ofString cwd) (ofString path) = collapse (ofString (joinTexts cwd path))
  /-- It starts at the root then and has names behind it, -/
  resolved : resolve (ofString cwd) (ofString path) = .root :: names.map .name
  /-- none of which is empty, `.` or `..`. -/
  ordinary : ∀ name ∈ names, OrdinaryName name
  text : Path.toString (resolve (ofString cwd) (ofString path)) = "/" ++ "/".intercalate names
  /-- Its text is read as the path again. -/
  reread : ofString (Path.toString (resolve (ofString cwd) (ofString path)))
    = resolve (ofString cwd) (ofString path)
  /-- From wherever it is seen, it stays what it is. -/
  again : ∀ other : Path, resolve other (resolve (ofString cwd) (ofString path))
    = resolve (ofString cwd) (ofString path)
  /-- What is joined to the path is seen from where the path leads. -/
  staged : ∀ more, (ofString more).isAbsolute = false →
    resolve (ofString cwd) (ofString (joinTexts path more))
      = resolve (resolve (ofString cwd) (ofString path)) (ofString more)
  /-- A name goes down, -/
  down : ∀ name, OrdinaryName name →
    resolve (ofString cwd) (ofString (joinTexts path name)) = .root :: (names ++ [name]).map .name
  /-- and `..` goes up, -/
  up : resolve (ofString cwd) (ofString (joinTexts path "..")) = .root :: names.dropLast.map .name
  /-- but wherever it stands at the root it can be left out. -/
  top : names = [] → ∀ more, (ofString more).isAbsolute = false →
    resolve (ofString cwd) (ofString (joinTexts path ("../" ++ more)))
      = resolve (ofString cwd) (ofString (joinTexts path more))

/-- **Resolving is a normal form that later steps start from.** -/
theorem exists_normalised {cwd : String} (habs : (ofString cwd).isAbsolute = true) (path : String) :
    ∃ names, Normalised cwd path names := by
  have hresolved : Resolved (resolve (ofString cwd) (ofString path)) :=
    resolve_resolved (written_ofString cwd) habs (written_ofString path)
  obtain ⟨names, hnames, hordinary⟩ := hresolved.exists_ordinary
  refine ⟨names, resolve_ofString cwd path, hnames, hordinary, ?_, hresolved.ofString_toString,
    hresolved.resolve_eq, ?_, ?_, ?_, ?_⟩
  · rw [hnames, toString_root_names]
  · intro more hmore
    have hhere : resolve (resolve (ofString cwd) (ofString path)) []
        = resolve (ofString cwd) (ofString path) :=
      (resolve_eq_walk hresolved rfl).trans (List.reverse_reverse _)
    rw [resolve_joinTexts _ path hmore, resolve_of_relative _ hmore, hhere]
  · intro name hname
    rw [resolve_joinTexts _ path (by rw [hname.ofString]; rfl), hname.added, hnames]
    show (Component.name name :: (Component.root :: names.map .name).reverse).reverse = _
    rw [List.reverse_cons, List.reverse_reverse, List.map_append]
    rfl
  · have hparent : (ofString "..").isAbsolute = false := by decide +kernel
    have hadded : added ".." = [.parent] := by decide +kernel
    rw [resolve_joinTexts _ path hparent, hadded, hnames]
    exact walk_parent_names names
  · rintro rfl more hmore
    have hup : ofString ("../" ++ more) = .parent :: added more :=
      ofString_append (show ".." ≠ "" by decide) more
    have hrelative : (ofString ("../" ++ more)).isAbsolute = false := by
      rw [hup]
      rfl
    -- both walks come to the root before the rest of the path
    rw [resolve_joinTexts _ path hrelative, resolve_joinTexts _ path hmore, added_up, hnames]
    rfl

/-- A path that climbs beyond the root, seen from a directory that is not resolved itself. -/
theorem exists_normalised_climbing :
    (ofString "/w/../d").isAbsolute = true
      ∧ resolve (ofString "/w/../d") (ofString "./../.././x/..//a/") = [.root, .name "a"]
      ∧ Normalised "/w/../d" "./../.././x/..//a/" ["a"] := by
  have habs : (ofString "/w/../d").isAbsolute = true := by decide +kernel
  have hnames : resolve (ofString "/w/../d") (ofString "./../.././x/..//a/")
      = [.root, .name "a"] := by decide +kernel
  obtain ⟨names, hnormalised⟩ := exists_normalised habs "./../.././x/..//a/"
  have hsame : ["a"].map Component.name = names.map .name :=
    (List.cons.inj (hnames.symm.trans hnormalised.resolved)).2
  obtain rfl : ["a"] = names :=
    List.map_injective_iff.mpr (fun _ _ heq => Component.name.inj heq) hsame
  exact ⟨habs, hnames, hnormalised⟩

end SolFront.Path
