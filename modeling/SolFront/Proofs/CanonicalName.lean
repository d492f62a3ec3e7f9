import Mathlib.Data.List.Infix
import SolFront.Proofs.SearchPath

/-!
# Names that directories give

A directory has a name for what lies in it, the names on the way down, and for the directory it
lies in itself, which is `..`. For anything else it has none. Of several directories the first that
has a name counts, and the name leads back from that directory to where it was taken from. So a
directory never gives one name to two places.
-/

namespace SolFront

namespace Path

/-- The path lies in the directory, or the directory lies in it as its parent. -/
def Covers (directory path : Path) : Prop :=
  directory <+: path ∨ ∃ c, directory = path ++ [c]

instance (directory path : Path) : Decidable (Covers directory path) :=
  decidable_of_iff (directory <+: path ∨ directory ≠ [] ∧ directory.dropLast = path) <| by
    refine or_congr_right ⟨?_, ?_⟩
    · rintro ⟨hne, rfl⟩
      exact ⟨directory.getLast hne, (List.dropLast_concat_getLast hne).symm⟩
    · rintro ⟨c, rfl⟩
      exact ⟨by simp, List.dropLast_concat⟩

/-! ## Texts of names -/

theorem Plain.exists_names {path : Path} (h : Plain path) :
    ∃ names : List String, path = names.map .name := by
  induction path with
  | nil => exact ⟨[], rfl⟩
  | cons c path ih =>
      obtain ⟨hinner, hparent⟩ := h c List.mem_cons_self
      obtain ⟨name, rfl⟩ := hinner.exists_name hparent
      obtain ⟨names, rfl⟩ := ih h.tail
      exact ⟨name :: names, rfl⟩

theorem Plain.onward {path : Path} (h : Plain path) : Onward path :=
  fun c hc => (h c hc).1

theorem toList_intercalate_names (names : List String) :
    Text.joinWith '/' ((names.map Component.name).map Component.segment)
      = ("/".intercalate names).toList := by
  have hsegments : (names.map Component.name).map Component.segment
      = names.map String.toList := by
    rw [List.map_map]
    rfl
  rw [hsegments, Text.joinWith_eq, String.toList_intercalate]
  rfl

/-- Names are joined with separators. -/
theorem toString_names (names : List String) :
    Path.toString (names.map .name) = "/".intercalate names := by
  cases names with
  | nil => rfl
  | cons name names =>
      have htext : Path.toString ((name :: names).map .name)
          = String.ofList (Text.joinWith '/' (((name :: names).map Component.name).map
              Component.segment)) := rfl
      rw [htext, toList_intercalate_names, String.ofList_toList]

/-- The names behind the root are joined with separators, with one more before them. -/
theorem toString_root_names (names : List String) :
    Path.toString (.root :: names.map .name) = "/" ++ "/".intercalate names := by
  have htext : Path.toString (.root :: names.map .name)
      = String.ofList ('/' :: Text.joinWith '/' ((names.map Component.name).map
          Component.segment)) := rfl
  rw [htext, toList_intercalate_names]
  exact String.toList_inj.mp (by rw [String.toList_ofList, String.toList_append]; rfl)

/-- No segment of names is `.` or `..`. -/
theorem Plain.segment_ne {path : Path} (h : Plain path) {segment : List Char}
    (hmem : segment ∈ Text.splitOn '/' (Path.toString path).toList) :
    segment ≠ ['.'] ∧ segment ≠ ['.', '.'] := by
  by_cases hne : path = []
  · rw [hne] at hmem
    obtain rfl : segment = [] := List.mem_singleton.mp hmem
    exact ⟨by decide, by decide⟩
  · rw [splitOn_toString h.onward hne] at hmem
    obtain ⟨c, hc, rfl⟩ := List.mem_map.mp hmem
    obtain ⟨hinner, hparent⟩ := h c hc
    refine ⟨hinner.segment_ne_here, fun heq => hparent ?_⟩
    have hsome := hinner.ofSegment
    rw [heq] at hsome
    exact (Option.some.inj hsome).symm

theorem splitOn_toString_root {names : Path} (h : Plain names) :
    Text.splitOn '/' (Path.toString (.root :: names)).toList
      = [] :: Text.splitOn '/' (Path.toString names).toList := by
  have htext : (Path.toString (.root :: names)).toList
      = '/' :: Text.joinWith '/' (names.map Component.segment) := String.toList_ofList
  rw [htext, toList_toString h.onward, Text.splitOn, if_pos rfl]

/-! ## Resolved paths -/

theorem Resolved.collapse_eq {path : Path} (h : Resolved path) : path.collapse = path := by
  obtain ⟨names, rfl, hplain⟩ := h
  show (names.foldl walk [.root]).reverse = _
  rw [foldl_walk_plain hplain, List.reverse_append, List.reverse_reverse]
  rfl

/-- A resolved path comes back from its text. -/
theorem Resolved.ofString_toString {path : Path} (h : Resolved path) :
    ofString (Path.toString path) = path := by
  obtain ⟨names, rfl, hplain⟩ := h
  have hne := Text.splitOn_ne_nil '/' (Path.toString names).toList
  have hnames := segments_toString hplain.onward
  unfold ofString ofSegments
  rw [splitOn_toString_root hplain, List.filterMap_cons_none rfl, hnames]
  match Text.splitOn '/' (Path.toString names).toList, hne with
  | _ :: _, _ => rfl

theorem Resolved.isAbsolute {path : Path} (h : Resolved path) : path.isAbsolute = true := by
  obtain ⟨names, rfl, -⟩ := h
  rfl

theorem Resolved.written {path : Path} (h : Resolved path) : Written path := by
  obtain ⟨names, rfl, hplain⟩ := h
  exact List.forall_mem_cons.mpr ⟨.inl rfl, fun c hc => .inr (.inr (hplain c hc).1)⟩

theorem Resolved.resolve_eq {path : Path} (h : Resolved path) (cwd : Path) :
    resolve cwd path = path := by
  unfold resolve
  rw [if_pos h.isAbsolute, h.collapse_eq]

theorem Resolved.dropLast {path : Path} (h : Resolved path) (hroot : path ≠ [.root]) :
    Resolved path.dropLast := by
  obtain ⟨names, rfl, hplain⟩ := h
  match names, hplain, hroot with
  | [], _, hroot => exact absurd rfl hroot
  | c :: names, hplain, _ =>
      exact ⟨(c :: names).dropLast, rfl, fun d hd => hplain d (List.mem_of_mem_dropLast hd)⟩

/-- What is behind a resolved path in another is made of names. -/
theorem Resolved.plain_of_append {floor names : Path} (hfloor : Resolved floor)
    (h : Resolved (floor ++ names)) : Plain names := by
  obtain ⟨base, rfl, -⟩ := hfloor
  obtain ⟨others, heq, hplain⟩ := h
  obtain rfl : base ++ names = others := (List.cons.inj heq).2
  exact fun c hc => hplain c (List.mem_append_right base hc)

/-- What is seen from a resolved directory is walked from there. -/
theorem resolve_eq_walk {directory way : Path} (h : Resolved directory)
    (hway : way.isAbsolute = false) :
    resolve directory way = (way.foldl walk directory.reverse).reverse := by
  have hdirectory : directory.foldl walk [] = directory.reverse := by
    rw [← List.reverse_reverse (directory.foldl walk [])]
    exact congrArg List.reverse h.collapse_eq
  unfold resolve
  rw [if_neg (by rw [hway]; exact Bool.false_ne_true)]
  unfold collapse
  rw [List.foldl_append, hdirectory]

theorem wayFrom_append (base way : Path) : wayFrom base (base ++ way) = way := by
  induction base with
  | nil => cases way <;> rfl
  | cons b base ih => rw [List.cons_append, wayFrom, if_pos rfl, ih]

theorem wayFrom_above (path : Path) (c : Component) : wayFrom (path ++ [c]) path = [.parent] := by
  induction path with
  | nil => rfl
  | cons p path ih => rw [List.cons_append, wayFrom, if_pos rfl, ih]

end Path

namespace SearchPath

open SolFront.Path (Covers Onward Plain Resolved ofString resolve written_ofString resolve_resolved)

/-! ## The name that one directory gives -/

/-- **A directory names what lies in it by the way down, and its own directory by `..`.** -/
theorem nameIn?_eq_some_iff {directory source way : Path} (hdirectory : Resolved directory)
    (hsource : Resolved source) :
    nameIn? directory source = some way ↔
      source = directory ++ way ∨ (∃ c, directory = source ++ [c]) ∧ way = [.parent] := by
  obtain ⟨base, rfl, -⟩ := hdirectory
  obtain ⟨target, rfl, htarget⟩ := hsource
  have hrelative : nameIn? (.root :: base) (.root :: target)
      = (some (Path.wayFrom base target)).filter fun way => !way.isEscaping := rfl
  rw [hrelative, Option.filter_eq_some_iff]
  constructor
  · rintro ⟨hway, hescaping⟩
    obtain ⟨common, left, right, rfl, rfl, hspec, -⟩ := Path.wayFrom_spec base target
    obtain rfl : Path.wayFrom (common ++ left) (common ++ right) = way := Option.some.inj hway
    rw [hspec] at hescaping ⊢
    -- how far the directory goes beyond what is in common decides
    match left, right with
    | [], right => exact .inl (by simp)
    | [c], [] => exact .inr ⟨⟨c, by simp⟩, rfl⟩
    | [_], _ :: _ => cases hescaping
    | _ :: _ :: _, _ => cases hescaping
  · rintro (hbelow | ⟨⟨c, habove⟩, rfl⟩)
    · obtain rfl : target = base ++ way := (List.cons.inj hbelow).2
      refine ⟨by rw [Path.wayFrom_append], ?_⟩
      -- the way down is made of names, so it does not start with `..`
      have hplain : Plain way := fun c hc => htarget c (List.mem_append_right base hc)
      match way, hplain with
      | [], _ => rfl
      | c :: way, hplain =>
          obtain ⟨hinner, hparent⟩ := hplain c List.mem_cons_self
          obtain ⟨name, rfl⟩ := hinner.exists_name hparent
          rfl
    · obtain rfl : base = target ++ [c] := (List.cons.inj habove).2
      exact ⟨by rw [Path.wayFrom_above], rfl⟩

theorem nameIn?_eq_none_iff {directory source : Path} (hdirectory : Resolved directory)
    (hsource : Resolved source) :
    nameIn? directory source = none ↔ ¬ Covers directory source := by
  rw [Option.eq_none_iff_forall_ne_some, ← not_exists]
  refine not_congr ⟨?_, ?_⟩
  · rintro ⟨way, hway⟩
    rcases (nameIn?_eq_some_iff hdirectory hsource).mp hway with rfl | ⟨habove, -⟩
    · exact .inl (List.prefix_append directory way)
    · exact .inr habove
  · rintro (⟨way, rfl⟩ | habove)
    · exact ⟨way, (nameIn?_eq_some_iff hdirectory hsource).mpr (.inl rfl)⟩
    · exact ⟨_, (nameIn?_eq_some_iff hdirectory hsource).mpr (.inr ⟨habove, rfl⟩)⟩

/-- The name that a directory gives leads from it to what it was given to. -/
theorem resolve_of_nameIn? {directory source way : Path} (hdirectory : Resolved directory)
    (hsource : Resolved source) (h : nameIn? directory source = some way) :
    Onward way ∧ resolve directory (ofString (Path.toString way)) = source := by
  obtain ⟨way', hway', honward, hwalk⟩ := Path.relativeTo?_resolved hdirectory hsource
  obtain ⟨hrelative, -⟩ := Option.filter_eq_some_iff.mp h
  obtain rfl : way' = way := Option.some.inj (hway'.symm.trans hrelative)
  refine ⟨honward, ?_⟩
  rw [Path.ofString_toString honward, Path.resolve_eq_walk hdirectory honward.isAbsolute, hwalk]

/-! ## The first directory that gives a name -/

section

variable {s : SearchPath} {file : OsPath} {source : Path}

theorem nameOf_of_first (hsource : file.seenFrom s.workingDirectory = source.bytewise)
    {before after : List Path} {directory way : Path}
    (hdirectories : s.directories = before ++ directory :: after)
    (hbefore : ∀ d ∈ before, nameIn? d source = none)
    (hway : nameIn? directory source = some way) : s.nameOf file = Path.toString way := by
  have hfirst : s.directories.findSome? (nameIn? · source) = some way :=
    List.findSome?_eq_some_iff.mpr ⟨before, directory, after, hdirectories, hway, hbefore⟩
  rw [nameOf_eq hsource, hfirst]
  rfl

theorem nameOf_of_none (hsource : file.seenFrom s.workingDirectory = source.bytewise)
    (h : ∀ d ∈ s.directories, nameIn? d source = none) : s.nameOf file = Path.toString source := by
  rw [nameOf_eq hsource, List.findSome?_eq_none_iff.mpr h]
  rfl

end

theorem directories_resolved {s : SearchPath} {cwd : String}
    (hcwd : s.workingDirectory = ofString cwd) (habs : (ofString cwd).isAbsolute = true)
    {directory : Path} (hmem : directory ∈ s.directories) : Resolved directory := by
  rw [directories_eq, hcwd] at hmem
  obtain ⟨p, -, rfl⟩ := List.mem_map.mp hmem
  exact resolve_resolved (written_ofString cwd) habs (written_ofString p)

/-- The base path, or the working directory in its place, and the include paths. -/
theorem directories_of_new {base : Option String} {includes : List String} {cwd : String}
    {s : SearchPath} (hnew : new base includes (ofString cwd) = .ok s)
    (habs : (ofString cwd).isAbsolute = true) :
    s.directories = ((if givesBase base then base.getD "" else cwd) :: includes).map
      fun p => resolve (ofString cwd) (ofString p) := by
  obtain ⟨hbase, hincludes, -⟩ := fields_of_new hnew
  have hempty : resolve (ofString cwd) (ofString "") = resolve (ofString cwd) (ofString cwd) := by
    have hnothing : ofString "" = [] := rfl
    unfold resolve
    rw [if_pos habs, hnothing, List.append_nil]
    rfl
  rw [directories_eq, workingDirectory_of_new hnew]
  unfold prefixes
  rw [hbase, hincludes, List.map_cons, List.map_cons]
  by_cases hgives : givesBase base = true
  · rw [if_pos hgives]
  · rw [if_neg hgives, getD_of_not_givesBase (Bool.eq_false_iff.mpr hgives), hempty]

/-- The name that a directory has for a path. -/
inductive NameFrom (directory : Path) : Path → String → Prop where
  | inside (names : List String) :
      NameFrom directory (directory ++ names.map .name) ("/".intercalate names)
  | above {path : Path} {c : Component} (h : directory = path ++ [c]) :
      NameFrom directory path ".."

theorem nameFrom_of_nameIn? {directory source way : Path} (hdirectory : Resolved directory)
    (hsource : Resolved source) (h : nameIn? directory source = some way) :
    NameFrom directory source (Path.toString way) := by
  rcases (nameIn?_eq_some_iff hdirectory hsource).mp h with rfl | ⟨⟨c, habove⟩, rfl⟩
  · obtain ⟨base, rfl, -⟩ := hdirectory
    obtain ⟨names, hnames, hplain⟩ := hsource
    obtain rfl : base ++ way = names := (List.cons.inj hnames).2
    have hway : Plain way := fun c hc => hplain c (List.mem_append_right base hc)
    obtain ⟨names, rfl⟩ := hway.exists_names
    rw [Path.toString_names]
    exact .inside names
  · exact .above habove

/-! ## What a file is called -/

section

variable {base : Option String} {includes : List String} {cwd : String} {s : SearchPath}

/-- A file that a directory covers has the name from that directory, if none before it covers the
file. -/
theorem exists_nameIn?_of_first (hnew : new base includes (ofString cwd) = .ok s)
    (habs : (ofString cwd).isAbsolute = true) {file : OsPath} {source : Path}
    (hsource : file.seenFrom (ofString cwd) = source.bytewise) {before after : List Path}
    {directory : Path} (hdirectories : s.directories = before ++ directory :: after)
    (hbefore : ∀ d ∈ before, ¬ Covers d source) (hcovers : Covers directory source) :
    ∃ way, nameIn? directory source = some way ∧ s.nameOf file = Path.toString way := by
  have hcwd := workingDirectory_of_new hnew
  have hplace := resolved_of_seenFrom habs hsource
  have hresolved : ∀ d ∈ before ++ directory :: after, Resolved d := fun d hd =>
    directories_resolved hcwd habs (hdirectories ▸ hd)
  have hdirectory := hresolved directory (List.mem_append_right before List.mem_cons_self)
  have hnone : ∀ d ∈ before, nameIn? d source = none := fun d hd =>
    (nameIn?_eq_none_iff (hresolved d (List.mem_append_left _ hd)) hplace).mpr (hbefore d hd)
  obtain ⟨way, hway⟩ := Option.ne_none_iff_exists'.mp
    (mt (nameIn?_eq_none_iff hdirectory hplace).mp (not_not_intro hcovers))
  exact ⟨way, hway, nameOf_of_first (hcwd.symm ▸ hsource) hdirectories hnone hway⟩

/-- A file that no directory covers is called by its absolute path. -/
theorem nameOf_of_uncovered (hnew : new base includes (ofString cwd) = .ok s)
    (habs : (ofString cwd).isAbsolute = true) {file : OsPath} {source : Path}
    (hsource : file.seenFrom (ofString cwd) = source.bytewise)
    (huncovered : ∀ d ∈ s.directories, ¬ Covers d source) :
    s.nameOf file = Path.toString source := by
  have hcwd := workingDirectory_of_new hnew
  refine nameOf_of_none (hcwd.symm ▸ hsource) fun d hd => ?_
  exact (nameIn?_eq_none_iff (directories_resolved hcwd habs hd)
    (resolved_of_seenFrom habs hsource)).mpr (huncovered d hd)

/-- No name but `..` has a segment `.` or `..`. -/
theorem segment_ne_of_nameIn? {directory source way : Path} (hdirectory : Resolved directory)
    (hsource : Resolved source) (h : nameIn? directory source = some way) :
    Path.toString way = ".." ∨
      ∀ segment ∈ Text.splitOn '/' (Path.toString way).toList,
        segment ≠ ['.'] ∧ segment ≠ ['.', '.'] := by
  rcases (nameIn?_eq_some_iff hdirectory hsource).mp h with rfl | ⟨-, rfl⟩
  · obtain ⟨base, rfl, -⟩ := hdirectory
    obtain ⟨names, hnames, hplain⟩ := hsource
    obtain rfl : base ++ way = names := (List.cons.inj hnames).2
    have hway : Plain way := fun c hc => hplain c (List.mem_append_right base hc)
    exact .inr fun segment hsegment => hway.segment_ne hsegment
  · exact .inl rfl

theorem segment_ne_of_resolved {source : Path} (hsource : Resolved source) :
    ∀ segment ∈ Text.splitOn '/' (Path.toString source).toList,
      segment ≠ ['.'] ∧ segment ≠ ['.', '.'] := by
  obtain ⟨names, rfl, hplain⟩ := hsource
  rw [Path.splitOn_toString_root hplain]
  intro segment hmem
  rcases List.mem_cons.mp hmem with rfl | hmem
  · exact ⟨by decide, by decide⟩
  · exact hplain.segment_ne hmem

/-- Either no directory covers the path, or there is a first one that does. -/
theorem uncovered_or_first (directories : List Path) (source : Path) :
    (∀ d ∈ directories, ¬ Covers d source) ∨
      ∃ before directory after, directories = before ++ directory :: after
        ∧ (∀ d ∈ before, ¬ Covers d source) ∧ Covers directory source := by
  induction directories with
  | nil => exact .inl fun d hd => absurd hd List.not_mem_nil
  | cons directory directories ih =>
      by_cases hcovers : Covers directory source
      · exact .inr ⟨[], directory, directories, rfl, fun d hd => absurd hd List.not_mem_nil,
          hcovers⟩
      · rcases ih with hnone | ⟨before, first, after, rfl, hbefore, hfirst⟩
        · exact .inl (List.forall_mem_cons.mpr ⟨hcovers, hnone⟩)
        · exact .inr ⟨directory :: before, first, after, rfl,
            List.forall_mem_cons.mpr ⟨hcovers, hbefore⟩, hfirst⟩

/-- **A file is called by its place in the first directory that covers it**, and by its absolute
path if there is none, where that path is text. From that directory the name leads back to the file,
so files that get their names there and have the same name are the same. -/
theorem nameOf_first_cover (hnew : new base includes (ofString cwd) = .ok s)
    (habs : (ofString cwd).isAbsolute = true) {file : OsPath} {source : Path}
    (hsource : file.seenFrom (ofString cwd) = source.bytewise) :
    s.directories = ((if givesBase base then base.getD "" else cwd) :: includes).map
        (fun p => resolve (ofString cwd) (ofString p))
      ∧ (∀ before directory after, s.directories = before ++ directory :: after →
          (∀ d ∈ before, ¬ Covers d source) → Covers directory source →
          NameFrom directory source (s.nameOf file)
            ∧ resolve directory (ofString (s.nameOf file)) = source
            ∧ ∀ (other : OsPath) (source' : Path),
              other.seenFrom (ofString cwd) = source'.bytewise →
              (∀ d ∈ before, ¬ Covers d source') → Covers directory source' →
              s.nameOf other = s.nameOf file → source' = source)
      ∧ ((∀ d ∈ s.directories, ¬ Covers d source) →
          ∃ names : List String, source = .root :: names.map .name
            ∧ s.nameOf file = "/" ++ "/".intercalate names)
      ∧ (s.nameOf file = ".." ∨
          ∀ segment ∈ Text.splitOn '/' (s.nameOf file).toList,
            segment ≠ ['.'] ∧ segment ≠ ['.', '.']) := by
  have hcwd := workingDirectory_of_new hnew
  have hresolved := resolved_of_seenFrom habs hsource
  have hdirectory : ∀ {before directory after}, s.directories = before ++ directory :: after →
      Resolved directory := fun h =>
    directories_resolved hcwd habs (h ▸ List.mem_append_right _ List.mem_cons_self)
  refine ⟨directories_of_new hnew habs, ?_, ?_, ?_⟩
  · intro before directory after h hbefore hcovers
    obtain ⟨way, hway, hname⟩ := exists_nameIn?_of_first hnew habs hsource h hbefore hcovers
    have hback := (resolve_of_nameIn? (hdirectory h) hresolved hway).2
    rw [hname]
    refine ⟨nameFrom_of_nameIn? (hdirectory h) hresolved hway, hback, ?_⟩
    -- both files are where the one name leads from the directory
    intro other source' hsource' hbefore' hcovers' hsame
    obtain ⟨way', hway', hname'⟩ := exists_nameIn?_of_first hnew habs hsource' h hbefore' hcovers'
    have hresolved' := resolved_of_seenFrom habs hsource'
    have hback' := (resolve_of_nameIn? (hdirectory h) hresolved' hway').2
    rw [← hback', ← hname', hsame, hback]
  · intro huncovered
    rw [nameOf_of_uncovered hnew habs hsource huncovered]
    obtain ⟨path, rfl, hplain⟩ := hresolved
    obtain ⟨names, rfl⟩ := hplain.exists_names
    exact ⟨names, rfl, Path.toString_root_names names⟩
  · rcases uncovered_or_first s.directories source with
      huncovered | ⟨before, directory, after, h, hbefore, hcovers⟩
    · rw [nameOf_of_uncovered hnew habs hsource huncovered]
      exact .inr (segment_ne_of_resolved hresolved)
    · obtain ⟨way, hway, hname⟩ := exists_nameIn?_of_first hnew habs hsource h hbefore hcovers
      rw [hname]
      exact segment_ne_of_nameIn? (hdirectory h) hresolved hway

/-- Three directories seen from `/w`, the last of them in the second. -/
def nested : SearchPath where
  basePath := some "lib"
  includePaths := ["./src//", "src/x/../lib"]
  workingDirectory := ofString "/w"
  base_of_include := by decide
  include_ne_empty := by decide

theorem new_nested :
    new (some "lib") ["./src//", "src/x/../lib"] (ofString "/w") = .ok nested :=
  new_fields nested

/-- Two of the directories cover the file `src/lib/ä.sol`, and it has its name from the first of the
two. -/
theorem nameOf_first_cover_nested :
    new (some "lib") ["./src//", "src/x/../lib"] (ofString "/w") = .ok nested
      ∧ (ofString "/w").isAbsolute = true
      ∧ nested.directories = ["/w/lib", "/w/src", "/w/src/lib"].map ofString
      ∧ OsPath.seenFrom (.ofString "../w/src/lib/ä.sol") (ofString "/w")
        = (ofString "/w/src/lib/ä.sol").bytewise
      ∧ nested.nameOf (.ofString "../w/src/lib/ä.sol") = "lib/ä.sol"
      ∧ NameFrom (ofString "/w/src") (ofString "/w/src/lib/ä.sol")
          (nested.nameOf (.ofString "../w/src/lib/ä.sol"))
      ∧ resolve (ofString "/w/src") (ofString (nested.nameOf (.ofString "../w/src/lib/ä.sol")))
          = ofString "/w/src/lib/ä.sol" := by
  have habs : (ofString "/w").isAbsolute = true := by decide +kernel
  have hsource : OsPath.seenFrom (.ofString "../w/src/lib/ä.sol") (ofString "/w")
      = (ofString "/w/src/lib/ä.sol").bytewise := by decide +kernel
  obtain ⟨-, hfirst, -, -⟩ := nameOf_first_cover new_nested habs hsource
  obtain ⟨hname, hback, -⟩ := hfirst [ofString "/w/lib"] (ofString "/w/src")
    [ofString "/w/src/lib"] (by decide +kernel) (by decide +kernel) (by decide +kernel)
  exact ⟨new_nested, habs, by decide +kernel, hsource, by decide +kernel, hname, hback⟩

/-- Names that are not text are replaced by one text. So it does not lead back to the file, and
two files have it. -/
theorem nameOf_replaced :
    new (some "lib") ["./src//", "src/x/../lib"] (ofString "/w") = .ok nested
      ∧ nested.directories = ["/w/lib", "/w/src", "/w/src/lib"].map ofString
      ∧ Covers (ofString "/w/lib").bytewise
          (OsPath.seenFrom ⟨Text.encode "lib/" ++ [0xff]⟩ (ofString "/w"))
      ∧ Covers (ofString "/w/lib").bytewise
          (OsPath.seenFrom ⟨Text.encode "lib/" ++ [0xfe]⟩ (ofString "/w"))
      ∧ OsPath.seenFrom (.ofString (nested.nameOf ⟨Text.encode "lib/" ++ [0xff]⟩))
          (ofString "/w/lib")
        ≠ OsPath.seenFrom ⟨Text.encode "lib/" ++ [0xff]⟩ (ofString "/w")
      ∧ nested.nameOf ⟨Text.encode "lib/" ++ [0xff]⟩
        = nested.nameOf ⟨Text.encode "lib/" ++ [0xfe]⟩
      ∧ OsPath.seenFrom ⟨Text.encode "lib/" ++ [0xff]⟩ (ofString "/w")
        ≠ OsPath.seenFrom ⟨Text.encode "lib/" ++ [0xfe]⟩ (ofString "/w") :=
  ⟨new_nested, by decide +kernel, by decide +kernel, by decide +kernel, by decide +kernel,
    by decide +kernel, by decide +kernel⟩

end

end SearchPath

end SolFront
