import SolFront.Proofs.FileTree

/-!
# Directories of a file tree

Creating a directory adds directories to a tree and does nothing else, even where it fails halfway.
If it succeeds, the path leads to a directory. A path with one more name behind it leads into that
directory: as long as the name is no link, what is written there becomes an entry of the directory.
-/

namespace SolFront.FileTree

/-! ## Creating -/

/-- The later tree has what the earlier one has, and beyond that only directories. -/
def Grown (t t' : FileTree) : Prop :=
  ∀ location, t'.entry? location = t.entry? location
    ∨ t.entry? location = none ∧ t'.entry? location = some .directory

section

variable {t t' : FileTree} {here location : Location} {path : String}

theorem Grown.refl (t : FileTree) : Grown t t :=
  fun _ => .inl rfl

theorem Grown.trans {t'' : FileTree} (h : Grown t t') (h' : Grown t' t'') : Grown t t'' := by
  intro location
  rcases h location with hsame | ⟨hnone, hmade⟩
  · rw [← hsame]
    exact h' location
  · rcases h' location with hsame | ⟨hnone', -⟩
    · exact .inr ⟨hnone, hsame.trans hmade⟩
    · rw [hmade] at hnone'
      cases hnone'

/-- What is there stays there. -/
theorem Grown.entry? (h : Grown t t') {entry : Entry} (hentry : t.entry? location = some entry) :
    t'.entry? location = some entry := by
  rcases h location with hsame | ⟨hnone, -⟩
  · rw [hsame, hentry]
  · rw [hentry] at hnone
    cases hnone

theorem grown_put (hnone : t.entry? location = none) : Grown t (t.put location .directory) := by
  have hroot : location ≠ [] := by
    rintro rfl
    cases hnone
  intro other
  rw [entry?_put t hroot]
  by_cases hother : other = location
  · rw [if_pos hother, hother]
    exact .inr ⟨hnone, rfl⟩
  · rw [if_neg hother]
    exact .inl rfl

theorem locateNew_eq_ok {directory : Location} {name : String}
    (h : t.locateNew here path = .ok (directory, name)) :
    checkPath path = .ok ()
      ∧ Walks t .create maxLinks (startOf here path) ((namesOf path).filter (· ≠ ""))
          (.free directory name) := by
  unfold locateNew at h
  cases hpath : checkPath path with
  | error e =>
      rw [hpath] at h
      cases h
  | ok _ =>
      rw [hpath] at h
      dsimp only [bind, Except.bind] at h
      cases hwalk : t.walk .create maxLinks (startOf here path)
          ((namesOf path).filter (· ≠ "")) with
      | error e =>
          rw [hwalk] at h
          cases h
      | ok d =>
          rw [hwalk] at h
          cases d with
          | occupied location entry => cases h
          | free directory name =>
              cases h
              exact ⟨rfl, walk_iff.mp hwalk⟩

/-- A directory that is created is put where there was nothing. -/
theorem createOne_eq_ok (h : t.createOne here path = .ok t') :
    ∃ directory name, t' = t.put (directory ++ [name]) .directory
      ∧ checkPath path = .ok ()
      ∧ Walks t .create maxLinks (startOf here path) ((namesOf path).filter (· ≠ ""))
          (.free directory name) := by
  unfold createOne at h
  cases hnew : t.locateNew here path with
  | error e =>
      rw [hnew] at h
      cases h
  | ok place =>
      obtain ⟨directory, name⟩ := place
      rw [hnew] at h
      cases h
      exact ⟨directory, name, rfl, locateNew_eq_ok hnew⟩

theorem grown_createOne (h : t.createOne here path = .ok t') : Grown t t' := by
  obtain ⟨directory, name, rfl, -, hwalks⟩ := createOne_eq_ok h
  exact grown_put hwalks.holds

theorem grown_createEach (here : Location) :
    ∀ (paths : List String) (t : FileTree), Grown t (t.createEach here paths).1
  | [], t => Grown.refl t
  | path :: parents, t => by
      rw [createEach]
      split
      · rename_i hone
        exact grown_createOne hone
      · -- the parents come first
        have hparents := grown_createEach here parents t
        split
        · rename_i hrest
          rw [hrest] at hparents
          exact hparents
        · rename_i hrest
          rw [hrest] at hparents
          split
          · rename_i hone
            exact hparents.trans (grown_createOne hone)
          · exact hparents
      · exact Grown.refl t

/-- **Creating a directory adds directories only**, whether it succeeds or not. -/
theorem grown_create (t : FileTree) (here : Location) (path : String) :
    Grown t (t.create here path).1 := by
  unfold create
  split
  · exact Grown.refl t
  · exact grown_createEach here _ t

/-! ## What has been created -/

/-- Separators alone do not lead anywhere else. -/
theorem walks_atEnd {purpose : Purpose} {links : Nat} {names : List String}
    (hdir : t.entry? here = some .directory) (hend : atEnd names = true) :
    Walks t purpose links here names (.occupied here .directory) := by
  induction names with
  | nil =>
      have hhere := @Walks.here t purpose links here
      rwa [hdir, Option.getD_some] at hhere
  | cons name names ih =>
      obtain ⟨hname, hend⟩ := Bool.and_eq_true_iff.mp hend
      exact .stay hdir (.inl (of_decide_eq_true hname)) (ih hend)

theorem atEnd_of_append {names extra : List String} (h : atEnd names = true)
    (h' : atEnd extra = true) : atEnd (names ++ extra) = true := by
  unfold atEnd at h h' ⊢
  rw [List.all_append, h, h', Bool.and_true]

theorem leavesFile_of_ne {purpose : Purpose} (h : purpose ≠ .write) (rest : List String) :
    LeavesFile purpose rest :=
  fun heq => absurd heq h

/-- **A new entry is found on the way on which it was put there**, also with separators behind
it. -/
theorem Walks.made (hgrown : Grown t t') {links : Nat} {names extra : List String} {d : Destination}
    (h : Walks t .create links here names d) {directory : Location} {name : String}
    (hd : d = .free directory name)
    (hmade : t'.entry? (directory ++ [name]) = some .directory) (hextra : atEnd extra = true) :
    Walks t' .look links here (names ++ extra) (.occupied (directory ++ [name]) .directory) := by
  have hlook : ∀ rest, LeavesFile .look rest := leavesFile_of_ne (by decide)
  induction h with
  | here => cases hd
  | stay hdir hname _ ih => exact .stay (hgrown.entry? hdir) hname (ih hd)
  | up hdir _ ih => exact .up (hgrown.entry? hdir) (ih hd)
  | free hdir hname _ _ hend =>
      cases hd
      refine .on (hgrown.entry? hdir) hname (hlook _) hmade (fun target h => by cases h)
        (walks_atEnd hmade (atEnd_of_append hend hextra))
  | link _ _ _ _ => cases hd
  | follow hdir hname _ hlink _ _ ih =>
      have hwalk := ih hd
      rw [List.append_assoc] at hwalk
      exact .follow (hgrown.entry? hdir) hname (hlook _) (hgrown.entry? hlink)
        (fun _ h => by cases h) hwalk
  | on hdir hname _ hentry hlink _ ih =>
      exact .on (hgrown.entry? hdir) hname (hlook _) (hgrown.entry? hentry) hlink (ih hd)

/-- The names of a path that are not empty are those of its pieces. -/
theorem filter_namesOf (path : String) :
    (namesOf path).filter (· ≠ "")
      = ((Text.splitOn '/' path.toList).filter (· ≠ [])).map String.ofList := by
  have hnames : ∀ name ∈ ((Text.splitOn '/' path.toList).filter (· ≠ [])).map String.ofList,
      decide (name ≠ "") = true := by
    intro name hname
    obtain ⟨piece, hpiece, rfl⟩ := List.mem_map.mp hname
    have hne : piece ≠ [] := of_decide_eq_true (List.mem_filter.mp hpiece).2
    simpa [String.ofList_eq_empty_iff] using hne
  unfold namesOf
  dsimp only
  split
  · rw [List.filter_append, List.filter_eq_self.mpr hnames]
    simp
  · exact List.filter_eq_self.mpr hnames

/-- Behind the names of a path there may be separators. -/
theorem exists_namesOf (path : String) :
    ∃ extra, namesOf path = (namesOf path).filter (· ≠ "") ++ extra ∧ atEnd extra = true := by
  rw [filter_namesOf]
  unfold namesOf
  dsimp only
  split
  · exact ⟨[""], rfl, rfl⟩
  · exact ⟨[], (List.append_nil _).symm, rfl⟩

theorem leadsTo_createOne (h : t.createOne here path = .ok t') :
    ∃ location, LeadsTo t' here path location .directory := by
  have hgrown := grown_createOne h
  obtain ⟨directory, name, rfl, hpath, hwalks⟩ := createOne_eq_ok h
  obtain ⟨extra, hnames, hextra⟩ := exists_namesOf path
  have hmade : FileTree.entry? (t.put (directory ++ [name]) .directory) (directory ++ [name])
      = some .directory := by
    rw [entry?_put t (by simp), if_pos rfl]
  refine ⟨directory ++ [name], locate_eq_ok.mpr ⟨hpath, ?_⟩⟩
  rw [hnames]
  exact hwalks.made hgrown rfl hmade hextra

theorem leadsTo_of_isDirectory (h : t.isDirectory here path = true) :
    ∃ location, LeadsTo t here path location .directory := by
  unfold isDirectory lookAt at h
  cases hlocate : t.locate .look here path with
  | error e =>
      rw [hlocate] at h
      cases h
  | ok d =>
      rw [hlocate] at h
      cases d with
      | free directory name => cases h
      | occupied location entry =>
          cases entry with
          | directory => exact ⟨location, hlocate⟩
          | file bytes => cases h
          | link target => cases h

/-- Creating gives no error only where there is a directory already. -/
theorem isDirectory_of_ok {e : HostError}
    (h : (if t.isDirectory here path then .ok () else .error e : Except HostError Unit) = .ok ()) :
    t.isDirectory here path = true := by
  split at h
  · assumption
  · cases h

theorem leadsTo_createEach (here : Location) (path : String) (parents : List String)
    (t : FileTree) (h : (t.createEach here (path :: parents)).2 = .ok ()) :
    ∃ location, LeadsTo (t.createEach here (path :: parents)).1 here path location .directory := by
  rw [createEach] at h ⊢
  split
  · rename_i hone
    exact leadsTo_createOne hone
  · rename_i hone
    rw [hone] at h
    dsimp only at h
    split
    · rename_i hrest
      rw [hrest] at h
      cases h
    · rename_i hrest
      rw [hrest] at h
      dsimp only at h
      split
      · rename_i hagain
        exact leadsTo_createOne hagain
      · rename_i hagain
        rw [hagain] at h
        exact leadsTo_of_isDirectory (isDirectory_of_ok h)
  · rename_i hmissing hone
    rw [hone] at h
    split at h
    · rename_i heq
      cases heq
    · rename_i heq
      exact absurd (Except.error.inj heq) hmissing
    · rename_i heq
      cases heq
      exact leadsTo_of_isDirectory (isDirectory_of_ok h)

end

/-! ## Entering a directory -/

/-- The path of a directory leads to the location. The empty path is the working directory. -/
def Opens (t : FileTree) (here : Location) (directory : String) (location : Location) : Prop :=
  directory = "" ∧ location = here ∨ LeadsTo t here directory location .directory

/-- No entry of the directory is a link. -/
def LinkFree (t : FileTree) (location : Location) : Prop :=
  ∀ name target, t.entry? (location ++ [name]) ≠ some (.link target)

theorem linkFree_of_entries {t : FileTree} (h : ∀ e ∈ t.entries, (e.2 matches .link _) = false)
    (location : Location) : t.LinkFree location := by
  intro name target hentry
  unfold entry? at hentry
  rw [if_neg (by simp)] at hentry
  obtain ⟨before, after, hsplit, -⟩ := List.lookup_eq_some_iff.mp hentry
  have hlink := h (location ++ [name], .link target) (by simp [hsplit])
  cases hlink

/-- The path is that of the directory and one more name. -/
structure Names (directory path name : String) : Prop where
  names : namesOf path = (namesOf directory).filter (· ≠ "") ++ [name]
  start : ∀ here, startOf here path = startOf here directory
  proper : Proper name

section

variable {t : FileTree} {links left : Nat} {here location : Location}
  {directory path name : String}

/-- **A directory that has been created can be entered.** -/
theorem exists_opens_create (h : (t.create here directory).2 = .ok ()) :
    ∃ location, Opens (t.create here directory).1 here directory location := by
  unfold create at h ⊢
  split
  · rename_i hempty
    exact ⟨here, .inl ⟨hempty, rfl⟩⟩
  · rename_i hne
    rw [if_neg hne] at h
    obtain ⟨location, hleads⟩ := leadsTo_createEach here directory _ t h
    exact ⟨location, .inr hleads⟩

theorem Walks.entered {names : List String} {d : Destination} {entry : Entry}
    (h : Walks t .look links here names d) (hd : d = .occupied location entry) :
    ∃ left, Enters t links here names left location := by
  induction h with
  | here =>
      cases hd
      exact ⟨_, .done⟩
  | stay hdir hname _ ih =>
      obtain ⟨left, h⟩ := ih hd
      exact ⟨left, .stay hdir hname h⟩
  | up hdir _ ih =>
      obtain ⟨left, h⟩ := ih hd
      exact ⟨left, .up hdir h⟩
  | free _ _ _ _ _ => cases hd
  | link _ _ _ hpurpose => cases hpurpose
  | follow hdir hname _ hlink _ _ ih =>
      obtain ⟨left, h⟩ := ih hd
      exact ⟨left, .follow hdir hname hlink h⟩
  | on hdir hname _ hentry hlink _ ih =>
      obtain ⟨left, h⟩ := ih hd
      exact ⟨left, .on hdir hname hentry hlink h⟩

theorem Enters.of_atEnd {extra : List String} (h : Enters t links here extra left location)
    (hend : atEnd extra = true) : location = here := by
  have hfirst : ∀ {name : String} {rest : List String}, atEnd (name :: rest) = true →
      name = "" ∧ atEnd rest = true := by
    intro name rest h
    obtain ⟨hname, hrest⟩ := Bool.and_eq_true_iff.mp h
    exact ⟨of_decide_eq_true hname, hrest⟩
  induction h with
  | done => rfl
  | stay _ _ _ ih => exact ih (hfirst hend).2
  | up _ _ => exact absurd (hfirst hend).1 (by decide)
  | follow _ hname _ _ => exact absurd (hfirst hend).1 hname.ne_empty
  | on _ hname _ _ _ => exact absurd (hfirst hend).1 hname.ne_empty

/-- Separators at the end of a way do not matter. -/
theorem Enters.front {names ns extra : List String} (h : Enters t links here names left location)
    (hnames : names = ns ++ extra) (hend : atEnd extra = true) :
    ∃ left, Enters t links here ns left location := by
  induction h generalizing ns with
  | done =>
      rw [(List.append_eq_nil_iff.mp hnames.symm).1]
      exact ⟨_, .done⟩
  | stay hdir hname hrest ih =>
      cases ns with
      | nil =>
          rw [(Enters.stay hdir hname hrest).of_atEnd (hnames ▸ hend)]
          exact ⟨_, .done⟩
      | cons first ns =>
          cases hnames
          obtain ⟨left, h⟩ := ih rfl
          exact ⟨left, .stay hdir hname h⟩
  | up hdir hrest ih =>
      cases ns with
      | nil =>
          rw [(Enters.up hdir hrest).of_atEnd (hnames ▸ hend)]
          exact ⟨_, .done⟩
      | cons first ns =>
          cases hnames
          obtain ⟨left, h⟩ := ih rfl
          exact ⟨left, .up hdir h⟩
  | follow hdir hname hlink hrest ih =>
      cases ns with
      | nil =>
          rw [(Enters.follow hdir hname hlink hrest).of_atEnd (hnames ▸ hend)]
          exact ⟨_, .done⟩
      | cons first ns =>
          cases hnames
          obtain ⟨left, h⟩ := ih (List.append_assoc _ ns extra).symm
          exact ⟨left, .follow hdir hname hlink h⟩
  | on hdir hname hentry hlink hrest ih =>
      cases ns with
      | nil =>
          rw [(Enters.on hdir hname hentry hlink hrest).of_atEnd (hnames ▸ hend)]
          exact ⟨_, .done⟩
      | cons first ns =>
          cases hnames
          obtain ⟨left, h⟩ := ih rfl
          exact ⟨left, .on hdir hname hentry hlink h⟩

/-- The names of a directory's path lead into it. -/
theorem Opens.enters (h : Opens t here directory location) :
    ∃ left, Enters t maxLinks (startOf here directory) ((namesOf directory).filter (· ≠ "")) left
      location := by
  rcases h with ⟨rfl, rfl⟩ | h
  · exact ⟨_, .done⟩
  · obtain ⟨-, hwalks⟩ := locate_eq_ok.mp h
    obtain ⟨left, henters⟩ := hwalks.entered rfl
    obtain ⟨extra, hnames, hend⟩ := exists_namesOf directory
    exact henters.front hnames hend

/-- A name in a directory that is no link leads to the entry of that name. -/
theorem Opens.lands (h : Opens t here directory location) (hpath : Names directory path name)
    (hlinks : t.LinkFree location) {purpose : Purpose}
    {d : Destination} (hlocate : t.locate purpose here path = .ok d) :
    t.entry? location = some .directory ∧ d.location = location ++ [name] := by
  obtain ⟨left, henters⟩ := h.enters
  obtain ⟨-, hwalks⟩ := locate_eq_ok.mp hlocate
  obtain ⟨left', directory', henters', hlast⟩ := hwalks.enters hpath.proper hpath.names
  rw [hpath.start] at henters'
  obtain rfl := henters.unique henters'
  cases hlast with
  | stay _ hstill _ =>
      rcases hstill with hstill | hstill
      · exact absurd hstill hpath.proper.ne_empty
      · exact absurd hstill hpath.proper.ne_here
  | up _ _ => exact absurd rfl hpath.proper.ne_parent
  | free hdir _ _ _ _ => exact ⟨hdir, rfl⟩
  | link _ _ hentry _ => exact absurd hentry (hlinks _ _)
  | follow _ _ _ hentry _ _ => exact absurd hentry (hlinks _ _)
  | on hdir _ _ _ _ hrest =>
      cases hrest
      exact ⟨hdir, rfl⟩

/-- **A file that is written under a name in a directory becomes an entry of it.** The path of the
directory leads there as before, and still none of its entries is a link. -/
theorem Opens.write (h : Opens t here directory location) (hpath : Names directory path name)
    (hlinks : t.LinkFree location) {bytes : List UInt8} {t' : FileTree}
    (hwrite : t.write here path bytes = .ok t') :
    t' = t.put (location ++ [name]) (.file bytes) ∧ Opens t' here directory location
      ∧ t'.LinkFree location := by
  obtain ⟨d, hlocate, hw, rfl⟩ := locate_of_write hwrite
  obtain ⟨hdir, hd⟩ := h.lands hpath hlinks hlocate
  rw [hd] at hw ⊢
  refine ⟨rfl, ?_, fun other target hentry => ?_⟩
  · rcases h with h | h
    · exact .inl h
    · -- the directory itself is not the file
      have hkept := h.put hw bytes
      rw [if_neg (hw.ne_of_directory hdir)] at hkept
      exact .inr hkept
  · rw [entry?_put t hw.ne_root] at hentry
    split at hentry
    · cases hentry
    · exact hlinks other target hentry

end

end SolFront.FileTree
