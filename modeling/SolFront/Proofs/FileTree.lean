import SolFront.FileTree

/-!
# Writing into a file tree

A walk depends on the directories and the links of a tree, not on what is in its files. So a file
that is written is found again where it was written, and whatever else a path leads to it still leads
to: to the same location, and to the same entry unless that is the file. Two paths may lead to one
file only through links; in one directory, names that are no links lead to different locations.
-/

namespace SolFront.FileTree

/-! ## Entries -/

/-- There is a file at the location, or nothing at all. -/
def Writable (t : FileTree) (location : Location) : Prop :=
  t.entry? location = none ∨ ∃ bytes, t.entry? location = some (.file bytes)

theorem Writable.ne_root {t : FileTree} {location : Location} (h : t.Writable location) :
    location ≠ [] := by
  rintro rfl
  rcases h with h | ⟨bytes, h⟩ <;> cases h

theorem Writable.ne_of_directory {t : FileTree} {location other : Location}
    (h : t.Writable location) (hother : t.entry? other = some .directory) : other ≠ location := by
  rintro rfl
  rcases h with h | ⟨bytes, h⟩ <;> rw [hother] at h <;> cases h

theorem Writable.ne_of_link {t : FileTree} {location other : Location} {target : String}
    (h : t.Writable location) (hother : t.entry? other = some (.link target)) :
    other ≠ location := by
  rintro rfl
  rcases h with h | ⟨bytes, h⟩ <;> rw [hother] at h <;> cases h

theorem lookup_filter_of_ne {location other : Location} (hne : other ≠ location) :
    ∀ entries : List (Location × Entry),
      (entries.filter fun e => e.1 != location).lookup other = entries.lookup other
  | [] => rfl
  | (first, entry) :: entries => by
      rw [List.filter_cons]
      by_cases hfirst : first = location
      · have hbeq : (other == first) = false := beq_eq_false_iff_ne.mpr (hfirst ▸ hne)
        rw [if_neg (by simp [hfirst]), List.lookup_cons, hbeq]
        exact lookup_filter_of_ne hne entries
      · rw [if_pos (by simpa using hfirst), List.lookup_cons, List.lookup_cons,
          lookup_filter_of_ne hne entries]

/-- What is put at a location is there, and nothing else is changed. -/
theorem entry?_put (t : FileTree) {location : Location} (h : location ≠ []) (entry : Entry)
    (other : Location) :
    entry? (t.put location entry) other
      = if other = location then some entry else t.entry? other := by
  unfold entry? put
  by_cases hother : other = location
  · rw [if_pos hother, if_neg (hother ▸ h), hother, List.lookup_cons_self]
  · have hbeq : (other == location) = false := beq_eq_false_iff_ne.mpr hother
    rw [if_neg hother, List.lookup_cons, hbeq, lookup_filter_of_ne hother]

/-! ## Walks that lead somewhere -/

/-- A name that stands for an entry of a directory. -/
structure Proper (name : String) : Prop where
  ne_empty : name ≠ ""
  ne_here : name ≠ "."
  ne_parent : name ≠ ".."

/-- A name that an entry can have. -/
structure Named (name : String) : Prop extends Proper name where
  short : name.utf8ByteSize ≤ maxName

/-- Names behind which a file can be written: no separators alone are left. -/
def LeavesFile (purpose : Purpose) (rest : List String) : Prop :=
  purpose = .write → atEnd rest = true → rest = []

/-- The walks that lead somewhere. -/
inductive Walks (t : FileTree) (purpose : Purpose) :
    Nat → Location → List String → Destination → Prop where
  | here {links : Nat} {here : Location} :
      Walks t purpose links here [] (.occupied here ((t.entry? here).getD .directory))
  | stay {links : Nat} {here : Location} {name : String} {rest : List String} {d : Destination}
      (hdir : t.entry? here = some .directory) (hname : name = "" ∨ name = ".")
      (h : Walks t purpose links here rest d) : Walks t purpose links here (name :: rest) d
  | up {links : Nat} {here : Location} {rest : List String} {d : Destination}
      (hdir : t.entry? here = some .directory)
      (h : Walks t purpose links here.dropLast rest d) :
      Walks t purpose links here (".." :: rest) d
  | free {links : Nat} {here : Location} {name : String} {rest : List String}
      (hdir : t.entry? here = some .directory) (hname : Named name)
      (hfile : LeavesFile purpose rest) (hnone : t.entry? (here ++ [name]) = none)
      (hend : atEnd rest = true) : Walks t purpose links here (name :: rest) (.free here name)
  | link {links : Nat} {here : Location} {name target : String}
      (hdir : t.entry? here = some .directory) (hname : Named name)
      (hlink : t.entry? (here ++ [name]) = some (.link target)) (hpurpose : purpose = .create) :
      Walks t purpose links here [name] (.occupied (here ++ [name]) (.link target))
  | follow {links : Nat} {here : Location} {name target : String} {rest : List String}
      {d : Destination} (hdir : t.entry? here = some .directory) (hname : Named name)
      (hfile : LeavesFile purpose rest)
      (hlink : t.entry? (here ++ [name]) = some (.link target))
      (hfollow : rest = [] → purpose ≠ .create)
      (h : Walks t purpose links (startOf here target) (namesOf target ++ rest) d) :
      Walks t purpose (links + 1) here (name :: rest) d
  | on {links : Nat} {here : Location} {name : String} {rest : List String} {entry : Entry}
      {d : Destination} (hdir : t.entry? here = some .directory) (hname : Named name)
      (hfile : LeavesFile purpose rest) (hentry : t.entry? (here ++ [name]) = some entry)
      (hlink : ∀ target, entry ≠ .link target)
      (h : Walks t purpose links (here ++ [name]) rest d) :
      Walks t purpose links here (name :: rest) d

section

variable {t : FileTree} {purpose : Purpose}

/-- What becomes of a link that is to be followed. -/
def onLink (t : FileTree) (purpose : Purpose) :
    Nat → Location → List String → Except OsError Destination
  | 0 => fun _ _ => .error .tooManyLinks
  | links + 1 => t.walk purpose links

theorem walk_eq (t : FileTree) (purpose : Purpose) (links : Nat) :
    t.walk purpose links = t.walkNames purpose (t.onLink purpose links) := by
  cases links <;> rfl

theorem walks_of_walkNames {links : Nat}
    (hfollow : ∀ here names d, t.onLink purpose links here names = .ok d →
      ∃ fewer, links = fewer + 1 ∧ Walks t purpose fewer here names d) (names : List String) :
    ∀ {here : Location} {d : Destination},
      t.walkNames purpose (t.onLink purpose links) here names = .ok d →
      Walks t purpose links here names d := by
  induction names with
  | nil =>
      intro here d h
      cases h
      exact .here
  | cons name rest ih =>
      intro here d h
      rw [walkNames] at h
      split at h
      · cases h
      rename_i hdir
      have hdir := Decidable.not_not.mp hdir
      split at h
      · rename_i hname
        exact .stay hdir (by simpa using hname) (ih h)
      rename_i hname
      split at h
      · rename_i hparent
        subst hparent
        exact .up hdir (ih h)
      rename_i hparent
      split at h
      · cases h
      rename_i hfile
      split at h
      · cases h
      rename_i hshort
      have hnamed : Named name := by
        have hparts : name ≠ "" ∧ name ≠ "." := by simpa using hname
        exact ⟨⟨hparts.1, hparts.2, hparent⟩, Nat.le_of_not_lt hshort⟩
      have hleaves : LeavesFile purpose rest := by
        intro hpurpose hend
        refine Decidable.byContradiction fun hrest => ?_
        exact hfile (by simp [hpurpose, hrest, hend])
      split at h
      · rename_i hnone
        split at h
        · rename_i hend
          cases h
          exact .free hdir hnamed hleaves hnone hend
        · cases h
      · rename_i target hlink
        split at h
        · rename_i hcreate
          have hcreate : rest = [] ∧ purpose = .create := by simpa using hcreate
          cases h
          obtain ⟨rfl, hpurpose⟩ := hcreate
          exact .link hdir hnamed hlink hpurpose
        · rename_i hcreate
          obtain ⟨fewer, rfl, hwalks⟩ := hfollow _ _ _ h
          exact .follow hdir hnamed hleaves hlink
            (fun hrest hpurpose => hcreate (by simp [hrest, hpurpose])) hwalks
      · rename_i entry hlink hentry
        exact .on hdir hnamed hleaves hentry hlink (ih h)

theorem walkNames_named {follow : Location → List String → Except OsError Destination}
    {here : Location} {name : String} {rest : List String}
    (hdir : t.entry? here = some .directory) (hname : Named name)
    (hfile : LeavesFile purpose rest) :
    t.walkNames purpose follow here (name :: rest)
      = match t.entry? (here ++ [name]) with
        | none => if atEnd rest then .ok (.free here name) else .error .notFound
        | some (.link target) =>
          if rest = [] && purpose = .create then .ok (.occupied (here ++ [name]) (.link target))
          else follow (startOf here target) (namesOf target ++ rest)
        | some _ => t.walkNames purpose follow (here ++ [name]) rest := by
  have hfile : ¬ (purpose = .write && rest ≠ [] && atEnd rest) = true := by
    intro h
    simp only [Bool.and_eq_true, decide_eq_true_eq] at h
    exact h.1.2 (hfile h.1.1 h.2)
  rw [walkNames, if_neg (Decidable.not_not.mpr hdir), if_neg (by simp [hname.ne_empty, hname.ne_here]),
    if_neg hname.ne_parent, if_neg hfile]
  exact if_neg (Nat.not_lt.mpr hname.short)

/-- **The walks that lead somewhere are those that are found.** -/
theorem walk_iff {links : Nat} {here : Location} {names : List String} {d : Destination} :
    t.walk purpose links here names = .ok d ↔ Walks t purpose links here names d := by
  constructor
  · induction links generalizing here names d with
    | zero =>
        intro h
        rw [walk_eq] at h
        exact walks_of_walkNames (fun _ _ _ h => by cases h) names h
    | succ links ih =>
        intro h
        rw [walk_eq] at h
        exact walks_of_walkNames (fun _ _ _ h => ⟨links, rfl, ih h⟩) names h
  · intro h
    induction h with
    | here => rw [walk_eq, walkNames]
    | stay hdir hname _ ih =>
        rw [walk_eq] at ih ⊢
        rw [walkNames, if_neg (Decidable.not_not.mpr hdir), if_pos (by simpa using hname), ih]
    | up hdir _ ih =>
        rw [walk_eq] at ih ⊢
        rw [walkNames, if_neg (Decidable.not_not.mpr hdir), if_neg (by decide), if_pos rfl, ih]
    | free hdir hname hfile hnone hend =>
        rw [walk_eq, walkNames_named hdir hname hfile, hnone]
        exact if_pos hend
    | link hdir hname hlink hpurpose =>
        rw [walk_eq, walkNames_named hdir hname (fun _ _ => rfl), hlink]
        exact if_pos (by simp [hpurpose])
    | follow hdir hname hfile hlink hfollow _ ih =>
        rw [walk_eq, walkNames_named hdir hname hfile, hlink]
        dsimp only
        rw [if_neg (by simpa using hfollow)]
        exact ih
    | @on links here name rest entry d hdir hname hfile hentry hlink _ ih =>
        rw [walk_eq] at ih ⊢
        rw [walkNames_named hdir hname hfile, hentry, ← ih]
        cases entry with
        | link target => exact absurd rfl (hlink target)
        | _ => rfl

/-- What the destination says is so in the tree. -/
def Destination.Holds (t : FileTree) : Destination → Prop
  | .occupied location entry => entry = (t.entry? location).getD .directory
  | .free directory name => t.entry? (directory ++ [name]) = none

theorem Destination.Holds.file {location : Location} {bytes : List UInt8}
    (h : (Destination.occupied location (.file bytes)).Holds t) :
    t.entry? location = some (.file bytes) := by
  have h : Entry.file bytes = (t.entry? location).getD .directory := h
  cases hentry : t.entry? location with
  | none =>
      rw [hentry] at h
      cases h
  | some entry =>
      rw [hentry] at h
      exact congrArg some h.symm

theorem Walks.holds {links : Nat} {here : Location} {names : List String} {d : Destination}
    (h : Walks t purpose links here names d) : d.Holds t := by
  induction h with
  | here => rfl
  | stay _ _ _ ih => exact ih
  | up _ _ ih => exact ih
  | free _ _ _ hnone _ => exact hnone
  | @link _ here name target _ _ hlink _ =>
      show Entry.link target = (t.entry? (here ++ [name])).getD .directory
      rw [hlink, Option.getD_some]
  | follow _ _ _ _ _ _ ih => exact ih
  | on _ _ _ _ _ _ ih => exact ih

end

/-! ## Walks after a file is written -/

/-- The location of what there is at a destination, or of what can be put there. -/
def Destination.location : Destination → Location
  | .occupied location _ => location
  | .free directory name => directory ++ [name]

section

variable {t : FileTree} {location : Location}

theorem entry?_put_of_directory (hw : t.Writable location) (bytes : List UInt8)
    {other : Location} (h : t.entry? other = some .directory) :
    entry? (t.put location (.file bytes)) other = some .directory := by
  rw [entry?_put t hw.ne_root, if_neg (hw.ne_of_directory h), h]

theorem entry?_put_of_link (hw : t.Writable location) (bytes : List UInt8) {other : Location}
    {target : String} (h : t.entry? other = some (.link target)) :
    entry? (t.put location (.file bytes)) other = some (.link target) := by
  rw [entry?_put t hw.ne_root, if_neg (hw.ne_of_link h), h]

/-- What a file leaves of an entry. -/
theorem entry?_put_of_some (hw : t.Writable location) (bytes : List UInt8) {other : Location}
    {entry : Entry} (h : t.entry? other = some entry) (hlink : ∀ target, entry ≠ .link target) :
    ∃ after, entry? (t.put location (.file bytes)) other = some after
      ∧ ∀ target, after ≠ .link target := by
  rw [entry?_put t hw.ne_root]
  by_cases heq : other = location
  · exact ⟨.file bytes, if_pos heq, fun target h => by cases h⟩
  · exact ⟨entry, (if_neg heq).trans h, hlink⟩

/-- **A walk still leads to the same location**, and to what was there unless that is written. -/
theorem Walks.put (hw : t.Writable location) (bytes : List UInt8) {purpose : Purpose}
    {links : Nat} {here l : Location} {names : List String} {entry : Entry}
    (h : Walks t purpose links here names (.occupied l entry)) :
    Walks (t.put location (.file bytes)) purpose links here names
      (.occupied l (if l = location then .file bytes else entry)) := by
  generalize hd : Destination.occupied l entry = d at h
  induction h with
  | @here links here =>
      cases hd
      have hentry : (if l = location then Entry.file bytes else (t.entry? l).getD .directory)
          = ( entry? (t.put location (.file bytes)) l).getD .directory := by
        rw [entry?_put t hw.ne_root]
        split <;> rfl
      rw [hentry]
      exact .here
  | stay hdir hname _ ih => exact .stay (entry?_put_of_directory hw bytes hdir) hname (ih hd)
  | up hdir _ ih => exact .up (entry?_put_of_directory hw bytes hdir) (ih hd)
  | free _ _ _ _ _ => cases hd
  | link hdir hname hlink hpurpose =>
      cases hd
      rw [if_neg (hw.ne_of_link hlink)]
      exact .link (entry?_put_of_directory hw bytes hdir) hname
        (entry?_put_of_link hw bytes hlink) hpurpose
  | follow hdir hname hfile hlink hfollow _ ih =>
      exact .follow (entry?_put_of_directory hw bytes hdir) hname hfile
        (entry?_put_of_link hw bytes hlink) hfollow (ih hd)
  | on hdir hname hfile hentry hlink _ ih =>
      obtain ⟨after, hafter, hlink'⟩ := entry?_put_of_some hw bytes hentry hlink
      exact .on (entry?_put_of_directory hw bytes hdir) hname hfile hafter hlink' (ih hd)

/-- **What is written is found on the way on which it was written.** -/
theorem Walks.written (hw : t.Writable location) (bytes : List UInt8) {links : Nat}
    {here : Location} {names : List String} {d : Destination}
    (h : Walks t .write links here names d) (hd : d.location = location) :
    Walks (t.put location (.file bytes)) .look links here names
      (.occupied location (.file bytes)) := by
  have hput : entry? (t.put location (.file bytes)) location = some (.file bytes) := by
    rw [entry?_put t hw.ne_root, if_pos rfl]
  have hfile : ∀ rest, LeavesFile .look rest := fun rest h => by cases h
  -- at the location itself the walk ends
  have hend : ∀ links, Walks (t.put location (.file bytes)) .look links location []
      (.occupied location (.file bytes)) := by
    intro links
    have hhere := @Walks.here (t.put location (.file bytes)) .look links location
    rwa [hput, Option.getD_some] at hhere
  induction h with
  | here => exact hd ▸ hend _
  | stay hdir hname _ ih => exact .stay (entry?_put_of_directory hw bytes hdir) hname (ih hd)
  | up hdir _ ih => exact .up (entry?_put_of_directory hw bytes hdir) (ih hd)
  | free hdir hname hleaves hnone hrest =>
      obtain rfl := hleaves rfl hrest
      cases hd
      exact .on (entry?_put_of_directory hw bytes hdir) hname (hfile _) hput
        (fun target h => by cases h) (hend _)
  | link _ _ _ hpurpose => cases hpurpose
  | follow hdir hname _ hlink _ _ ih =>
      exact .follow (entry?_put_of_directory hw bytes hdir) hname (hfile _)
        (entry?_put_of_link hw bytes hlink) (fun _ h => by cases h) (ih hd)
  | on hdir hname _ hentry hlink _ ih =>
      obtain ⟨after, hafter, hlink'⟩ := entry?_put_of_some hw bytes hentry hlink
      exact .on (entry?_put_of_directory hw bytes hdir) hname (hfile _) hafter hlink' (ih hd)

end

/-! ## Names in one directory -/

/-- A way into a directory, with the links that may still be followed there. -/
inductive Enters (t : FileTree) : Nat → Location → List String → Nat → Location → Prop where
  | done {links : Nat} {here : Location} : Enters t links here [] links here
  | stay {links left : Nat} {here directory : Location} {name : String} {rest : List String}
      (hdir : t.entry? here = some .directory) (hname : name = "" ∨ name = ".")
      (h : Enters t links here rest left directory) :
      Enters t links here (name :: rest) left directory
  | up {links left : Nat} {here directory : Location} {rest : List String}
      (hdir : t.entry? here = some .directory)
      (h : Enters t links here.dropLast rest left directory) :
      Enters t links here (".." :: rest) left directory
  | follow {links left : Nat} {here directory : Location} {name target : String}
      {rest : List String} (hdir : t.entry? here = some .directory) (hname : Named name)
      (hlink : t.entry? (here ++ [name]) = some (.link target))
      (h : Enters t links (startOf here target) (namesOf target ++ rest) left directory) :
      Enters t (links + 1) here (name :: rest) left directory
  | on {links left : Nat} {here directory : Location} {name : String} {rest : List String}
      {entry : Entry} (hdir : t.entry? here = some .directory) (hname : Named name)
      (hentry : t.entry? (here ++ [name]) = some entry) (hlink : ∀ target, entry ≠ .link target)
      (h : Enters t links (here ++ [name]) rest left directory) :
      Enters t links here (name :: rest) left directory

section

variable {t : FileTree} {purpose : Purpose} {links left : Nat} {here directory : Location}
  {ns : List String} {name : String} {d : Destination}

theorem Named.not_still (h : Named name) : ¬ (name = "" ∨ name = ".") := by
  rintro (h' | h')
  · exact h.ne_empty h'
  · exact h.ne_here h'

/-- **There is one way in.** -/
theorem Enters.unique (h : Enters t links here ns left directory) {left' : Nat}
    {directory' : Location} (h' : Enters t links here ns left' directory') :
    directory = directory' := by
  induction h with
  | done =>
      cases h'
      rfl
  | stay hdir hname _ ih =>
      cases h' with
      | stay _ _ h' => exact ih h'
      | up _ _ => rcases hname with hname | hname <;> exact absurd hname (by decide)
      | follow _ hnamed _ _ => exact absurd hname hnamed.not_still
      | on _ hnamed _ _ _ => exact absurd hname hnamed.not_still
  | up hdir _ ih =>
      cases h' with
      | stay _ hname _ => rcases hname with hname | hname <;> exact absurd hname (by decide)
      | up _ h' => exact ih h'
      | follow _ hnamed _ _ => exact absurd rfl hnamed.ne_parent
      | on _ hnamed _ _ _ => exact absurd rfl hnamed.ne_parent
  | follow hdir hnamed hlink _ ih =>
      cases h' with
      | stay _ hname _ => exact absurd hname hnamed.not_still
      | up _ _ => exact absurd rfl hnamed.ne_parent
      | follow _ _ hlink' h' =>
          cases hlink.symm.trans hlink'
          exact ih h'
      | on _ _ hentry hnot _ => exact absurd (Option.some.inj (hentry.symm.trans hlink)) (hnot _)
  | on hdir hnamed hentry hnot _ ih =>
      cases h' with
      | stay _ hname _ => exact absurd hname hnamed.not_still
      | up _ _ => exact absurd rfl hnamed.ne_parent
      | follow _ _ hlink _ => exact absurd (Option.some.inj (hentry.symm.trans hlink)) (hnot _)
      | on _ _ _ _ h' => exact ih h'

theorem atEnd_append (hname : Proper name) (rest : List String) :
    atEnd (rest ++ [name]) = false := by
  unfold atEnd
  rw [List.all_append, List.all_cons, decide_eq_false hname.ne_empty, Bool.false_and,
    Bool.and_false]

/-- A walk to a name in a directory goes into the directory first. -/
theorem Walks.enters (hname : Proper name) {names : List String}
    (h : Walks t purpose links here names d) (hnames : names = ns ++ [name]) :
    ∃ left directory, Enters t links here ns left directory
      ∧ Walks t purpose left directory [name] d := by
  induction h generalizing ns with
  | here => cases ns <;> cases hnames
  | stay hdir hstill hwalk ih =>
      cases ns with
      | nil =>
          cases hnames
          rcases hstill with hstill | hstill
          · exact absurd hstill hname.ne_empty
          · exact absurd hstill hname.ne_here
      | cons first ns =>
          cases hnames
          obtain ⟨left, directory, henters, hwalks⟩ := ih rfl
          exact ⟨left, directory, .stay hdir hstill henters, hwalks⟩
  | up hdir hwalk ih =>
      cases ns with
      | nil =>
          cases hnames
          exact absurd rfl hname.ne_parent
      | cons first ns =>
          cases hnames
          obtain ⟨left, directory, henters, hwalks⟩ := ih rfl
          exact ⟨left, directory, .up hdir henters, hwalks⟩
  | free hdir hnamed hfile hnone hend =>
      cases ns with
      | nil =>
          cases hnames
          exact ⟨_, _, .done, .free hdir hnamed hfile hnone hend⟩
      | cons first ns =>
          cases hnames
          exact absurd hend (Bool.eq_false_iff.mp (atEnd_append hname ns))
  | link hdir hnamed hlink hpurpose =>
      cases ns with
      | nil =>
          cases hnames
          exact ⟨_, _, .done, .link hdir hnamed hlink hpurpose⟩
      | cons first ns => cases ns <;> cases hnames
  | @follow _ _ _ target _ _ hdir hnamed hfile hlink hfollow hwalk ih =>
      cases ns with
      | nil =>
          cases hnames
          exact ⟨_, _, .done, .follow hdir hnamed hfile hlink hfollow hwalk⟩
      | cons first ns =>
          cases hnames
          obtain ⟨left, directory, henters, hwalks⟩ :=
            ih (List.append_assoc (namesOf target) ns [name]).symm
          exact ⟨left, directory, .follow hdir hnamed hlink henters, hwalks⟩
  | on hdir hnamed hfile hentry hlink hwalk ih =>
      cases ns with
      | nil =>
          cases hnames
          exact ⟨_, _, .done, .on hdir hnamed hfile hentry hlink hwalk⟩
      | cons first ns =>
          cases hnames
          obtain ⟨left, directory, henters, hwalks⟩ := ih rfl
          exact ⟨left, directory, .on hdir hnamed hentry hlink henters, hwalks⟩

/-- From the directory the walk goes on to the name. -/
theorem Enters.walks (hname : Proper name) (h : Enters t links here ns left directory)
    (hwalks : Walks t purpose left directory [name] d) :
    Walks t purpose links here (ns ++ [name]) d := by
  have hfile : ∀ rest, LeavesFile purpose (rest ++ [name]) := by
    intro rest _ hend
    rw [atEnd_append hname rest] at hend
    cases hend
  induction h with
  | done => exact hwalks
  | stay hdir hstill _ ih => exact .stay hdir hstill (ih hwalks)
  | up hdir _ ih => exact .up hdir (ih hwalks)
  | @follow _ _ _ _ _ target rest hdir hnamed hlink _ ih =>
      have hwalk := ih hwalks
      rw [List.append_assoc] at hwalk
      exact .follow hdir hnamed (hfile rest) hlink (fun h => absurd h (by simp)) hwalk
  | on hdir hnamed hentry hlink _ ih =>
      exact .on hdir hnamed (hfile _) hentry hlink (ih hwalks)

end

/-! ## Reading and writing -/

section

variable {t t' : FileTree} {here location : Location} {path : String} {bytes : List UInt8}

/-- The path leads to an entry at the location, links being followed. -/
def LeadsTo (t : FileTree) (here : Location) (path : String) (location : Location)
    (entry : Entry) : Prop :=
  t.locate .look here path = .ok (.occupied location entry)

theorem locate_eq_ok {purpose : Purpose} {d : Destination} :
    t.locate purpose here path = .ok d
      ↔ checkPath path = .ok ()
        ∧ Walks t purpose maxLinks (startOf here path) (namesOf path) d := by
  unfold locate
  rw [← walk_iff]
  cases checkPath path with
  | error e => exact ⟨fun h => (by cases h), fun h => (by cases h.1)⟩
  | ok _ =>
      show (t.walk purpose maxLinks (startOf here path) (namesOf path)).mapError HostError.os
        = .ok d ↔ _
      cases t.walk purpose maxLinks (startOf here path) (namesOf path) with
      | error e => exact ⟨fun h => (by cases h), fun h => (by cases h.2)⟩
      | ok d' =>
          exact ⟨fun h => ⟨rfl, congrArg Except.ok (Except.ok.inj h)⟩,
            fun h => congrArg Except.ok (Except.ok.inj h.2)⟩

/-- The location that a path leads to. -/
def location? (t : FileTree) (here : Location) (path : String) : Option Location :=
  match t.locate .look here path with
  | .ok (.occupied location _) => some location
  | _ => none

theorem location?_eq_some_iff :
    t.location? here path = some location ↔ ∃ entry, LeadsTo t here path location entry := by
  unfold location? LeadsTo
  constructor
  · intro h
    split at h
    · rename_i l entry hlocate
      cases h
      exact ⟨entry, hlocate⟩
    · cases h
  · rintro ⟨entry, hlocate⟩
    rw [hlocate]

theorem readBytes_of_leadsTo (h : LeadsTo t here path location (.file bytes)) :
    t.readBytes here path = .ok bytes := by
  have h : t.locate .look here path = .ok (.occupied location (.file bytes)) := h
  unfold readBytes lookAt
  rw [h]

/-- A file is put where its path leads, at a location that has a file or nothing. -/
theorem locate_of_write (h : t.write here path bytes = .ok t') :
    ∃ d, t.locate .write here path = .ok d ∧ t.Writable d.location
      ∧ t' = t.put d.location (.file bytes) := by
  unfold write at h
  cases hlocate : t.locate .write here path with
  | error e =>
      rw [hlocate] at h
      cases h
  | ok d =>
      rw [hlocate] at h
      have hholds := (locate_eq_ok.mp hlocate).2.holds
      cases d with
      | free directory name =>
          cases h
          exact ⟨_, rfl, Or.inl hholds, rfl⟩
      | occupied location entry =>
          cases entry with
          | file old =>
              cases h
              exact ⟨_, rfl, Or.inr ⟨old, hholds.file⟩, rfl⟩
          | directory => cases h
          | link target => cases h

/-- Whether a file can be opened for writing does not depend on what is to be written. -/
theorem write_eq_error {e : HostError} (h : t.write here path bytes = .error e)
    (others : List UInt8) : t.write here path others = .error e := by
  unfold write at h ⊢
  cases hlocate : t.locate .write here path with
  | error e' =>
      rw [hlocate] at h
      exact h
  | ok d =>
      rw [hlocate] at h
      cases d with
      | free directory name => cases h
      | occupied location entry =>
          cases entry with
          | file old => cases h
          | directory => exact h
          | link target => exact h

/-- **Writing a file.** It is put where the path leads, at a location that has a file or nothing, and
it is found there. -/
theorem write_eq_ok (h : t.write here path bytes = .ok t') :
    ∃ location, t.Writable location ∧ t' = t.put location (.file bytes)
      ∧ LeadsTo t' here path location (.file bytes) := by
  obtain ⟨d, hlocate, hw, rfl⟩ := locate_of_write h
  obtain ⟨hpath, hwalks⟩ := locate_eq_ok.mp hlocate
  exact ⟨d.location, hw, rfl, locate_eq_ok.mpr ⟨hpath, hwalks.written hw bytes rfl⟩⟩

/-- **What a path leads to stays there**, unless it is the file that is written. -/
theorem LeadsTo.put {other : Location} {entry : Entry} (hw : t.Writable location)
    (bytes : List UInt8) (h : LeadsTo t here path other entry) :
    LeadsTo (t.put location (.file bytes)) here path other
      (if other = location then .file bytes else entry) := by
  obtain ⟨hpath, hwalks⟩ := locate_eq_ok.mp h
  exact locate_eq_ok.mpr ⟨hpath, hwalks.put hw bytes⟩

/-- The path itself is a link. -/
def IsLink (t : FileTree) (here : Location) (path : String) : Prop :=
  ∃ location target, t.locate .create here path = .ok (.occupied location (.link target))

instance (t : FileTree) (here : Location) (path : String) : Decidable (IsLink t here path) :=
  match h : t.locate .create here path with
  | .ok (.occupied location (.link target)) => isTrue ⟨location, target, h⟩
  | .ok (.occupied _ (.file _)) => isFalse fun ⟨_, _, h'⟩ => by cases h.symm.trans h'
  | .ok (.occupied _ .directory) => isFalse fun ⟨_, _, h'⟩ => by cases h.symm.trans h'
  | .ok (.free ..) => isFalse fun ⟨_, _, h'⟩ => by cases h.symm.trans h'
  | .error _ => isFalse fun ⟨_, _, h'⟩ => by cases h.symm.trans h'

/-- **A name that is no link is an entry of its directory.** -/
theorem LeadsTo.in_directory {ns : List String} {name : String} {entry : Entry}
    (h : LeadsTo t here path location entry) (hlink : ¬ IsLink t here path)
    (hname : Proper name) (hnames : namesOf path = ns ++ [name]) :
    ∃ left directory, Enters t maxLinks (startOf here path) ns left directory
      ∧ location = directory ++ [name] := by
  obtain ⟨hpath, hwalks⟩ := locate_eq_ok.mp h
  obtain ⟨left, directory, henters, hlast⟩ := hwalks.enters hname hnames
  refine ⟨left, directory, henters, ?_⟩
  cases hlast with
  | stay _ hstill _ =>
      rcases hstill with hstill | hstill
      · exact absurd hstill hname.ne_empty
      · exact absurd hstill hname.ne_here
  | up _ _ => exact absurd rfl hname.ne_parent
  | link _ _ _ hpurpose => cases hpurpose
  | @follow _ _ _ target _ _ hdir hnamed _ hentry _ _ =>
      have hwalk : Walks t .create maxLinks (startOf here path) (ns ++ [name])
          (.occupied (directory ++ [name]) (.link target)) :=
        henters.walks hname (.link hdir hnamed hentry rfl)
      rw [← hnames] at hwalk
      exact absurd ⟨_, target, locate_eq_ok.mpr ⟨hpath, hwalk⟩⟩ hlink
  | on _ _ _ _ _ hwalk =>
      cases hwalk
      rfl

/-- **In one directory, names that are no links lead to different locations.** -/
theorem name_unique {other name name' : String} {ns : List String} {entry entry' : Entry}
    (h : LeadsTo t here path location entry) (h' : LeadsTo t here other location entry')
    (hlink : ¬ IsLink t here path) (hlink' : ¬ IsLink t here other)
    (hname : Proper name) (hname' : Proper name')
    (hstart : startOf here path = startOf here other)
    (hnames : namesOf path = ns ++ [name]) (hnames' : namesOf other = ns ++ [name']) :
    name = name' := by
  obtain ⟨left, directory, henters, hlocation⟩ := h.in_directory hlink hname hnames
  obtain ⟨left', directory', henters', hlocation'⟩ := h'.in_directory hlink' hname' hnames'
  rw [hstart] at henters
  obtain rfl := henters.unique henters'
  exact List.singleton_inj.mp (List.append_cancel_left (hlocation.symm.trans hlocation'))

end

end SolFront.FileTree
