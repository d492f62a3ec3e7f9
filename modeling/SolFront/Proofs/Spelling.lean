import Mathlib.Data.List.Forall2
import Mathlib.Logic.Relation
import SolFront.Proofs.Path.Joining

/-!
# Spellings of paths

One path can be written in many ways: with more separators than it needs, and with detours that lead
back to where they start. None of them can be seen in where the path leads, from whatever directory.
So it does not matter for the name of a file how the file and the directories of the search path are
spelled.
-/

namespace SolFront

namespace Path

/-! ## Spellings -/

/-- A text that leads nowhere when it is put before a segment. -/
inductive Detour : String → Prop where
  | here : Detour "./"
  | back {name : String} (h : OrdinaryName name) : Detour (name ++ "/../")

/-- One path in two spellings, of which the second has one separator or one detour more. -/
inductive Respelled : String → String → Prop where
  | trailing {text : String} (hne : text ≠ "") : Respelled text (text ++ "/")
  | doubled (before after : String) : Respelled (before ++ "/" ++ after) (before ++ "//" ++ after)
  | behind (before after : String) {detour : String} (h : Detour detour) :
      Respelled (before ++ "/" ++ after) (before ++ "/" ++ detour ++ after)
  /-- Only before a path that does not start at the root there is a place for a detour. -/
  | leading {text detour : String} (hne : text ≠ "")
      (hrelative : (ofString text).isAbsolute = false) (h : Detour detour) :
      Respelled text (detour ++ text)

/-- Spellings that are reached one from the other, step by step. -/
abbrev Spelling : String → String → Prop :=
  Relation.ReflTransGen Respelled

theorem back_append (name text : String) :
    name ++ "/../" ++ text = name ++ "/" ++ ("../" ++ text) := by
  simp only [String.append_assoc]
  rfl

/-- **A detour is not seen in a walk.** -/
theorem Detour.walk_added {detour : String} (h : Detour detour) (text : String) (behind : Path) :
    (added (detour ++ text)).foldl walk behind = (added text).foldl walk behind := by
  cases h with
  | here =>
      have hadded : added ("./" ++ text) = added text := added_append "." text
      rw [hadded]
  | @back name hname =>
      -- the name is put on the pile and taken off at once
      rw [back_append, added_append, added_up, hname.added]
      rfl

/-- A detour does not start at the root. -/
theorem Detour.relative {detour : String} (h : Detour detour) (text : String) :
    (ofString (detour ++ text)).isAbsolute = false := by
  cases h with
  | here =>
      have htext : ofString ("./" ++ text) = .here :: added text :=
        ofString_append (show "." ≠ "" by decide) text
      rw [htext]
      rfl
  | @back name hname =>
      rw [back_append, ofString_append hname.ne_empty, hname.ofString]
      rfl

/-- **Both spellings lead to one place**, from wherever they are seen. -/
theorem Respelled.resolve_eq {text text' : String} (h : Respelled text text') (cwd : Path) :
    resolve cwd (ofString text') = resolve cwd (ofString text) := by
  -- behind a separator only the walk counts
  have hbehind : ∀ before after after' : String,
      (∀ pile : Path, (added after').foldl walk pile = (added after).foldl walk pile) →
      resolve cwd (ofString (before ++ "/" ++ after'))
        = resolve cwd (ofString (before ++ "/" ++ after)) := by
    intro before after after' hwalk
    rw [ofString_behind, ofString_behind, resolve_append cwd _ (onward_added after').isAbsolute,
      resolve_append cwd _ (onward_added after).isAbsolute, hwalk]
  cases h with
  | trailing hne => rw [ofString_slash hne]
  | doubled before after =>
      have htext : before ++ "//" ++ after = before ++ "/" ++ ("" ++ "/" ++ after) := by
        simp only [String.append_assoc]
        rfl
      rw [htext]
      refine hbehind before after _ fun pile => ?_
      rw [added_append]
      rfl
  | @behind before after detour hdetour =>
      have htext : before ++ "/" ++ detour ++ after = before ++ "/" ++ (detour ++ after) :=
        String.append_assoc
      rw [htext]
      exact hbehind before after _ (hdetour.walk_added after)
  | leading _ hrelative hdetour =>
      rw [resolve_of_relative cwd (hdetour.relative text), resolve_of_relative cwd hrelative,
        hdetour.walk_added]

theorem Respelled.ne_empty {text text' : String} (h : Respelled text text') :
    text ≠ "" ∧ text' ≠ "" := by
  cases h with
  | trailing hne => exact ⟨hne, by simp⟩
  | doubled before after => exact ⟨by simp, by simp⟩
  | behind before after _ => exact ⟨by simp, by simp⟩
  | leading hne _ _ => exact ⟨hne, by simp [hne]⟩

theorem Spelling.resolve_eq {text text' : String} (h : Spelling text text') (cwd : Path) :
    resolve cwd (ofString text') = resolve cwd (ofString text) := by
  induction h with
  | refl => rfl
  | tail _ hstep ih => rw [hstep.resolve_eq, ih]

/-- The empty text has no other spelling. -/
theorem Spelling.eq_empty_iff {text text' : String} (h : Spelling text text') :
    text' = "" ↔ text = "" := by
  induction h with
  | refl => rfl
  | tail _ hstep ih =>
      obtain ⟨hne, hne'⟩ := hstep.ne_empty
      exact (iff_of_false hne' hne).trans ih

end Path

namespace SearchPath

open SolFront.Path (Spelling ofString resolve)

/-! ## Search paths -/

theorem givesBase_eq_of_spelling {base base' : Option String} (h : Option.Rel Spelling base base') :
    givesBase base' = givesBase base := by
  cases h with
  | none => rfl
  | @some path path' hpath =>
      rw [Bool.eq_iff_iff]
      show (path' != "") = true ↔ (path != "") = true
      rw [bne_iff_ne, bne_iff_ne, ne_eq, ne_eq, hpath.eq_empty_iff]

theorem getD_spelling {base base' : Option String} (h : Option.Rel Spelling base base') :
    Spelling (base.getD "") (base'.getD "") := by
  cases h with
  | none => exact .refl
  | some hpath => exact hpath

theorem ne_empty_of_spelling {paths paths' : List String} (h : List.Forall₂ Spelling paths paths')
    (hne : ∀ p ∈ paths, p ≠ "") : ∀ p ∈ paths', p ≠ "" := by
  induction h with
  | nil => exact hne
  | cons hpath _ ih =>
      obtain ⟨hfirst, hrest⟩ := List.forall_mem_cons.mp hne
      exact List.forall_mem_cons.mpr ⟨mt hpath.eq_empty_iff.mp hfirst, ih hrest⟩

/-- **However its directories are spelled, a search path is accepted.** -/
theorem exists_new_of_spelling {base base' : Option String} {includes includes' : List String}
    {cwd : Path} {s : SearchPath} (hnew : new base includes cwd = .ok s)
    (hbase : Option.Rel Spelling base base')
    (hincludes : List.Forall₂ Spelling includes includes') :
    ∃ s', new base' includes' cwd = .ok s' := by
  obtain ⟨rfl, rfl, rfl⟩ := fields_of_new hnew
  have hbeside : includes' ≠ [] → givesBase base' = true := by
    intro hne
    rw [givesBase_eq_of_spelling hbase]
    refine s.base_of_include fun hnil => hne ?_
    rw [hnil] at hincludes
    exact List.forall₂_nil_left_iff.mp hincludes
  have hempty := ne_empty_of_spelling hincludes s.include_ne_empty
  exact ⟨_, new_fields ⟨base', includes', s.workingDirectory, hbeside, hempty⟩⟩

/-- **The name of a file does not depend on spellings**: not on that of the file, and not on those
of the base path and the include paths. -/
theorem canonicalName_spelling {base base' : Option String} {includes includes' : List String}
    {cwd : Path} {s : SearchPath} (hnew : new base includes cwd = .ok s)
    (hbase : Option.Rel Spelling base base') (hincludes : List.Forall₂ Spelling includes includes')
    {file file' : String} (hfile : Spelling file file') :
    ∃ s', new base' includes' cwd = .ok s' ∧ s'.canonicalName file' = s.canonicalName file := by
  obtain ⟨s', hnew'⟩ := exists_new_of_spelling hnew hbase hincludes
  refine ⟨s', hnew', ?_⟩
  obtain ⟨rfl, rfl, rfl⟩ := fields_of_new hnew
  obtain ⟨rfl, rfl, hcwd⟩ := fields_of_new hnew'
  -- a name is made from the directories, in which the spellings cannot be seen any more
  have hprefixes : List.Forall₂ Spelling s.prefixes s'.prefixes :=
    .cons (getD_spelling hbase) hincludes
  have hdirectories : s.directories = s'.directories := by
    rw [directories_eq, directories_eq, hcwd, ← List.forall₂_eq_eq_eq, List.forall₂_map_left_iff,
      List.forall₂_map_right_iff]
    exact hprefixes.imp fun _ _ h => (h.resolve_eq s.workingDirectory).symm
  rw [canonicalName_eq, canonicalName_eq, ← hdirectories, hcwd, hfile.resolve_eq]

/-- A search path and a file, and the same two with a separator and detours more in each path. -/
theorem canonicalName_spelling_detours :
    ∃ s s', new (some "lib") ["inc"] (ofString "/w") = .ok s
      ∧ Spelling "lib" "lib//" ∧ Spelling "inc" "x/.././inc"
      ∧ Spelling "../w/inc/a.sol" "./../w/y/..//inc/a.sol"
      ∧ new (some "lib//") ["x/.././inc"] (ofString "/w") = .ok s'
      ∧ s.canonicalName "../w/inc/a.sol" = "a.sol"
      ∧ s'.canonicalName "./../w/y/..//inc/a.sol" = s.canonicalName "../w/inc/a.sol" := by
  have hname : Path.OrdinaryName "x" := ⟨by decide, by decide, by decide, by decide⟩
  have hname' : Path.OrdinaryName "y" := ⟨by decide, by decide, by decide, by decide⟩
  have hlib : Path.Respelled "lib" "lib/" := .trailing (by decide)
  have hlib' : Path.Respelled "lib/" "lib//" := .doubled "lib" ""
  have hinc : Path.Respelled "inc" "./inc" := .leading (by decide) (by decide +kernel) .here
  have hinc' : Path.Respelled "./inc" "x/.././inc" :=
    .leading (by decide) (by decide +kernel) (.back hname)
  have hfile : Path.Respelled "../w/inc/a.sol" "./../w/inc/a.sol" :=
    .leading (by decide) (by decide +kernel) .here
  have hfile' : Path.Respelled "./../w/inc/a.sol" "./../w//inc/a.sol" :=
    .doubled "./../w" "inc/a.sol"
  have hfile'' : Path.Respelled "./../w//inc/a.sol" "./../w/y/..//inc/a.sol" :=
    .behind "./../w" "/inc/a.sol" (.back hname')
  have hbase : Spelling "lib" "lib//" := (Relation.ReflTransGen.single hlib).tail hlib'
  have hinclude : Spelling "inc" "x/.././inc" := (Relation.ReflTransGen.single hinc).tail hinc'
  have hspelling : Spelling "../w/inc/a.sol" "./../w/y/..//inc/a.sol" :=
    ((Relation.ReflTransGen.single hfile).tail hfile').tail hfile''
  have hnew := new_fields ⟨some "lib", ["inc"], ofString "/w", by decide, by decide⟩
  obtain ⟨s', hnew', hsame⟩ :=
    canonicalName_spelling hnew (.some hbase) (.cons hinclude .nil) hspelling
  exact ⟨_, s', hnew, hbase, hinclude, hspelling, hnew', by decide +kernel, hsame⟩

end SearchPath

end SolFront
