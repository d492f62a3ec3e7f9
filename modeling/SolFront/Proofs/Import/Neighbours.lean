import SolFront.Proofs.Import.Completion
import SolFront.Proofs.Import.UnitName
import SolFront.Proofs.MissingUnits

/-!
# Files that import their neighbours

A file named on the command line has its unit name from a directory, and a relative import in it
has its unit name from that name. If both files are called from the same directory, or both by their
absolute paths, the import has the name of the file that it leads to. So a file that is already
among the sources is found there, and nobody is asked for it under a second name.
-/

namespace SolFront

namespace Import

open Progress (account_start exists_account)

variable {σ : Type}

/-! ## Sources are not asked for -/

/-- **If every source has contents, none of the sources is asked for.** -/
theorem not_asked_of_contains (importer : Importer (StateM σ)) (limit : Nat)
    {members sources : Dict Json} (hs : Dict.get? members "sources" = some (.obj sources))
    (hsorted : sources.Sorted)
    (hcontents : ∀ name source, (name, Json.obj source) ∈ sources →
      Dict.contains source "content" = true)
    (s : σ) {unit : String} (hunit : Dict.contains sources unit = true) :
    unit ∉ Dict.keys ((fetch (recorded importer) limit (.obj members)).run (s, [])).2.2 := by
  rcases hfill : (fillAll (recorded importer) sources).run (s, [])
    with ⟨⟨filled, failed⟩, ⟨s₁, addressed⟩⟩
  have hfilled := filledFrom_fillAll (recorded importer) hsorted hfill
  -- no source is without contents, so no address is asked for
  obtain ⟨more, hmore, haddresses⟩ := fillAll_log importer sources s []
  obtain rfl : addressed = [] := by
    rw [hfill] at hmore
    rw [show addressed = [] ++ more from hmore, List.nil_append]
    refine List.eq_nil_iff_forall_not_mem.mpr fun e he => ?_
    obtain ⟨name, source, hsource, hnone, -⟩ := haddresses e he
    rw [hcontents name source hsource] at hnone
    cases hnone
  obtain ⟨q, hq, -⟩ := exists_account (filled.length + limit) s₁
    (account_start importer hfilled.sorted hfilled.failed_sorted)
    (explored_searchFrom filled failed)
  rw [fetch_run (recorded importer) limit hs hfill]
  intro hasked
  have hnone := not_filled_of_asked hq hasked
  rw [hfilled.names, hunit] at hnone
  cases hnone

end Import

namespace Compilation

variable {σ : Type}

/-- The files that are read are sources under their names, beside those there were. -/
theorem contains_readSources (files : Files (StateM σ)) (search : SearchPath) :
    ∀ (paths : List String) (sources : Dict Source) (st : σ) {result : Dict Source} {st' : σ},
      (readSources files search sources paths).run st = (.ok result, st') →
      (∀ name, Dict.contains sources name = true → Dict.contains result name = true)
        ∧ ∀ path ∈ paths, Dict.contains result (search.canonicalName path) = true
  | [], sources, st, result, st', h => by
      cases h
      exact ⟨fun _ h => h, fun _ h => absurd h List.not_mem_nil⟩
  | path :: paths, sources, st, result, st', h => by
      rw [readSources, Import.run_then] at h
      cases hread : ((files.read path).run st).1 with
      | error e =>
          rw [hread] at h
          cases h
      | ok text =>
          rw [hread] at h
          obtain ⟨hkept, hread⟩ := contains_readSources files search paths _ _ h
          have hinsert : ∀ name, name = search.canonicalName path ∨
              Dict.contains sources name = true →
              Dict.contains (Dict.insert (search.canonicalName path) ⟨text⟩ sources) name
                = true := by
            intro name hname
            rw [Dict.contains_eq_isSome, Dict.get?_insert]
            rw [Dict.contains_eq_isSome] at hname
            split
            · rfl
            · exact hname.resolve_left ‹_›
          refine ⟨fun name hname => hkept name (hinsert name (.inr hname)), ?_⟩
          intro other hother
          rcases List.mem_cons.mp hother with rfl | hother
          · exact hkept _ (hinsert _ (.inl rfl))
          · exact hread other hother

/-- **A file that is read is not asked for under its name.** -/
theorem not_asked_of_readSources {files : Files (StateM σ)} {search : SearchPath}
    {paths : List String} {st st' : σ} {sources : Dict Source}
    (h : (readSources files search [] paths).run st = (.ok sources, st')) {path : String}
    (hpath : path ∈ paths) (optimize : Bool) (runs : UInt64) :
    Dict.contains (Request.forSources sources optimize runs).sources (search.canonicalName path)
        = true
      ∧ ∀ {τ : Type} (importer : Importer (StateM τ)) (limit : Nat) (t : τ),
        search.canonicalName path ∉ Dict.keys ((Import.fetch (Import.recorded importer) limit
          (Request.forSources sources optimize runs).toJson).run (t, [])).2.2 := by
  have hcontains := (contains_readSources files search paths [] st h).2 path hpath
  have hsorted : Dict.Sorted (sources.map fun e => (e.1, e.2.toJson)) :=
    List.pairwise_map.mpr (sorted_readSources files search paths [] st List.Pairwise.nil h)
  refine ⟨hcontains, fun importer limit t => Import.not_asked_of_contains importer limit rfl hsorted
    ?_ t ?_⟩
  · intro name source hmem
    obtain ⟨e, -, heq⟩ := List.mem_map.mp hmem
    cases heq
    rfl
  · rw [← hcontains]
    exact List.any_map

end Compilation

namespace SearchPath

open SolFront.Path (Covers Plain Resolved ofString resolve written_ofString resolve_resolved)
open Import (Descends Leads isRelative unitName directoryOf)

/-! ## Where names start -/

/-- Where a path has its name from: the first directory that covers it, or the root if none does. -/
inductive CalledFrom (s : SearchPath) (path : Path) : Path → Prop where
  | first {before after : List Path} {directory : Path}
      (h : s.directories = before ++ directory :: after)
      (hbefore : ∀ d ∈ before, ¬ Covers d path) (hcovers : Covers directory path) :
      CalledFrom s path directory
  | root (h : ∀ d ∈ s.directories, ¬ Covers d path) : CalledFrom s path [.root]

/-- What stands before the names that a name is joined from. Only a name that starts at the root,
without a directory there, has an empty segment before them. -/
def lead (s : SearchPath) (floor : Path) : List (List Char) :=
  if floor ∈ s.directories then [] else [[]]

theorem not_mem_lead {s : SearchPath} {floor : Path} {piece : List Char}
    (h : piece ∈ s.lead floor) : '/' ∉ piece := by
  unfold lead at h
  split at h
  · exact absurd h List.not_mem_nil
  · rw [List.mem_singleton.mp h]
    exact List.not_mem_nil

section

variable {base : Option String} {includes : List String} {cwd : String} {s : SearchPath}

theorem CalledFrom.resolved {path floor : Path} (hnew : new base includes (ofString cwd) = .ok s)
    (habs : (ofString cwd).isAbsolute = true) (h : CalledFrom s path floor) : Resolved floor := by
  cases h with
  | first h _ _ =>
      exact directories_resolved (workingDirectory_of_new hnew) habs
        (h ▸ List.mem_append_right _ List.mem_cons_self)
  | root _ => exact Path.resolved_root

/-- A path that is neither the root nor one of the directories or their parents lies below. -/
theorem CalledFrom.below {path floor : Path} (hpath : Resolved path) (h : CalledFrom s path floor)
    (hroot : path ≠ [.root]) (hplace : ∀ d ∈ s.directories, path ≠ d ∧ ∀ c, d ≠ path ++ [c]) :
    ∃ names, names ≠ [] ∧ path = floor ++ names := by
  cases h with
  | first h _ hcovers =>
      obtain ⟨hself, hparent⟩ := hplace floor (h ▸ List.mem_append_right _ List.mem_cons_self)
      rcases hcovers with ⟨names, rfl⟩ | ⟨c, habove⟩
      · exact ⟨names, fun hnil => hself (by rw [hnil, List.append_nil]), rfl⟩
      · exact absurd habove (hparent c)
  | root _ =>
      obtain ⟨names, rfl, -⟩ := hpath
      exact ⟨names, fun hnil => hroot (by rw [hnil]), rfl⟩

/-- **A name is joined from the names below the place that it starts from.** -/
theorem CalledFrom.canonicalName_eq (hnew : new base includes (ofString cwd) = .ok s)
    (habs : (ofString cwd).isAbsolute = true) {file : String} {floor names : Path}
    (h : CalledFrom s (resolve (ofString cwd) (ofString file)) floor)
    (hplace : resolve (ofString cwd) (ofString file) = floor ++ names) (hne : names ≠ []) :
    s.canonicalName file
      = String.ofList (Text.joinWith '/' (s.lead floor ++ names.map Component.segment)) := by
  have hfloor := h.resolved hnew habs
  have hresolved := resolve_resolved (written_ofString cwd) habs (written_ofString file)
  unfold lead
  cases h with
  | first h hbefore hcovers =>
      obtain ⟨way, hway, hname⟩ :=
        exists_nameIn?_of_first hnew habs (seenFrom_ofString _ file) h hbefore hcovers
      have hnames := (nameIn?_eq_some_iff hfloor hresolved).mpr (.inl hplace)
      obtain rfl : way = names := Option.some.inj (hway.symm.trans hnames)
      have hplain : Plain way := hfloor.plain_of_append (hplace ▸ hresolved)
      have hmem : floor ∈ s.directories := h ▸ List.mem_append_right _ List.mem_cons_self
      rw [canonicalName, hname, if_pos hmem, List.nil_append, ← Path.toList_toString hplain.onward,
        String.ofList_toList]
  | root h =>
      -- the root is none of the directories, or it would cover the file
      have hmem : [Component.root] ∉ s.directories := fun hmem =>
        h _ hmem (.inl (hplace ▸ List.prefix_append [.root] names))
      rw [canonicalName, nameOf_of_uncovered hnew habs (seenFrom_ofString _ file) h, hplace,
        if_neg hmem]
      match names, hne with
      | _ :: _, _ => rfl

/-- The directory of a unit has the names but the last, on what is before them. -/
theorem directoryOf_joined (s : SearchPath) (floor : Path) {names : Path} (hne : names ≠ [])
    (hplain : Plain names) :
    directoryOf (Text.joinWith '/' (s.lead floor ++ names.map Component.segment))
      = names.dropLast.reverse.map Component.segment ++ (s.lead floor).reverse := by
  have hsegments : names.map Component.segment ≠ [] := mt List.map_eq_nil_iff.mp hne
  have hfree : ∀ piece ∈ s.lead floor ++ names.map Component.segment, '/' ∉ piece := by
    intro piece hmem
    rcases List.mem_append.mp hmem with hmem | hmem
    · exact not_mem_lead hmem
    · obtain ⟨c, hc, rfl⟩ := List.mem_map.mp hmem
      exact (hplain c hc).1.free
  unfold directoryOf
  rw [Text.splitOn_joinWith (List.append_ne_nil_of_right_ne_nil _ hsegments) hfree,
    List.tail_reverse, List.dropLast_append_of_ne_nil hsegments, List.reverse_append,
    List.map_reverse, List.map_dropLast]

/-- **A relative import has the name of the file that it leads to**, if that file and the importing
one are called from the same place and the import does not lead out of it. So, where the file is
among those on the command line, it is a source under that name, and nobody is asked for that
name. -/
theorem unitName_canonicalName (hnew : new base includes (ofString cwd) = .ok s)
    (habs : (ofString cwd).isAbsolute = true) {file path : String} {source target floor : Path}
    (hsource : resolve (ofString cwd) (ofString file) = source)
    (htarget : resolve source.dropLast (ofString path) = target) (hroot : source ≠ [.root])
    (hplace : ∀ d ∈ s.directories, source ≠ d ∧ ∀ c, d ≠ source ++ [c])
    (hcalled : CalledFrom s source floor) (hcalled' : CalledFrom s target floor)
    (hrelative : ['.', '/'] <+: path.toList ∨ ['.', '.', '/'] <+: path.toList)
    (hpath : Descends (source.dropLast.length - floor.length) path) :
    unitName (s.canonicalName file) path = s.canonicalName (Path.toString target)
      ∧ ∀ other, resolve (ofString cwd) (ofString other) = target →
        unitName (s.canonicalName file) path = s.canonicalName other
          ∧ ∀ {σ : Type} {files : Files (StateM σ)} {paths : List String} {st st' : σ}
              {sources : Dict Source}, other ∈ paths →
            (Compilation.readSources files s [] paths).run st = (.ok sources, st') →
            ∀ (optimize : Bool) (runs : UInt64),
              Dict.contains (Request.forSources sources optimize runs).sources
                  (unitName (s.canonicalName file) path) = true
                ∧ ∀ {τ : Type} (importer : Importer (StateM τ)) (limit : Nat) (t : τ),
                  unitName (s.canonicalName file) path
                    ∉ Dict.keys ((Import.fetch (Import.recorded importer) limit
                      (Request.forSources sources optimize runs).toJson).run (t, [])).2.2 := by
  have hresolved : Resolved source :=
    hsource ▸ resolve_resolved (written_ofString cwd) habs (written_ofString file)
  have hdropLast : Resolved source.dropLast := hresolved.dropLast hroot
  have hisRelative : isRelative path.toList = true :=
    Bool.or_eq_true_iff.mpr (hrelative.imp List.isPrefixOf_iff_prefix.mpr
      List.isPrefixOf_iff_prefix.mpr)
  obtain ⟨names, hne, hnames⟩ := hcalled.below hresolved hroot hplace
  have hplain : Plain names := (hcalled.resolved hnew habs).plain_of_append (hnames ▸ hresolved)
  -- the directory of the file has the same names but the last
  have hdirectory : source.dropLast = floor ++ names.dropLast := by
    rw [hnames, List.dropLast_append_of_ne_nil hne]
  have hdepth : source.dropLast.length - floor.length = names.dropLast.reverse.length := by
    rw [hdirectory, List.length_append, Nat.add_sub_cancel_left, List.length_reverse]
  have hpile : Plain names.dropLast.reverse := Path.plain_reverse fun c hc =>
    hplain c (List.mem_of_mem_dropLast hc)
  rw [hdepth] at hpath
  obtain ⟨pile, hpile', hleads⟩ := hpath.exists_leads hpile
  have hreached : target = floor ++ pile.reverse := by
    rw [← htarget, hdirectory]
    exact Import.resolve_of_leads (hdirectory ▸ hdropLast) hisRelative hleads
  have himporter : directoryOf (s.canonicalName file).toList
      = names.dropLast.reverse.map Component.segment ++ (s.lead floor).reverse := by
    rw [CalledFrom.canonicalName_eq hnew habs (hsource ▸ hcalled) (hsource.trans hnames) hne,
      String.toList_ofList, directoryOf_joined s floor hne hplain]
  have hname : ∀ other, resolve (ofString cwd) (ofString other) = target →
      unitName (s.canonicalName file) path = s.canonicalName other := by
    intro other hother
    rw [Import.unitName_of_leads himporter hisRelative hleads, List.reverse_reverse,
      CalledFrom.canonicalName_eq hnew habs (hother ▸ hcalled') (hother.trans hreached)
        (mt List.reverse_eq_nil_iff.mp hpile')]
  refine ⟨hname _ ?_, fun other hother => ⟨hname other hother, ?_⟩⟩
  · have htargetResolved : Resolved target :=
      htarget ▸ resolve_resolved hdropLast.written hdropLast.isAbsolute (written_ofString path)
    rw [htargetResolved.ofString_toString, htargetResolved.resolve_eq]
  · intro σ files paths st st' sources hmem hread optimize runs
    rw [hname other hother]
    exact Compilation.not_asked_of_readSources hread hmem optimize runs

/-- Two files below `src`, of which the first imports the second. -/
def neighbours : Files (StateM Unit) where
  present path := pure (path == "src/a/A.sol" || path == "src/lib/B.sol")
  read path := pure <|
    if path = "src/a/A.sol" then .ok "import \"./../lib/B.sol\";"
    else if path = "src/lib/B.sol" then .ok "contract B"
    else .error (.os .notFound)

/-- The sources that they are. -/
def neighbourSources : Dict Source :=
  [("a/A.sol", ⟨"import \"./../lib/B.sol\";"⟩), ("lib/B.sol", ⟨"contract B"⟩)]

/-- The second file lies in two directories, and both files are called from the first of the two. -/
theorem unitName_canonicalName_neighbours :
    new (some "lib") ["./src//", "src/x/../lib"] (ofString "/w") = .ok nested
      ∧ CalledFrom nested (ofString "/w/src/a/A.sol") (ofString "/w/src")
      ∧ CalledFrom nested (ofString "/w/src/lib/B.sol") (ofString "/w/src")
      ∧ Descends 1 "./../lib/B.sol"
      ∧ (Compilation.readSources neighbours nested [] ["src/a/A.sol", "src/lib/B.sol"]).run ()
        = (.ok neighbourSources, ())
      ∧ unitName (nested.canonicalName "src/a/A.sol") "./../lib/B.sol"
        = nested.canonicalName "src/lib/B.sol"
      ∧ Dict.contains (Request.forSources neighbourSources true 200).sources
          (unitName (nested.canonicalName "src/a/A.sol") "./../lib/B.sol") = true
      ∧ unitName (nested.canonicalName "src/a/A.sol") "./../lib/B.sol"
        ∉ Dict.keys ((Import.fetch (Import.recorded (nested.find neighbours)) 1
          (Request.forSources neighbourSources true 200).toJson).run ((), [])).2.2 := by
  have habs : (ofString "/w").isAbsolute = true := by decide +kernel
  have hdirectories : nested.directories
      = [ofString "/w/lib"] ++ ofString "/w/src" :: [ofString "/w/src/lib"] := by decide +kernel
  have hsource : resolve (ofString "/w") (ofString "src/a/A.sol") = ofString "/w/src/a/A.sol" := by
    decide +kernel
  have hother : resolve (ofString "/w") (ofString "src/lib/B.sol")
      = ofString "/w/src/lib/B.sol" := by decide +kernel
  have htarget : resolve (ofString "/w/src/a/A.sol").dropLast (ofString "./../lib/B.sol")
      = ofString "/w/src/lib/B.sol" := by decide +kernel
  have hplace : ∀ d ∈ nested.directories, ofString "/w/src/a/A.sol" ≠ d
      ∧ ∀ c, d ≠ ofString "/w/src/a/A.sol" ++ [c] := by
    have hlength : ∀ d ∈ nested.directories,
        d.length < (ofString "/w/src/a/A.sol").length := by decide +kernel
    intro d hd
    have hlt := hlength d hd
    refine ⟨fun heq => ?_, fun c heq => ?_⟩
    · rw [heq] at hlt
      exact Nat.lt_irrefl _ hlt
    · rw [heq, List.length_append] at hlt
      omega
  have hcalled : CalledFrom nested (ofString "/w/src/a/A.sol") (ofString "/w/src") :=
    .first hdirectories (by decide +kernel) (by decide +kernel)
  have hcalled' : CalledFrom nested (ofString "/w/src/lib/B.sol") (ofString "/w/src") :=
    .first hdirectories (by decide +kernel) (by decide +kernel)
  have hpath : Descends 1 "./../lib/B.sol" :=
    ⟨by decide +kernel, ⟨[['.'], ['.', '.'], ['l', 'i', 'b']], ['B', '.', 's', 'o', 'l'],
      by decide +kernel, by decide⟩, by decide +kernel⟩
  have hnameA : nested.canonicalName "src/a/A.sol" = "a/A.sol" := by decide +kernel
  have hnameB : nested.canonicalName "src/lib/B.sol" = "lib/B.sol" := by decide +kernel
  have hread : (Compilation.readSources neighbours nested []
      ["src/a/A.sol", "src/lib/B.sol"]).run () = (.ok neighbourSources, ()) := by
    have hrun : (Compilation.readSources neighbours nested []
        ["src/a/A.sol", "src/lib/B.sol"]).run ()
          = (.ok (Dict.insert (nested.canonicalName "src/lib/B.sol") ⟨"contract B"⟩
              (Dict.insert (nested.canonicalName "src/a/A.sol")
                ⟨"import \"./../lib/B.sol\";"⟩ [])), ()) := rfl
    rw [hrun, hnameA, hnameB]
    rfl
  obtain ⟨-, hall⟩ := unitName_canonicalName new_nested habs hsource htarget (by decide +kernel)
    hplace hcalled hcalled' (.inl (by decide +kernel)) hpath
  obtain ⟨hname, hasked⟩ := hall "src/lib/B.sol" hother
  obtain ⟨hcontains, hnot⟩ := hasked (List.mem_cons_of_mem _ List.mem_cons_self) hread true 200
  exact ⟨new_nested, hcalled, hcalled', hpath, hread, hname, hcontains, hnot _ 1 ()⟩

end

end SearchPath

end SolFront
