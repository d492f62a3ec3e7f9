import SolFront.Proofs.Path.Joining

/-!
# Ways between resolved paths

The way from one resolved path to another goes up as far as the two have nothing in common and then
down along names. Walked from the first path it ends at the second, so taking the way is the inverse
of resolving it. It does not escape just if the first path covers the second: if the way never goes
up, or goes up once and ends there.
-/

namespace SolFront.Path

/-- The longest path that two paths start with. -/
structure LongestCommon (common base path : Path) : Prop where
  left : common <+: base
  right : common <+: path
  longest : ∀ other, other <+: base → other <+: path → other <+: common

/-- Where the next components differ, nothing longer is in common. -/
theorem longestCommon_append {common left right : Path}
    (h : ∀ b ∈ left.head?, ∀ p ∈ right.head?, b ≠ p) :
    LongestCommon common (common ++ left) (common ++ right) := by
  refine ⟨List.prefix_append common left, List.prefix_append common right, ?_⟩
  intro other hleft hright
  rcases List.prefix_or_prefix_of_prefix hleft (List.prefix_append common left) with
    hshort | ⟨more, rfl⟩
  · exact hshort
  · rw [List.prefix_append_right_inj] at hleft hright
    cases more with
    | nil => rw [List.append_nil]
    | cons c more =>
        -- the component after the common ones would be in both paths
        obtain ⟨left', rfl⟩ := hleft
        obtain ⟨right', rfl⟩ := hright
        exact absurd rfl (h c rfl c rfl)

theorem LongestCommon.cons {common base path : Path} (h : LongestCommon common base path)
    (c : Component) : LongestCommon (c :: common) (c :: base) (c :: path) := by
  refine ⟨List.cons_prefix_cons.mpr ⟨rfl, h.left⟩, List.cons_prefix_cons.mpr ⟨rfl, h.right⟩, ?_⟩
  intro other hbase hpath
  cases other with
  | nil => exact List.nil_prefix
  | cons d other =>
      obtain ⟨rfl, hbase'⟩ := List.cons_prefix_cons.mp hbase
      obtain ⟨-, hpath'⟩ := List.cons_prefix_cons.mp hpath
      exact List.cons_prefix_cons.mpr ⟨rfl, h.longest other hbase' hpath'⟩

/-- **A way escapes just if the directory does not cover the path.** -/
theorem isEscaping_eq_false_iff {base path way : Path} (hbase : Resolved base)
    (hpath : Resolved path) (hway : base.relativeTo? path = some way) :
    way.isEscaping = false ↔ Covers base path := by
  have hname : SearchPath.nameIn? base path = if way.isEscaping then none else some way := by
    unfold SearchPath.nameIn?
    rw [hway, Option.filter_some]
    cases way.isEscaping <;> rfl
  rw [← not_iff_not, ← SearchPath.nameIn?_eq_none_iff hbase hpath, hname]
  cases way.isEscaping <;> simp

/-- How the way from one path to another is made up. -/
structure Between (base path way : Path) : Prop where
  /-- Resolved from the first path it leads to the second. -/
  leads : resolve base way = path
  /-- It goes up from the first path to what the two have in common and down by names. -/
  parts : ∃ (common left : Path) (names : List String),
    LongestCommon common base path ∧ base = common ++ left ∧ path = common ++ names.map .name
      ∧ (∀ name ∈ names, OrdinaryName name)
      ∧ way = List.replicate left.length .parent ++ names.map .name
  /-- Its text is read as the way again. -/
  reread : ofString (Path.toString way) = way
  /-- It escapes unless the second path lies in the first or is its parent directory. -/
  contained : way.isEscaping = false ↔ Covers base path

/-- **Between resolved paths there is a way**, and resolving takes it back. -/
theorem exists_between {cwd cwd' : String} (habs : (ofString cwd).isAbsolute = true)
    (habs' : (ofString cwd').isAbsolute = true) {base path : Path} {source target : String}
    (hbase : base = resolve (ofString cwd) (ofString source))
    (hpath : path = resolve (ofString cwd') (ofString target)) :
    ∃ way, base.relativeTo? path = some way ∧ Between base path way := by
  have hbase' : Resolved base :=
    hbase ▸ resolve_resolved (written_ofString cwd) habs (written_ofString source)
  have hpath' : Resolved path :=
    hpath ▸ resolve_resolved (written_ofString cwd') habs' (written_ofString target)
  clear hbase hpath
  obtain ⟨way, hway, honward, hwalk⟩ := relativeTo?_resolved hbase' hpath'
  refine ⟨way, hway, ?_, ?_, ofString_toString honward, isEscaping_eq_false_iff hbase' hpath' hway⟩
  · rw [resolve_eq_walk hbase' honward.isAbsolute, hwalk]
  · obtain ⟨others, rfl, -⟩ := hbase'
    obtain ⟨names, rfl, hordinary⟩ := hpath'.exists_ordinary
    obtain rfl : wayFrom others (names.map .name) = way := Option.some.inj hway
    obtain ⟨common, left, right, rfl, hright, hspec, hdiffer⟩ :=
      wayFrom_spec others (names.map .name)
    -- the way is found behind the root, which the two have in common anyway
    obtain ⟨front, back, rfl, rfl, rfl⟩ := List.map_eq_append_iff.mp hright
    refine ⟨.root :: front.map .name, left, back, ?_, rfl, ?_, ?_, hspec⟩
    · rw [List.map_append]
      exact (longestCommon_append hdiffer).cons .root
    · rw [List.map_append, List.cons_append]
    · exact fun name hname => hordinary name (List.mem_append_right front hname)

/-- Two paths seen from different directories, beside one another below the second of them. -/
theorem exists_between_beside :
    (ofString "/w").isAbsolute = true ∧ (ofString "/w/d").isAbsolute = true
      ∧ ofString "/w/a/b" = resolve (ofString "/w") (ofString "a/./b/")
      ∧ ofString "/w/x/y.sol" = resolve (ofString "/w/d") (ofString "../x//y.sol")
      ∧ relativeTo? (ofString "/w/a/b") (ofString "/w/x/y.sol") = some (ofString "../../x/y.sol")
      ∧ Between (ofString "/w/a/b") (ofString "/w/x/y.sol") (ofString "../../x/y.sol") := by
  have habs : (ofString "/w").isAbsolute = true := by decide +kernel
  have habs' : (ofString "/w/d").isAbsolute = true := by decide +kernel
  have hbase : ofString "/w/a/b" = resolve (ofString "/w") (ofString "a/./b/") := by
    decide +kernel
  have hpath : ofString "/w/x/y.sol" = resolve (ofString "/w/d") (ofString "../x//y.sol") := by
    decide +kernel
  have hrelative : relativeTo? (ofString "/w/a/b") (ofString "/w/x/y.sol")
      = some (ofString "../../x/y.sol") := by decide +kernel
  obtain ⟨way, hway, hbetween⟩ := exists_between habs habs' hbase hpath
  obtain rfl : ofString "../../x/y.sol" = way := Option.some.inj (hrelative.symm.trans hway)
  exact ⟨habs, habs', hbase, hpath, hrelative, hbetween⟩

end SolFront.Path
