import SolFront.Machine
import SolFront.Proofs.FileTree
import SolFront.Proofs.Import.Completion
import SolFront.Proofs.MissingUnits
import Mathlib.Data.Finset.NAry

/-!
# The limit is never reached

The number of sources that are added to a request has a limit. A source that is found on a machine
has been read through a path, and a path that is too long leads nowhere. So there are no more
sources to be found than there are short texts, and the limit is above their number: a request is
always completed.
-/

namespace SolFront.Import

/-! ## Short texts -/

section

variable {α : Type} [DecidableEq α]

/-- The lists of no more than `n` of the elements. -/
def shortLists (elements : Finset α) : Nat → Finset (List α)
  | 0 => {[]}
  | n + 1 => insert [] (Finset.image₂ List.cons elements (shortLists elements n))

theorem mem_shortLists {elements : Finset α} {n : Nat} {xs : List α}
    (h : ∀ x ∈ xs, x ∈ elements) (hlength : xs.length ≤ n) : xs ∈ shortLists elements n := by
  induction n generalizing xs with
  | zero =>
      rw [List.eq_nil_of_length_eq_zero (Nat.le_zero.mp hlength)]
      exact Finset.mem_singleton_self _
  | succ n ih =>
      cases xs with
      | nil => exact Finset.mem_insert_self _ _
      | cons x xs =>
          obtain ⟨hx, hxs⟩ := List.forall_mem_cons.mp h
          exact Finset.mem_insert_of_mem
            (Finset.mem_image₂_of_mem hx (ih hxs (Nat.le_of_succ_le_succ hlength)))

theorem card_shortLists (elements : Finset α) (n : Nat) :
    (shortLists elements n).card ≤ (elements.card + 1) ^ n := by
  induction n with
  | zero => exact Nat.le_refl 1
  | succ n ih =>
      calc (shortLists elements (n + 1)).card
          ≤ (Finset.image₂ List.cons elements (shortLists elements n)).card + 1 :=
            Finset.card_insert_le _ _
        _ ≤ elements.card * (shortLists elements n).card + 1 :=
            Nat.add_le_add_right (Finset.card_image₂_le _ _ _) 1
        _ ≤ elements.card * (elements.card + 1) ^ n + (elements.card + 1) ^ n :=
            Nat.add_le_add (Nat.mul_le_mul_left _ ih) (Nat.one_le_pow _ _ (Nat.succ_pos _))
        _ = (elements.card + 1) ^ (n + 1) := by rw [Nat.pow_succ', Nat.succ_mul]

end

/-- All characters. -/
def characters : Finset Char :=
  (Finset.range 0x110000).image Char.ofNat

theorem mem_characters (c : Char) : c ∈ characters := by
  have hlt : c.toNat < 0x110000 := by
    have hvalid := c.valid
    unfold UInt32.isValidChar Nat.isValidChar at hvalid
    show c.val.toNat < 0x110000
    omega
  exact Finset.mem_image.mpr ⟨c.toNat, Finset.mem_range.mpr hlt, Char.ofNat_toNat c⟩

theorem card_characters : characters.card ≤ 0x110000 :=
  Finset.card_image_le.trans (Finset.card_range _).le

/-- The texts of no more than `n` characters. -/
def shortTexts (n : Nat) : Finset String :=
  (shortLists characters n).image String.ofList

theorem mem_shortTexts {n : Nat} {text : String} (h : text.toList.length ≤ n) :
    text ∈ shortTexts n :=
  Finset.mem_image.mpr
    ⟨text.toList, mem_shortLists (fun c _ => mem_characters c) h, String.ofList_toList⟩

theorem card_shortTexts (n : Nat) : (shortTexts n).card ≤ Compiler.textCount n := by
  have hbase : characters.card + 1 ≤ 0x110001 := by
    have hcard := card_characters
    omega
  calc (shortTexts n).card
      ≤ (shortLists characters n).card := Finset.card_image_le
    _ ≤ (characters.card + 1) ^ n := card_shortLists characters n
    _ ≤ 0x110001 ^ n := Nat.pow_le_pow_left hbase n

theorem card_shortTexts_le_limit :
    (shortTexts FileTree.maxPath).card ≤ Compiler.importLimit :=
  card_shortTexts FileTree.maxPath

-- there are far too many to count them
attribute [irreducible] shortTexts

theorem length_le_utf8ByteSize (cs : List Char) :
    cs.length ≤ (String.ofList cs).utf8ByteSize := by
  induction cs with
  | nil => exact Nat.zero_le _
  | cons c cs ih =>
      have hsplit : String.ofList (c :: cs) = String.singleton c ++ String.ofList cs := by
        rw [← String.toList_inj]
        simp
      have hone := Char.utf8Size_pos c
      rw [hsplit, String.utf8ByteSize_append, String.utf8ByteSize_singleton, List.length_cons]
      omega

end SolFront.Import

/-! ## Sources on a machine -/

namespace SolFront.FileTree

theorem checkPath_of_read {t : FileTree} {here : Location} {path text : String}
    (h : t.read here path = .ok text) : checkPath path = .ok () := by
  obtain ⟨bytes, hbytes, -⟩ := Json.bind_eq_ok h
  unfold readBytes lookAt at hbytes
  cases hlocate : t.locate .look here path with
  | ok d => exact (locate_eq_ok.mp hlocate).1
  | error e =>
      rw [hlocate] at hbytes
      cases hbytes

theorem utf8ByteSize_of_checkPath {path : String} (h : checkPath path = .ok ()) :
    path.utf8ByteSize ≤ maxPath := by
  unfold checkPath at h
  split at h
  · cases h
  · split at h
    · cases h
    · split at h
      · cases h
      · omega

end SolFront.FileTree

namespace SolFront.SearchPath

/-- Looking for files changes nothing, and what is found has been read. -/
theorem readFirst_run (m : Machine) :
    ∀ paths : List String, ∃ answer, (readFirst Machine.files paths).run m = (answer, m)
      ∧ ∀ text, answer = .contents text → ∃ path ∈ paths, m.tree.read m.here path = .ok text
  | [] => ⟨_, rfl, fun _ h => by cases h⟩
  | path :: paths => by
      have hpresent : (Machine.files.present path).run m = (m.tree.present m.here path, m) := rfl
      rw [readFirst, Import.run_then, hpresent]
      cases hthere : m.tree.present m.here path with
      | true =>
          refine ⟨answerFor path (m.tree.read m.here path), rfl, fun text htext => ?_⟩
          cases hread : m.tree.read m.here path with
          | error e =>
              rw [hread] at htext
              cases htext
          | ok found =>
              rw [hread] at htext
              cases htext
              exact ⟨path, List.mem_cons_self, hread⟩
      | false =>
          obtain ⟨answer, hrun, hfound⟩ := readFirst_run m paths
          refine ⟨answer, hrun, fun text htext => ?_⟩
          obtain ⟨other, hother, hread⟩ := hfound text htext
          exact ⟨other, List.mem_cons_of_mem path hother, hread⟩

/-- What a machine answers to an import. -/
def answerOn (s : SearchPath) (m : Machine) (unit : String) : ImportAnswer :=
  ((s.find Machine.files unit).run m).1

theorem find_run (s : SearchPath) (m : Machine) (unit : String) :
    (s.find Machine.files unit).run m = (s.answerOn m unit, m) := by
  obtain ⟨answer, hrun, -⟩ := readFirst_run m (s.prefixes.map (candidate · unit))
  have hfind : (s.find Machine.files unit).run m = (answer, m) := hrun
  unfold answerOn
  rw [hfind]

/-- **A unit that is found has a short name.** -/
theorem length_of_answerOn {s : SearchPath} {m : Machine} {unit text : String}
    (h : s.answerOn m unit = .contents text) : unit.toList.length ≤ FileTree.maxPath := by
  obtain ⟨answer, hrun, hfound⟩ := readFirst_run m (s.prefixes.map (candidate · unit))
  have hanswer : s.answerOn m unit = answer := congrArg Prod.fst hrun
  obtain ⟨path, hpath, hread⟩ := hfound text (hanswer.symm.trans h)
  obtain ⟨directory, -, rfl⟩ := List.mem_map.mp hpath
  have hshort := FileTree.utf8ByteSize_of_checkPath (FileTree.checkPath_of_read hread)
  have hunit := Import.length_le_utf8ByteSize unit.toList
  rw [String.ofList_toList] at hunit
  unfold candidate at hshort
  split at hshort
  · omega
  · rw [String.utf8ByteSize_append] at hshort
    omega

end SolFront.SearchPath

namespace SolFront.Import

/-- A computation without effects and one that goes the same way from a state and leaves it. -/
def atState {σ : Type} (s : σ) : Likeness Id (StateM σ) where
  alike {_} x y := y.run s = (x.run, s)
  alike_pure _ := rfl
  alike_bind := by
    intro _ _ x y f g hxy hfg
    rw [StateT.run_bind, hxy]
    exact hfg x.run

/-- A completion with fixed answers ends if its limit is no less than the number of units that can
be provided at all. -/
theorem fetch_ends {answers : String → ImportAnswer} {offered : Finset String}
    (hoff : ∀ unit text, answers unit = .contents text → unit ∈ offered) {limit : Nat}
    (hlimit : offered.card ≤ limit) {members sources : Dict Json}
    (hs : Dict.get? members "sources" = some (.obj sources)) (hsorted : sources.Sorted) :
    ∃ result, Id.run (fetch answers limit (.obj members)) = some result := by
  rcases hfill : Id.run (fillAll answers sources) with ⟨filled, failed⟩
  obtain ⟨addressed, hfilled, hfetch⟩ := fetch_steady_run answers limit hs hfill
  have hf := filledFrom_fillAll (recorded (steady answers)) hsorted hfilled
  have hstart : Progress.Account (steady answers) (searchFrom filled failed) []
      (searchFrom filled failed) :=
    Progress.account_start (steady answers) hf.sorted hf.failed_sorted
  have hbound : (searchFrom filled failed).pending.length + offered.card
      ≤ filled.length + limit + (supplied []).length := by
    rw [length_searchFrom]
    omega
  obtain ⟨q, s', log, hrun⟩ := Progress.complete_ends (fun unit _ text => hoff unit text) _ ()
    hstart (explored_searchFrom filled failed) hbound
  rw [hrun] at hfetch
  exact ⟨_, hfetch⟩

end SolFront.Import

namespace SolFront

theorem Request.exists_members (r : Request) : ∃ members, r.toJson = .obj members
    ∧ Dict.get? members "sources" = some (.obj (r.sources.map fun e => (e.1, e.2.toJson))) :=
  ⟨_, rfl, by simp [Dict.get?_cons]⟩

/-- **On a machine a request for sources is always completed**, and that changes nothing. -/
theorem Compilation.exists_completed (search : SearchPath) {sources : Dict Source}
    (h : sources.Sorted) (optimize : Bool) (runs : UInt64) (m : Machine) :
    ∃ input missing, (Compiler.completed
        ((Request.forSources sources optimize runs).toJson.render false)
        (some (search.find Machine.files))).run m = (.ok (input, missing), m) := by
  have hread := Request.read_forSources h optimize runs false
  have hsorted : Dict.Sorted (sources.map fun e => (e.1, e.2.toJson)) := List.pairwise_map.mpr h
  have hshort : ∀ unit text, search.answerOn m unit = .contents text →
      unit ∈ Import.shortTexts FileTree.maxPath := fun unit text hfound =>
    Import.mem_shortTexts (SearchPath.length_of_answerOn hfound)
  obtain ⟨members, hmembers, hget⟩ :=
    (Request.forSources sources optimize runs).exists_members
  obtain ⟨⟨value, missing⟩, hresult⟩ :=
    Import.fetch_ends hshort Import.card_shortTexts_le_limit hget hsorted
  have hfetch := Import.fetch_alike (Import.atState m) (search.find_run m) Compiler.importLimit
    (Request.forSources sources optimize runs).toJson
  refine ⟨value.render false, missing, Compilation.completed_run hread ?_⟩
  rw [hmembers] at hfetch ⊢
  exact hfetch.trans (congrArg (·, m) hresult)

end SolFront
