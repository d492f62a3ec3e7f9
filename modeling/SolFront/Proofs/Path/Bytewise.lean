import Mathlib.Data.List.Basic
import SolFront.OsPath
import SolFront.Proofs.Path
import SolFront.Proofs.Utf8

/-!
# Paths taken byte by byte

A text and its bytes are taken apart in the same way. The byte of a separator or of a dot stands in
no other character, so the components of a path's bytes are those of its text, with their bytes for
their characters. Resolving and ways between paths look at names only to see whether they are equal,
and names are equal if their bytes are. So all of it can be done on the text, if there is one, and
what is shown in the end is the text.
-/

namespace SolFront

namespace Text

/-! ## Characters and bytes -/

/-- Characters with one character for each of their bytes. -/
def spread (cs : List Char) : List Char :=
  (cs.flatMap String.utf8EncodeChar).map fun b => Char.ofNat b.toNat

theorem toList_bytewise_encode (text : String) :
    (bytewise (encode text)).toList = spread text.toList := by
  unfold bytewise spread
  rw [String.toList_ofList, encode_eq]

theorem toNat_ofNat_byte (b : UInt8) : (Char.ofNat b.toNat).toNat = b.toNat := by
  have hlt := b.toNat_lt
  rw [Char.ofNat, dif_pos (.inl (by omega))]
  rfl

theorem bytesOf_bytewise (bytes : List UInt8) : bytesOf (bytewise bytes) = bytes := by
  unfold bytesOf bytewise
  rw [String.toList_ofList, List.map_map]
  refine List.map_id'' (fun b => ?_) bytes
  show UInt8.ofNat (Char.ofNat b.toNat).toNat = b
  rw [toNat_ofNat_byte, UInt8.ofNat_toNat]

theorem bytewise_encode_injective : Function.Injective fun text => bytewise (encode text) := by
  intro text text' h
  refine encode_injective ?_
  rw [← bytesOf_bytewise (encode text), ← bytesOf_bytewise (encode text')]
  exact congrArg bytesOf h

theorem spread_injective : Function.Injective spread := by
  intro cs ds h
  refine String.ofList_injective (bytewise_encode_injective (String.toList_inj.mp ?_))
  rw [toList_bytewise_encode, toList_bytewise_encode, String.toList_ofList, String.toList_ofList, h]

theorem spread_append (cs ds : List Char) : spread (cs ++ ds) = spread cs ++ spread ds := by
  unfold spread
  rw [List.flatMap_append, List.map_append]

/-- A character of one byte stays as it is. -/
theorem spread_cons {c : Char} (h : c.toNat < 0x80) (cs : List Char) :
    spread (c :: cs) = c :: spread cs := by
  have hbyte : (UInt8.ofNat c.toNat).toNat = c.toNat :=
    UInt8.toNat_ofNat_of_lt' (Nat.lt_trans h (by decide))
  unfold spread
  rw [List.flatMap_cons, encodeChar_of_lt h, List.singleton_append, List.map_cons, hbyte,
    Char.ofNat_toNat]

/-- No such character comes from another one. -/
theorem mem_spread {c : Char} (h : c.toNat < 0x80) {cs : List Char} :
    c ∈ spread cs ↔ c ∈ cs := by
  induction cs with
  | nil => exact Iff.rfl
  | cons d cs ih =>
      by_cases hd : d.toNat < 0x80
      · rw [spread_cons hd, List.mem_cons, List.mem_cons, ih]
      · -- all bytes of `d` are above the one byte of `c`
        have hhead : c ∉ spread [d] := by
          intro hmem
          obtain ⟨b, hb, rfl⟩ := List.mem_map.mp hmem
          rw [List.flatMap_singleton] at hb
          rw [toNat_ofNat_byte] at h
          exact Nat.not_lt.mpr (le_of_mem_encodeChar (Nat.le_of_not_lt hd) hb) h
        have hne : c ≠ d := fun heq => hd (heq ▸ h)
        rw [← List.singleton_append, spread_append, List.mem_append, ih, List.mem_append,
          List.mem_singleton]
        exact or_congr (iff_of_false hhead hne) Iff.rfl

theorem joinWith_spread {separator : Char} (h : separator.toNat < 0x80)
    (pieces : List (List Char)) :
    joinWith separator (pieces.map spread) = spread (joinWith separator pieces) := by
  induction pieces with
  | nil => rfl
  | cons piece pieces ih =>
      cases pieces with
      | nil => rfl
      | cons next pieces =>
          show spread piece ++ separator :: joinWith separator ((next :: pieces).map spread)
            = spread (piece ++ separator :: joinWith separator (next :: pieces))
          rw [ih, spread_append, spread_cons h]

/-- **The pieces are split where they were.** -/
theorem splitOn_spread {separator : Char} (h : separator.toNat < 0x80) (cs : List Char) :
    splitOn separator (spread cs) = (splitOn separator cs).map spread := by
  -- the pieces are free of separators, so splitting them apart undoes joining them
  have hfree : ∀ piece ∈ (splitOn separator cs).map spread, separator ∉ piece := by
    intro piece hpiece
    obtain ⟨before, hbefore, rfl⟩ := List.mem_map.mp hpiece
    exact mt (mem_spread h).mp (not_mem_of_mem_splitOn hbefore)
  have hne : (splitOn separator cs).map spread ≠ [] :=
    mt List.map_eq_nil_iff.mp (splitOn_ne_nil separator cs)
  have hjoin := splitOn_joinWith hne hfree
  rw [joinWith_spread h, joinWith_splitOn] at hjoin
  exact hjoin

end Text

/-! ## Components -/

namespace Component

open Text (spread)

theorem segment_bytewise (c : Component) : c.bytewise.segment = spread c.segment := by
  cases c with
  | name s => exact Text.toList_bytewise_encode s
  | _ => rfl

theorem bytewise_injective : Function.Injective bytewise := by
  intro c d h
  cases c with
  | name s =>
      cases d with
      | name t => exact congrArg name (Text.bytewise_encode_injective (name.inj h))
      | _ => cases h
  | _ =>
      cases d with
      | name t => cases h
      | _ => first | rfl | cases h  -- the same component twice, or two different ones

/-- The bytes of a segment stand for the component that the segment stands for. -/
theorem ofSegment?_spread (segment : List Char) :
    ofSegment? (spread segment) = (ofSegment? segment).map bytewise := by
  have hsame : ∀ other, spread segment = spread other ↔ segment = other := fun other =>
    Text.spread_injective.eq_iff
  have hempty : spread segment = [] ↔ segment = [] := hsame []
  have hhere : spread segment = ['.'] ↔ segment = ['.'] := hsame ['.']
  have hparent : spread segment = ['.', '.'] ↔ segment = ['.', '.'] := hsame ['.', '.']
  unfold ofSegment?
  by_cases hnone : (segment = [] || segment = ['.'] : Bool) = true
  · rw [if_pos hnone, if_pos (by simpa [hempty, hhere] using hnone)]
    rfl
  rw [if_neg hnone, if_neg (by simpa [hempty, hhere] using hnone)]
  by_cases htwo : segment = ['.', '.']
  · rw [if_pos htwo, if_pos (hparent.mpr htwo)]
    rfl
  · have hname : String.ofList (spread segment)
        = Text.bytewise (Text.encode (String.ofList segment)) := by
      rw [← String.toList_inj, Text.toList_bytewise_encode, String.toList_ofList,
        String.toList_ofList]
    rw [if_neg htwo, if_neg (mt hparent.mp htwo), hname]
    rfl

theorem inner_of_bytewise {c : Component} (h : c.bytewise.Inner) : c.Inner := by
  obtain ⟨hfree, hsome⟩ := h
  rw [segment_bytewise] at hfree hsome
  rw [ofSegment?_spread] at hsome
  obtain ⟨d, hd, hsame⟩ := Option.map_eq_some_iff.mp hsome
  obtain rfl := bytewise_injective hsame
  exact ⟨mt (Text.mem_spread (by decide)).mpr hfree, hd⟩

end Component

/-! ## Paths -/

namespace Path

open Text (spread)

theorem bytewise_injective : Function.Injective bytewise :=
  List.map_injective_iff.mpr Component.bytewise_injective

theorem start_spread (segments : List (List Char)) :
    start (segments.map spread) = (start segments).bytewise := by
  cases segments with
  | nil => rfl
  | cons segment segments =>
      by_cases hempty : segment = []
      · rw [hempty]
        cases segments <;> rfl
      · have hspread : spread segment ≠ [] := mt (@Text.spread_injective segment []) hempty
        have hhere : spread segment = ['.'] ↔ segment = ['.'] :=
          Text.spread_injective.eq_iff (b := ['.'])
        rw [List.map_cons, start_cons hspread, start_cons hempty]
        by_cases h : segment = ['.']
        · rw [if_pos h, if_pos (hhere.mpr h)]
          rfl
        · rw [if_neg h, if_neg (mt hhere.mp h)]
          rfl

/-- **The components of a text's bytes are those of the text.** -/
theorem path_ofString (text : String) : (OsPath.ofString text).path = (ofString text).bytewise := by
  unfold OsPath.path OsPath.ofString ofString ofSegments bytewise
  rw [Text.toList_bytewise_encode, Text.splitOn_spread (by decide), start_spread,
    List.filterMap_map, List.map_append, List.map_filterMap]
  exact congrArg (fun f => _ ++ List.filterMap f _) (funext Component.ofSegment?_spread)

theorem isAbsolute_bytewise (path : Path) : path.bytewise.isAbsolute = path.isAbsolute := by
  cases path with
  | nil => rfl
  | cons c path => cases c <;> rfl

theorem joinWith_segment_bytewise (path : Path) :
    Text.joinWith '/' (path.bytewise.map Component.segment)
      = spread (Text.joinWith '/' (path.map Component.segment)) := by
  rw [← Text.joinWith_spread (by decide), bytewise, List.map_map, List.map_map]
  exact congrArg (fun f => Text.joinWith '/' (path.map f)) (funext Component.segment_bytewise)

theorem toList_toString_bytewise (path : Path) :
    (toString path.bytewise).toList = spread (toString path).toList := by
  have hrelative : ∀ path : Path, path.isAbsolute = false →
      (toString path).toList = Text.joinWith '/' (path.map Component.segment) := by
    intro path h
    unfold toString
    split
    · cases h
    · exact String.toList_ofList
  cases habs : path.isAbsolute with
  | true =>
      obtain ⟨rest, rfl⟩ := exists_of_isAbsolute habs
      have hbytes : (toString (bytewise (.root :: rest))).toList
          = '/' :: Text.joinWith '/' ((bytewise rest).map Component.segment) :=
        String.toList_ofList
      have htext : (toString (.root :: rest)).toList
          = '/' :: Text.joinWith '/' (rest.map Component.segment) := String.toList_ofList
      rw [hbytes, htext, joinWith_segment_bytewise, Text.spread_cons (by decide)]
  | false =>
      rw [hrelative path habs, hrelative path.bytewise (path.isAbsolute_bytewise.trans habs),
        joinWith_segment_bytewise]

/-- **A path of text is shown as the text.** -/
theorem shown_bytewise (path : Path) : shown path.bytewise = toString path := by
  have htext : toString path.bytewise = Text.bytewise (Text.encode (toString path)) := by
    rw [← String.toList_inj, toList_toString_bytewise, Text.toList_bytewise_encode]
  unfold shown
  rw [htext, Text.bytesOf_bytewise, Text.decodeLenient_encode]

/-! ## Resolving -/

theorem walk_bytewise (behind : Path) (c : Component) :
    walk behind.bytewise c.bytewise = (walk behind c).bytewise := by
  cases c with
  | parent =>
      cases behind with
      | nil => rfl
      | cons d behind => cases d <;> rfl
  | _ => rfl

theorem foldl_walk_bytewise (path behind : Path) :
    path.bytewise.foldl walk behind.bytewise = bytewise (path.foldl walk behind) := by
  unfold bytewise
  induction path generalizing behind with
  | nil => rfl
  | cons c path ih =>
      rw [List.map_cons, List.foldl_cons, List.foldl_cons, ← ih]
      exact congrArg (fun behind => (path.map Component.bytewise).foldl walk behind)
        (walk_bytewise behind c)

/-- **Resolving does not look into names.** -/
theorem resolve_bytewise (cwd path : Path) :
    resolve cwd.bytewise path.bytewise = (resolve cwd path).bytewise := by
  have hcollapse : ∀ path : Path, path.bytewise.collapse = path.collapse.bytewise := by
    intro path
    unfold collapse
    rw [show ([] : Path) = Path.bytewise [] from rfl, foldl_walk_bytewise]
    exact List.map_reverse.symm
  unfold resolve
  rw [isAbsolute_bytewise, ← hcollapse]
  by_cases h : path.isAbsolute = true
  · rw [if_pos h, if_pos h]
  · rw [if_neg h, if_neg h]
    exact congrArg collapse List.map_append.symm

/-- What a text leads to is known from the text. -/
theorem resolve_path_ofString (cwd : Path) (text : String) :
    resolve cwd.bytewise (OsPath.ofString text).path = (resolve cwd (ofString text)).bytewise := by
  rw [path_ofString, resolve_bytewise]

theorem resolved_of_bytewise {path : Path} (h : Resolved path.bytewise) : Resolved path := by
  obtain ⟨names, hpath, hplain⟩ := h
  cases path with
  | nil => cases hpath
  | cons c path =>
      obtain ⟨hroot, rfl⟩ := List.cons.inj hpath
      obtain rfl : c = .root := Component.bytewise_injective hroot
      refine ⟨path, rfl, fun d hd => ?_⟩
      obtain ⟨hinner, hparent⟩ := hplain d.bytewise (List.mem_map_of_mem hd)
      exact ⟨Component.inner_of_bytewise hinner, fun heq => hparent (congrArg _ heq)⟩

/-! ## Ways -/

theorem replicate_parent_append_bytewise (n : Nat) (path : Path) :
    List.replicate n .parent ++ path.bytewise
      = bytewise (List.replicate n .parent ++ path) := by
  unfold bytewise
  rw [List.map_append, List.map_replicate]
  rfl

theorem wayFrom_bytewise (base path : Path) :
    wayFrom base.bytewise path.bytewise = (wayFrom base path).bytewise := by
  induction base generalizing path with
  | nil => cases path <;> rfl
  | cons b base ih =>
      have hlength : (bytewise base).length = base.length := List.length_map _
      cases path with
      | nil =>
          show List.replicate ((bytewise base).length + 1) .parent ++ bytewise [] = _
          rw [hlength, replicate_parent_append_bytewise]
          rfl
      | cons p path =>
          show (if b.bytewise = p.bytewise then wayFrom (bytewise base) (bytewise path)
            else List.replicate ((bytewise base).length + 1) .parent ++ bytewise (p :: path)) = _
          rw [wayFrom]
          by_cases h : b = p
          · rw [if_pos h, if_pos (congrArg _ h), ih]
          · rw [if_neg h, if_neg (mt (@Component.bytewise_injective b p) h), hlength,
              replicate_parent_append_bytewise]

/-- **Ways look at names only to compare them.** -/
theorem relativeTo?_bytewise (base path : Path) :
    relativeTo? base.bytewise path.bytewise = (relativeTo? base path).map bytewise := by
  cases base with
  | nil => rfl
  | cons b base =>
      cases path with
      | nil => rfl
      | cons p path =>
          show (if b.bytewise = p.bytewise then some (wayFrom (bytewise base) (bytewise path))
            else none) = _
          rw [relativeTo?, wayFrom_bytewise]
          by_cases h : b = p
          · rw [if_pos h, if_pos (congrArg _ h)]
            rfl
          · rw [if_neg h, if_neg (mt (@Component.bytewise_injective b p) h)]
            rfl

theorem isEscaping_bytewise (path : Path) : path.bytewise.isEscaping = path.isEscaping := by
  cases path with
  | nil => rfl
  | cons c path => cases c <;> cases path <;> rfl

end Path

end SolFront
