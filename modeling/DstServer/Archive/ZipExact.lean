import DstServer.Archive.Zip

/-!
# The directory of a ZIP archive is exact

What `preflightDirectory` establishes, in terms of the bytes of the archive.
`Declares` says which directory the trailer of an archive declares, and
`Record` what one record of a directory is.

* `yields_endRecord`, `yields_zip64` and `yields_readRecord` go through the
  parts of the check: none of them panics, whatever the bytes are.
* `yields_scanRecords` follows the loop, with the records so far as the
  invariant.
* `preflightDirectory_exact` puts the parts together.
-/

namespace DstServer.Archive.Zip

open Lib Outcome Bytes

/-! ## The format -/

/-- An end record with its comment, at the end of the archive. -/
structure EndRecord (file : List UInt8) (offset : Nat) : Prop where
  signature : window file offset 4 = [80, 75, 5, 6]
  comment : offset + 22 + field file (offset + 20) 2 = file.length

/-- The directory that the trailer of an archive declares. -/
inductive Declares (file : List UInt8) : Directory → Prop where
  | ordinary {offset : Nat} :
    EndRecord file offset →
    (20 ≤ offset → window file (offset - 20) 4 ≠ [80, 75, 6, 7]) →
    Declares file ⟨field file (offset + 10) 2, field file (offset + 12) 4,
      field file (offset + 16) 4, offset⟩
  | zip64 {offset record : Nat} :
    EndRecord file offset →
    20 ≤ offset →
    window file (offset - 20) 4 = [80, 75, 6, 7] →
    field file (offset - 20 + 8) 8 = record →
    window file record 4 = [80, 75, 6, 6] →
    record + 12 + field file (record + 4) 8 = offset - 20 →
    Declares file ⟨field file (record + 32) 8, field file (record + 40) 8,
      field file (record + 48) 8, record⟩

/-- A record of the central directory, with its name. -/
structure Record (bytes : List UInt8) (name : String) : Prop where
  signature : window bytes 0 4 = [80, 75, 1, 2]
  length : bytes.length = 46 + field bytes 28 2 + field bytes 30 2 + field bytes 32 2
  name : String.fromUTF8? (window bytes 46 (field bytes 28 2)).toByteArray = some name

/-- The records and their names tile the bytes. -/
structure Tiles (bytes : List UInt8) (records : List (List UInt8)) (names : List String) : Prop where
  flatten : bytes = records.flatten
  records : List.Forall₂ Record records names
  distinct : names.Nodup

/-! ## Single reads -/

theorem yields_add64 {a b : Nat} (h : a + b < 2 ^ 64) : Yields (add64 a b) fun c => c = a + b := by
  unfold add64
  rw [if_pos h]
  exact yields_ok rfl

theorem checkedAdd_eq_some {a b c : Nat} : checkedAdd a b = some c ↔ a + b < 2 ^ 64 ∧ c = a + b := by
  unfold checkedAdd
  split_ifs with h
  · rw [Option.some.injEq]
    constructor
    · intro heq
      exact ⟨h, heq.symm⟩
    · intro heq
      exact heq.2.symm
  · constructor
    · intro heq
      cases heq
    · intro heq
      exact absurd heq.1 h

theorem yields_readExact (file : List UInt8) (offset length : Nat) :
    Yields (readExact file offset length) fun bytes =>
      bytes = window file offset length ∧ bytes.length = length :=
  (yields_ensure _ _).bind fun _ h => yields_ok ⟨rfl, h⟩

/-! ## The trailer -/

/-- The end record at an offset of the tail. -/
structure TailEnd (tail : List UInt8) (offset : Nat) : Prop where
  signature : window tail offset 4 = [80, 75, 5, 6]
  comment : offset + 22 + field tail (offset + 20) 2 = tail.length

theorem yields_isEnd {tail : List UInt8} {offset : Nat} (h : offset + 22 ≤ tail.length)
    (hsmall : tail.length < 2 ^ 32) :
    Yields (isEnd tail offset) fun found => found = true → TailEnd tail offset := by
  unfold isEnd
  refine (yields_slice (Nat.le_add_right offset 4) (by omega)).bind fun signature hsignature => ?_
  rw [Nat.add_sub_cancel_left] at hsignature
  split_ifs with hmark
  · refine (yields_readLe (offset + 20) (by omega)).bind fun comment hcomment => ?_
    have hlt := field_lt tail (offset + 20) 2
    refine (yields_add64 (by omega)).bind fun stop hstop => yields_ok fun hfound => ?_
    rw [decide_eq_true_eq] at hfound
    exact ⟨hsignature.symm.trans hmark, by omega⟩
  · exact yields_ok fun hfound => absurd hfound Bool.false_ne_true

theorem yields_findEnd {tail : List UInt8} {count : Nat} (h : count + 21 ≤ tail.length)
    (hsmall : tail.length < 2 ^ 32) :
    Yields (findEnd tail count) fun found =>
      ∀ offset, found = some offset → offset < count ∧ TailEnd tail offset := by
  induction count with
  | zero => exact yields_ok fun offset hoffset => absurd hoffset (by simp)
  | succ count ih =>
    unfold findEnd
    refine (yields_isEnd (by omega) hsmall).bind fun found hfound => ?_
    cases found with
    | true =>
      refine yields_ok fun offset hoffset => ?_
      rw [← Option.some.inj hoffset]
      exact ⟨Nat.lt_succ_self count, hfound rfl⟩
    | false =>
      refine (ih (by omega)).mono fun found hfound offset hoffset => ?_
      obtain ⟨hlt, hend⟩ := hfound offset hoffset
      exact ⟨Nat.lt_succ_of_lt hlt, hend⟩

/-- The end record of the tail is one of the file. -/
theorem TailEnd.endRecord {file : List UInt8} {base offset : Nat}
    (h : TailEnd (window file base (file.length - base)) offset) (hbase : base ≤ file.length) :
    EndRecord file (base + offset) := by
  have hlength := length_window file base (file.length - base) (by omega)
  have hcomment := h.comment
  rw [hlength] at hcomment
  refine ⟨?_, ?_⟩
  · rw [← window_window file base (file.length - base) offset 4 (by omega)]
    exact h.signature
  · rw [field_window _ _ _ _ _ (by omega)] at hcomment
    rw [← Nat.add_assoc] at hcomment
    omega

/-- The ordinary directory of an end record at an offset of the tail. -/
def ordinaryAt (tail : List UInt8) (base offset : Nat) : Directory :=
  ⟨field tail (offset + 10) 2, field tail (offset + 12) 4, field tail (offset + 16) 4, base + offset⟩

theorem yields_endRecord {tail : List UInt8} {base offset : Nat} (h : offset + 22 ≤ tail.length)
    (hsmall : base + tail.length < 2 ^ 64) :
    Yields (endRecord tail base offset) fun directory => directory = ordinaryAt tail base offset := by
  have hlength := length_window tail offset 22 h
  have hfield : ∀ {at' width}, at' + width ≤ 22 →
      field (window tail offset 22) at' width = field tail (offset + at') width :=
    fun hfits => field_window tail offset 22 _ _ hfits
  unfold endRecord
  refine (yields_slice (Nat.le_add_right offset 22) h).bind fun record hrecord => ?_
  rw [Nat.add_sub_cancel_left] at hrecord
  subst hrecord
  refine (yields_readLe 4 (by omega)).bind fun disk _ => ?_
  refine (yields_readLe 6 (by omega)).bind fun firstDisk _ => ?_
  refine (yields_ensure _ _).bind fun _ _ => ?_
  refine (yields_readLe 8 (by omega)).bind fun here _ => ?_
  refine (yields_readLe 10 (by omega)).bind fun count hcount => ?_
  refine (yields_ensure _ _).bind fun _ _ => ?_
  refine (yields_readLe 12 (by omega)).bind fun size hsize => ?_
  refine (yields_readLe 16 (by omega)).bind fun start hstart => ?_
  refine (yields_add64 (by omega)).bind fun trailer htrailer => yields_ok ?_
  rw [hcount, hsize, hstart, htrailer, hfield (by omega), hfield (by omega), hfield (by omega)]
  rfl

/-- What the ZIP64 record at an offset declares. -/
def zip64At (file : List UInt8) (record : Nat) : Directory :=
  ⟨field file (record + 32) 8, field file (record + 40) 8, field file (record + 48) 8, record⟩

/-- A ZIP64 record that lies before the locator. -/
structure Zip64Record (file : List UInt8) (record before : Nat) : Prop where
  signature : window file record 4 = [80, 75, 6, 6]
  length : record + 12 + field file (record + 4) 8 = before

theorem yields_zip64Record {file locator : List UInt8} {trailer : Nat} (h : 20 ≤ trailer)
    (hlocator : locator.length = 20) :
    Yields (zip64Record file locator trailer) fun directory =>
      Zip64Record file (field locator 8 8) (trailer - 20) ∧
        directory = zip64At file (field locator 8 8) := by
  unfold zip64Record
  refine (yields_readLe 4 (by omega)).bind fun disk _ => ?_
  refine (yields_readLe 16 (by omega)).bind fun disks _ => ?_
  refine (yields_ensure _ _).bind fun _ _ => ?_
  refine (yields_readLe 8 (by omega)).bind fun offset hoffset => ?_
  refine (yields_checkedSub h).bind fun before hbefore => ?_
  refine (yields_ensure _ _).bind fun _ _ => ?_
  refine (yields_readExact file offset 56).bind fun record hrecord => ?_
  obtain ⟨hrecord, hlength⟩ := hrecord
  have hfield : ∀ {at' width}, at' + width ≤ 56 →
      field record at' width = field file (offset + at') width := by
    intro at' width hfits
    rw [hrecord]
    exact field_window file offset 56 _ _ hfits
  refine (yields_slice (Nat.zero_le 4) (by omega)).bind fun signature hsignature => ?_
  refine (yields_readLe 4 (by omega)).bind fun length hsize => ?_
  refine (yields_ensure _ _).bind fun _ hmark => ?_
  refine (yields_ensure _ _).bind fun _ hstop => ?_
  refine (yields_readLe 16 (by omega)).bind fun _ _ => ?_
  refine (yields_readLe 20 (by omega)).bind fun _ _ => ?_
  refine (yields_readLe 24 (by omega)).bind fun _ _ => ?_
  refine (yields_readLe 32 (by omega)).bind fun count hcount => ?_
  refine (yields_ensure _ _).bind fun _ _ => ?_
  refine (yields_readLe 40 (by omega)).bind fun size hsize' => ?_
  refine (yields_readLe 48 (by omega)).bind fun start hstart => yields_ok ?_
  rw [← hoffset]
  refine ⟨⟨?_, ?_⟩, ?_⟩
  · have hwindow : window record 0 4 = window file offset 4 := by
      rw [hrecord, window_window file offset 56 0 4 (by omega), Nat.add_zero]
    rw [← hwindow, ← hmark.1, hsignature]
  · obtain ⟨middle, hmiddle, hstop⟩ := Option.bind_eq_some_iff.1 hstop
    rw [checkedAdd_eq_some] at hmiddle hstop
    rw [hfield (by omega)] at hsize
    omega
  · rw [hcount, hsize', hstart, hfield (by omega), hfield (by omega), hfield (by omega)]
    rfl

/-- Where a locator in front of the trailer leads, or else the ordinary
directory. -/
def Located (file : List UInt8) (ordinary directory : Directory) : Prop :=
  (20 ≤ ordinary.trailer → window file (ordinary.trailer - 20) 4 ≠ [80, 75, 6, 7]) ∧
      directory = ordinary ∨
    20 ≤ ordinary.trailer ∧ window file (ordinary.trailer - 20) 4 = [80, 75, 6, 7] ∧
      Zip64Record file (field file (ordinary.trailer - 20 + 8) 8) (ordinary.trailer - 20) ∧
      directory = zip64At file (field file (ordinary.trailer - 20 + 8) 8)

theorem yields_zip64 {file : List UInt8} {ordinary : Directory} :
    Yields (zip64 file ordinary) (Located file ordinary) := by
  unfold zip64
  split_ifs with hroom
  · refine (yields_checkedSub hroom).bind fun offset hoffset => ?_
    refine (yields_readExact file offset 20).bind fun locator hlocator => ?_
    obtain ⟨hlocator, hlength⟩ := hlocator
    refine (yields_slice (Nat.zero_le 4) (by omega)).bind fun signature hsignature => ?_
    have hwindow : window locator 0 4 = window file offset 4 := by
      rw [hlocator, window_window file offset 20 0 4 (by omega), Nat.add_zero]
    have hfield : field locator 8 8 = field file (offset + 8) 8 := by
      rw [hlocator]
      exact field_window file offset 20 8 8 (by omega)
    split_ifs with hmark
    · refine (yields_zip64Record hroom hlength).mono fun directory hdirectory => ?_
      rw [hfield] at hdirectory
      subst hoffset
      exact Or.inr ⟨hroom, by rw [← hwindow, ← hmark, hsignature], hdirectory⟩
    · refine yields_ok (Or.inl ⟨fun _ => ?_, rfl⟩)
      rw [← hoffset, ← hwindow]
      intro heq
      exact hmark (hsignature.trans heq)
  · exact yields_ok (Or.inl ⟨fun h => absurd h hroom, rfl⟩)

/-- What the two searches find is what the trailer declares. -/
theorem declares_of_endRecord {file : List UInt8} {base offset : Nat} (hbase : base ≤ file.length)
    (hend : TailEnd (window file base (file.length - base)) offset) {directory : Directory}
    (h : Located file (ordinaryAt (window file base (file.length - base)) base offset) directory) :
    Declares file directory ∧ directory.trailer ≤ file.length := by
  have hrecord := hend.endRecord hbase
  have hcomment := hrecord.comment
  have hfield : ∀ {at' width}, at' + width ≤ 22 →
      field (window file base (file.length - base)) (offset + at') width =
        field file (base + offset + at') width := by
    intro at' width hfits
    rw [field_window _ _ _ _ _ (by omega), Nat.add_assoc]
  rcases h with ⟨hmark, rfl⟩ | ⟨hroom, hmark, hzip, rfl⟩
  · refine ⟨?_, ?_⟩
    · unfold ordinaryAt
      rw [hfield (by omega), hfield (by omega), hfield (by omega)]
      exact .ordinary hrecord hmark
    · show base + offset ≤ file.length
      omega
  · have hlength := hzip.length
    refine ⟨.zip64 hrecord hroom hmark rfl hzip.signature hzip.length, ?_⟩
    show field file (base + offset - 20 + 8) 8 ≤ file.length
    change field file (base + offset - 20 + 8) 8 + 12 + _ = base + offset - 20 at hlength
    omega

/-! ## The records -/

theorem yields_readRecord {directory : List UInt8} {position : Nat}
    (h : position < directory.length) :
    Yields (readRecord directory position) fun result =>
      46 ≤ result.2 ∧ position + result.2 ≤ directory.length ∧
        Record (window directory position result.2) result.1 := by
  unfold readRecord
  refine (yields_checkedSub (Nat.le_of_lt h)).bind fun left hleft => ?_
  refine (yields_ensure _ _).bind fun _ hroom => ?_
  refine (yields_slice (Nat.le_of_lt h) (Nat.le_refl _)).bind fun entry hentry => ?_
  have hlength : entry.length = directory.length - position := by
    rw [hentry]
    exact length_window _ _ _ (by omega)
  refine (yields_slice (Nat.zero_le 4) (by omega)).bind fun signature hsignature => ?_
  refine (yields_ensure _ _).bind fun _ hmark => ?_
  refine (yields_readLe 28 (by omega)).bind fun nameLength hname => ?_
  refine (yields_readLe 30 (by omega)).bind fun extraLength hextra => ?_
  refine (yields_readLe 32 (by omega)).bind fun commentLength hcomment => ?_
  have hname' := field_lt entry 28 2
  have hextra' := field_lt entry 30 2
  have hcomment' := field_lt entry 32 2
  refine (yields_add64 (by omega)).bind fun length hfirst => ?_
  refine (yields_add64 (by omega)).bind fun length hsecond => ?_
  refine (yields_add64 (by omega)).bind fun length hthird => ?_
  refine (yields_readLe 34 (by omega)).bind fun disk _ => ?_
  refine (yields_ensure _ _).bind fun _ hfits => ?_
  refine (yields_slice (Nat.le_add_right 46 nameLength) (by omega)).bind fun bytes hbytes => ?_
  refine (yields_orError _ _).bind fun name hutf8 => yields_ok ⟨by omega, by omega, ?_⟩
  -- The record is the first part of the entry.
  have hwindow : ∀ {at' width}, at' + width ≤ length →
      window (window directory position length) at' width = window entry at' width := by
    intro at' width hinside
    rw [hentry, window_window _ _ _ _ _ hinside, window_window _ _ _ _ _ (by omega)]
  have hfield : ∀ {at' width}, at' + width ≤ length →
      field (window directory position length) at' width = field entry at' width :=
    fun hinside => congrArg fromLe (hwindow hinside)
  refine ⟨?_, ?_, ?_⟩
  · show window (window directory position length) 0 4 = _
    rw [hwindow (by omega), ← hmark, hsignature]
  · show (window directory position length).length = _
    rw [length_window _ _ _ (by omega), hfield (by omega), hfield (by omega), hfield (by omega)]
    omega
  · show String.fromUTF8? (window (window directory position length) 46
      (field (window directory position length) 28 2)).toByteArray = _
    rw [hfield (by omega), hwindow (by omega), ← hname]
    rw [hbytes, Nat.add_sub_cancel_left] at hutf8
    exact hutf8

/-- One more record behind those read so far. -/
theorem Tiles.concat {bytes bytes' : List UInt8} {records : List (List UInt8)}
    {names : List String} {name : String} (h : Tiles bytes records names) (hrecord : Record bytes' name)
    (hnew : name ∉ names) : Tiles (bytes ++ bytes') (records ++ [bytes']) (names ++ [name]) where
  flatten := by rw [List.flatten_append, List.flatten_singleton, ← h.flatten]
  records := List.rel_append h.records (.cons hrecord .nil)
  distinct := by
    rw [List.nodup_append]
    refine ⟨h.distinct, List.pairwise_singleton _ name, fun other hother last hlast heq => ?_⟩
    rw [List.mem_singleton.1 hlast] at heq
    exact hnew (heq ▸ hother)

/-- The loop comes to its end, and then the records tile the directory. -/
theorem yields_scanRecords {maxEntries : Nat} {directory : List UInt8}
    (hsmall : directory.length < 2 ^ 64) {rounds position : Nat} {names : List String}
    {records : List (List UInt8)} (hrounds : directory.length < rounds + position)
    (hposition : position ≤ directory.length) (hcount : names.length ≤ maxEntries)
    (h : Tiles (window directory 0 position) records names) :
    Yields (scanRecords maxEntries directory rounds position names) fun names' =>
      names'.length ≤ maxEntries ∧ ∃ records', Tiles directory records' names' := by
  induction rounds generalizing position names records with
  | zero => omega
  | succ rounds ih =>
    unfold scanRecords
    split_ifs with hmore
    · refine (yields_readRecord hmore).bind fun result hresult => ?_
      obtain ⟨name, length⟩ := result
      obtain ⟨hleast, hfits, hrecord⟩ := hresult
      change 46 ≤ length at hleast
      change position + length ≤ directory.length at hfits
      refine (yields_ensure _ _).bind fun _ hnew => ?_
      refine (yields_ensure _ _).bind fun _ hroom => ?_
      refine (yields_add64 (by omega)).bind fun next hnext => ?_
      subst hnext
      have hnext := h.concat hrecord hnew
      have hjoin := window_append directory 0 position length
      rw [Nat.zero_add] at hjoin
      rw [← hjoin] at hnext
      refine ih (by omega) (by omega) ?_ hnext
      rw [List.length_append]
      exact hroom
    · have hend : position = directory.length := by omega
      refine yields_ok ⟨hcount, records, ?_⟩
      rw [hend, window_zero, List.take_length] at h
      exact h

/-! ## The whole check -/

/-- What the check has established when it returns `count`. -/
structure Exact (file : List UInt8) (maxEntries count : Nat) (located : Directory) : Prop where
  declared : Declares file located
  total : located.count = count
  limit : count ≤ maxEntries
  adjacent : located.start + located.size = located.trailer
  inside : located.trailer ≤ file.length
  tiled : ∃ records names, Tiles (window file located.start located.size) records names ∧
    records.length = count

/-- The check never panics, and what it accepts is exact. -/
theorem preflightDirectory_exact (file : List UInt8) (maxBytes : UInt64) (maxEntries : Nat) :
    (preflightDirectory file maxBytes maxEntries).Quiet ∧
      ∀ count, preflightDirectory file maxBytes maxEntries = .ok count →
        ∃ located, Exact file maxEntries count located := by
  suffices h : Yields (preflightDirectory file maxBytes maxEntries) fun count =>
      ∃ located, Exact file maxEntries count located from ⟨h.quiet, h.post⟩
  unfold preflightDirectory
  refine (yields_ensure _ _).bind fun _ hsize => ?_
  have hmax := maxBytes.toNat_lt
  refine (yields_checkedSub (Nat.min_le_left _ _)).bind fun base hbase => ?_
  refine (yields_readExact file base _).bind fun tail htail => ?_
  obtain ⟨htail, hlength⟩ := htail
  have htail' : tail = window file base (file.length - base) := by
    rw [htail]
    congr 1
    omega
  refine (yields_checkedSub (by omega)).bind fun last hlast => ?_
  refine (yields_findEnd (by omega) (by omega)).bind fun found hfound => ?_
  refine (yields_orError _ _).bind fun offset hoffset => ?_
  obtain ⟨hlt, hend⟩ := hfound offset hoffset
  refine (yields_endRecord (by omega) (by omega)).bind fun ordinary hordinary => ?_
  refine yields_zip64.bind fun located hlocated => ?_
  rw [htail'] at hend hordinary
  subst hordinary
  obtain ⟨hdeclared, hinside⟩ := declares_of_endRecord (by omega) hend hlocated
  refine (yields_ensure _ _).bind fun _ hlimit => ?_
  refine (yields_ensure _ _).bind fun _ hregion => ?_
  obtain ⟨hsmall, hregion⟩ := hregion
  rw [checkedAdd_eq_some] at hregion
  refine (yields_readExact file located.start located.size).bind fun directory hdirectory => ?_
  obtain ⟨hdirectory, hlength'⟩ := hdirectory
  unfold maxDirectoryBytes at hsmall
  have hempty : Tiles (window directory 0 0) [] [] := ⟨rfl, .nil, .nil⟩
  refine (yields_scanRecords (by omega) (by omega) (Nat.zero_le _) (Nat.zero_le _) hempty).bind
    fun names hnames => ?_
  obtain ⟨-, records, htiles⟩ := hnames
  refine (yields_ensure _ _).bind fun _ hcount => yields_ok ⟨located, ?_⟩
  rw [hdirectory] at htiles
  exact {
    declared := hdeclared
    total := hcount.symm
    limit := by omega
    adjacent := hregion.2.symm
    inside := hinside
    tiled := ⟨records, names, htiles, htiles.records.length_eq⟩ }

theorem preflightDirectory_exact_sample :
    let record : List UInt8 := [80, 75, 1, 2] ++ List.replicate 24 0 ++ [1] ++ List.replicate 17 0 ++ [97]
    let last : List UInt8 := [80, 75, 5, 6, 0, 0, 0, 0, 1, 0, 1, 0, 47, 0, 0, 0, 0, 0, 0, 0, 0, 0]
    (preflightDirectory (record ++ last) 1000 10).Quiet ∧
      ∃ located, Exact (record ++ last) 10 1 located := by
  intro record last
  have hcheck : preflightDirectory (record ++ last) 1000 10 = .ok 1 := by decide +kernel
  exact ⟨(preflightDirectory_exact _ _ _).1, (preflightDirectory_exact _ _ _).2 1 hcheck⟩

end DstServer.Archive.Zip
