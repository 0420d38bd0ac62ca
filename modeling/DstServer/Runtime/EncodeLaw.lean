import DstServer.Runtime.DecodeLaw
import DstServer.Runtime.Encode

/-!
# What the encoder writes

A Lua value stands for the JSON value into which its tables unfold.  The
encoder writes exactly the values that unfold into a finite JSON value, and
writes that value's text.

* `Unfolds` relates an item of the heap to a JSON value of at most so many
  levels, and `unfolds_unique` says that there is one such value at most.
  `Table.Sequence` and `Table.Record` are the tables that make arrays and
  objects.
* `array_of_scan` is the counting argument of the first loop: distinct whole
  numbers, as many as the largest of them, are all the numbers up to it.  A
  table that is neither an array nor an object is refused (`contents_neither`).
* `encodeItem_sound` and `encodeItem_eq` are the two directions.  The tables
  that the encoder is inside of unfold into larger values than the one that
  it writes, so a table that unfolds at all is never met again inside itself.
-/

namespace DstServer.Runtime

open Lib JsonText
open Outcome (bind_eq_ok ok_bind error_bind)

variable {ν : Type}

/-! ## The text of a value -/

/-- What comes before an entry. -/
def separator (first : Bool) : Bytes := if first = true then [] else [44]

mutual

/-- The text of a value, without white space. -/
def render (numbers : Numbers ν) : Value ν → Bytes
  | .null => latin "null".toList
  | .bool true => latin "true".toList
  | .bool false => latin "false".toList
  | .number value => numbers.format value
  | .string value => quoted value
  | .array items => 91 :: (renderItems numbers true items ++ [93])
  | .object entries => 123 :: (renderEntries numbers true entries ++ [125])

def renderItems (numbers : Numbers ν) (first : Bool) : List (Value ν) → Bytes
  | [] => []
  | item :: items => separator first ++ (render numbers item ++ renderItems numbers false items)

def renderEntries (numbers : Numbers ν) (first : Bool) : List (Bytes × Value ν) → Bytes
  | [] => []
  | (key, value) :: entries =>
    separator first ++
      (quoted key ++ (58 :: (render numbers value ++ renderEntries numbers false entries)))

end

mutual

/-- The numbers of the value are finite, its strings are UTF-8, and the keys
of each object are distinct. -/
def Sound (numbers : Numbers ν) : Value ν → Prop
  | .null => True
  | .bool _ => True
  | .number value => numbers.finite value = true
  | .string value => utf8Checked 0 value = true
  | .array items => SoundItems numbers items
  | .object entries => (entries.map Prod.fst).Nodup ∧ SoundEntries numbers entries

def SoundItems (numbers : Numbers ν) : List (Value ν) → Prop
  | [] => True
  | item :: items => Sound numbers item ∧ SoundItems numbers items

def SoundEntries (numbers : Numbers ν) : List (Bytes × Value ν) → Prop
  | [] => True
  | (key, value) :: entries =>
    utf8Checked 0 key = true ∧ Sound numbers value ∧ SoundEntries numbers entries

end

/-! ## What a table stands for -/

/-- The entries of an array. -/
def numbered (children : List (Item ν)) : List (Key × Item ν) :=
  children.mapIdx fun index child => (.index (index + 1), child)

/-- The entries of an object. -/
def named (children : List (Bytes × Item ν)) : List (Key × Item ν) :=
  children.map fun child => (.string child.1, child.2)

/-- The table is the array of these children. -/
def Table.Sequence (table : Table ν) (children : List (Item ν)) : Prop :=
  table.marker = .none ∧ table.entries.Perm (numbered children)

/-- The table is the object of these children.  An empty table is an object
only where it says so. -/
def Table.Record (table : Table ν) (children : List (Bytes × Item ν)) : Prop :=
  (table.marker = .object ∨ table.marker = .none ∧ children ≠ []) ∧ table.entries = named children

/-- The item unfolds into the value, which has at most so many levels. -/
def Unfolds (heap : Heap ν) : Nat → Item ν → Value ν → Prop
  | 0, _, _ => False
  | _ + 1, .nil, value => value = .null
  | _ + 1, .null, value => value = .null
  | _ + 1, .bool b, value => value = .bool b
  | _ + 1, .number n, value => value = .number n
  | _ + 1, .string s, value => value = .string s
  | _ + 1, .other, _ => False
  | depth + 1, .table reference, value =>
    (∃ children items, (heap reference).Sequence children ∧ value = .array items ∧
      List.Forall₂ (Unfolds heap depth) children items) ∨
    ∃ children entries, (heap reference).Record children ∧ value = .object entries ∧
      List.Forall₂ (fun child entry => child.1 = entry.1 ∧ Unfolds heap depth child.2 entry.2)
        children entries

theorem Unfolds.succ {heap : Heap ν} {depth : Nat} {item : Item ν} {value : Value ν}
    (h : Unfolds heap depth item value) : Unfolds heap (depth + 1) item value := by
  induction depth generalizing item value with
  | zero => exact absurd h id
  | succ depth ih =>
    cases item with
    | table reference =>
      rcases h with ⟨children, items, htable, hvalue, hitems⟩ |
        ⟨children, entries, htable, hvalue, hentries⟩
      · exact .inl ⟨children, items, htable, hvalue, hitems.imp fun _ _ => ih⟩
      · exact .inr ⟨children, entries, htable, hvalue, hentries.imp fun _ _ h => ⟨h.1, ih h.2⟩⟩
    | _ => exact h

theorem Unfolds.mono {heap : Heap ν} {depth depth' : Nat} (hdepth : depth ≤ depth')
    {item : Item ν} {value : Value ν} (h : Unfolds heap depth item value) :
    Unfolds heap depth' item value := by
  induction hdepth with
  | refl => exact h
  | step _ ih => exact ih.succ

/-! ## Arrays -/

/-- An entry is found under its key. -/
theorem Table.rawget_eq {table : Table ν} {index : Nat} {item : Item ν}
    (h : (.index index, item) ∈ table.entries) : table.rawget index = item := by
  have hsame : ∀ entry ∈ table.entries, entry.1 = .index index → entry = (.index index, item) :=
    fun entry hentry hkey => List.inj_on_of_nodup_map table.distinct hentry h hkey
  unfold Table.rawget
  cases hfind : table.entries.find? fun entry => entry.1 == .index index with
  | none =>
    have hnone := List.find?_eq_none.mp hfind _ h
    simp at hnone
  | some entry =>
    have hkey : entry.1 = .index index := by simpa using List.find?_some hfind
    simp only
    rw [hsame entry (List.mem_of_find?_eq_some hfind) hkey]

/-- The children of an array are what the second loop reads. -/
theorem Table.Sequence.children_eq {table : Table ν} {children : List (Item ν)}
    (h : table.Sequence children) :
    children = (List.range table.entries.length).map fun index => table.rawget (index + 1) := by
  have hlength : table.entries.length = children.length := by
    rw [h.2.length_eq, numbered, List.length_mapIdx]
  apply List.ext_getElem
  · rw [List.length_map, List.length_range, hlength]
  · intro index hindex _
    rw [List.getElem_map, List.getElem_range]
    refine (Table.rawget_eq (h.2.mem_iff.mpr ?_)).symm
    exact List.mem_mapIdx.mpr ⟨index, hindex, rfl⟩

/-- The number of a key, for a number key. -/
def Key.position : Key → Nat
  | .index value => value
  | _ => 0

/-- Whether a key is a whole number from 1 on. -/
def Key.Positive (key : Key) : Prop := ∃ value, 1 ≤ value ∧ key = .index value

/-- Distinct whole numbers from 1 on, none above their count, are the numbers
up to it. -/
theorem array_of_scan {table : Table ν} (hpositive : ∀ entry ∈ table.entries, entry.1.Positive)
    (hbound : ∀ entry ∈ table.entries, entry.1.position ≤ table.entries.length) :
    table.entries.Perm (numbered
      ((List.range table.entries.length).map fun index => table.rawget (index + 1))) := by
  let positions := table.entries.map fun entry => entry.1.position
  have hkeys : table.entries.map Prod.fst = positions.map Key.index := by
    rw [List.map_map]
    refine List.map_congr_left fun entry hentry => ?_
    obtain ⟨value, _, hkey⟩ := hpositive entry hentry
    show entry.1 = .index entry.1.position
    rw [hkey]
    rfl
  have hnodup : positions.Nodup := by
    have hdistinct := table.distinct
    rw [hkeys] at hdistinct
    exact hdistinct.of_map _
  have hsubset : positions ⊆ List.range' 1 table.entries.length := by
    intro position hposition
    obtain ⟨entry, hentry, rfl⟩ := List.mem_map.mp hposition
    obtain ⟨value, hvalue, hkey⟩ := hpositive entry hentry
    have hlimit := hbound entry hentry
    simp only [hkey] at hlimit ⊢
    rw [List.mem_range'_1]
    show 1 ≤ value ∧ value < 1 + table.entries.length
    have hlimit' : value ≤ table.entries.length := hlimit
    omega
  have hperm : positions.Perm (List.range' 1 table.entries.length) := by
    refine (List.subperm_of_subset hnodup hsubset).perm_of_length_le ?_
    rw [List.length_range', List.length_map]
  have hentries : table.entries =
      positions.map fun position => (Key.index position, table.rawget position) := by
    rw [List.map_map]
    refine (List.map_id _).symm.trans (List.map_congr_left fun entry hentry => ?_)
    obtain ⟨value, _, hkey⟩ := hpositive entry hentry
    have hentry' : entry = (.index value, entry.2) := Prod.ext hkey rfl
    show entry = (.index entry.1.position, table.rawget entry.1.position)
    rw [hkey]
    show entry = (.index value, table.rawget value)
    rw [Table.rawget_eq (hentry' ▸ hentry)]
    exact hentry'
  have hlisted : (List.range' 1 table.entries.length).map
      (fun position => (Key.index position, table.rawget position)) =
        numbered ((List.range table.entries.length).map fun index => table.rawget (index + 1)) := by
    apply List.ext_getElem
    · simp [numbered]
    · intro index _ _
      simp [numbered, Nat.add_comm]
  have hresult := hperm.map fun position => (Key.index position, table.rawget position)
  rw [← hentries, hlisted] at hresult
  exact hresult

/-! ## The first loop -/

theorem scan_named {children : List (Bytes × Item ν)} {object : Bool} {count : Nat} :
    scan object count 0 (named children) =
      .ok (object || !children.isEmpty, count + children.length, 0) := by
  induction children generalizing object count with
  | nil => simp [named, scan]
  | cons child children ih =>
    show scan object count 0 ((.string child.1, child.2) :: named children) = _
    rw [scan, if_neg (Nat.lt_irrefl 0), ih]
    simp
    omega

/-- A table that turned out to be an object has names for keys. -/
theorem named_of_scan {object : Bool} {count : Nat} {entries : List (Key × Item ν)}
    {shape : Bool × Nat × Nat} (h : scan object count 0 entries = .ok shape)
    (hshape : shape.1 = true) :
    (∃ children, entries = named children) ∧ (object = true ∨ entries ≠ []) := by
  have hloop : ∀ {object : Bool} {count maximum : Nat} {entries : List (Key × Item ν)},
      scan object count maximum entries = .ok shape → (object = true ∨ maximum = 0) →
        object = true ∨ entries ≠ [] → ∃ children, entries = named children := by
    intro object count maximum entries h hmaximum hobject
    induction entries generalizing object count maximum with
    | nil => exact ⟨[], rfl⟩
    | cons entry entries ih =>
      obtain ⟨key, item⟩ := entry
      cases key with
      | string value =>
        rw [scan] at h
        split_ifs at h
        obtain ⟨children, rfl⟩ := ih h (.inl rfl) (.inl rfl)
        exact ⟨(value, item) :: children, rfl⟩
      | index value =>
        rw [scan] at h
        split_ifs at h with hvalue hobject'
        exfalso
        have hfalse : ∀ {maximum count : Nat} {entries : List (Key × Item ν)}, 0 < maximum →
            scan object count maximum entries = .ok shape → False := by
          intro maximum count entries hpositive h
          induction entries generalizing count maximum with
          | nil =>
            rw [scan] at h
            obtain rfl := Except.ok.inj h
            exact hobject' hshape
          | cons entry entries ih' =>
            obtain ⟨key, item⟩ := entry
            cases key with
            | string value =>
              rw [scan, if_pos hpositive] at h
              cases h
            | index value =>
              rw [scan] at h
              split_ifs at h
              exact ih' (by omega) h
            | other => cases h
        exact hfalse (by omega) h
      | other => cases h
  cases hentries : entries with
  | nil =>
    subst hentries
    rw [scan] at h
    obtain rfl := Except.ok.inj h
    exact ⟨⟨[], rfl⟩, .inl hshape⟩
  | cons entry rest =>
    rw [hentries] at h
    exact ⟨hloop h (.inr rfl) (.inr (List.cons_ne_nil _ _)), .inr (List.cons_ne_nil _ _)⟩

/-- What the first loop finds in a table with whole numbers for keys. -/
theorem scan_positive {entries : List (Key × Item ν)}
    (hpositive : ∀ entry ∈ entries, entry.1.Positive) (count maximum : Nat) :
    ∃ largest, scan false count maximum entries = .ok (false, count + entries.length, largest) ∧
      maximum ≤ largest ∧ (∀ entry ∈ entries, entry.1.position ≤ largest) ∧
        (largest = maximum ∨ ∃ entry ∈ entries, entry.1.position = largest) := by
  induction entries generalizing count maximum with
  | nil => exact ⟨maximum, rfl, Nat.le_refl _, nofun, .inl rfl⟩
  | cons entry entries ih =>
    obtain ⟨key, item⟩ := entry
    obtain ⟨value, hvalue, rfl⟩ := hpositive (key, item) List.mem_cons_self
    obtain ⟨largest, hscan, hmaximum, hrest, hreached⟩ :=
      ih (fun entry hentry => hpositive entry (List.mem_cons_of_mem _ hentry)) (count + 1)
        (max maximum value)
    refine ⟨largest, ?_, le_trans (le_max_left maximum value) hmaximum, ?_, ?_⟩
    · rw [scan, if_neg (by omega), if_neg Bool.false_ne_true, hscan, List.length_cons,
        Nat.add_right_comm, Nat.add_assoc]
    · intro entry hentry
      rcases List.mem_cons.mp hentry with rfl | hentry
      · exact le_trans (le_max_right maximum value) hmaximum
      · exact hrest entry hentry
    · rcases hreached with rfl | ⟨entry, hentry, hposition⟩
      · by_cases hlarger : maximum ≤ value
        · exact .inr ⟨(.index value, item), List.mem_cons_self, (max_eq_right hlarger).symm⟩
        · exact .inl (max_eq_left (by omega))
      · exact .inr ⟨entry, List.mem_cons_of_mem _ hentry, hposition⟩

/-- A table that did not turn out to be an object has whole numbers for keys. -/
theorem positive_of_scan {object : Bool} {count maximum : Nat} {entries : List (Key × Item ν)}
    {shape : Bool × Nat × Nat} (h : scan object count maximum entries = .ok shape)
    (hshape : shape.1 = false) : object = false ∧ ∀ entry ∈ entries, entry.1.Positive := by
  induction entries generalizing object count maximum with
  | nil =>
    rw [scan] at h
    obtain rfl := Except.ok.inj h
    exact ⟨hshape, nofun⟩
  | cons entry entries ih =>
    obtain ⟨key, item⟩ := entry
    cases key with
    | string value =>
      rw [scan] at h
      split_ifs at h
      exact absurd (ih h).1 (by decide)
    | index value =>
      rw [scan] at h
      split_ifs at h with hvalue hobject
      refine ⟨(ih h).1, ?_⟩
      intro entry hentry
      rcases List.mem_cons.mp hentry with rfl | hentry
      · exact ⟨value, by omega, rfl⟩
      · exact (ih h).2 entry hentry
    | other => cases h

/-- The first loop over an array. -/
theorem Table.Sequence.scan_eq {table : Table ν} {children : List (Item ν)}
    (h : table.Sequence children) : scan (table.marker == .object) 0 0 table.entries =
      .ok (false, table.entries.length, table.entries.length) := by
  have hlength : table.entries.length = children.length := by
    rw [h.2.length_eq, numbered, List.length_mapIdx]
  have hentry : ∀ entry ∈ table.entries, ∃ index, index < children.length ∧
      entry.1 = .index (index + 1) := by
    intro entry hentry
    obtain ⟨index, hindex, rfl⟩ := List.mem_mapIdx.mp (h.2.mem_iff.mp hentry)
    exact ⟨index, hindex, rfl⟩
  have hpositive : ∀ entry ∈ table.entries, entry.1.Positive := by
    intro entry hmember
    obtain ⟨index, _, hkey⟩ := hentry entry hmember
    exact ⟨index + 1, by omega, hkey⟩
  obtain ⟨largest, hscan, _, hupper, hreached⟩ := scan_positive hpositive 0 0
  have hlargest : largest = table.entries.length := by
    have hle : largest ≤ table.entries.length := by
      rcases hreached with rfl | ⟨entry, hmember, rfl⟩
      · omega
      · obtain ⟨index, hindex, hkey⟩ := hentry entry hmember
        rw [hkey]
        show index + 1 ≤ _
        omega
    have hge : table.entries.length ≤ largest := by
      cases hcount : children.length with
      | zero => omega
      | succ count =>
        have hlast : (Key.index (count + 1), children.get ⟨count, by omega⟩) ∈ table.entries :=
          h.2.mem_iff.mpr (List.mem_mapIdx.mpr ⟨count, by omega, rfl⟩)
        have hupper' : count + 1 ≤ largest := hupper _ hlast
        omega
    omega
  rw [h.1, show (Marker.none == Marker.object) = false from rfl, hscan, Nat.zero_add, hlargest]

/-- The first loop over an object. -/
theorem Table.Record.scan_eq {table : Table ν} {children : List (Bytes × Item ν)}
    (h : table.Record children) :
    scan (table.marker == .object) 0 0 table.entries = .ok (true, children.length, 0) := by
  have hobject : (table.marker == .object || !children.isEmpty) = true := by
    rcases h.1 with hmark | ⟨_, hnonempty⟩
    · rw [hmark]
      rfl
    · cases children with
      | nil => exact absurd rfl hnonempty
      | cons child children => simp
  rw [h.2, scan_named, hobject, Nat.zero_add]

/-! ## The entries of a table -/

section Contents

variable {table : Table ν} {encode : Item ν → Writer → Except Raised Writer} {writer : Writer}

theorem Table.Sequence.contents_eq {children : List (Item ν)} (h : table.Sequence children) :
    contents encode table writer = (do
      let writer ← writer.append [91]
      let writer ← elements encode true children writer
      writer.append [93]) := by
  rw [contents, h.scan_eq, ok_bind]
  simp only
  rw [if_neg Bool.false_ne_true, if_neg (not_not_intro rfl), ← h.children_eq]

theorem Table.Record.contents_eq {children : List (Bytes × Item ν)} (h : table.Record children) :
    contents encode table writer = (do
      let writer ← writer.append [123]
      let writer ← members encode true (named children) writer
      writer.append [125]) := by
  rw [contents, h.scan_eq, ok_bind]
  simp only
  rw [if_pos trivial, h.2]

/-- The first loop refuses a table in one way. -/
theorem scan_error {object : Bool} {count maximum : Nat} {entries : List (Key × Item ν)}
    {raised : Raised} (h : scan object count maximum entries = .error raised) :
    raised = .invalidJsonValue := by
  induction entries generalizing object count maximum with
  | nil => cases h
  | cons entry entries ih =>
    obtain ⟨key, item⟩ := entry
    cases key with
    | string value =>
      rw [scan] at h
      split_ifs at h
      · exact (Except.error.inj h).symm
      · exact ih h
    | index value =>
      rw [scan] at h
      split_ifs at h
      · exact (Except.error.inj h).symm
      · exact (Except.error.inj h).symm
      · exact ih h
    | other => exact (Except.error.inj h).symm

/-- A table that is neither an array nor an object is no value. -/
theorem contents_neither (hsequence : ∀ children, ¬table.Sequence children)
    (hrecord : ∀ children, ¬table.Record children) (hmarker : table.marker ≠ .other) :
    contents encode table writer = .error .invalidJsonValue := by
  unfold contents
  cases hscan : scan (table.marker == .object) 0 0 table.entries with
  | error raised => rw [error_bind, scan_error hscan]
  | ok shape =>
    rw [ok_bind]
    by_cases hobject : shape.1 = true
    · obtain ⟨⟨children, hnamed⟩, hshape⟩ := named_of_scan hscan hobject
      refine absurd ⟨?_, hnamed⟩ (hrecord children)
      rcases hshape with hmark | hnonempty
      · exact .inl (by simpa using hmark)
      · cases hmark : table.marker with
        | none =>
          refine .inr ⟨rfl, ?_⟩
          rintro rfl
          exact hnonempty hnamed
        | object => exact .inl rfl
        | other => exact absurd hmark hmarker
    · rw [if_neg hobject]
      rw [Bool.not_eq_true] at hobject
      obtain ⟨hmark, hpositive⟩ := positive_of_scan hscan hobject
      have hnone : table.marker = .none := by
        cases hother : table.marker with
        | none => rfl
        | object => simp [hother] at hmark
        | other => exact absurd hother hmarker
      obtain ⟨largest, hresult, _, hupper, _⟩ := scan_positive hpositive 0 0
      rw [hmark, hresult] at hscan
      obtain rfl := Except.ok.inj hscan
      rw [if_pos]
      intro hcount
      have hcount : 0 + table.entries.length = largest := hcount
      refine hsequence _ ⟨hnone, array_of_scan hpositive fun entry hentry => ?_⟩
      have hbound := hupper entry hentry
      omega

end Contents

/-! ## The writer -/

variable {writer writer' : Writer}

@[simp] theorem append_nil (writer : Writer) : writer.append [] = .ok writer := by
  simp [Writer.append]

theorem append_eq_ok {text : Bytes} :
    writer.append text = .ok writer' ↔ text.length ≤ writer.remaining ∧
      writer' = ⟨writer.remaining - text.length, writer.parts ++ text⟩ := by
  unfold Writer.append
  split_ifs with hlarge
  · exact ⟨nofun, fun h => absurd h.1 (Nat.not_le.mpr hlarge)⟩
  · exact ⟨fun h => ⟨Nat.not_lt.mp hlarge, (Except.ok.inj h).symm⟩, fun h => h.2 ▸ rfl⟩

theorem append_eq_error {text : Bytes} {raised : Raised} :
    writer.append text = .error raised ↔
      writer.remaining < text.length ∧ raised = .responseTooLarge := by
  unfold Writer.append
  split_ifs with hlarge
  · exact ⟨fun h => ⟨hlarge, (Except.error.inj h).symm⟩, fun h => congrArg _ h.2.symm⟩
  · exact ⟨nofun, fun h => absurd h.1 hlarge⟩

/-- One text after another is written like the two together. -/
theorem append_append (writer : Writer) (first second : Bytes) :
    (writer.append first >>= fun writer => writer.append second) =
      writer.append (first ++ second) := by
  by_cases hlarge : writer.remaining < first.length
  · have hboth : writer.remaining < (first ++ second).length := by
      rw [List.length_append]
      omega
    rw [Writer.append, if_pos hlarge, Writer.append, if_pos hboth]
    rfl
  · rw [Writer.append, if_neg hlarge, ok_bind]
    unfold Writer.append
    simp only [List.length_append, List.append_assoc]
    by_cases hboth : writer.remaining < first.length + second.length
    · rw [if_pos (by omega), if_pos hboth]
    · rw [if_neg (by omega), if_neg hboth, Nat.sub_sub]

/-- What is done after a text, when it writes another one. -/
theorem append_bind {first second : Bytes} {f : Writer → Except Raised Writer}
    (h : ∀ writer', writer'.remaining + first.length = writer.remaining →
      f writer' = writer'.append second) :
    (writer.append first >>= f) = writer.append (first ++ second) := by
  rw [← append_append]
  cases happend : writer.append first with
  | error e => rfl
  | ok writer' =>
    obtain ⟨hlength, rfl⟩ := append_eq_ok.mp happend
    exact h _ (Nat.sub_add_cancel hlength)

theorem quote_writer {value : Bytes} (h : utf8Checked 0 value = true) (writer : Writer) :
    writer.quote value = writer.append (quoted value) := by
  have hlength := length_le_flatMap_written value
  have hquoted : (quoted value).length = (value.flatMap written).length + 2 := by
    rw [quoted, List.length_append, List.length_cons, List.length_singleton]
  unfold Writer.quote
  rw [quote_eq, if_neg (show ¬utf8Checked 0 value = false by simp [h])]
  by_cases hlarge : writer.remaining < (quoted value).length
  · rw [Writer.append, if_pos hlarge]
    split_ifs <;> rfl
  · rw [if_neg (by omega), if_neg hlarge]
    rfl

theorem length_quoted (value : Bytes) : value.length + 2 ≤ (quoted value).length := by
  have hlength := length_le_flatMap_written value
  rw [quoted, List.length_append, List.length_cons, List.length_singleton]
  omega

/-- A string that is not UTF-8 is refused as such, unless it is too long
without its escapes. -/
theorem quote_writer_invalid {value : Bytes} (h : utf8Checked 0 value = false) (writer : Writer) :
    writer.quote value =
      if writer.remaining < value.length + 2 then .error .responseTooLarge
      else .error .invalidUtf8 := by
  unfold Writer.quote
  rw [quote_eq, if_pos h]
  split_ifs
  · rfl
  · rfl

theorem quote_writer_ok {value : Bytes} (h : writer.quote value = .ok writer') :
    utf8Checked 0 value = true ∧ writer.append (quoted value) = .ok writer' := by
  obtain ⟨text, htext, happend⟩ := bind_eq_ok.mp h
  obtain ⟨hutf8, rfl, _⟩ := quote_eq_ok.mp htext
  exact ⟨hutf8, happend⟩

theorem separator_append (first : Bool) (writer : Writer) :
    writer.comma first = writer.append (separator first) := by
  unfold Writer.comma separator
  split_ifs
  · exact (append_nil writer).symm
  · rfl

/-! ## What the encoder writes stands for the item -/

section Soundness

variable {numbers : Numbers ν} {heap : Heap ν} {encode : Item ν → Writer → Except Raised Writer}

/-- Writing an item writes a value into which it unfolds. -/
def Faithful (numbers : Numbers ν) (heap : Heap ν)
    (encode : Item ν → Writer → Except Raised Writer) : Prop :=
  ∀ item writer writer', encode item writer = .ok writer' → ∃ depth value,
    Unfolds heap depth item value ∧ Sound numbers value ∧
      writer.append (render numbers value) = .ok writer'

theorem elements_sound (h : Faithful numbers heap encode) {children : List (Item ν)}
    {first : Bool} (hwritten : elements encode first children writer = .ok writer') :
    ∃ depth items, List.Forall₂ (Unfolds heap depth) children items ∧ SoundItems numbers items ∧
      writer.append (renderItems numbers first items) = .ok writer' := by
  induction children generalizing first writer with
  | nil => exact ⟨0, [], .nil, trivial, by rw [renderItems, append_nil]; exact hwritten⟩
  | cons child children ih =>
    unfold elements at hwritten
    rw [separator_append] at hwritten
    obtain ⟨writer₁, hseparator, hwritten⟩ := bind_eq_ok.mp hwritten
    obtain ⟨writer₂, hchild, hwritten⟩ := bind_eq_ok.mp hwritten
    obtain ⟨depth₁, value, hvalue, hsound, hrender⟩ := h _ _ _ hchild
    obtain ⟨depth₂, items, hitems, hsounds, hrest⟩ := ih hwritten
    refine ⟨max depth₁ depth₂, value :: items, ?_, ⟨hsound, hsounds⟩, ?_⟩
    · exact .cons (hvalue.mono (Nat.le_max_left _ _))
        (hitems.imp fun _ _ => Unfolds.mono (Nat.le_max_right _ _))
    · rw [renderItems, ← append_append, hseparator, ok_bind, ← append_append, hrender, ok_bind,
        hrest]

theorem members_sound (h : Faithful numbers heap encode) {children : List (Bytes × Item ν)}
    {first : Bool} (hwritten : members encode first (named children) writer = .ok writer') :
    ∃ depth entries, List.Forall₂ (fun child entry => child.1 = entry.1 ∧
      Unfolds heap depth child.2 entry.2) children entries ∧ SoundEntries numbers entries ∧
        writer.append (renderEntries numbers first entries) = .ok writer' := by
  induction children generalizing first writer with
  | nil => exact ⟨0, [], .nil, trivial, by rw [renderEntries, append_nil]; exact hwritten⟩
  | cons child children ih =>
    obtain ⟨key, child⟩ := child
    change members encode first ((.string key, child) :: named children) writer = _ at hwritten
    unfold members at hwritten
    rw [separator_append] at hwritten
    obtain ⟨writer₁, hseparator, hwritten⟩ := bind_eq_ok.mp hwritten
    obtain ⟨writer₂, hkey, hwritten⟩ := bind_eq_ok.mp hwritten
    obtain ⟨writer₃, hcolon, hwritten⟩ := bind_eq_ok.mp hwritten
    obtain ⟨writer₄, hchild, hwritten⟩ := bind_eq_ok.mp hwritten
    obtain ⟨hutf8, hquoted⟩ := quote_writer_ok hkey
    obtain ⟨depth₁, value, hvalue, hsound, hrender⟩ := h _ _ _ hchild
    obtain ⟨depth₂, entries, hentries, hsounds, hrest⟩ := ih hwritten
    refine ⟨max depth₁ depth₂, (key, value) :: entries, ?_, ⟨hutf8, hsound, hsounds⟩, ?_⟩
    · exact .cons ⟨rfl, hvalue.mono (Nat.le_max_left _ _)⟩
        (hentries.imp fun _ _ hentry => ⟨hentry.1, hentry.2.mono (Nat.le_max_right _ _)⟩)
    · rw [renderEntries, ← append_append, hseparator, ok_bind, ← append_append, hquoted, ok_bind,
        ← List.singleton_append, ← append_append, hcolon, ok_bind, ← append_append, hrender,
        ok_bind, hrest]

theorem forall₂_keys {depth : Nat} {children : List (Bytes × Item ν)}
    {entries : List (Bytes × Value ν)} (h : List.Forall₂ (fun child entry => child.1 = entry.1 ∧
      Unfolds heap depth child.2 entry.2) children entries) :
    children.map Prod.fst = entries.map Prod.fst := by
  induction h with
  | nil => rfl
  | cons hentry _ ih => rw [List.map_cons, List.map_cons, hentry.1, ih]

/-- The keys of an object are distinct. -/
theorem Table.Record.nodup {table : Table ν} {children : List (Bytes × Item ν)}
    (h : table.Record children) : (children.map Prod.fst).Nodup := by
  have hdistinct := table.distinct
  rw [h.2, named, List.map_map] at hdistinct
  have hkeys : (children.map Prod.fst).map Key.string =
      children.map (Prod.fst ∘ fun child => (Key.string child.1, child.2)) := by
    rw [List.map_map]
    rfl
  rw [← hkeys] at hdistinct
  exact hdistinct.of_map _

theorem contents_sound (h : Faithful numbers heap encode) {reference : Nat}
    (hmarker : (heap reference).marker ≠ .other)
    (hwritten : contents encode (heap reference) writer = .ok writer') : ∃ depth value,
      Unfolds heap depth (.table reference) value ∧ Sound numbers value ∧
        writer.append (render numbers value) = .ok writer' := by
  by_cases hsequence : ∃ children, (heap reference).Sequence children
  · obtain ⟨children, htable⟩ := hsequence
    rw [htable.contents_eq] at hwritten
    obtain ⟨writer₁, hopen, hwritten⟩ := bind_eq_ok.mp hwritten
    obtain ⟨writer₂, helements, hclose⟩ := bind_eq_ok.mp hwritten
    obtain ⟨depth, items, hitems, hsounds, hrest⟩ := elements_sound h helements
    refine ⟨depth + 1, .array items, .inl ⟨children, items, htable, rfl, hitems⟩, hsounds, ?_⟩
    rw [render, ← List.singleton_append, ← append_append, hopen, ok_bind, ← append_append, hrest,
      ok_bind, hclose]
  by_cases hrecord : ∃ children, (heap reference).Record children
  · obtain ⟨children, htable⟩ := hrecord
    rw [htable.contents_eq] at hwritten
    obtain ⟨writer₁, hopen, hwritten⟩ := bind_eq_ok.mp hwritten
    obtain ⟨writer₂, hmembers, hclose⟩ := bind_eq_ok.mp hwritten
    obtain ⟨depth, entries, hentries, hsounds, hrest⟩ := members_sound h hmembers
    refine ⟨depth + 1, .object entries, .inr ⟨children, entries, htable, rfl, hentries⟩,
      ⟨forall₂_keys hentries ▸ htable.nodup, hsounds⟩, ?_⟩
    rw [render, ← List.singleton_append, ← append_append, hopen, ok_bind, ← append_append, hrest,
      ok_bind, hclose]
  · rw [contents_neither (not_exists.mp hsequence) (not_exists.mp hrecord) hmarker] at hwritten
    cases hwritten

theorem encodeItem_scalar {item : Item ν} (h : ∀ reference, item ≠ .table reference) (fuel : Nat)
    (seen : List Nat) (writer : Writer) :
    encodeItem numbers heap fuel seen item writer = encodeScalar numbers item writer := by
  cases item with
  | table reference => exact absurd rfl (h reference)
  | _ => cases fuel <;> rfl

theorem encodeScalar_sound {item : Item ν}
    (hwritten : encodeScalar numbers item writer = .ok writer') :
    ∃ value, Unfolds heap 1 item value ∧ Sound numbers value ∧
      writer.append (render numbers value) = .ok writer' := by
  cases item with
  | nil => exact ⟨.null, rfl, trivial, by rw [render]; exact hwritten⟩
  | null => exact ⟨.null, rfl, trivial, by rw [render]; exact hwritten⟩
  | bool value =>
    refine ⟨.bool value, rfl, trivial, ?_⟩
    cases value with
    | false => rw [render]; exact hwritten
    | true => rw [render]; exact hwritten
  | number value =>
    simp only [encodeScalar] at hwritten
    split_ifs at hwritten with hfinite
    exact ⟨.number value, rfl, by simpa [Sound] using hfinite, by rw [render]; exact hwritten⟩
  | string value =>
    obtain ⟨hutf8, hquoted⟩ := quote_writer_ok hwritten
    exact ⟨.string value, rfl, hutf8, by rw [render]; exact hquoted⟩
  | table reference => cases hwritten
  | other => cases hwritten

/-- What is written for an item is the text of a value into which it unfolds. -/
theorem encodeItem_sound (fuel : Nat) (seen : List Nat) :
    Faithful numbers heap (encodeItem numbers heap fuel seen) := by
  induction fuel generalizing seen with
  | zero =>
    intro item writer writer' hwritten
    cases item with
    | table reference => cases hwritten
    | _ => exact ⟨1, encodeScalar_sound hwritten⟩
  | succ fuel ih =>
    intro item writer writer' hwritten
    cases item with
    | table reference =>
      simp only [encodeItem] at hwritten
      split_ifs at hwritten with hseen hmarker
      exact contents_sound (ih (reference :: seen)) hmarker hwritten
    | _ => exact ⟨1, encodeScalar_sound hwritten⟩

end Soundness

/-! ## What stands for a value is written -/

section Completeness

variable {numbers : Numbers ν} {heap : Heap ν} {encode : Item ν → Writer → Except Raised Writer}

/-- Writing an item writes the value's text, where few enough bytes remain. -/
def Writes (numbers : Numbers ν) (encode : Item ν → Writer → Except Raised Writer) (fuel : Nat)
    (item : Item ν) (value : Value ν) : Prop :=
  ∀ writer : Writer, writer.remaining < fuel →
    encode item writer = writer.append (render numbers value)

theorem elements_eq {fuel : Nat} {children : List (Item ν)} {items : List (Value ν)}
    (h : List.Forall₂ (Writes numbers encode fuel) children items) (first : Bool)
    (hfuel : writer.remaining < fuel) :
    elements encode first children writer = writer.append (renderItems numbers first items) := by
  induction h generalizing first writer with
  | nil => rw [elements, renderItems, append_nil]
  | @cons child item children items hchild _ ih =>
    rw [elements, renderItems, separator_append]
    refine append_bind fun writer₁ hwriter₁ => ?_
    rw [hchild writer₁ (by omega)]
    exact append_bind fun writer₂ hwriter₂ => ih false (by omega)

theorem members_eq {fuel : Nat} {children : List (Bytes × Item ν)}
    {entries : List (Bytes × Value ν)}
    (h : List.Forall₂ (fun child entry => child.1 = entry.1 ∧ utf8Checked 0 entry.1 = true ∧
      Writes numbers encode fuel child.2 entry.2) children entries) (first : Bool)
    (hfuel : writer.remaining < fuel) :
    members encode first (named children) writer =
      writer.append (renderEntries numbers first entries) := by
  induction h generalizing first writer with
  | nil => rw [renderEntries, append_nil]; rfl
  | @cons child entry children entries hentry _ ih =>
    obtain ⟨key, child⟩ := child
    obtain ⟨_, value⟩ := entry
    obtain ⟨rfl, hutf8, hchild⟩ := hentry
    show members encode first ((.string key, child) :: named children) writer = _
    rw [members, renderEntries, separator_append]
    refine append_bind fun writer₁ hwriter₁ => ?_
    rw [show writer₁.name (.string key) = writer₁.quote key from rfl, quote_writer hutf8]
    refine append_bind fun writer₂ hwriter₂ => ?_
    rw [← List.singleton_append]
    refine append_bind fun writer₃ hwriter₃ => ?_
    rw [hchild writer₃ (by omega)]
    exact append_bind fun writer₄ hwriter₄ => ih false (by omega)

/-- The tables that an item is inside of do not unfold into a value as small. -/
def Outer (heap : Heap ν) (depth : Nat) (seen : List Nat) : Prop :=
  ∀ reference ∈ seen, ∀ value, ¬Unfolds heap depth (.table reference) value

theorem Table.Sequence.not_record {table : Table ν} {children : List (Item ν)}
    {children' : List (Bytes × Item ν)} (h : table.Sequence children)
    (h' : table.Record children') :
    False := by
  rcases h'.1 with hobject | ⟨_, hnonempty⟩
  · rw [h.1] at hobject
    cases hobject
  · cases children' with
    | nil => exact hnonempty rfl
    | cons child children' =>
      have hmember : (Key.string child.1, child.2) ∈ table.entries := by
        rw [h'.2]
        exact List.mem_cons_self
      obtain ⟨index, _, hentry⟩ := List.mem_mapIdx.mp (h.2.mem_iff.mp hmember)
      cases (Prod.mk.inj hentry).1

theorem Table.Record.children_unique {table : Table ν} {children children' : List (Bytes × Item ν)}
    (h : table.Record children) (h' : table.Record children') : children = children' := by
  have hsame : named children = named children' := h.2.symm.trans h'.2
  refine List.map_injective_iff.mpr ?_ hsame
  intro child child' heq
  obtain ⟨hkey, hitem⟩ := Prod.mk.inj heq
  exact Prod.ext (Key.string.inj hkey) hitem

theorem forall₂_unique {α β : Type} {R : α → β → Prop}
    (h : ∀ a b b', R a b → R a b' → b = b') {l : List α} {l' l'' : List β}
    (hfirst : List.Forall₂ R l l') (hsecond : List.Forall₂ R l l'') : l' = l'' := by
  induction hfirst generalizing l'' with
  | nil =>
    cases hsecond
    rfl
  | cons hhead _ ih =>
    cases hsecond with
    | cons hhead' htail' => rw [h _ _ _ hhead hhead', ih htail']

/-- An item unfolds into one value at most. -/
theorem unfolds_unique {depth : Nat} {item : Item ν} {value value' : Value ν}
    (h : Unfolds heap depth item value) (h' : Unfolds heap depth item value') : value = value' := by
  induction depth generalizing item value value' with
  | zero => exact absurd h id
  | succ depth ih =>
    cases item with
    | table reference =>
      rcases h with ⟨children, items, htable, rfl, hitems⟩ |
        ⟨children, entries, htable, rfl, hentries⟩ <;>
        rcases h' with ⟨children', items', htable', rfl, hitems'⟩ |
          ⟨children', entries', htable', rfl, hentries'⟩
      · obtain rfl : children = children' := htable.children_eq.trans htable'.children_eq.symm
        exact congrArg Value.array
          (forall₂_unique (R := Unfolds heap depth) (fun _ _ _ => ih) hitems hitems')
      · exact (htable.not_record htable').elim
      · exact (htable'.not_record htable).elim
      · obtain rfl := htable.children_unique htable'
        refine congrArg Value.object (forall₂_unique ?_ hentries hentries')
        intro child entry entry' hentry hentry'
        exact Prod.ext (hentry.1.symm.trans hentry'.1) (ih hentry.2 hentry'.2)
    | nil => exact h.trans h'.symm
    | null => exact h.trans h'.symm
    | bool b => exact h.trans h'.symm
    | number n => exact h.trans h'.symm
    | string s => exact h.trans h'.symm
    | other => exact absurd h id

theorem sound_items {depth : Nat} {children : List (Item ν)} {items : List (Value ν)}
    (h : List.Forall₂ (Unfolds heap depth) children items) (hsound : SoundItems numbers items) :
    List.Forall₂ (fun child item => Unfolds heap depth child item ∧ Sound numbers item)
      children items := by
  induction h with
  | nil => exact .nil
  | cons hchild _ ih => exact .cons ⟨hchild, hsound.1⟩ (ih hsound.2)

theorem sound_entries {depth : Nat} {children : List (Bytes × Item ν)}
    {entries : List (Bytes × Value ν)} (h : List.Forall₂ (fun child entry => child.1 = entry.1 ∧
      Unfolds heap depth child.2 entry.2) children entries)
    (hsound : SoundEntries numbers entries) :
    List.Forall₂ (fun child entry => child.1 = entry.1 ∧ utf8Checked 0 entry.1 = true ∧
      Unfolds heap depth child.2 entry.2 ∧ Sound numbers entry.2) children entries := by
  induction h with
  | nil => exact .nil
  | cons hentry _ ih => exact .cons ⟨hentry.1, hsound.1, hentry.2, hsound.2.1⟩ (ih hsound.2.2)

/-- What is written for the entries of a table that makes a value. -/
theorem contents_eq {fuel depth : Nat} {reference : Nat} {value : Value ν}
    (h : Unfolds heap (depth + 1) (.table reference) value) (hsound : Sound numbers value)
    (hencode : ∀ {item value}, Unfolds heap depth item value → Sound numbers value →
      Writes numbers encode fuel item value) (hfuel : writer.remaining < fuel + 1) :
    contents encode (heap reference) writer = writer.append (render numbers value) := by
  rcases h with ⟨children, items, htable, rfl, hitems⟩ | ⟨children, entries, htable, rfl, hentries⟩
  · have hitems' := (sound_items hitems hsound).imp fun _ _ h => hencode h.1 h.2
    rw [htable.contents_eq, render]
    show _ = writer.append ([91] ++ (renderItems numbers true items ++ [93]))
    refine append_bind fun writer₁ hwriter₁ => ?_
    rw [List.length_singleton] at hwriter₁
    rw [elements_eq hitems' true (by omega), append_append]
  · have hentries' : List.Forall₂ (fun child entry => child.1 = entry.1 ∧
        utf8Checked 0 entry.1 = true ∧ Writes numbers encode fuel child.2 entry.2)
          children entries :=
      (sound_entries hentries hsound.2).imp fun _ _ h =>
        ⟨h.1, h.2.1, hencode h.2.2.1 h.2.2.2⟩
    rw [htable.contents_eq, render]
    show _ = writer.append ([123] ++ (renderEntries numbers true entries ++ [125]))
    refine append_bind fun writer₁ hwriter₁ => ?_
    rw [List.length_singleton] at hwriter₁
    rw [members_eq hentries' true (by omega), append_append]

theorem Table.Sequence.marker {table : Table ν} {children : List (Item ν)}
    (h : table.Sequence children) : table.marker ≠ .other := by
  rw [h.1]
  decide

theorem Table.Record.marker {table : Table ν} {children : List (Bytes × Item ν)}
    (h : table.Record children) : table.marker ≠ .other := by
  rcases h.1 with hmark | ⟨hmark, _⟩
  · rw [hmark]
    decide
  · rw [hmark]
    decide

theorem Unfolds.marker {depth reference : Nat} {value : Value ν}
    (h : Unfolds heap depth (.table reference) value) : (heap reference).marker ≠ .other := by
  cases depth with
  | zero => exact absurd h id
  | succ depth =>
    rcases h with ⟨_, _, htable, _⟩ | ⟨_, _, htable, _⟩
    · exact htable.marker
    · exact htable.marker

theorem encodeScalar_eq {depth : Nat} {item : Item ν} {value : Value ν}
    (hitem : ∀ reference, item ≠ .table reference) (h : Unfolds heap depth item value)
    (hsound : Sound numbers value) (writer : Writer) :
    encodeScalar numbers item writer = writer.append (render numbers value) := by
  cases depth with
  | zero => exact absurd h id
  | succ depth =>
    cases item with
    | nil =>
      obtain rfl := h
      rw [render]
      rfl
    | null =>
      obtain rfl := h
      rw [render]
      rfl
    | bool b =>
      obtain rfl := h
      cases b <;> rw [render] <;> rfl
    | number n =>
      obtain rfl := h
      have hfinite : numbers.finite n = true := hsound
      rw [render, encodeScalar, if_neg (by simp [hfinite])]
    | string s =>
      obtain rfl := h
      rw [render]
      exact quote_writer hsound writer
    | table reference => exact absurd rfl (hitem reference)
    | other => exact absurd h id

/-- An item that unfolds into a value is written as the value's text.  The
induction is on the tables that may still be entered, each of which takes a
byte of what remains. -/
theorem encodeItem_eq {fuel depth : Nat} {seen : List Nat} {item : Item ν} {value : Value ν}
    (h : Unfolds heap depth item value) (hsound : Sound numbers value)
    (houter : Outer heap depth seen) :
    Writes numbers (encodeItem numbers heap fuel seen) fuel item value := by
  induction fuel generalizing depth seen item value with
  | zero => exact fun writer hfuel => absurd hfuel (Nat.not_lt_zero _)
  | succ fuel ih =>
    intro writer hfuel
    cases item with
    | table reference =>
      -- The least depth at which the table unfolds is the one of its value.
      obtain ⟨least, hleast, hbelow⟩ : ∃ least, Unfolds heap least (.table reference) value ∧
          ∀ less, less < least → ¬Unfolds heap less (.table reference) value := by
        classical
        have hexists : ∃ least, Unfolds heap least (.table reference) value := ⟨depth, h⟩
        exact ⟨Nat.find hexists, Nat.find_spec hexists, fun _ => Nat.find_min hexists⟩
      have hdepth : least ≤ depth := by
        by_contra hmore
        exact hbelow depth (by omega) h
      have hnew : reference ∉ seen := fun hmember => houter reference hmember value h
      cases least with
      | zero => exact absurd hleast id
      | succ least =>
        have houter' : Outer heap least (reference :: seen) := by
          intro other hother value' hvalue'
          rcases List.mem_cons.mp hother with rfl | hother
          · obtain rfl := unfolds_unique hleast (hvalue'.mono (Nat.le_succ least))
            exact hbelow least (Nat.lt_succ_self least) hvalue'
          · exact houter other hother value' (hvalue'.mono (by omega))
        simp only [encodeItem]
        rw [if_neg hnew, if_neg h.marker]
        exact contents_eq hleast hsound (fun hitem hsound' => ih hitem hsound' houter') hfuel
    | _ =>
      rw [encodeItem_scalar (fun _ heq => by cases heq)]
      exact encodeScalar_eq (fun _ heq => by cases heq) h hsound writer

end Completeness

/-! ## The encoder -/

variable {numbers : Numbers ν} {heap : Heap ν}

/-- An item that unfolds into a value is written when the text fits. -/
theorem encode_eq {depth : Nat} {item : Item ν} {value : Value ν}
    (h : Unfolds heap depth item value) (hsound : Sound numbers value) (limit : Nat) :
    encode numbers heap item limit =
      if limit < (render numbers value).length then .error .responseTooLarge
      else .ok (render numbers value) := by
  have houter : Outer heap depth [] := nofun
  have hwritten : encodeItem numbers heap (limit + 1) [] item ⟨limit, []⟩ =
      Writer.append (render numbers value) ⟨limit, []⟩ :=
    encodeItem_eq h hsound houter _ (Nat.lt_succ_self limit)
  unfold encode
  rw [hwritten, Writer.append]
  split_ifs
  · rfl
  · rfl

theorem encode_eq_ok {item : Item ν} {limit : Nat} {text : Bytes} :
    encode numbers heap item limit = .ok text ↔ ∃ depth value, Unfolds heap depth item value ∧
      Sound numbers value ∧ text = render numbers value ∧ text.length ≤ limit := by
  constructor
  · intro h
    obtain ⟨writer, hwriter, htext⟩ := bind_eq_ok.mp h
    obtain rfl := Except.ok.inj htext
    obtain ⟨depth, value, hvalue, hsound, hwritten⟩ := encodeItem_sound _ _ _ _ _ hwriter
    obtain ⟨hlength, rfl⟩ := append_eq_ok.mp hwritten
    exact ⟨depth, value, hvalue, hsound, List.nil_append _, hlength⟩
  · intro h
    obtain ⟨depth, value, hvalue, hsound, rfl, hlength⟩ := h
    rw [encode_eq hvalue hsound, if_neg (Nat.not_lt.mpr hlength)]

end DstServer.Runtime
