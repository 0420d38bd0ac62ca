import DstServer.Lib.Parts
import DstServer.Lib.Utf8
import DstServer.Recovery.Model

/-!
# Permission lists

The model of `permission_users` and `edit_permission` in `files.rs`.  A
permission list is a file of records, one in a line.  A record begins with
the user id; the game puts other fields behind the byte `0xBA`.

That byte also occurs inside the UTF-8 encoding of some characters.  A user
id with such a character cannot be listed, and `edit_law_iff` says that the
edits do what they are for with every other id.
-/

namespace DstServer.Rooms

open Lib

abbrev Bytes : Type := List UInt8

/-- `identifier` of `model.rs`, the check of a user id in a request. -/
def IsUserid (userid : String) : Prop :=
  userid ≠ "" ∧ userid.toList.length ≤ 128 ∧
    userid.toList.any Text.isControl = false

instance (userid : String) : Decidable (IsUserid userid) := by
  unfold IsUserid
  infer_instance

/-- The byte between the fields of a record. -/
def fieldSeparator : UInt8 := 0xba

def endsUserid (byte : UInt8) : Bool := byte = 10 || byte = 13 || byte = fieldSeparator

def permissionUserid (record : Bytes) : Option String :=
  (String.fromUTF8? (record.takeWhile fun byte => !endsUserid byte).toByteArray).filter
    fun userid => userid ≠ ""

def permissionUsers (source : Bytes) : List String :=
  (source.splitOn 10).filterMap permissionUserid

/-- The records with their line ends. -/
def records (source : Bytes) : List Bytes := splitInclusive (fun byte => decide (byte = 10)) source

/-- What `edit_permission` keeps in its loop. -/
structure ListEdit where
  found : Bool := false
  output : Bytes := []

/-- The body of the loop. -/
def editRecord (userid : String) (remove : Bool) (edit : ListEdit) (record : Bytes) : ListEdit :=
  if permissionUserid record = some userid then
    if remove then { edit with found := true }
    else { found := true, output := edit.output ++ record }
  else { edit with output := edit.output ++ record }

/-- The text with a line feed at its end, unless it is empty. -/
def completed (source : Bytes) : Bytes :=
  if source ≠ [] ∧ source.getLast? ≠ some 10 then source ++ [10] else source

def editPermission (source : Bytes) (userid : String) (remove : Bool) : Bytes :=
  let edit := (records source).foldl (editRecord userid remove) {}
  if remove = false ∧ edit.found = false then completed edit.output ++ utf8 userid.toList ++ [10]
  else edit.output

/-! ## What the edits are for -/

/-- The records of the other users. -/
def others (userid : String) (source : Bytes) : List Bytes :=
  (records source).filter fun record => permissionUserid record ≠ some userid

/-- What adding a user to a list and removing him from it is to do. -/
structure EditLaw (source : Bytes) (userid : String) : Prop where
  added : userid ∈ permissionUsers (editPermission source userid false)
  removed : userid ∉ permissionUsers (editPermission source userid true)
  /-- The other records are as before, with the line end of the last one. -/
  keptAdding : others userid (editPermission source userid false) = others userid source ∨
    others userid (editPermission source userid false) = others userid (completed source)
  keptRemoving : others userid (editPermission source userid true) = others userid source
  listed : userid ∈ permissionUsers source → editPermission source userid false = source
  unlisted : userid ∉ permissionUsers source → editPermission source userid true = source
  idempotentAdding : editPermission (editPermission source userid false) userid false =
    editPermission source userid false
  idempotentRemoving : editPermission (editPermission source userid true) userid true =
    editPermission source userid true

/-! ## Records -/

theorem permissionUserid_eq_some {record : Bytes} {userid : String} :
    permissionUserid record = some userid ↔
      (record.takeWhile fun byte => !endsUserid byte) = utf8 userid.toList ∧ userid ≠ "" := by
  rw [permissionUserid, Option.filter_eq_some_iff, fromUTF8?_eq_some, decide_eq_true_eq]

/-- A listed user has no separator in his id. -/
theorem clear_of_permissionUserid {record : Bytes} {userid : String}
    (h : permissionUserid record = some userid) : fieldSeparator ∉ utf8 userid.toList := by
  intro hmem
  rw [← (permissionUserid_eq_some.1 h).1] at hmem
  have hends := List.mem_takeWhile_imp hmem
  simp [endsUserid] at hends

theorem clear_of_mem_users {source : Bytes} {userid : String}
    (h : userid ∈ permissionUsers source) : fieldSeparator ∉ utf8 userid.toList := by
  obtain ⟨record, _, hrecord⟩ := List.mem_filterMap.1 h
  exact clear_of_permissionUserid hrecord

/-- The user does not depend on the line end of his record. -/
theorem permissionUserid_takeWhile (record : Bytes) :
    permissionUserid (record.takeWhile fun byte => decide (byte ≠ 10)) =
      permissionUserid record := by
  unfold permissionUserid
  rw [List.takeWhile_takeWhile]
  congr 4
  funext byte
  by_cases h : byte = 10 <;> simp [endsUserid, h]

theorem splitOn_line (source : Bytes) :
    ((10 : UInt8) :: source).splitOn 10 = [] :: source.splitOn 10 := by
  show List.splitOnP _ _ = [] :: List.splitOnP _ _
  rw [List.splitOnP_cons_eq_if_modifyHead, if_pos (by decide)]

theorem splitOn_byte {byte : UInt8} (h : byte ≠ 10) (source : Bytes) :
    (byte :: source).splitOn 10 = (source.splitOn 10).modifyHead (List.cons byte) := by
  show List.splitOnP _ _ = (List.splitOnP _ _).modifyHead _
  rw [List.splitOnP_cons_eq_if_modifyHead, if_neg (by simpa using h)]

theorem records_line (source : Bytes) : records (10 :: source) = [10] :: records source := by
  rw [records, splitInclusive, if_pos (by decide), records]

theorem records_byte {byte : UInt8} (h : byte ≠ 10) (source : Bytes) :
    records (byte :: source) =
      match records source with
      | [] => [[byte]]
      | part :: parts => (byte :: part) :: parts := by
  unfold records
  rw [splitInclusive, if_neg (by simpa using h)]
  cases splitInclusive (fun byte => decide (byte = 10)) source <;> rfl

theorem flatten_records (source : Bytes) : (records source).flatten = source :=
  flatten_splitInclusive source

/-- The lines are the records without their line ends, and an empty one
behind the last line end. -/
theorem splitOn_eq (source : Bytes) :
    source.splitOn 10 =
      (records source).map (fun record => record.takeWhile fun byte => decide (byte ≠ 10)) ++
        if source = [] ∨ source.getLast? = some 10 then [[]] else [] := by
  induction source with
  | nil => rfl
  | cons byte source ih =>
    by_cases hbyte : byte = 10
    · subst hbyte
      have hends : (10 :: source = [] ∨ (10 :: source).getLast? = some 10) ↔
          (source = [] ∨ source.getLast? = some 10) := by
        cases source with
        | nil => simp
        | cons next source => simp
      simp only [splitOn_line, records_line, ih, hends, List.map_cons, List.cons_append]
      rfl
    · have hends : (byte :: source = [] ∨ (byte :: source).getLast? = some 10) ↔
          source ≠ [] ∧ source.getLast? = some 10 := by
        cases source with
        | nil => simp [hbyte]
        | cons next source => simp
      simp only [splitOn_byte hbyte, records_byte hbyte, ih, hends]
      cases hsplit : records source with
      | nil =>
        have hempty : source = [] := by
          rw [← flatten_records source, hsplit]
          rfl
        subst hempty
        simp [hbyte]
      | cons part parts =>
        have hne : source ≠ [] := by
          rintro rfl
          cases hsplit
        have hpart : (byte :: part).takeWhile (fun byte => decide (byte ≠ 10)) =
            byte :: part.takeWhile fun byte => decide (byte ≠ 10) :=
          List.takeWhile_cons_of_pos (decide_eq_true hbyte)
        simp only [List.map_cons, List.cons_append, List.modifyHead_cons, hpart, hne, false_or,
          ne_eq, not_false_eq_true, true_and]

theorem permissionUsers_eq (source : Bytes) :
    permissionUsers source = (records source).filterMap permissionUserid := by
  have hempty : permissionUserid [] = none := by
    rw [Option.eq_none_iff_forall_ne_some]
    intro userid h
    obtain ⟨hbytes, hne⟩ := permissionUserid_eq_some.1 h
    refine hne (String.toList_inj.1 (utf8_injective ?_))
    exact hbytes.symm
  rw [permissionUsers, splitOn_eq, List.filterMap_append, List.filterMap_map]
  have hlast : (if source = [] ∨ source.getLast? = some 10 then [[]] else []).filterMap
      permissionUserid = [] := by
    split
    · rw [List.filterMap_cons_none hempty, List.filterMap_nil]
    · rfl
  rw [hlast, List.append_nil]
  exact List.filterMap_congr fun record _ => permissionUserid_takeWhile record

theorem mem_users {source : Bytes} {userid : String} :
    userid ∈ permissionUsers source ↔
      ∃ record ∈ records source, permissionUserid record = some userid := by
  rw [permissionUsers_eq, List.mem_filterMap]

/-- Records, of which only the last one may be without a line end. -/
def AreRecords (parts : List Bytes) : Prop :=
  ∃ whole rest, parts = whole ++ rest ∧
    (∀ part ∈ whole, IsWhole (fun byte => decide (byte = 10)) part) ∧
      (rest = [] ∨ ∃ part, rest = [part] ∧ part ≠ [] ∧ ∀ byte ∈ part, byte ≠ 10)

theorem records_flatten {parts : List Bytes} (h : AreRecords parts) :
    records parts.flatten = parts := by
  obtain ⟨whole, rest, rfl, hwhole, hrest⟩ := h
  rw [records, List.flatten_append, splitInclusive_append hwhole]
  rcases hrest with rfl | ⟨part, rfl, hne, hclear⟩
  · rfl
  · rw [List.flatten_singleton, splitInclusive_of_clear (by simpa using hclear) hne]

theorem areRecords_records (source : Bytes) : AreRecords (records source) := by
  induction source with
  | nil => exact ⟨[], [], rfl, by simp, .inl rfl⟩
  | cons byte source ih =>
    obtain ⟨whole, rest, hparts, hwhole, hrest⟩ := ih
    by_cases hbyte : byte = 10
    · subst hbyte
      rw [records_line, hparts]
      refine ⟨[10] :: whole, rest, rfl, ?_, hrest⟩
      intro part hpart
      rcases List.mem_cons.1 hpart with rfl | hpart
      · exact ⟨[], 10, rfl, by simp, by simp⟩
      · exact hwhole part hpart
    · rw [records_byte hbyte, hparts]
      cases whole with
      | nil =>
        rcases hrest with rfl | ⟨part, rfl, _, hclear⟩
        · exact ⟨[], [[byte]], rfl, by simp, .inr ⟨[byte], rfl, by simp, by simpa using hbyte⟩⟩
        · refine ⟨[], [byte :: part], rfl, by simp, .inr ⟨byte :: part, rfl, by simp, ?_⟩⟩
          exact List.forall_mem_cons.2 ⟨hbyte, hclear⟩
      | cons first whole =>
        refine ⟨(byte :: first) :: whole, rest, rfl, ?_, hrest⟩
        intro part hpart
        rcases List.mem_cons.1 hpart with rfl | hpart
        · obtain ⟨body, last, rfl, hlast, hbody⟩ := hwhole first List.mem_cons_self
          refine ⟨byte :: body, last, rfl, hlast, List.forall_mem_cons.2 ⟨?_, hbody⟩⟩
          simpa using hbyte
        · exact hwhole part (List.mem_cons_of_mem _ hpart)

theorem AreRecords.filter {parts : List Bytes} (h : AreRecords parts) (p : Bytes → Bool) :
    AreRecords (parts.filter p) := by
  obtain ⟨whole, rest, rfl, hwhole, hrest⟩ := h
  refine ⟨whole.filter p, rest.filter p, List.filter_append _ _, ?_, ?_⟩
  · intro part hpart
    exact hwhole part (List.mem_of_mem_filter hpart)
  · rcases hrest with rfl | ⟨part, rfl, hpart⟩
    · exact .inl rfl
    · cases hkept : p part with
      | true => exact .inr ⟨part, List.filter_cons_of_pos hkept, hpart⟩
      | false => exact .inl (List.filter_cons_of_neg (by simp [hkept]))

/-! ## The loop -/

theorem foldl_editRecord (userid : String) (remove : Bool) (parts : List Bytes) (edit : ListEdit) :
    parts.foldl (editRecord userid remove) edit =
      { found := edit.found || parts.any fun record => permissionUserid record = some userid
        output := edit.output ++ (parts.filter fun record =>
          !remove || decide (permissionUserid record ≠ some userid)).flatten } := by
  induction parts generalizing edit with
  | nil => simp
  | cons record parts ih =>
    rw [List.foldl_cons, ih, editRecord, List.filter_cons]
    by_cases h : permissionUserid record = some userid <;> cases remove <;>
      simp [h, List.append_assoc]

theorem editPermission_true (source : Bytes) (userid : String) :
    editPermission source userid true = (others userid source).flatten := by
  rw [editPermission, foldl_editRecord, others]
  simp

theorem editPermission_false (source : Bytes) (userid : String) :
    editPermission source userid false =
      if userid ∈ permissionUsers source then source
      else completed source ++ utf8 userid.toList ++ [10] := by
  have hall : ((records source).filter fun record =>
      !false || decide (permissionUserid record ≠ some userid)).flatten = source := by
    have hevery : (records source).filter (fun record =>
        !false || decide (permissionUserid record ≠ some userid)) = records source :=
      List.filter_eq_self.2 fun _ _ => rfl
    rw [hevery]
    exact flatten_records source
  have hfound : ((records source).any fun record => permissionUserid record = some userid) =
      decide (userid ∈ permissionUsers source) := by
    rw [Bool.eq_iff_iff, List.any_eq_true, decide_eq_true_eq, mem_users]
    simp
  rw [editPermission, foldl_editRecord, hall, hfound]
  by_cases h : userid ∈ permissionUsers source <;> simp [h]

theorem records_removed (source : Bytes) (userid : String) :
    records (editPermission source userid true) = others userid source := by
  rw [editPermission_true, others]
  exact records_flatten ((areRecords_records source).filter _)

theorem removed_not_mem (source : Bytes) (userid : String) :
    userid ∉ permissionUsers (editPermission source userid true) := by
  rw [mem_users, records_removed]
  rintro ⟨record, hmem, hrecord⟩
  have hother := List.of_mem_filter hmem
  simp [hrecord] at hother

theorem edit_unlisted {source : Bytes} {userid : String} (h : userid ∉ permissionUsers source) :
    editPermission source userid true = source := by
  rw [editPermission_true, others, List.filter_eq_self.2]
  · exact flatten_records source
  · intro record hrecord
    rw [decide_eq_true_eq]
    intro huserid
    exact h (mem_users.2 ⟨record, hrecord, huserid⟩)

/-! ## A new record -/

/-- A text with a line feed at its end has only whole records. -/
theorem whole_completed (source : Bytes) : ∀ record ∈ records (completed source),
    IsWhole (fun byte => decide (byte = 10)) record := by
  obtain ⟨whole, rest, hparts, hwhole, hrest⟩ := areRecords_records source
  have hflat : source = (whole ++ rest).flatten := by
    rw [← hparts, flatten_records]
  rcases hrest with rfl | ⟨part, rfl, hne, hclear⟩
  · have hcompleted : completed source = source := by
      refine if_neg ?_
      rintro ⟨hne, hlast⟩
      rw [List.append_nil] at hflat
      rcases List.eq_nil_or_concat whole with rfl | ⟨front, last, rfl⟩
      · exact hne hflat
      · obtain ⟨body, final, rfl, hfinal, _⟩ := hwhole last (by simp)
        refine hlast ?_
        rw [hflat]
        simpa using hfinal
    rw [hcompleted, hparts, List.append_nil]
    exact hwhole
  · have hcompleted : completed source = (whole ++ [part ++ [10]]).flatten := by
      have hends : source ≠ [] ∧ source.getLast? ≠ some 10 := by
        obtain ⟨front, last, rfl⟩ := (List.eq_nil_or_concat part).resolve_left hne
        rw [hflat]
        constructor
        · simp
        · simpa using hclear last (by simp)
      rw [completed, if_pos hends, hflat]
      simp
    have hparts' : ∀ record ∈ whole ++ [part ++ [10]],
        IsWhole (fun byte => decide (byte = 10)) record := by
      intro record hrecord
      rcases List.mem_append.1 hrecord with hrecord | hrecord
      · exact hwhole record hrecord
      · rw [List.mem_singleton.1 hrecord]
        exact ⟨part, 10, rfl, by simp, by simpa using hclear⟩
    rw [hcompleted, records_flatten ⟨_, [], (List.append_nil _).symm, hparts', .inl rfl⟩]
    exact hparts'

/-- The new record is the last one. -/
theorem records_added (source : Bytes) {userid : String} (hclear : (10 : UInt8) ∉ utf8 userid.toList) :
    records (completed source ++ utf8 userid.toList ++ [10]) =
      records (completed source) ++ [utf8 userid.toList ++ [10]] := by
  have hnew : IsWhole (fun byte => decide (byte = 10)) (utf8 userid.toList ++ [10]) :=
    ⟨_, 10, rfl, by simp, fun byte hbyte => by
      rw [decide_eq_false_iff_not]
      rintro rfl
      exact hclear hbyte⟩
  have hwhole : ∀ record ∈ records (completed source) ++ [utf8 userid.toList ++ [10]],
      IsWhole (fun byte => decide (byte = 10)) record := by
    intro record hrecord
    rcases List.mem_append.1 hrecord with hrecord | hrecord
    · exact whole_completed source record hrecord
    · rw [List.mem_singleton.1 hrecord]
      exact hnew
  have hflat := records_flatten ⟨_, [], (List.append_nil _).symm, hwhole, .inl rfl⟩
  rw [List.flatten_append, List.flatten_singleton] at hflat
  rwa [flatten_records, ← List.append_assoc] at hflat

/-- An id without control characters has no line end in its bytes. -/
theorem not_mem_utf8_of_isUserid {userid : String} (h : IsUserid userid) :
    (10 : UInt8) ∉ utf8 userid.toList ∧ (13 : UInt8) ∉ utf8 userid.toList := by
  have hbyte : ∀ byte ∈ utf8 userid.toList, byte.toNat < 32 → False := by
    intro byte hmem hlow
    obtain ⟨c, hc, hbyte⟩ := List.mem_flatMap.1 hmem
    by_cases hascii : c.toNat < 128
    · rw [utf8EncodeChar_ascii hascii, List.mem_singleton] at hbyte
      rw [hbyte, UInt8.toNat_ofNat'] at hlow
      have hlow' : c.toNat < 32 := by omega
      have hcontrol : Text.isControl c = true := by
        simp [Text.isControl, hlow']
      have hnone := List.any_eq_false.1 h.2.2 c hc
      exact hnone hcontrol
    · have hhigh := le_of_mem_utf8EncodeChar (Nat.le_of_not_lt hascii) hbyte
      omega
  exact ⟨fun hmem => hbyte _ hmem (by decide), fun hmem => hbyte _ hmem (by decide)⟩

theorem permissionUserid_added {userid : String} (h : IsUserid userid)
    (hclear : fieldSeparator ∉ utf8 userid.toList) :
    permissionUserid (utf8 userid.toList ++ [10]) = some userid := by
  obtain ⟨hline, hreturn⟩ := not_mem_utf8_of_isUserid h
  refine permissionUserid_eq_some.2 ⟨?_, h.1⟩
  rw [List.takeWhile_append_of_pos]
  · simp [endsUserid]
  · intro byte hbyte
    have hne : byte ≠ 10 ∧ byte ≠ 13 ∧ byte ≠ fieldSeparator := by
      refine ⟨?_, ?_, ?_⟩
      · rintro rfl
        exact hline hbyte
      · rintro rfl
        exact hreturn hbyte
      · rintro rfl
        exact hclear hbyte
    simp [endsUserid, hne]

theorem added_mem {userid : String} (source : Bytes) (h : IsUserid userid)
    (hclear : fieldSeparator ∉ utf8 userid.toList) :
    userid ∈ permissionUsers (editPermission source userid false) := by
  rw [editPermission_false]
  split
  · assumption
  · rw [mem_users, records_added source (not_mem_utf8_of_isUserid h).1]
    exact ⟨_, List.mem_append_right _ List.mem_cons_self, permissionUserid_added h hclear⟩

/-- The edits do what they are for unless the id has the byte between the
fields of a record in its encoding. -/
theorem edit_law_iff (source : Bytes) (userid : String) (h : IsUserid userid) :
    EditLaw source userid ↔ fieldSeparator ∉ utf8 userid.toList := by
  constructor
  · intro hlaw
    exact clear_of_mem_users hlaw.added
  · intro hclear
    have hadded := added_mem source h hclear
    refine ⟨hadded, removed_not_mem source userid, ?_, ?_, ?_, edit_unlisted, ?_, ?_⟩
    · rw [editPermission_false]
      split
      · exact .inl rfl
      · refine .inr ?_
        rw [others, records_added source (not_mem_utf8_of_isUserid h).1, List.filter_append,
          ← others, List.filter_cons_of_neg (by simp [permissionUserid_added h hclear]),
          List.filter_nil, List.append_nil]
    · rw [others, records_removed, others, List.filter_filter]
      simp
    · intro hlisted
      rw [editPermission_false, if_pos hlisted]
    · rw [editPermission_false (editPermission source userid false), if_pos hadded]
    · exact edit_unlisted (removed_not_mem source userid)

theorem edit_law_iff_sample :
    EditLaw [75, 85, 95, 97, 0xba, 0xba, 49, 10, 0xff] "KU_b" ↔
      fieldSeparator ∉ utf8 "KU_b".toList :=
  edit_law_iff _ _ (by decide)

/-- The ordinal indicator is admitted in a user id, and its encoding has the
byte between the fields. -/
theorem ordinal_not_listed : IsUserid "º" ∧ ¬EditLaw [] "º" := by
  constructor
  · decide
  · intro hlaw
    exact clear_of_mem_users hlaw.added (by decide)

end DstServer.Rooms
