import DstServer.Rpc.Codec

/-!
# What was written is read again

The two ends of the codec account alike: what a value takes of the budget
when it is written is its size on the wire, and reading takes as much
(`readValue_writeValue`).  So a value that fits when it is written fits
wherever that much of the budget is left, at the same depth.

The proofs follow the value.  A budget is compared with a larger one, since
the reader may have more left than the writer had.
-/

namespace DstServer.Rpc

open Lib Outcome

/-! ## The budget -/

namespace Budget

variable {budget rest : Nat}

/-- What a step takes of a budget, it takes of a larger one. -/
theorem take_add {bytes : Nat} (h : take budget bytes = .ok rest) :
    rest + bytes = budget ∧ ∀ extra, take (budget + extra) bytes = .ok (rest + extra) := by
  unfold take at h
  split at h
  · rename_i hfits
    cases h
    refine ⟨Nat.sub_add_cancel hfits, fun extra => ?_⟩
    rw [take, if_pos (by omega), Nat.sub_add_comm hfits]
  · cases h

theorem text_add {value : String} (h : text budget value = .ok rest) :
    rest + Wire.textBytes value = budget ∧
      ∀ extra, text (budget + extra) value = .ok (rest + extra) := take_add h

theorem list_add {length itemBytes : Nat} (h : list budget length itemBytes = .ok rest) :
    rest + 8 = budget ∧ ∀ extra, list (budget + extra) length itemBytes = .ok (rest + extra) := by
  unfold list at h
  split at h
  · cases h
  rename_i hfits
  obtain ⟨hrest, hmore⟩ := take_add h
  refine ⟨hrest, fun extra => ?_⟩
  have hlarger : budget / itemBytes ≤ (budget + extra) / itemBytes :=
    Nat.div_le_div_right (Nat.le_add_right _ _)
  rw [list, if_neg (by omega), hmore]

end Budget

/-! ## Numbers -/

section Codec

variable {numbers : Numbers}

/-- A written value is read again, with as much of any larger budget. -/
def Reads (numbers : Numbers) (value : Json) (wire : Wire numbers.Float)
    (budget rest depth : Nat) : Prop :=
  ∃ restored, value.Same restored ∧ rest + wire.bytes = budget ∧
    ∀ extra, readValue numbers wire (budget + extra) depth = .ok (restored, rest + extra)

theorem exactFloat?_eq_some {literal : String} {float : numbers.Float}
    (h : exactFloat? numbers literal = some float) : numbers.fromF64 float = some literal := by
  rw [exactFloat?, Option.filter_eq_some_iff] at h
  exact of_decide_eq_true h.2

theorem reads_number (hnumbers : numbers.Lawful) {literal : String} {value : ℚ}
    (hvalue : Numeral.value? literal.toList = some value) {budget start rest depth : Nat}
    {wire : Wire numbers.Float} (hdepth : checkDepth depth = .ok ())
    (htake : Budget.take budget 24 = .ok start)
    (hwrite : writeNumber numbers literal start = .ok (wire, rest)) :
    Reads numbers (.number literal) wire budget rest depth := by
  obtain ⟨hstart, hmore⟩ := Budget.take_add htake
  unfold writeNumber at hwrite
  split at hwrite
  · rename_i n hint
    cases hwrite
    have hn := Numeral.value?_asI64 hint hvalue
    refine ⟨.number (toString n), .number hvalue ?_, hstart, fun extra => ?_⟩
    · rw [Numeral.value?_toString_int, hn]
    · simp [readValue, hdepth, hmore]
  split at hwrite
  · rename_i n hint
    cases hwrite
    have hn := Numeral.value?_asU64 hint hvalue
    refine ⟨.number (toString n), .number hvalue ?_, hstart, fun extra => ?_⟩
    · rw [Numeral.value?_toString_nat, hn]
    · simp [readValue, hdepth, hmore]
  split at hwrite
  · rename_i float hfloat
    cases hwrite
    have hexact := exactFloat?_eq_some hfloat
    refine ⟨.number literal, .number hvalue hvalue, hstart, fun extra => ?_⟩
    simp [readValue, hdepth, hmore, hexact, orError]
  · obtain ⟨left, htext, hleft⟩ := bind_eq_ok.1 hwrite
    cases hleft
    obtain ⟨hrest, hmore'⟩ := Budget.text_add htext
    obtain ⟨parsed, hparsed, hsame⟩ := hnumbers.parse literal value hvalue
    refine ⟨.number parsed, .number hvalue hsame, ?_, fun extra => ?_⟩
    · simp only [Wire.bytes]
      omega
    · simp [readValue, hdepth, hmore, hmore', hparsed, orError]

/-! ## Values -/

/-- The read items of a list, or the read fields of an object. -/
def ReadsItems (numbers : Numbers) (items : List Json) (wires : List (Wire numbers.Float))
    (budget rest depth : Nat) : Prop :=
  ∃ restored, List.Forall₂ Json.Same items restored ∧ wires.length = items.length ∧
    rest + Wire.bytesValues wires = budget ∧
    ∀ extra, readItems numbers wires (budget + extra) depth = .ok (restored, rest + extra)

/-- The entries of an object are read behind the fields `before`. -/
def ReadsFields (numbers : Numbers) (fields : List (String × Json))
    (entries : List (String × Wire numbers.Float)) (budget rest depth : Nat) : Prop :=
  ∃ restored, fields.map Prod.fst = restored.map Prod.fst ∧
    List.Forall₂ Json.Same (fields.map Prod.snd) (restored.map Prod.snd) ∧
    entries.length = fields.length ∧
    rest + Wire.bytesEntries entries = budget + 16 * entries.length ∧
    ∀ before extra, ((before ++ fields).map Prod.fst).Pairwise (· < ·) →
      readEntries numbers entries before (budget + extra) depth =
        .ok (before ++ restored, rest + extra)

theorem lookup_of_lt {before : List (String × Json)} {key : String}
    (h : ∀ field ∈ before, field.1 < key) : before.lookup key = none := by
  rw [List.lookup_eq_none_iff]
  intro field hfield
  rw [bne_iff_ne]
  exact fun heq => String.lt_irrefl key (heq ▸ h field hfield)

mutual

theorem reads_value (hnumbers : numbers.Lawful) : (value : Json) → value.Valid →
    ∀ {budget rest depth : Nat} {wire : Wire numbers.Float},
      writeValue numbers value budget depth = .ok (wire, rest) →
        Reads numbers value wire budget rest depth
  | .null, _, budget, rest, depth, wire, hwrite => by
    simp only [writeValue, bind_eq_ok] at hwrite
    obtain ⟨⟨⟩, hdepth, start, htake, hnull⟩ := hwrite
    cases hnull
    obtain ⟨hstart, hmore⟩ := Budget.take_add htake
    exact ⟨.null, .null, hstart, fun extra => by simp [readValue, hdepth, hmore]⟩
  | .bool value, _, budget, rest, depth, wire, hwrite => by
    simp only [writeValue, bind_eq_ok] at hwrite
    obtain ⟨⟨⟩, hdepth, start, htake, hbool⟩ := hwrite
    cases hbool
    obtain ⟨hstart, hmore⟩ := Budget.take_add htake
    exact ⟨.bool value, .bool value, hstart, fun extra => by simp [readValue, hdepth, hmore]⟩
  | .number literal, hvalid, budget, rest, depth, wire, hwrite => by
    simp only [writeValue, bind_eq_ok] at hwrite
    obtain ⟨⟨⟩, hdepth, start, htake, hnumber⟩ := hwrite
    obtain ⟨value, hvalue⟩ := Option.isSome_iff_exists.1 hvalid
    exact reads_number hnumbers hvalue hdepth htake hnumber
  | .string value, _, budget, rest, depth, wire, hwrite => by
    simp only [writeValue, bind_eq_ok] at hwrite
    obtain ⟨⟨⟩, hdepth, start, htake, left, htext, hstring⟩ := hwrite
    cases hstring
    obtain ⟨hstart, hmore⟩ := Budget.take_add htake
    obtain ⟨hleft, hmore'⟩ := Budget.text_add htext
    refine ⟨.string value, .string value, ?_, fun extra => ?_⟩
    · simp only [Wire.bytes]
      omega
    · simp [readValue, hdepth, hmore, hmore']
  | .array items, hvalid, budget, rest, depth, wire, hwrite => by
    simp only [writeValue, bind_eq_ok, Prod.exists] at hwrite
    obtain ⟨⟨⟩, hdepth, start, htake, left, hlist, wires, last, hitems, harray⟩ := hwrite
    cases harray
    obtain ⟨hstart, hmore⟩ := Budget.take_add htake
    obtain ⟨hleft, hmore'⟩ := Budget.list_add hlist
    obtain ⟨restored, hsame, hlength, hbytes, hread⟩ := reads_items hnumbers items hvalid hitems
    refine ⟨.array restored, .array hsame, ?_, fun extra => ?_⟩
    · simp only [Wire.bytes]
      omega
    · simp [readValue, hdepth, hmore, hlength, hmore', hread]
  | .object fields, hvalid, budget, rest, depth, wire, hwrite => by
    simp only [writeValue, bind_eq_ok, Prod.exists] at hwrite
    obtain ⟨⟨⟩, hdepth, start, htake, left, hlist, slots, hslots, entries, last, hfields, hobject⟩ :=
      hwrite
    cases hobject
    obtain ⟨hstart, hmore⟩ := Budget.take_add htake
    obtain ⟨hleft, hmore'⟩ := Budget.list_add hlist
    obtain ⟨hslot, hmore''⟩ := Budget.take_add hslots
    obtain ⟨restored, hkeys, hsame, hlength, hbytes, hread⟩ :=
      reads_fields hnumbers fields hvalid.2 hfields
    refine ⟨.object restored, .object hkeys hsame, ?_, fun extra => ?_⟩
    · simp only [Wire.bytes]
      omega
    · simp [readValue, hdepth, hmore, hlength, hmore', hmore'', hread [] extra hvalid.1]

theorem reads_items (hnumbers : numbers.Lawful) : (items : List Json) → Json.ValidItems items →
    ∀ {budget rest depth : Nat} {wires : List (Wire numbers.Float)},
      writeItems numbers items budget depth = .ok (wires, rest) →
        ReadsItems numbers items wires budget rest depth
  | [], _, budget, rest, depth, wires, hwrite => by
    simp only [writeItems, pure_eq_ok] at hwrite
    cases hwrite
    exact ⟨[], .nil, rfl, rfl, fun extra => by simp [readItems]⟩
  | item :: items, hvalid, budget, rest, depth, wires, hwrite => by
    simp only [writeItems, bind_eq_ok, Prod.exists] at hwrite
    obtain ⟨wire, left, hitem, others, last, hitems, hwires⟩ := hwrite
    cases hwires
    obtain ⟨restored, hsame, hbytes, hread⟩ := reads_value hnumbers item hvalid.1 hitem
    obtain ⟨restoreds, hsames, hlength, hbytes', hread'⟩ :=
      reads_items hnumbers items hvalid.2 hitems
    refine ⟨restored :: restoreds, .cons hsame hsames, ?_, ?_, fun extra => ?_⟩
    · rw [List.length_cons, List.length_cons, hlength]
    · simp only [Wire.bytesValues]
      omega
    · simp [readItems, hread, hread']

theorem reads_fields (hnumbers : numbers.Lawful) :
    (fields : List (String × Json)) → Json.ValidFields fields →
    ∀ {budget rest depth : Nat} {entries : List (String × Wire numbers.Float)},
      writeFields numbers fields budget depth = .ok (entries, rest) →
        ReadsFields numbers fields entries budget rest depth
  | [], _, budget, rest, depth, entries, hwrite => by
    simp only [writeFields, pure_eq_ok] at hwrite
    cases hwrite
    exact ⟨[], rfl, .nil, rfl, rfl, fun before extra _ => by simp [readEntries]⟩
  | (key, value) :: fields, hvalid, budget, rest, depth, entries, hwrite => by
    simp only [writeFields, bind_eq_ok, Prod.exists] at hwrite
    obtain ⟨left, htext, wire, middle, hvalue, others, last, hfields, hentries⟩ := hwrite
    cases hentries
    obtain ⟨hleft, hmore⟩ := Budget.text_add htext
    obtain ⟨restored, hsame, hbytes, hread⟩ := reads_value hnumbers value hvalid.1 hvalue
    obtain ⟨restoreds, hkeys, hsames, hlength, hbytes', hread'⟩ :=
      reads_fields hnumbers fields hvalid.2 hfields
    refine ⟨(key, restored) :: restoreds, ?_, .cons hsame hsames, ?_, ?_, fun before extra hsorted => ?_⟩
    · rw [List.map_cons, List.map_cons, hkeys]
    · rw [List.length_cons, List.length_cons, hlength]
    · simp only [Wire.bytesEntries, List.length_cons]
      omega
    · have hbefore : ∀ field ∈ before, field.1 < key := by
        intro field hfield
        rw [List.map_append, List.pairwise_append] at hsorted
        exact hsorted.2.2 field.1 (List.mem_map_of_mem hfield) key (by simp)
      have hnext : (((before ++ [(key, restored)]) ++ fields).map Prod.fst).Pairwise (· < ·) := by
        simpa using hsorted
      have hrest := hread' (before ++ [(key, restored)]) extra hnext
      simp [readEntries, hmore, lookup_of_lt hbefore, ensure, hread,
        Json.insertField_append restored hbefore, hrest]

end

/-- Every budget with as much left as the writer was given is enough for the
reader. -/
theorem reads_encoded (hnumbers : numbers.Lawful) {value : Json} (hvalid : value.Valid)
    {limit : Nat} {wire : Wire numbers.Float} (hencode : encodeValue numbers value limit = .ok wire) :
    ∃ rest, Reads numbers value wire limit rest 0 := by
  simp only [encodeValue, bind_eq_ok, Prod.exists] at hencode
  obtain ⟨encoded, rest, hwrite, ⟨⟩, _, hencoded⟩ := hencode
  cases hencoded
  exact ⟨rest, reads_value hnumbers value hvalid hwrite⟩

theorem bytes_encoded_le (hnumbers : numbers.Lawful) {value : Json} (hvalid : value.Valid)
    {limit : Nat} {wire : Wire numbers.Float} (hencode : encodeValue numbers value limit = .ok wire) :
    wire.bytes ≤ limit := by
  obtain ⟨rest, _, _, hbytes, _⟩ := reads_encoded hnumbers hvalid hencode
  omega

theorem decodeValue_encodeValue (hnumbers : numbers.Lawful) {value : Json} (hvalid : value.Valid)
    {limit : Nat} (hlimit : limit ≤ maxMessage) {wire : Wire numbers.Float}
    (hencode : encodeValue numbers value limit = .ok wire) :
    ∃ restored, decodeValue numbers wire = .ok restored ∧ value.Same restored := by
  obtain ⟨rest, restored, hsame, hbytes, hread⟩ := reads_encoded hnumbers hvalid hencode
  refine ⟨restored, ?_, hsame⟩
  have hbudget : maxMessage = limit + (maxMessage - limit) := by omega
  rw [decodeValue, hbudget, hread]
  rfl

/-! ## What does not fit is an error -/

/-- The outcome is a value, or an overflow. -/
def Overflows {α : Type} (outcome : Outcome Error α) : Prop :=
  ∀ fault, outcome = .error fault → ∃ message, fault = .error (overflow message)

theorem overflows_ok {α : Type} (a : α) : Overflows (.ok a : Outcome Error α) :=
  fun _ h => nomatch h

theorem overflows_fail {α : Type} (message : String) :
    Overflows (fail (overflow message) : Outcome Error α) := by
  intro fault h
  cases h
  exact ⟨message, rfl⟩

theorem Overflows.bind {α β : Type} {x : Outcome Error α} {f : α → Outcome Error β}
    (hx : Overflows x) (hf : ∀ a, Overflows (f a)) : Overflows (x >>= f) := by
  cases x with
  | ok a => exact hf a
  | error fault =>
    intro other h
    cases h
    exact hx fault rfl

theorem overflows_ensure {condition : Prop} [Decidable condition] (message : String) :
    Overflows (ensure condition (overflow message)) := by
  unfold ensure
  split
  · exact overflows_ok _
  · exact overflows_fail message

theorem overflows_take (budget bytes : Nat) : Overflows (Budget.take budget bytes) := by
  unfold Budget.take
  split
  · exact overflows_ok _
  · exact overflows_fail _

theorem overflows_list (budget length itemBytes : Nat) :
    Overflows (Budget.list budget length itemBytes) := by
  unfold Budget.list
  split
  · exact overflows_fail _
  · exact overflows_take _ _

theorem overflows_writeNumber (literal : String) (budget : Nat) :
    Overflows (writeNumber numbers literal budget) := by
  unfold writeNumber
  split
  · exact overflows_ok _
  split
  · exact overflows_ok _
  split
  · exact overflows_ok _
  · exact (overflows_take _ _).bind fun _ => overflows_ok _

mutual

theorem overflows_writeValue : (value : Json) → (budget depth : Nat) →
    Overflows (writeValue numbers value budget depth)
  | .null, _, _ => by
    rw [writeValue]
    exact (overflows_ensure _).bind fun _ => (overflows_take _ _).bind fun _ => overflows_ok _
  | .bool _, _, _ => by
    rw [writeValue]
    exact (overflows_ensure _).bind fun _ => (overflows_take _ _).bind fun _ => overflows_ok _
  | .number literal, _, _ => by
    rw [writeValue]
    exact (overflows_ensure _).bind fun _ => (overflows_take _ _).bind fun budget =>
      overflows_writeNumber literal budget
  | .string _, _, _ => by
    rw [writeValue]
    exact (overflows_ensure _).bind fun _ => (overflows_take _ _).bind fun _ =>
      (overflows_take _ _).bind fun _ => overflows_ok _
  | .array items, _, depth => by
    rw [writeValue]
    exact (overflows_ensure _).bind fun _ => (overflows_take _ _).bind fun _ =>
      (overflows_list _ _ _).bind fun budget =>
        (overflows_writeItems items budget (depth + 1)).bind fun _ => overflows_ok _
  | .object fields, _, depth => by
    rw [writeValue]
    exact (overflows_ensure _).bind fun _ => (overflows_take _ _).bind fun _ =>
      (overflows_list _ _ _).bind fun _ => (overflows_take _ _).bind fun budget =>
        (overflows_writeFields fields budget (depth + 1)).bind fun _ => overflows_ok _

theorem overflows_writeItems : (items : List Json) → (budget depth : Nat) →
    Overflows (writeItems numbers items budget depth)
  | [], _, _ => by
    rw [writeItems]
    exact overflows_ok _
  | item :: items, budget, depth => by
    rw [writeItems]
    exact (overflows_writeValue item budget depth).bind fun written =>
      (overflows_writeItems items written.2 depth).bind fun _ => overflows_ok _

theorem overflows_writeFields : (fields : List (String × Json)) → (budget depth : Nat) →
    Overflows (writeFields numbers fields budget depth)
  | [], _, _ => by
    rw [writeFields]
    exact overflows_ok _
  | (_, value) :: fields, _, depth => by
    rw [writeFields]
    exact (overflows_take _ _).bind fun budget =>
      (overflows_writeValue value budget depth).bind fun written =>
        (overflows_writeFields fields written.2 depth).bind fun _ => overflows_ok _

end

theorem overflows_encodeValue (value : Json) (limit : Nat) :
    Overflows (encodeValue numbers value limit) :=
  (overflows_writeValue value limit 0).bind fun _ =>
    (overflows_ensure _).bind fun _ => overflows_ok _

/-! ## Main results -/

/-- A value that fits is read as it was written, and one that does not fit is
an error. -/
theorem value_round_trip (hnumbers : numbers.Lawful) {value : Json} (hvalid : value.Valid)
    {limit : Nat} (hlimit : limit ≤ maxMessage) :
    (∀ wire, encodeValue numbers value limit = .ok wire → wire.bytes ≤ limit ∧
      ∃ restored, decodeValue numbers wire = .ok restored ∧ value.Same restored) ∧
    ∀ fault, encodeValue numbers value limit = .error fault →
      ∃ message, fault = .error (overflow message) :=
  ⟨fun _ hencode => ⟨bytes_encoded_le hnumbers hvalid hencode,
    decodeValue_encodeValue hnumbers hvalid hlimit hencode⟩, overflows_encodeValue value limit⟩

end Codec

/-- `serde_json` without floats: a number is read as it is spelled. -/
def plainNumbers : Numbers where
  Float := Empty
  asF64 _ := none
  fromF64 float := nomatch float
  parse literal := if (Numeral.value? literal.toList).isSome then some literal else none

theorem plainNumbers_lawful : plainNumbers.Lawful where
  parse literal value hvalue := ⟨literal, if_pos (by rw [hvalue]; rfl), hvalue⟩

/-- An array of a text and an integer. -/
def sampleValue : Json := .array [.string "saved", .number "7"]

theorem sampleValue_valid : sampleValue.Valid := by
  refine ⟨trivial, ?_, trivial⟩
  rw [Json.Valid]
  decide +kernel

theorem value_round_trip_sample :
    ∃ wire, encodeValue plainNumbers sampleValue 128 = .ok wire ∧
      ∃ restored, decodeValue plainNumbers wire = .ok restored ∧ sampleValue.Same restored := by
  have hlimit : 128 ≤ maxMessage := by decide
  have hencode : ∃ wire, encodeValue plainNumbers sampleValue 128 = .ok wire := ⟨_, rfl⟩
  obtain ⟨wire, hwire⟩ := hencode
  have htrip := value_round_trip plainNumbers_lawful sampleValue_valid hlimit
  exact ⟨wire, hwire, (htrip.1 wire hwire).2⟩

end DstServer.Rpc
