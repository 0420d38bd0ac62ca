import DstServer.Driver.Model
import DstServer.Runtime.RpcLaw

/-!
# The request that the driver writes

The driver writes the compact text of a JSON object, and `rpc` decodes it with
its own decoder.

* `Carried` is the Lua value that a JSON value becomes.
* `spells_chars`: the compact text of a value spells what it becomes.
* `requested_frame`: the frame of a request is that request.
-/

namespace DstServer.Runtime

open Lib JsonText

variable {ν : Type} {numbers : Integers ν}

/-! ## Strings -/

theorem utf8_escaped_ascii : ∀ n < 128,
    utf8 (Json.escaped (.ofNat n)) = written (.ofNat n) := by
  decide +kernel

theorem escaped_of_le {c : Char} (h : 128 ≤ c.toNat) : Json.escaped c = [c] := by
  have hother : ∀ other : Char, other.toNat < 128 → c ≠ other := by
    rintro other hother rfl
    omega
  unfold Json.escaped
  rw [if_neg (hother _ (by decide)), if_neg (hother _ (by decide)), if_neg (by omega),
    if_neg (by omega), if_neg (hother _ (by decide)), if_neg (hother _ (by decide)),
    if_neg (hother _ (by decide)), if_neg (by omega)]

theorem written_of_le {byte : UInt8} (h : 128 ≤ byte.toNat) : written byte = [byte] := by
  have hother : ∀ other : UInt8, other.toNat < 128 → byte ≠ other := by
    rintro other hother rfl
    omega
  unfold written escapes
  rw [if_neg (hother _ (by decide)), if_neg (hother _ (by decide)), if_neg (hother _ (by decide)),
    if_neg (hother _ (by decide)), if_neg (hother _ (by decide)), if_neg (hother _ (by decide)),
    if_neg (hother _ (by decide)), if_neg (by omega)]
  rfl

theorem flatMap_written {bytes : Bytes} (h : ∀ byte ∈ bytes, 128 ≤ byte.toNat) :
    bytes.flatMap written = bytes := by
  induction bytes with
  | nil => rfl
  | cons byte bytes ih =>
    rw [List.flatMap_cons, written_of_le (h byte List.mem_cons_self),
      ih fun other hother => h other (List.mem_cons_of_mem _ hother)]
    rfl

theorem utf8_escaped (c : Char) :
    utf8 (Json.escaped c) = (String.utf8EncodeChar c).flatMap written := by
  by_cases hascii : c.toNat < 128
  · have hchar := utf8_escaped_ascii c.toNat hascii
    rw [Char.ofNat_toNat] at hchar
    rw [hchar, utf8EncodeChar_ascii hascii, List.flatMap_singleton]
  · have hwide := Nat.not_lt.mp hascii
    rw [escaped_of_le hwide, utf8_cons, utf8_nil, List.append_nil,
      flatMap_written fun byte hbyte => le_of_mem_utf8EncodeChar hwide hbyte]

/-- Both sides escape the same characters in the same way. -/
theorem utf8_quoted (text : String) : utf8 (Json.quoted text) = quoted (utf8 text.toList) := by
  have hbody : ∀ chars : Text,
      utf8 (chars.flatMap Json.escaped) = (utf8 chars).flatMap written := by
    intro chars
    induction chars with
    | nil => rfl
    | cons c chars ih =>
      rw [List.flatMap_cons, utf8_append, utf8_cons, List.flatMap_append, utf8_escaped, ih]
  have hquote : String.utf8EncodeChar '"' = [34] := by decide +kernel
  unfold Json.quoted quoted
  rw [utf8_append, utf8_cons, utf8_cons, utf8_nil, List.append_nil, hbody, hquote]
  rfl

/-! ## Values -/

mutual

/-- The Lua value that is decoded from the text of a JSON value. -/
def Carried (numbers : Numbers ν) : Json → Value ν → Prop
  | .null, value => value = .null
  | .bool b, value => value = .bool b
  | .number literal, value =>
    Numeral (utf8 literal.toList) ∧
      ∃ n, numbers.reads (utf8 literal.toList) = some n ∧ value = .number n
  | .string text, value => value = .string (utf8 text.toList)
  | .array items, value => ∃ values, CarriedItems numbers items values ∧ value = .array values
  | .object fields, value =>
    ∃ entries, CarriedFields numbers fields entries ∧ (entries.map Prod.fst).Nodup ∧
      value = .object entries

def CarriedItems (numbers : Numbers ν) : List Json → List (Value ν) → Prop
  | [], values => values = []
  | item :: items, values =>
    ∃ value rest, Carried numbers item value ∧ CarriedItems numbers items rest ∧
      values = value :: rest

def CarriedFields (numbers : Numbers ν) : List (String × Json) → List (Bytes × Value ν) → Prop
  | [], entries => entries = []
  | (key, field) :: fields, entries =>
    ∃ value rest, Carried numbers field value ∧ CarriedFields numbers fields rest ∧
      entries = (utf8 key.toList, value) :: rest

end

theorem member_of_spells {depth : Nat} {numbers : Numbers ν} {text : Bytes} (key : String)
    {value : Value ν} (h : Spells numbers.reads depth text value) :
    Member (Spells numbers.reads depth) (utf8 (Json.quoted key) ++ 58 :: text)
      (utf8 key.toList, value) :=
  ⟨utf8 (Json.quoted key), [], [], text,
    by rw [utf8_quoted]; exact literal_quoted (utf8Checked_utf8 _), rfl, rfl, h, rfl⟩

theorem printable_json_quoted (text : String) : Printable (utf8 (Json.quoted text)) := by
  rw [utf8_quoted]
  exact printable_quoted _

theorem utf8_null : utf8 (Json.chars .null) = latin "null".toList := by decide +kernel

theorem utf8_bool (b : Bool) : utf8 (Json.chars (.bool b)) =
    if b = true then latin "true".toList else latin "false".toList := by
  cases b <;> decide +kernel

theorem utf8_comma : String.utf8EncodeChar ',' = [44] := by decide +kernel

theorem utf8_colon : String.utf8EncodeChar ':' = [58] := by decide +kernel

/-- An entry in front of others, in the text between the brackets. -/
theorem listed_cons {α : Type} {entry : Bytes → α → Prop} {text more : Bytes} {x y : α}
    {xs : List α} (h : entry text x) (hmore : Listed entry more (y :: xs)) :
    Listed entry (text ++ 44 :: more) (x :: y :: xs) := by
  rcases hmore with ⟨_, hnil⟩ | hseparated
  · cases hnil
  · exact .inr (@Separated.cons _ entry [] text [] more x (y :: xs) rfl h rfl hseparated)

theorem listed_singleton {α : Type} {entry : Bytes → α → Prop} {text : Bytes} {x : α}
    (h : entry text x) : Listed entry text [x] := by
  have hone := @Separated.one _ entry [] text [] x rfl h rfl
  rw [List.append_nil, List.nil_append] at hone
  exact .inr hone

mutual

/-- The compact text of a value spells the Lua value, on one line. -/
theorem spells_chars {numbers : Numbers ν} (depth : Nat) (json : Json) (value : Value ν)
    (h : Carried numbers json value) (hdepth : json.depth < depth) :
    Spells numbers.reads depth (utf8 json.chars) value ∧ Printable (utf8 json.chars) := by
  cases depth with
  | zero => exact absurd hdepth (Nat.not_lt_zero _)
  | succ depth =>
    cases json with
    | null =>
      obtain rfl := h
      rw [utf8_null]
      exact ⟨rfl, rfl⟩
    | bool b =>
      obtain rfl := h
      rw [utf8_bool]
      cases b <;> exact ⟨rfl, rfl⟩
    | number literal =>
      obtain ⟨hnumeral, n, hreads, rfl⟩ := h
      exact ⟨⟨hnumeral, hreads⟩, printable_numeral hnumeral⟩
    | string text =>
      obtain rfl := h
      refine ⟨?_, printable_json_quoted text⟩
      show Literal (utf8 (Json.quoted text)) (utf8 text.toList)
      rw [utf8_quoted]
      exact literal_quoted (utf8Checked_utf8 _)
    | array items =>
      obtain ⟨values, hitems, rfl⟩ := h
      obtain ⟨hspells, hprintable⟩ := spells_charsItems depth items values hitems
        (Nat.le_of_lt_succ hdepth)
      have htext : utf8 (Json.chars (.array items)) =
          91 :: (utf8 (Json.charsItems items) ++ [93]) := by
        rw [Json.chars, utf8_append, utf8_cons]
        rfl
      rw [htext]
      exact ⟨⟨_, rfl, hspells⟩,
        printable_cons.mpr ⟨by decide, printable_append.mpr ⟨hprintable, rfl⟩⟩⟩
    | object fields =>
      obtain ⟨entries, hfields, hkeys, rfl⟩ := h
      obtain ⟨hspells, hprintable⟩ := spells_charsFields depth fields entries hfields
        (Nat.le_of_lt_succ hdepth)
      have htext : utf8 (Json.chars (.object fields)) =
          123 :: (utf8 (Json.charsFields fields) ++ [125]) := by
        rw [Json.chars, utf8_append, utf8_cons]
        rfl
      rw [htext]
      exact ⟨⟨_, rfl, hspells, hkeys⟩,
        printable_cons.mpr ⟨by decide, printable_append.mpr ⟨hprintable, rfl⟩⟩⟩

theorem spells_charsItems {numbers : Numbers ν} (depth : Nat) (items : List Json)
    (values : List (Value ν)) (h : CarriedItems numbers items values)
    (hdepth : Json.depthItems items ≤ depth) :
    Listed (Spells numbers.reads depth) (utf8 (Json.charsItems items)) values ∧
      Printable (utf8 (Json.charsItems items)) := by
  cases items with
  | nil =>
    obtain rfl := h
    exact ⟨.inl ⟨rfl, rfl⟩, rfl⟩
  | cons item items =>
    obtain ⟨value, rest, hvalue, hrest, rfl⟩ := h
    rw [Json.depthItems] at hdepth
    obtain ⟨hitem, hplain⟩ := spells_chars depth item value hvalue
      ((Nat.le_max_left _ _).trans hdepth)
    obtain ⟨hlisted, hprintable⟩ := spells_charsItems depth items rest hrest
      ((Nat.le_max_right _ _).trans hdepth)
    cases items with
    | nil =>
      obtain rfl := hrest
      rw [Json.charsItems]
      exact ⟨listed_singleton hitem, hplain⟩
    | cons next items =>
      have htext : utf8 (Json.charsItems (item :: next :: items)) =
          utf8 item.chars ++ 44 :: utf8 (Json.charsItems (next :: items)) := by
        rw [Json.charsItems, utf8_append, utf8_cons, utf8_comma]
        · rfl
        · exact nofun
      obtain ⟨other, values, _, _, rfl⟩ := hrest
      rw [htext]
      exact ⟨listed_cons hitem hlisted,
        printable_append.mpr ⟨hplain, printable_cons.mpr ⟨by decide, hprintable⟩⟩⟩

theorem spells_charsFields {numbers : Numbers ν} (depth : Nat) (fields : List (String × Json))
    (entries : List (Bytes × Value ν)) (h : CarriedFields numbers fields entries)
    (hdepth : Json.depthFields fields ≤ depth) :
    Listed (Member (Spells numbers.reads depth)) (utf8 (Json.charsFields fields)) entries ∧
      Printable (utf8 (Json.charsFields fields)) := by
  cases fields with
  | nil =>
    obtain rfl := h
    exact ⟨.inl ⟨rfl, rfl⟩, rfl⟩
  | cons entry fields =>
    obtain ⟨key, field⟩ := entry
    obtain ⟨value, rest, hvalue, hrest, rfl⟩ := h
    rw [Json.depthFields] at hdepth
    obtain ⟨hfield, hplain⟩ := spells_chars depth field value hvalue
      ((Nat.le_max_left _ _).trans hdepth)
    obtain ⟨hlisted, hprintable⟩ := spells_charsFields depth fields rest hrest
      ((Nat.le_max_right _ _).trans hdepth)
    have hmember := member_of_spells key hfield
    have hentry : Printable (utf8 (Json.quoted key) ++ 58 :: utf8 field.chars) :=
      printable_append.mpr ⟨printable_json_quoted key, printable_cons.mpr ⟨by decide, hplain⟩⟩
    cases fields with
    | nil =>
      obtain rfl := hrest
      have htext : utf8 (Json.charsFields [(key, field)]) =
          utf8 (Json.quoted key) ++ 58 :: utf8 field.chars := by
        rw [Json.charsFields, utf8_append, utf8_cons, utf8_colon]
        rfl
      rw [htext]
      exact ⟨listed_singleton hmember, hentry⟩
    | cons next fields =>
      have htext : utf8 (Json.charsFields ((key, field) :: next :: fields)) =
          utf8 (Json.quoted key) ++ 58 :: utf8 field.chars ++
            44 :: utf8 (Json.charsFields (next :: fields)) := by
        rw [Json.charsFields, utf8_append, utf8_cons, utf8_append, utf8_cons, utf8_colon,
          utf8_comma]
        · rfl
        · exact nofun
      obtain ⟨other, values, _, _, rfl⟩ := hrest
      rw [htext]
      exact ⟨listed_cons hmember hlisted,
        printable_append.mpr ⟨hentry, printable_cons.mpr ⟨by decide, hprintable⟩⟩⟩

end

/-! ## The frame -/

/-- The object that `request` writes, in the order of its keys. -/
def requestObject (nonce id : String) (generation : Nat) (method : String) (arguments : Json) :
    Json :=
  .object [("arguments", arguments), ("generation", .ofNat generation), ("id", .string id),
    ("method", .string method), ("nonce", .string nonce), ("v", .ofNat 1)]

/-- The frame of a request. -/
def requestFrame (nonce id : String) (generation : Nat) (method : String) (arguments : Json) :
    Bytes :=
  rpcPrefix ++ (utf8 (requestObject nonce id generation method arguments).chars ++ [10])

def maxRequestBytes : Nat := 4096

theorem utf8_ascii_chars {text : Text} (h : ∀ c ∈ text, c.toNat < 128) :
    utf8 text = latin text := by
  induction text with
  | nil => rfl
  | cons c text ih =>
    rw [utf8_cons, utf8EncodeChar_ascii (h c List.mem_cons_self),
      ih fun other hother => h other (List.mem_cons_of_mem _ hother)]
    rfl

theorem carried_ofNat (hlawful : numbers.Lawful) {n : Nat} (h : n ≤ maximumInteger) :
    Carried numbers.toNumbers (.ofNat n) (.number (numbers.ofNat n)) := by
  have htext : utf8 (toString n).toList = latin (Text.decimal n) := by
    have hlist : (toString n).toList = Text.decimal n := by simp [Text.decimal]
    rw [hlist]
    refine utf8_ascii_chars fun c hc => ?_
    have hdigit := Text.toNat_of_mem_decimal hc
    omega
  have hfinite := hlawful.finite n h
  have hreads := hlawful.toLawful.reads hfinite
  rw [hlawful.format n h] at hreads
  refine ⟨?_, numbers.ofNat n, ?_, rfl⟩
  · rw [htext]
    exact numeral_decimal n
  · rw [htext]
    exact hreads

theorem isInitial_of_char {c : Char} (h : c.isLower = true ∨ c = '_') :
    c.toNat < 128 ∧ isInitial (.ofNat c.toNat) = true := by
  rcases h with hlower | rfl
  · have hrange : 97 ≤ c.toNat ∧ c.toNat ≤ 122 := by
      simp only [Char.isLower, Bool.and_eq_true, decide_eq_true_eq] at hlower
      exact hlower
    refine ⟨by omega, ?_⟩
    rw [isInitial, toNat_byte (by omega), decide_eq_true hrange.1, decide_eq_true hrange.2]
    rfl
  · decide

/-- A method of the driver is one of `rpc`. -/
theorem isMethod_of_validMethod {method : String} (h : Driver.validMethod method = true) :
    isMethod (utf8 method.toList) = true := by
  unfold Driver.validMethod at h
  cases hlist : method.toList with
  | nil =>
    rw [hlist] at h
    cases h
  | cons first rest =>
    rw [hlist] at h
    simp only [Bool.and_eq_true, Bool.or_eq_true, decide_eq_true_eq, List.all_eq_true] at h
    obtain ⟨⟨_, hfirst⟩, hrest⟩ := h
    have hlater : ∀ c ∈ rest, c.toNat < 128 ∧
        (isInitial (.ofNat c.toNat) || isDigit (.ofNat c.toNat)) = true := by
      intro c hc
      rcases hrest c hc with hinitial | hdigit
      · have hchar := isInitial_of_char hinitial
        exact ⟨hchar.1, by rw [hchar.2, Bool.true_or]⟩
      · obtain ⟨hlow, hhigh⟩ := Char.isDigit_iff_toNat.mp hdigit
        have hrange : 48 ≤ c.toNat ∧ c.toNat ≤ 57 := ⟨hlow, hhigh⟩
        refine ⟨by omega, ?_⟩
        rw [isDigit, toNat_byte (by omega), decide_eq_true hrange.1, decide_eq_true hrange.2]
        exact Bool.or_true _
    have hascii : utf8 (first :: rest) = latin (first :: rest) :=
      utf8_ascii_chars (List.forall_mem_cons.mpr
        ⟨(isInitial_of_char hfirst).1, fun c hc => (hlater c hc).1⟩)
    rw [hascii]
    show (isInitial (.ofNat first.toNat) && (rest.map _).all _) = true
    rw [(isInitial_of_char hfirst).2, Bool.true_and, List.all_map, List.all_eq_true]
    exact fun c hc => (hlater c hc).2

theorem chomp_append (line : Bytes) : chomp (line ++ [10]) = line := by
  unfold chomp
  rw [if_pos List.getLast?_concat, List.dropLast_concat]

theorem chomp_of_printable {line : Bytes} (h : Printable line) : chomp line = line := by
  unfold chomp
  rw [if_neg]
  intro hlast
  have hbyte := printable_iff.mp h 10 (List.mem_of_getLast? hlast)
  exact absurd hbyte (by decide)

/-- The fields of the frame in Lua. -/
def requestEntries (numbers : Integers ν) (nonce id : String) (generation : Nat) (method : String)
    (entries : List (Bytes × Value ν)) : List (Bytes × Value ν) :=
  [(argumentsKey, .object entries), (generationKey, .number (numbers.ofNat generation)),
    (idKey, .string (utf8 id.toList)), (methodKey, .string (utf8 method.toList)),
    (nonceKey, .string (utf8 nonce.toList)), (vKey, .number (numbers.ofNat 1))]

theorem carried_request (hlawful : numbers.Lawful) {nonce id method : String} {generation : Nat}
    (hgeneration : generation ≤ maximumInteger) {arguments : Json}
    {entries : List (Bytes × Value ν)}
    (harguments : Carried numbers.toNumbers arguments (.object entries)) :
    Carried numbers.toNumbers (requestObject nonce id generation method arguments)
      (.object (requestEntries numbers nonce id generation method entries)) := by
  have hkeys : utf8 "arguments".toList = argumentsKey ∧ utf8 "generation".toList = generationKey ∧
      utf8 "id".toList = idKey ∧ utf8 "method".toList = methodKey ∧
      utf8 "nonce".toList = nonceKey ∧ utf8 "v".toList = vKey := by decide +kernel
  obtain ⟨hargumentsKey, hgenerationKey, hidKey, hmethodKey, hnonceKey, hvKey⟩ := hkeys
  refine ⟨_, ⟨_, _, harguments, ⟨_, _, carried_ofNat hlawful hgeneration, ⟨_, _, rfl,
    ⟨_, _, rfl, ⟨_, _, rfl, ⟨_, _, carried_ofNat hlawful (by decide), rfl, rfl⟩, rfl⟩, rfl⟩, rfl⟩,
    rfl⟩, rfl⟩, ?_, ?_⟩
  · rw [hargumentsKey, hgenerationKey, hidKey, hmethodKey, hnonceKey, hvKey]
    show [argumentsKey, generationKey, idKey, methodKey, nonceKey, vKey].Nodup
    decide
  · rw [hargumentsKey, hgenerationKey, hidKey, hmethodKey, hnonceKey, hvKey]
    rfl

theorem readRequest_requestEntries (hlawful : numbers.Lawful) (installed : Installed)
    {nonce id method : String} {generation : Nat} (hnonce : utf8 nonce.toList = installed.nonce)
    (hid : identifier (utf8 id.toList) = true) (hgeneration : generation ≤ maximumInteger)
    (hmethod : isMethod (utf8 method.toList) = true) (entries : List (Bytes × Value ν)) :
    readRequest numbers installed (requestEntries numbers nonce id generation method entries) =
      some ⟨utf8 id.toList, generation, utf8 method.toList, entries⟩ := by
  have hv : (requestEntries numbers nonce id generation method entries).lookup vKey =
      some (.number (numbers.ofNat 1)) := rfl
  have hnonceEntry : (requestEntries numbers nonce id generation method entries).lookup nonceKey =
      some (.string (utf8 nonce.toList)) := rfl
  have hidEntry : (requestEntries numbers nonce id generation method entries).lookup idKey =
      some (.string (utf8 id.toList)) := rfl
  have hgenerationEntry :
      (requestEntries numbers nonce id generation method entries).lookup generationKey =
        some (.number (numbers.ofNat generation)) := rfl
  have hmethodEntry : (requestEntries numbers nonce id generation method entries).lookup methodKey =
      some (.string (utf8 method.toList)) := rfl
  have hargumentsEntry :
      (requestEntries numbers nonce id generation method entries).lookup argumentsKey =
        some (.object entries) := rfl
  have hfields : ((requestEntries numbers nonce id generation method entries).all fun entry =>
      fields.contains entry.1) = true := rfl
  have hidentity : idOf (requestEntries numbers nonce id generation method entries) =
      some (utf8 id.toList) := by
    unfold idOf
    rw [hidEntry, Option.bind_some, string?, Option.filter_some, if_pos hid]
  have hone := hlawful.natural 1 (by decide)
  have hnumber := hlawful.natural generation hgeneration
  simp only [readRequest, hv, hnonceEntry, hidentity, hgenerationEntry, hmethodEntry,
    hargumentsEntry, Option.bind_eq_bind, Option.bind_some, natural?, string?, object?, hone,
    hnumber, hmethod, hnonce, hfields, beq_self_eq_true, Bool.and_self, if_true]

theorem depth_requestObject {nonce id method : String} {generation : Nat} {arguments : Json}
    (h : arguments.depth ≤ 63) :
    (requestObject nonce id generation method arguments).depth < 65 := by
  simp only [requestObject, Json.depth, Json.depthFields, Json.ofNat]
  omega

/-- The frame of a request, with its line feed or without it, is that request
for `rpc`, whatever the arguments are. -/
theorem requested_frame (hlawful : numbers.Lawful) (installed : Installed)
    {nonce id method : String} {generation : Nat} {arguments : Json}
    {entries : List (Bytes × Value ν)}
    (hnonce : utf8 nonce.toList = installed.nonce) (hid : identifier (utf8 id.toList) = true)
    (hgeneration : generation ≤ maximumInteger) (hmethod : Driver.validMethod method = true)
    (harguments : Carried numbers.toNumbers arguments (.object entries))
    (hdepth : arguments.depth ≤ 63)
    (hlength : (requestFrame nonce id generation method arguments).length ≤ maxRequestBytes)
    {line : Bytes} (hline : line = requestFrame nonce id generation method arguments ∨
      line ++ [10] = requestFrame nonce id generation method arguments) :
    line.take rpcPrefix.length = rpcPrefix ∧
      Requested numbers installed line
        ⟨utf8 id.toList, generation, utf8 method.toList, entries⟩ := by
  obtain ⟨hspells, hprintable⟩ := spells_chars 65 _ _
    (carried_request hlawful hgeneration harguments)
    (@depth_requestObject nonce id method generation arguments hdepth)
  unfold requestFrame at hline hlength
  generalize utf8 (requestObject nonce id generation method arguments).chars = text at *
  have hwhole : Printable (rpcPrefix ++ text) := printable_append.mpr ⟨rfl, hprintable⟩
  have hchomp : chomp line = rpcPrefix ++ text := by
    rcases hline with rfl | hline
    · rw [← List.append_assoc]
      exact chomp_append _
    · rw [← List.append_assoc] at hline
      rw [List.append_cancel_right hline]
      exact chomp_of_printable hwhole
  have htake : line.take rpcPrefix.length = rpcPrefix := by
    rcases hline with rfl | hline
    · exact List.take_left
    · rw [← List.append_assoc] at hline
      rw [List.append_cancel_right hline]
      exact List.take_left
  have hdecodable : decodable (chomp line) = true := by
    have hplain : ∀ byte ∈ rpcPrefix ++ text, byte ≠ 13 ∧ byte ≠ 10 := by
      intro byte hbyte
      have hprintable := printable_iff.mp hwhole byte hbyte
      constructor
      · rintro rfl
        exact absurd hprintable (by decide)
      · rintro rfl
        exact absurd hprintable (by decide)
    have hshort : (rpcPrefix ++ text).length + 1 ≤ maximumRequestBytes := by
      simp only [List.length_append, List.length_singleton] at hlength ⊢
      unfold maxRequestBytes at hlength
      unfold maximumRequestBytes
      omega
    rw [hchomp, decodable, decide_eq_true hshort, Bool.true_and, List.all_eq_true]
    intro byte hbyte
    obtain ⟨hreturn, hfeed⟩ := hplain byte hbyte
    rw [bne_iff_ne.mpr hreturn, bne_iff_ne.mpr hfeed]
    rfl
  refine ⟨htake, _, hdecodable, ?_, readRequest_requestEntries hlawful installed hnonce hid
    hgeneration (isMethod_of_validMethod hmethod) entries⟩
  rw [hchomp, List.drop_left]
  exact document_of_spells hspells

def sampleIdentity : String := "01J00000000000000000000001"

theorem carried_sample : Carried wholeNumbers.toNumbers (.object [("slot", .ofNat 3)])
    (.object [(utf8 "slot".toList, .number 3)]) :=
  ⟨_, ⟨_, _, carried_ofNat wholeNumbers_lawful (by decide), rfl, rfl⟩, List.nodup_singleton _, rfl⟩

/-- What `serde_json` writes for a value is decoded into the Lua value that it
becomes, whatever the value is, up to the 65 levels of the decoder. -/
theorem wire_decodes_json {numbers : Numbers ν} {json : Json} {value : Value ν} {limit : Nat}
    (h : Carried numbers json value) (hdepth : json.depth ≤ 64)
    (hlimit : (utf8 json.chars).length ≤ limit) :
    decode numbers (utf8 json.chars) limit = .ok value :=
  decode_eq_ok.mpr ⟨hlimit, document_of_spells
    (spells_chars 65 json value h (Nat.lt_succ_of_le hdepth)).1⟩

theorem wire_decodes_json_sample :
    decode wholeNumbers.toNumbers (utf8 (Json.object [("slot", .ofNat 3)]).chars) 64 =
      .ok (.object [(utf8 "slot".toList, .number 3)]) :=
  wire_decodes_json carried_sample (by decide) (by decide +kernel)

end DstServer.Runtime
