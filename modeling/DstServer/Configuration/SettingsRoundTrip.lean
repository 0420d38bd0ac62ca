import DstServer.Configuration.SettingsFile

/-!
# Settings come back from their file

`settings_round_trip_iff` compares the settings that `parse` reads from a rendered
file with the ones that were rendered.  The file loses the white space
around a text and nothing else.
-/

namespace DstServer.Configuration

open Lib

variable {model : Model} {sparse : Sparse}

/-! ## Values -/

theorem FieldType.parse_display {type : FieldType} {value : Scalar} (h : type.Accepts value)
    (htrimmed : ∀ text, value = .text text → Text.Trimmed text) :
    type.parse (Text.trim value.display) = .ok value := by
  cases type with
  | bool =>
    obtain ⟨flag, rfl⟩ := h
    cases flag <;> decide
  | u64 =>
    obtain ⟨n, rfl, hn⟩ := h
    have hdigits : ∀ c ∈ Text.decimal n, c.isDigit = true := fun c => Text.isDigit_of_mem_decimal
    rw [Scalar.display, Text.trim_eq_self (isDigit_plain hdigits).2, FieldType.parse,
      Outcome.ensure_of ⟨Text.decimal_ne_nil n, hdigits⟩, Outcome.ok_bind, Text.unsigned?_decimal hn]
    rfl
  | string =>
    obtain ⟨text, rfl⟩ := h
    rw [Scalar.display, Text.trim_eq_self (htrimmed text rfl)]
    rfl
  | choice names =>
    obtain ⟨name, _, rfl⟩ := h
    rw [Scalar.display, Text.trim_eq_self (htrimmed _ rfl)]
    rfl

theorem FieldType.parse_text {type : FieldType} {text : Text} (h : type.Accepts (.text text)) :
    type.parse (Text.trim text) = .ok (.text (Text.trim text)) := by
  cases type with
  | bool =>
    obtain ⟨_, heq⟩ := h
    cases heq
  | u64 =>
    obtain ⟨_, heq, _⟩ := h
    cases heq
  | string => rfl
  | choice names => rfl

theorem Field.decode_toJson {field : Field} {value : Scalar} (h : field.Accepts value) :
    field.decode value.toJson = some value := by
  rcases h with ⟨hoptional, rfl⟩ | h
  · exact if_pos hoptional
  cases htype : field.type with
  | bool =>
    rw [htype] at h
    obtain ⟨flag, rfl⟩ := h
    rw [Field.decode.eq_def, Scalar.toJson]
    dsimp only
    rw [htype, FieldType.decode]
  | u64 =>
    rw [htype] at h
    obtain ⟨n, rfl, hn⟩ := h
    have hjson : (Json.ofNat n).asU64? = some n := by rw [Json.asU64?_ofNat, if_pos hn]
    rw [Field.decode.eq_def, Scalar.toJson, Json.ofNat]
    dsimp only
    rw [htype, FieldType.decode, ← Json.ofNat, hjson]
    rfl
  | string =>
    rw [htype] at h
    obtain ⟨text, rfl⟩ := h
    rw [Field.decode.eq_def, Scalar.toJson]
    dsimp only
    rw [htype, FieldType.decode, String.toList_ofList]
  | choice names =>
    rw [htype] at h
    obtain ⟨name, hname, rfl⟩ := h
    rw [Field.decode.eq_def, Scalar.toJson]
    dsimp only
    rw [htype, FieldType.decode, String.ofList_toList, if_pos hname]

/-- Nothing but the value itself is decoded from its JSON text. -/
theorem Field.eq_of_decode_toJson {field : Field} {value value' : Scalar}
    (h : field.decode value.toJson = some value') : value' = value := by
  have hofNat : ∀ n, Json.ofNat n = .number (toString n) := fun _ => rfl
  cases value with
  | null =>
    rw [Scalar.toJson, Field.decode] at h
    split_ifs at h
    exact (Option.some.inj h).symm
  | bool flag =>
    cases htype : field.type with
    | bool => simpa [Field.decode, FieldType.decode, Scalar.toJson, htype, eq_comm] using h
    | u64 => simp [Field.decode, FieldType.decode, Scalar.toJson, htype, Json.asU64?] at h
    | string => simp [Field.decode, FieldType.decode, Scalar.toJson, htype] at h
    | choice names => simp [Field.decode, FieldType.decode, Scalar.toJson, htype] at h
  | number n =>
    cases htype : field.type with
    | bool => simp [Field.decode, FieldType.decode, Scalar.toJson, htype, hofNat] at h
    | u64 =>
      have hdecode : field.decode (Scalar.number n).toJson =
          ((Json.ofNat n).asU64?).map Scalar.number := by
        simp only [Scalar.toJson, hofNat, Field.decode, FieldType.decode, htype]
      rw [hdecode, Json.asU64?_ofNat] at h
      split_ifs at h
      · exact (Option.some.inj h).symm
      · cases h
    | string => simp [Field.decode, FieldType.decode, Scalar.toJson, htype, hofNat] at h
    | choice names => simp [Field.decode, FieldType.decode, Scalar.toJson, htype, hofNat] at h
  | text text =>
    cases htype : field.type with
    | bool => simp [Field.decode, FieldType.decode, Scalar.toJson, htype] at h
    | u64 => simp [Field.decode, FieldType.decode, Scalar.toJson, htype, Json.asU64?] at h
    | string => simpa [Field.decode, FieldType.decode, Scalar.toJson, htype, eq_comm] using h
    | choice names =>
      simp only [Field.decode, FieldType.decode, Scalar.toJson, htype, String.toList_ofList] at h
      split_ifs at h
      exact (Option.some.inj h).symm

/-! ## The value of an object -/

theorem decodeField_toJson {name : String} {field : Field} {value : Scalar}
    (hfield : model.field? name = some field) (haccepts : field.Accepts value) :
    model.decodeField name value.toJson = .ok (name, value) := by
  rw [Model.decodeField, hfield]
  simp only [Outcome.orError, Outcome.ok_bind, Field.decode_toJson haccepts, Outcome.pure_eq_ok]

/-- A typed value is decoded from its own JSON value. -/
theorem decode_asValue (htyped : model.Typed sparse) :
    model.decode sparse.asValue = .ok sparse := by
  have hentries : (sparse.entries.map fun entry => (entry.1, entry.2.toJson)).mapM'
      (fun field => model.decodeField field.1 field.2) = .ok sparse.entries := by
    rw [Outcome.mapM'_eq_ok, List.forall₂_map_left_iff, List.forall₂_same]
    intro entry hentry
    obtain ⟨field, hfield, haccepts⟩ := htyped _ _ (OrderedMap.mem_entries_iff.1 hentry)
    exact decodeField_toJson hfield haccepts
  rw [Sparse.asValue, Model.decode, hentries, Outcome.ok_bind, OrderedMap.ofList_entries]
  rfl

theorem eq_of_decode_asValue {sparse' : Sparse} (h : model.decode sparse.asValue = .ok sparse') :
    sparse' = sparse := by
  rw [Sparse.asValue, Model.decode] at h
  obtain ⟨entries, hentries, h⟩ := Outcome.bind_eq_ok.1 h
  cases h
  rw [Outcome.mapM'_eq_ok, List.forall₂_map_left_iff] at hentries
  have heq : entries = sparse.entries := by
    have hsame : List.Forall₂ Eq sparse.entries entries := hentries.imp fun entry entry' hdecode => ?_
    · rw [List.forall₂_eq_eq_eq] at hsame
      exact hsame.symm
    simp only [Model.decodeField, Outcome.bind_eq_ok, Outcome.orError_eq_ok, Outcome.pure_eq_ok,
      Except.ok.injEq] at hdecode
    obtain ⟨field, _, value, hvalue, rfl⟩ := hdecode
    rw [Field.eq_of_decode_toJson hvalue]
  rw [heq, OrderedMap.ofList_entries]

/-! ## The values that are read -/

/-- The fields that are not null. -/
def Present (sparse result : Sparse) : Prop :=
  ∀ name, result.get? name = (sparse.get? name).filter (· ≠ .null)

theorem Present.get {result : Sparse} (h : model.Valid sparse) (hpresent : Present sparse result)
    (name : String) : model.get result name = model.get sparse name := by
  rw [Model.get, Model.get, hpresent]
  cases hget : sparse.get? name with
  | none => rfl
  | some value =>
    by_cases hnull : value = .null
    · subst hnull
      obtain ⟨field, hfield, haccepts⟩ := h.typed _ _ hget
      have hoptional : field.optional = true := by
        rcases haccepts with ⟨hoptional, _⟩ | haccepts
        · exact hoptional
        · cases htype : field.type <;> simp [htype, FieldType.Accepts] at haccepts
      rw [hfield]
      simpa [Option.filter_some] using
        model.sound.default_of_optional field (Model.mem_of_field? hfield).1 hoptional
    · simp [Option.filter_some, hnull]

/-- The check does not look at `shard_enabled`. -/
theorem check_congr {result : Sparse}
    (h : ∀ name ≠ "shard_enabled", model.get result name = model.get sparse name) :
    model.check result = model.check sparse := by
  cases model with
  | clusterSettings =>
    simp only [Model.check, Model.checkMasterIp, h "master_ip" (by decide),
      h "steam_group_only" (by decide), h "steam_group_admins" (by decide),
      h "steam_group_id" (by decide), h "whitelist_slots" (by decide),
      h "max_players" (by decide)]
  | shardSettings =>
    simp only [Model.check, Model.checkMasterIp, h "master_ip" (by decide), h "id" (by decide),
      h "is_master" (by decide)]

theorem Present.valid {result : Sparse} (h : model.Valid sparse) (hpresent : Present sparse result) :
    model.Valid result := by
  refine ⟨fun name value hget => ?_, fun field hfield => ?_, ?_⟩
  · rw [hpresent, Option.filter_eq_some_iff] at hget
    exact h.typed name value hget.1
  · have hadmits := h.admitted field hfield
    rw [hpresent]
    cases hget : sparse.get? field.name with
    | none => rfl
    | some value =>
      rw [hget] at hadmits
      by_cases hnull : value = .null
      · simp [Option.filter_some, hnull, Field.admits]
      · simpa [Option.filter_some, hnull] using hadmits
  · rw [check_congr fun name _ => hpresent.get h name]
    exact h.checked

theorem resolved_congr {result : Sparse}
    (h : ∀ name, model.get result name = model.get sparse name) :
    model.resolved result = model.resolved sparse := by
  rw [Model.resolved, Model.resolved]
  simp only [h]

theorem get?_resolved (sparse : Sparse) (name : String) :
    (model.resolved sparse).get? name = (model.field? name).map fun _ => model.get sparse name := by
  have hnames : (model.fields.map fun field => (field.name, model.get sparse field.name)).map
      Prod.fst = model.fields.map Field.name := by
    rw [List.map_map]
    rfl
  have hiff : ∀ value, (model.resolved sparse).get? name = some value ↔
      ∃ field ∈ model.fields, field.name = name ∧ model.get sparse field.name = value := by
    intro value
    rw [Model.resolved, OrderedMap.get?_ofList_iff (hnames ▸ model.sound.nodup_names), List.mem_map]
    simp only [Prod.mk.injEq]
  cases hfield : model.field? name with
  | some field =>
    obtain ⟨hmem, hname⟩ := Model.mem_of_field? hfield
    exact (hiff _).2 ⟨field, hmem, hname, by rw [hname]⟩
  | none =>
    refine Option.eq_none_iff_forall_ne_some.2 fun value hvalue => ?_
    obtain ⟨field, hmem, rfl, _⟩ := (hiff value).1 hvalue
    rw [model.sound.field?_of_mem field hmem] at hfield
    cases hfield

/-! ## The size of the value that is read -/

/-- The size of an option in a file. -/
def weight (option : String × Text) : Nat :=
  Text.utf8Length option.1.toList + 3 + Text.utf8Length option.2

theorem sum_weight_le (blocks : List Block) :
    ((blocks.flatMap Block.options).map weight).sum ≤ Text.utf8Length (fileText blocks) := by
  have hspace : Char.utf8Size ' ' = 1 := by decide
  have hequals : Char.utf8Size '=' = 1 := by decide
  have hoption : ∀ option : String × Text, Text.utf8Length (optionLine option) = weight option := by
    intro option
    simp only [optionLine, weight, Text.utf8Length_append, Text.utf8Length_cons, hspace, hequals]
    omega
  have hblock : ∀ block : Block,
      (block.options.map weight).sum ≤ Text.utf8Length block.text := by
    intro block
    have hlines := Text.sum_le_utf8Length_intercalate ['\n'] (block.options.map optionLine)
    rw [List.map_map, show Text.utf8Length ∘ optionLine = weight from funext hoption] at hlines
    rw [Block.text, Text.utf8Length_append, Text.utf8Length_cons]
    omega
  have hfile := Text.sum_le_utf8Length_intercalate ['\n', '\n'] (blocks.map Block.text)
  refine Nat.le_trans ?_ hfile
  induction blocks with
  | nil => exact Nat.le_refl 0
  | cons block rest ih =>
    have hrest := ih (Text.sum_le_utf8Length_intercalate ['\n', '\n'] (rest.map Block.text))
    have hfirst := hblock block
    rw [List.flatMap_cons, List.map_append, List.sum_append, List.map_cons, List.map_cons,
      List.sum_cons]
    omega

theorem utf8Length_toJson {value : Scalar} :
    Text.utf8Length value.toJson.chars ≤ 6 * Text.utf8Length value.display + 2 := by
  cases value with
  | null => decide
  | bool flag => cases flag <;> decide
  | number n =>
    rw [Scalar.toJson, Json.chars_ofNat, Scalar.display]
    omega
  | text text =>
    have hquoted := Json.utf8Length_quoted (.ofList text)
    rw [String.toList_ofList] at hquoted
    simpa [Scalar.toJson, Scalar.display, Json.chars] using hquoted

theorem nodes_asValue (sparse : Sparse) : sparse.asValue.nodes = 1 + sparse.entries.length := by
  have hfields : ∀ entries : List (String × Scalar),
      Json.nodesFields (entries.map fun entry => (entry.1, entry.2.toJson)) = entries.length := by
    intro entries
    induction entries with
    | nil => rfl
    | cons entry rest ih =>
      have hvalue : entry.2.toJson.nodes = 1 := by cases entry.2 <;> rfl
      rw [List.map_cons, Json.nodesFields, ih, hvalue, List.length_cons, Nat.add_comm]
  rw [Sparse.asValue, Json.nodes, hfields]

theorem depth_asValue (sparse : Sparse) : sparse.asValue.depth ≤ 1 := by
  rw [Sparse.asValue, Json.depth]
  induction sparse.entries with
  | nil => exact Nat.zero_le 1
  | cons entry rest ih =>
    have hvalue : entry.2.toJson.depth = 0 := by cases entry.2 <;> rfl
    rw [List.map_cons, Json.depthFields, hvalue]
    exact Nat.max_le.2 ⟨Nat.le_refl 1, ih⟩

/-- A value whose fields stand in a file is not too large. -/
theorem checkInput_asValue {result : Sparse}
    (hsize : Text.utf8Length (fileText (model.blocks sparse)) < Rooms.maxFileBytes)
    (hoptions : ∀ name value, result.get? name = some value →
      (name, value.display) ∈ Model.options sparse model.fields) :
    checkInput result.asValue = .ok () := by
  let written := result.entries.map fun entry => (entry.1, entry.2.display)
  have hnames : written.map Prod.fst = result.keys := by
    rw [List.map_map]
    rfl
  have hnodup : written.Nodup := List.Nodup.of_map Prod.fst (hnames ▸ result.keys_nodup)
  have hsub : written.Subperm (Model.options sparse model.fields) := by
    refine List.subperm_of_subset hnodup fun option hoption => ?_
    obtain ⟨entry, hentry, rfl⟩ := List.mem_map.1 hoption
    exact hoptions _ _ (OrderedMap.mem_entries_iff.1 hentry)
  have hlength : result.entries.length ≤ model.fields.length := by
    have hle := hsub.length_le
    rw [List.length_map] at hle
    exact hle.trans (List.length_filterMap_le _ _)
  have hfields : model.fields.length ≤ 30 := by cases model <;> decide
  have hsum : (written.map weight).sum ≤ Text.utf8Length (fileText (model.blocks sparse)) := by
    have hfile := sum_weight_le (model.blocks sparse)
    rw [flatMap_blocks] at hfile
    obtain ⟨part, hperm, hpart⟩ := hsub
    have hle := (hpart.map weight).sum_le_sum fun _ _ => Nat.zero_le _
    rw [(hperm.map weight).sum_eq] at hle
    omega
  have hbrace : Char.utf8Size '{' = 1 := by decide
  have hbrace' : Char.utf8Size '}' = 1 := by decide
  have hchars : Text.utf8Length result.asValue.chars ≤ 6 * (written.map weight).sum + 2 := by
    have hjson := Json.utf8Length_charsFields
      (result.entries.map fun entry => (entry.1, entry.2.toJson))
    have hbound : ((result.entries.map fun entry => (entry.1, entry.2.toJson)).map fun field =>
        6 * Text.utf8Length field.1.toList + 4 + Text.utf8Length field.2.chars).sum ≤
          6 * (written.map weight).sum := by
      have hmul : (written.map fun option => 6 * weight option).sum = 6 * (written.map weight).sum :=
        List.sum_map_mul_left written weight 6
      rw [← hmul, List.map_map, List.map_map]
      refine List.sum_le_sum fun entry _ => ?_
      have hvalue : Text.utf8Length entry.2.toJson.chars ≤ 6 * Text.utf8Length entry.2.display + 2 :=
        utf8Length_toJson
      simp only [Function.comp_apply, weight]
      omega
    simp only [Sparse.asValue, Json.chars, List.cons_append, Text.utf8Length_cons,
      Text.utf8Length_append, Text.utf8Length_nil, hbrace, hbrace']
    omega
  have hnodes := nodes_asValue result
  have hdepth := depth_asValue result
  have hnesting : Lua.maxNesting = 64 := rfl
  have htokens : Lua.maxTokens = 65536 := rfl
  have hfile : Rooms.maxFileBytes = 1048576 := rfl
  have hconfig : Rooms.maxConfigBytes = 16777216 := rfl
  rw [checkInput, Outcome.ensure_of (by omega), Outcome.ok_bind, Outcome.ensure_of (by omega)]

/-! ## The settings of a file -/

/-- Writing a field down does not change its value. -/
theorem get_insert_get (sparse : Sparse) (name other : String) :
    model.get (sparse.insert name (model.get sparse name)) other = model.get sparse other := by
  rw [Model.get, OrderedMap.get?_insert]
  split_ifs with heq
  · rw [heq, Option.getD_some]
  · rfl

theorem valid_insert (h : model.Valid sparse) {field : Field} (hfield : field ∈ model.fields)
    {value : Scalar} (haccepts : field.Accepts value) (hadmits : field.admits (some value) = true)
    (hget : ∀ name ≠ "shard_enabled",
      model.get (sparse.insert field.name value) name = model.get sparse name) :
    model.Valid (sparse.insert field.name value) := by
  refine ⟨fun name value' hvalue => ?_, fun field' hfield' => ?_, ?_⟩
  · rw [OrderedMap.get?_insert] at hvalue
    split_ifs at hvalue with heq
    · cases hvalue
      exact ⟨field, heq ▸ model.sound.field?_of_mem field hfield, haccepts⟩
    · exact h.typed name value' hvalue
  · rw [OrderedMap.get?_insert]
    split_ifs with heq
    · have hsame : field' = field := by
        have hlookup := model.sound.field?_of_mem field' hfield'
        rw [heq, model.sound.field?_of_mem field hfield, Option.some.injEq] at hlookup
        exact hlookup.symm
      rw [hsame]
      exact hadmits
    · exact h.admitted field' hfield'
  · rw [check_congr hget]
    exact h.checked

theorem valid_insert_get (h : model.Valid sparse) {field : Field} (hfield : field ∈ model.fields) :
    model.Valid (sparse.insert field.name (model.get sparse field.name)) := by
  have hlookup := model.sound.field?_of_mem field hfield
  refine valid_insert h hfield ?_ ?_ fun name _ => get_insert_get sparse field.name name
  · rw [Model.get]
    cases hget : sparse.get? field.name with
    | some value =>
      obtain ⟨field', hfield', haccepts⟩ := h.typed _ _ hget
      rw [hlookup, Option.some.injEq] at hfield'
      rw [hfield']
      exact haccepts
    | none =>
      rw [hlookup]
      exact Field.accepts_of_decode (model.sound.decode_default field hfield)
  · have hadmits := h.admitted field hfield
    rw [Model.get]
    cases hget : sparse.get? field.name with
    | some value =>
      rw [hget] at hadmits
      exact hadmits
    | none =>
      rw [hlookup]
      exact model.sound.admits_default field hfield

theorem valid_assumed (h : model.Valid sparse) (multi : Bool) :
    model.Valid (model.assumed sparse multi) := by
  cases model with
  | clusterSettings =>
    have hfield : (⟨"shard_enabled", .bool, .bool false, false, []⟩ : Field) ∈
        Model.clusterSettings.fields := Model.mem_fields_of_field? "shard_enabled" rfl
    rw [Model.assumed]
    split_ifs
    · refine valid_insert h hfield (Or.inr ⟨true, rfl⟩) rfl fun name hne => ?_
      rw [Model.get, OrderedMap.get?_insert_of_ne hne, ← Model.get]
    · exact h
  | shardSettings =>
    have hpath : (⟨"encode_user_path", .bool, .bool false, false, []⟩ : Field) ∈
        Model.shardSettings.fields := Model.mem_fields_of_field? "encode_user_path" rfl
    have hmaster : (⟨"is_master", .bool, .bool true, false, []⟩ : Field) ∈
        Model.shardSettings.fields := Model.mem_fields_of_field? "is_master" rfl
    have hvalid := valid_insert_get h hpath
    rw [Model.assumed]
    split_ifs
    · rw [← get_insert_get sparse "encode_user_path" "is_master"]
      exact valid_insert_get hvalid hmaster
    · exact hvalid

/-- The resolved settings, with `shard_enabled` true for several shards
where it was absent. -/
def Settings.expected (settings : Settings model) (multi : Bool) : Sparse :=
  if model = .clusterSettings ∧ multi = true ∧ settings.sparse.get? "shard_enabled" = none then
    settings.resolved.insert "shard_enabled" (.bool true)
  else settings.resolved

theorem resolved_assumed (settings : Settings model) (multi : Bool) :
    model.resolved (model.assumed settings.sparse multi) = settings.expected multi := by
  rw [Settings.expected, Settings.resolved]
  cases model with
  | clusterSettings =>
    rw [Model.assumed]
    by_cases h : multi = true ∧ settings.sparse.get? "shard_enabled" = none
    · rw [if_pos h, if_pos ⟨rfl, h⟩]
      refine OrderedMap.ext_get? fun name => ?_
      rw [get?_resolved, OrderedMap.get?_insert, get?_resolved]
      by_cases hname : name = "shard_enabled"
      · have hfield : (Model.clusterSettings.field? "shard_enabled").isSome = true := by
          decide +kernel
        obtain ⟨field, hfield⟩ := Option.isSome_iff_exists.1 hfield
        rw [if_pos hname, hname, hfield, Option.map_some, Model.get, OrderedMap.get?_insert_self,
          Option.getD_some]
      · rw [if_neg hname, Model.get, OrderedMap.get?_insert_of_ne hname, ← Model.get]
    · rw [if_neg h, if_neg fun hall => h hall.2]
  | shardSettings =>
    rw [if_neg (by simp)]
    refine resolved_congr fun name => ?_
    rw [Model.assumed]
    split_ifs
    · rw [← get_insert_get settings.sparse "encode_user_path" "is_master", get_insert_get,
        get_insert_get]
    · exact get_insert_get _ _ _

/-- The fields that are written down in any case are no texts. -/
theorem get?_assumed_text {name : String} {text : Text} (multi : Bool) :
    (model.assumed sparse multi).get? name = some (.text text) ↔
      sparse.get? name = some (.text text) := by
  have hinsert : ∀ (sparse : Sparse) (other : String) (flag : Bool),
      (model.field? other).elim .null Field.default = .bool flag →
        ((sparse.insert other (model.get sparse other)).get? name = some (.text text) ↔
          sparse.get? name = some (.text text)) := by
    intro sparse other flag hdefault
    rw [OrderedMap.get?_insert]
    split_ifs with heq
    · rw [Model.get, hdefault, heq]
      cases sparse.get? other <;> simp
    · rfl
  cases model with
  | clusterSettings =>
    rw [Model.assumed]
    split_ifs with h
    · rw [OrderedMap.get?_insert]
      split_ifs with heq
      · simp [heq, h.2]
      · rfl
    · rfl
  | shardSettings =>
    have hpath : (Model.shardSettings.field? "encode_user_path").elim .null Field.default =
        .bool false := rfl
    have hmaster : (Model.shardSettings.field? "is_master").elim .null Field.default =
        .bool true := rfl
    rw [Model.assumed]
    split_ifs
    · rw [← get_insert_get sparse "encode_user_path" "is_master", hinsert _ _ _ hmaster,
        hinsert _ _ _ hpath]
    · exact hinsert _ _ _ hpath

/-! ## The round trip -/

/-- No text of the settings begins or ends with white space. -/
def Settings.Trimmed (settings : Settings model) : Prop :=
  ∀ name text, settings.sparse.get? name = some (.text text) → Text.Trimmed text

/-- The settings of a file are the resolved ones. -/
def Settings.ComesBack (settings : Settings model) (multi : Bool) (source : Text) : Prop :=
  ∃ read, Settings.parse model source = .ok read ∧ read.resolved = settings.expected multi

theorem fromValue_eq_ok {value : Json} {settings : Settings model} :
    Settings.fromValue model value = .ok settings ↔ model.validate value = .ok settings.sparse := by
  unfold Settings.fromValue
  split
  · rename_i sparse h
    constructor
    · intro heq
      cases heq
      exact h
    · intro heq
      rw [h] at heq
      cases settings
      cases heq
      rfl
  · rename_i e h
    simp [h]

theorem renderIni_eq_ok {multi : Bool} {source : Text}
    (h : model.renderIni sparse.asValue multi = .ok source) :
    Text.utf8Length (fileText (model.blocks (model.assumed sparse multi))) < Rooms.maxFileBytes ∧
      source = fileSource (model.blocks (model.assumed sparse multi)) := by
  rw [Model.renderIni] at h
  obtain ⟨sparse', hsparse, hrest⟩ := Outcome.bind_eq_ok.1 h
  obtain ⟨_, hsize, hsource⟩ := Outcome.bind_eq_ok.1 hrest
  have hsame : sparse' = sparse := by
    simp only [Model.validate, Outcome.bind_eq_ok, Outcome.pure_eq_ok, Except.ok.injEq] at hsparse
    obtain ⟨_, _, _, hdecode, _, _, _, _, rfl⟩ := hsparse
    exact eq_of_decode_asValue hdecode
  subst hsame
  exact ⟨Outcome.ensure_eq_ok.1 hsize, (Except.ok.inj hsource).symm⟩

/-- The settings are read from the fields of the file. -/
theorem parse_eq_ok (h : model.Valid sparse)
    (hsize : Text.utf8Length (fileText (model.blocks sparse)) < Rooms.maxFileBytes)
    {read : Settings model} :
    Settings.parse model (fileSource (model.blocks sparse)) = .ok read ↔
      model.parseFields .empty (document model sparse).values.entries = .ok read.sparse ∧
        model.validate read.sparse.asValue = .ok read.sparse := by
  have hdocument := parse_document model.file h hsize
  rw [Model.kind] at hdocument
  rw [Settings.parse, Model.parseIni, hdocument, Outcome.ok_bind]
  simp only [Outcome.bind_eq_ok, Outcome.pure_eq_ok, Except.ok.injEq, fromValue_eq_ok]
  constructor
  · rintro ⟨_, ⟨result, hresult, _, _, rfl⟩, hvalidate⟩
    have hsame : read.sparse = result := by
      have hread := hvalidate
      simp only [Model.validate, Outcome.bind_eq_ok, Outcome.pure_eq_ok, Except.ok.injEq] at hread
      obtain ⟨_, _, sparse', hdecode, _, _, _, _, rfl⟩ := hread
      exact eq_of_decode_asValue hdecode
    rw [hsame] at hvalidate ⊢
    exact ⟨hresult, hvalidate⟩
  · rintro ⟨hresult, hvalidate⟩
    exact ⟨_, ⟨_, hresult, _, hvalidate, rfl⟩, hvalidate⟩

theorem mem_options_fields {name : String} {value : Scalar} (h : model.Valid sparse)
    (hget : sparse.get? name = some value) (hne : value ≠ .null) :
    (name, value.display) ∈ Model.options sparse model.fields := by
  obtain ⟨field, hfield, _⟩ := h.typed name value hget
  obtain ⟨hmem, rfl⟩ := Model.mem_of_field? hfield
  exact mem_options.2 ⟨field, hmem, value, rfl, hget, hne, rfl⟩

/-- Without white space around the texts every field comes back. -/
theorem parseFields_of_trimmed (h : model.Valid sparse)
    (htrimmed : ∀ name text, sparse.get? name = some (.text text) → Text.Trimmed text) :
    ∃ result, model.parseFields .empty (document model sparse).values.entries = .ok result ∧
      Present sparse result := by
  have hread : ∀ field ∈ model.fields, ∀ value, sparse.get? field.name = some value → value ≠ .null →
      field.type.parse (Text.trim value.display) = .ok value := by
    intro field hfield value hget hne
    obtain ⟨field', hfield', haccepts⟩ := h.typed _ _ hget
    rw [model.sound.field?_of_mem field hfield, Option.some.injEq] at hfield'
    subst hfield'
    rcases haccepts with ⟨_, rfl⟩ | haccepts
    · exact absurd rfl hne
    · exact FieldType.parse_display haccepts fun text heq => htrimmed _ text (heq ▸ hget)
  obtain ⟨result, hresult⟩ : ∃ result,
      model.parseFields .empty (document model sparse).values.entries = .ok result := by
    refine ⟨_, (parseFields_eq_ok fun entry => declares_document).2
      ⟨(document model sparse).values.entries.map fun entry =>
        ((ofLex entry.1).2, (sparse.get? (ofLex entry.1).2).getD .null), ?_, rfl⟩⟩
    rw [List.forall₂_map_right_iff, List.forall₂_same]
    rintro ⟨key, text⟩ hentry
    have hget : (document model sparse).get (ofLex key).1 (ofLex key).2 = some text :=
      OrderedMap.mem_entries_iff.1 hentry
    obtain ⟨part, hpart, field, hfield, value, htitle, hname, hvalue, hne, rfl⟩ :=
      get?_document.1 hget
    refine ⟨rfl, ?_⟩
    dsimp only
    rw [hvalue, Option.getD_some, Model.parseField, ← htitle, ← hname,
      model.sound.declared?_of_mem part hpart field hfield]
    exact hread field (Model.mem_fields.2 ⟨part, hpart, hfield⟩) value (hname ▸ hvalue) hne
  refine ⟨result, hresult, fun name => Option.ext fun value => ?_⟩
  rw [get?_parseFields hresult, Option.filter_eq_some_iff]
  constructor
  · rintro ⟨field, hfield, value', rfl, hget, hne, hparse⟩
    rw [hread field hfield value' hget hne] at hparse
    cases hparse
    exact ⟨hget, by simpa using hne⟩
  · rintro ⟨hget, hne⟩
    have hne : value ≠ .null := by simpa using hne
    obtain ⟨field, hfield, _⟩ := h.typed name value hget
    obtain ⟨hmem, rfl⟩ := Model.mem_of_field? hfield
    exact ⟨field, hmem, value, rfl, hget, hne, hread field hmem value hget hne⟩

/-- Settings that come back have no text that begins or ends with white
space: such a text is read without it. -/
theorem trimmed_of_comesBack {settings : Settings model} {multi : Bool} {source : Text}
    (hrender : settings.render multi = .ok source) (h : settings.ComesBack multi source) :
    settings.Trimmed := by
  obtain ⟨hsize, rfl⟩ := renderIni_eq_ok hrender
  have hvalid := valid_assumed settings.isValid multi
  obtain ⟨read, hread, hresolved⟩ := h
  intro name text hget
  have hassumed : (model.assumed settings.sparse multi).get? name = some (.text text) :=
    (get?_assumed_text multi).2 hget
  obtain ⟨hfields, _⟩ := (parse_eq_ok hvalid hsize).1 hread
  obtain ⟨field, hfield, haccepts⟩ := hvalid.typed _ _ hassumed
  obtain ⟨hmem, rfl⟩ := Model.mem_of_field? hfield
  have htext : field.type.parse (Text.trim text) = .ok (.text (Text.trim text)) := by
    rcases haccepts with ⟨_, heq⟩ | haccepts
    · cases heq
    · exact FieldType.parse_text haccepts
  have hresult : read.sparse.get? field.name = some (.text (Text.trim text)) :=
    (get?_parseFields hfields).2 ⟨field, hmem, _, rfl, hassumed, by simp, htext⟩
  -- the field of the settings that were read against the field as it was
  have hcompare := congrArg (fun resolved : Sparse => resolved.get? field.name) hresolved
  rw [← resolved_assumed, Settings.resolved, get?_resolved, get?_resolved, hfield,
    Option.map_some, Option.map_some, Model.get, Model.get, hresult, hassumed, Option.getD_some,
    Option.getD_some, Option.some.injEq, Scalar.text.injEq] at hcompare
  exact Text.trim_eq_self_iff.1 hcompare

theorem comesBack_of_trimmed {settings : Settings model} {multi : Bool} {source : Text}
    (hrender : settings.render multi = .ok source) (htrimmed : settings.Trimmed) :
    settings.ComesBack multi source := by
  obtain ⟨hsize, rfl⟩ := renderIni_eq_ok hrender
  have hvalid := valid_assumed settings.isValid multi
  obtain ⟨result, hresult, hpresent⟩ := parseFields_of_trimmed hvalid fun name text hget =>
    htrimmed name text ((get?_assumed_text multi).1 hget)
  have hresultValid := hpresent.valid hvalid
  have hinput : checkInput result.asValue = .ok () := by
    refine checkInput_asValue hsize fun name value hget => ?_
    rw [hpresent, Option.filter_eq_some_iff] at hget
    exact mem_options_fields hvalid hget.1 (by simpa using hget.2)
  have hvalidate : model.validate result.asValue = .ok result := by
    have hfields : model.checkFields result = .ok () :=
      Outcome.forM_eq_ok.2 fun field hfield =>
        Outcome.ensure_of (hresultValid.admitted field hfield) _
    rw [Model.validate, hinput, Outcome.ok_bind, decode_asValue hresultValid.typed,
      Outcome.ok_bind, hfields, Outcome.ok_bind, hresultValid.checked, Outcome.ok_bind]
    rfl
  refine ⟨⟨result, _, hvalidate⟩, (parse_eq_ok hvalid hsize).2 ⟨hresult, hvalidate⟩, ?_⟩
  rw [← resolved_assumed, Settings.resolved]
  exact resolved_congr (hpresent.get hvalid)

/-- The settings come back from a file that was rendered for them just when
no text of them begins or ends with white space. -/
theorem settings_round_trip_iff (model : Model) (settings : Settings model) (multi : Bool)
    (source : Text) (hrender : settings.render multi = .ok source) :
    settings.ComesBack multi source ↔ settings.Trimmed :=
  ⟨trimmed_of_comesBack hrender, comesBack_of_trimmed hrender⟩

/-- A description with a blank inside, and a mode. -/
def plainValue : Json :=
  .object [("cluster_description", .string "x y"), ("game_mode", .string "survival")]

def plainSparse : Sparse :=
  .ofList [("cluster_description", .text ['x', ' ', 'y']), ("game_mode", .text "survival".toList)]

theorem validate_plainValue : Model.validate .clusterSettings plainValue = .ok plainSparse := by
  decide +kernel

def plainSettings : Settings .clusterSettings := ⟨plainSparse, plainValue, validate_plainValue⟩

def plainSource : Text :=
  ("[SHARD]\nshard_enabled = true\n\n[NETWORK]\ncluster_description = x y\n\n" ++
    "[GAMEPLAY]\ngame_mode = survival\n").toList

theorem settings_round_trip_iff_sample :
    plainSettings.render true = .ok plainSource ∧ plainSettings.ComesBack true plainSource := by
  have hrender : plainSettings.render true = .ok plainSource := by decide +kernel
  have htrimmed : plainSettings.Trimmed := by
    intro name text hget
    have hmember := OrderedMap.mem_of_get?_ofList hget
    rw [List.mem_cons, List.mem_singleton, Prod.mk.injEq, Prod.mk.injEq, Scalar.text.injEq,
      Scalar.text.injEq] at hmember
    rcases hmember with ⟨_, rfl⟩ | ⟨_, rfl⟩
    · decide
    · decide
  exact ⟨hrender, (settings_round_trip_iff _ plainSettings true _ hrender).2 htrimmed⟩

/-- A description that begins with a blank. -/
def sampleValue : Json := .object [("cluster_description", .string " x")]

def sampleSparse : Sparse := .ofList [("cluster_description", .text [' ', 'x'])]

theorem validate_sampleValue : Model.validate .clusterSettings sampleValue = .ok sampleSparse := by
  decide +kernel

def sampleSettings : Settings .clusterSettings := ⟨sampleSparse, sampleValue, validate_sampleValue⟩

/-- The description is read without its blank. -/
theorem sampleSettings_trimmed :
    ¬∀ source, sampleSettings.render false = .ok source → sampleSettings.ComesBack false source := by
  have hrender : sampleSettings.render false =
      .ok "[NETWORK]\ncluster_description =  x\n".toList := by decide +kernel
  have hget : sampleSettings.sparse.get? "cluster_description" = some (.text [' ', 'x']) := by
    decide +kernel
  intro h
  have htrimmed := trimmed_of_comesBack hrender (h _ hrender) _ _ hget
  exact absurd htrimmed (by decide)

end DstServer.Configuration
