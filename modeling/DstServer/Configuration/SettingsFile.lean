import DstServer.Configuration.Settings

/-!
# Settings files

What `render_ini` writes and `parse_ini` reads.

The facts about the table of a model are checked once, and the rest does
not look into it.  `Model.Valid` is what `validate` establishes of a sparse
value, and `parse_document` says what the reader finds in a rendered file.
-/

namespace DstServer.Configuration

open Lib

/-! ## The tables -/

/-- The text of the field is on one line: a string has the constraint, and
the names of a choice are plain. -/
def Field.oneLine (field : Field) : Bool :=
  match field.type with
  | .string => Rule.plain ∈ field.rules
  | .choice names => names.all fun name => IsPlain name.toList
  | _ => true

namespace Model

/-- Which kind of file the reader is told to expect. -/
def kind (model : Model) : Option Bool := some (model = shardSettings)

/-- What the table of a model has to be for its files to be read. -/
structure Sound (model : Model) : Prop where
  readable_of_mem : ∀ part ∈ model.sections, ∀ field ∈ part.2,
    Readable model.kind (lowerName part.1.toList) field.name
  declared?_of_mem : ∀ part ∈ model.sections, ∀ field ∈ part.2,
    model.declared? (lowerName part.1.toList) field.name = some field
  title_of_mem : ∀ part ∈ model.sections, IsName part.1 ∧ lowerName part.1.toList ≠ "default" ∧
    (model.kind = some true → lowerName part.1.toList ∈ shardSections)
  /-- A name stands in one section. -/
  title_of_name : ∀ part ∈ model.sections, ∀ field ∈ part.2,
    ∀ part' ∈ model.sections, ∀ field' ∈ part'.2, field.name = field'.name →
      lowerName part.1.toList = lowerName part'.1.toList
  nodup_titles : (model.sections.map fun part => lowerName part.1.toList).Nodup
  nodup_names : (model.fields.map Field.name).Nodup
  field?_of_mem : ∀ field ∈ model.fields, model.field? field.name = some field
  oneLine_of_mem : ∀ field ∈ model.fields, field.oneLine = true
  /-- Null is the default of every field that may be null. -/
  default_of_optional : ∀ field ∈ model.fields, field.optional = true → field.default = .null
  /-- Every default has the type of its field and passes its constraints. -/
  decode_default : ∀ field ∈ model.fields, field.decode field.default.toJson = some field.default
  admits_default : ∀ field ∈ model.fields, field.admits (some field.default) = true
  /-- No field has the name of the option that the reader passes over. -/
  name_ne_authentication_port : ∀ field ∈ model.fields, field.name ≠ "authentication_port"

/-- The tables as they are. -/
theorem sound (model : Model) : model.Sound := by
  cases model with
  | clusterSettings => constructor <;> decide +kernel
  | shardSettings => constructor <;> decide +kernel

variable {model : Model}

theorem mem_fields {field : Field} : field ∈ model.fields ↔ ∃ part ∈ model.sections, field ∈ part.2 := by
  rw [fields, List.mem_flatMap]

theorem mem_of_field? {name : String} {field : Field} (h : model.field? name = some field) :
    field ∈ model.fields ∧ field.name = name :=
  ⟨List.mem_of_find?_eq_some h, by simpa using List.find?_some h⟩

theorem mem_fields_of_field? {field : Field} (name : String) (h : model.field? name = some field) :
    field ∈ model.fields := (mem_of_field? h).1

end Model

/-! ## What `validate` establishes -/

theorem FieldType.accepts_of_decode {type : FieldType} {value : Json} {scalar : Scalar}
    (h : type.decode value = some scalar) : type.Accepts scalar := by
  unfold FieldType.decode at h
  split at h
  · cases h
    exact ⟨_, rfl⟩
  · obtain ⟨n, hn, rfl⟩ := Option.map_eq_some_iff.1 h
    refine ⟨n, rfl, ?_⟩
    unfold Json.asU64? at hn
    split at hn
    · simpa using (Option.filter_eq_some_iff.1 hn).2
    · cases hn
  · cases h
    exact ⟨_, rfl⟩
  · split_ifs at h with hmem
    cases h
    exact ⟨_, hmem, rfl⟩
  · split_ifs at h with hmem
    cases h
    exact ⟨_, hmem, rfl⟩
  · cases h

theorem Field.accepts_of_decode {field : Field} {value : Json} {scalar : Scalar}
    (h : field.decode value = some scalar) : field.Accepts scalar := by
  unfold Field.decode at h
  split at h
  · split_ifs at h with hoptional
    cases h
    exact Or.inl ⟨hoptional, rfl⟩
  · exact Or.inr (FieldType.accepts_of_decode h)

/-- A value with the types and the constraints of the model. -/
structure Model.Valid (model : Model) (sparse : Sparse) : Prop where
  typed : model.Typed sparse
  admitted : ∀ field ∈ model.fields, field.admits (sparse.get? field.name) = true
  checked : model.check sparse = .ok ()

theorem Model.typed_of_decode {model : Model} {value : Json} {sparse : Sparse}
    (h : model.decode value = .ok sparse) {name : String} {scalar : Scalar}
    (hget : sparse.get? name = some scalar) :
    ∃ field, model.field? name = some field ∧ field.Accepts scalar := by
  have hfield : ∀ {name' : String} {value : Json},
      model.decodeField name' value = .ok (name, scalar) →
        ∃ field, model.field? name = some field ∧ field.Accepts scalar := by
    intro name' value hdecode
    simp only [decodeField, Outcome.bind_eq_ok, Outcome.orError_eq_ok, Outcome.pure_eq_ok,
      Except.ok.injEq, Prod.mk.injEq] at hdecode
    obtain ⟨field, hfield, scalar', hscalar, rfl, rfl⟩ := hdecode
    exact ⟨field, hfield, Field.accepts_of_decode hscalar⟩
  unfold decode at h
  split at h
  · obtain ⟨entries, hentries, h⟩ := Outcome.bind_eq_ok.1 h
    cases h
    obtain ⟨_, _, hdecode⟩ :=
      Outcome.exists_mem_of_mapM' hentries (OrderedMap.mem_of_get?_ofList hget)
    exact hfield hdecode
  · obtain ⟨_, _, h⟩ := Outcome.bind_eq_ok.1 h
    obtain ⟨entries, hentries, h⟩ := Outcome.bind_eq_ok.1 h
    cases h
    obtain ⟨_, _, hdecode⟩ :=
      Outcome.exists_mem_of_mapM' hentries (OrderedMap.mem_of_get?_ofList hget)
    exact hfield hdecode
  · exact absurd h Outcome.fail_ne_ok

theorem Model.valid_of_validate {model : Model} {value : Json} {sparse : Sparse}
    (h : model.validate value = .ok sparse) : model.Valid sparse := by
  simp only [validate, Outcome.bind_eq_ok, Outcome.pure_eq_ok, Except.ok.injEq] at h
  obtain ⟨_, _, sparse', hdecode, _, hfields, _, hcheck, rfl⟩ := h
  refine ⟨fun name value => typed_of_decode hdecode, fun field hmem => ?_, hcheck⟩
  have hfield := Outcome.forM_eq_ok.1 hfields field hmem
  exact Outcome.ensure_eq_ok.1 hfield

theorem Settings.isValid {model : Model} (settings : Settings model) : model.Valid settings.sparse := by
  obtain ⟨value, h⟩ := settings.valid
  exact Model.valid_of_validate h

/-! ## What `render_ini` writes -/

section Render

variable {model : Model} {sparse : Sparse}

theorem isDigit_plain {text : Text} (h : ∀ c ∈ text, c.isDigit = true) :
    IsPlain text ∧ Text.Trimmed text := by
  have hchar : ∀ c ∈ text, Text.isWhitespace c = false ∧ c ≠ '\x00' ∧ c ≠ '\r' ∧ c ≠ '\n' := by
    intro c hc
    have hmark : IpAddress.IsMark c := by
      refine Or.inl ?_
      have hrange := h c hc
      simp only [Char.isDigit, Bool.and_eq_true, decide_eq_true_eq] at hrange
      have h₁ : 48 ≤ c.toNat := hrange.1
      have h₂ : c.toNat ≤ 57 := hrange.2
      have hzero : '0'.toNat = 48 := rfl
      rw [IpAddress.digit?, if_pos (h c hc), Option.isSome_iff_exists]
      exact ⟨c.toNat - '0'.toNat, Option.filter_eq_some_iff.2 ⟨rfl, by simp; omega⟩⟩
    refine ⟨hmark.visible, ?_, ?_, ?_⟩
    all_goals
      rintro rfl
      exact absurd (h _ hc) (by decide)
  exact ⟨⟨fun hc => (hchar _ hc).2.1 rfl, fun hc => (hchar _ hc).2.2.1 rfl,
    fun hc => (hchar _ hc).2.2.2 rfl⟩, Text.Trimmed.of_forall fun c hc => (hchar c hc).1⟩

theorem mem_options {fields : List Field} {name : String} {text : Text} :
    (name, text) ∈ Model.options sparse fields ↔ ∃ field ∈ fields, ∃ value,
      field.name = name ∧ sparse.get? name = some value ∧ value ≠ .null ∧ value.display = text := by
  simp only [Model.options, List.mem_filterMap, Option.map_eq_some_iff, Option.filter_eq_some_iff,
    Prod.mk.injEq, decide_eq_true_eq]
  constructor
  · rintro ⟨field, hfield, value, ⟨hget, hne⟩, rfl, rfl⟩
    exact ⟨field, hfield, value, rfl, hget, hne, rfl⟩
  · rintro ⟨field, hfield, value, rfl, hget, hne, rfl⟩
    exact ⟨field, hfield, value, ⟨hget, hne⟩, rfl, rfl⟩

/-- The blocks have the options of all the fields. -/
theorem flatMap_blocks (model : Model) (sparse : Sparse) :
    (model.blocks sparse).flatMap Block.options = Model.options sparse model.fields := by
  rw [Model.blocks, Model.fields]
  induction model.sections with
  | nil => rfl
  | cons part rest ih =>
    obtain ⟨title, fields⟩ := part
    have happend : Model.options sparse (List.flatMap Prod.snd ((title, fields) :: rest)) =
        Model.options sparse fields ++ Model.options sparse (List.flatMap Prod.snd rest) := by
      rw [List.flatMap_cons, Model.options, Model.options, Model.options, List.filterMap_append]
    rw [happend, ← ih, List.filterMap_cons]
    by_cases hnil : Model.options sparse fields = []
    · simp [hnil]
    · simp [hnil]

theorem nodup_options (model : Model) (sparse : Sparse) :
    ((Model.options sparse model.fields).map Prod.fst).Nodup := by
  refine List.Nodup.sublist ?_ model.sound.nodup_names
  rw [Model.options, List.map_filterMap]
  induction model.fields with
  | nil => exact List.Sublist.slnil
  | cons field rest ih =>
    rw [List.filterMap_cons, List.map_cons]
    cases hvalue : (sparse.get? field.name).filter (· ≠ .null) with
    | none => simpa [hvalue] using ih.cons field.name
    | some value => simpa [hvalue] using ih.cons_cons field.name

theorem mem_blocks {block : Block} (h : block ∈ model.blocks sparse) :
    ∃ part ∈ model.sections, part.1 = block.name ∧ block.options = Model.options sparse part.2 ∧
      block.options ≠ [] := by
  obtain ⟨part, hpart, hblock⟩ := List.mem_filterMap.1 h
  dsimp only at hblock
  split_ifs at hblock with hnil
  cases hblock
  exact ⟨part, hpart, rfl, rfl, hnil⟩

/-- The texts of a value with the types and constraints of the model are plain. -/
theorem plain_display (h : model.Valid sparse) {field : Field} (hfield : field ∈ model.fields)
    {value : Scalar} (hget : sparse.get? field.name = some value) (hne : value ≠ .null) :
    IsPlain value.display := by
  obtain ⟨field', hfield', haccepts⟩ := h.typed _ _ hget
  rw [model.sound.field?_of_mem field hfield, Option.some.injEq] at hfield'
  subst hfield'
  have hadmits := h.admitted field hfield
  have hline := model.sound.oneLine_of_mem field hfield
  rcases haccepts with ⟨_, rfl⟩ | haccepts
  · exact absurd rfl hne
  cases htype : field.type with
  | bool =>
    rw [htype] at haccepts
    obtain ⟨flag, rfl⟩ := haccepts
    cases flag <;> decide
  | u64 =>
    rw [htype] at haccepts
    obtain ⟨n, rfl, _⟩ := haccepts
    exact (isDigit_plain fun c hc => Text.isDigit_of_mem_decimal hc).1
  | string =>
    rw [htype] at haccepts
    obtain ⟨text, rfl⟩ := haccepts
    rw [Field.oneLine, htype] at hline
    rw [hget] at hadmits
    simp only [Field.admits, Option.all_some, Bool.or_eq_true, decide_eq_true_eq,
      List.all_eq_true, reduceCtorEq, false_or] at hadmits hline
    exact of_decide_eq_true (hadmits _ hline)
  | choice names =>
    rw [htype] at haccepts
    obtain ⟨name, hname, rfl⟩ := haccepts
    rw [Field.oneLine, htype] at hline
    exact of_decide_eq_true (List.all_eq_true.1 hline name hname)

theorem validBlocks (h : model.Valid sparse) : ValidBlocks model.kind (model.blocks sparse) := by
  constructor
  · intro block hblock
    obtain ⟨part, hpart, hname, hoptions, _⟩ := mem_blocks hblock
    obtain ⟨hisName, hdefault, hknown⟩ := model.sound.title_of_mem part hpart
    refine ⟨hname ▸ hisName, hname ▸ hdefault, hname ▸ hknown, ?_, ?_, ?_⟩
    · rintro ⟨name, text⟩ hoption
      rw [hoptions] at hoption
      obtain ⟨field, hfield, _, rfl, _⟩ := mem_options.1 hoption
      exact hname ▸ model.sound.readable_of_mem part hpart field hfield
    · rintro ⟨name, text⟩ hoption
      rw [hoptions] at hoption
      obtain ⟨field, hfield, value, rfl, hget, hne, rfl⟩ := mem_options.1 hoption
      exact plain_display h (Model.mem_fields.2 ⟨part, hpart, hfield⟩) hget hne
    · refine List.Nodup.sublist ?_ (nodup_options model sparse)
      obtain ⟨before, after, hsplit⟩ := List.append_of_mem hblock
      rw [← flatMap_blocks, hsplit, List.flatMap_append, List.flatMap_cons]
      exact ((List.sublist_append_left _ _).trans (List.sublist_append_right _ _)).map Prod.fst
  · refine List.Nodup.sublist ?_ model.sound.nodup_titles
    rw [Model.blocks, List.map_filterMap]
    induction model.sections with
    | nil => exact List.Sublist.slnil
    | cons part rest ih =>
      rw [List.filterMap_cons, List.map_cons]
      by_cases hnil : Model.options sparse part.2 = []
      · simpa [hnil] using ih.cons _
      · simpa [hnil] using ih.cons_cons (lowerName part.1.toList)

/-- What the reader finds in a file with the fields of this value. -/
def document (model : Model) (sparse : Sparse) : Ini where
  path := model.file
  values := .ofList ((model.blocks sparse).flatMap Block.values)

theorem parse_document (path : String) (h : model.Valid sparse)
    (hsize : Text.utf8Length (fileText (model.blocks sparse)) < Rooms.maxFileBytes) :
    Ini.parse path (fileSource (model.blocks sparse)) model.kind =
      .ok { document model sparse with path } := by
  refine parse_blocks path (validBlocks h) (fun block hblock => ?_) ?_
  · obtain ⟨_, _, _, _, hne⟩ := mem_blocks hblock
    exact hne
  · have hlimit : maxIniBytes = Rooms.maxFileBytes := rfl
    have hfeed : Char.utf8Size '\n' = 1 := by decide
    rw [fileSource]
    split_ifs
    · exact Nat.zero_le _
    · rw [Text.utf8Length_append, Text.utf8Length_cons, Text.utf8Length_nil, hfeed]
      omega

/-- The reader finds the text of each field that is not null, without the
white space around it. -/
theorem get?_document {sectionName name : String} {text : Text} :
    (document model sparse).get sectionName name = some text ↔
      ∃ part ∈ model.sections, ∃ field ∈ part.2, ∃ value,
        lowerName part.1.toList = sectionName ∧ field.name = name ∧
          sparse.get? name = some value ∧ value ≠ .null ∧ Text.trim value.display = text := by
  have hnodup : (((model.blocks sparse).flatMap Block.values).map Prod.fst).Nodup := by
    have hnames : (((model.blocks sparse).flatMap Block.values).map Prod.fst).map
        (fun key => (ofLex key).2) = (Model.options sparse model.fields).map Prod.fst := by
      rw [← flatMap_blocks, List.map_map, List.map_flatMap, List.map_flatMap]
      refine List.flatMap_congr fun block _ => ?_
      rw [Block.values, List.map_map]
      rfl
    exact List.Nodup.of_map (fun key => (ofLex key).2) (hnames ▸ nodup_options model sparse)
  rw [Ini.get, document, OrderedMap.get?_ofList_iff hnodup, List.mem_flatMap]
  constructor
  · rintro ⟨block, hblock, hvalue⟩
    obtain ⟨part, hpart, hname, hoptions, _⟩ := mem_blocks hblock
    rw [Block.values, hoptions] at hvalue
    obtain ⟨⟨name', text'⟩, hoption, heq⟩ := List.mem_map.1 hvalue
    obtain ⟨field, hfield, value, rfl, hget, hne, rfl⟩ := mem_options.1 hoption
    cases heq
    exact ⟨part, hpart, field, hfield, value, by rw [hname], rfl, hget, hne, rfl⟩
  · rintro ⟨part, hpart, field, hfield, value, rfl, rfl, hget, hne, rfl⟩
    have hoption : (field.name, value.display) ∈ Model.options sparse part.2 :=
      mem_options.2 ⟨field, hfield, value, rfl, hget, hne, rfl⟩
    refine ⟨⟨part.1, Model.options sparse part.2⟩, List.mem_filterMap.2 ⟨part, hpart, ?_⟩, ?_⟩
    · exact if_neg (List.ne_nil_of_mem hoption)
    · exact List.mem_map.2 ⟨_, hoption, rfl⟩

end Render

/-! ## What `parse_ini` reads -/

section Parse

variable {model : Model} {sparse : Sparse}

/-- The field of an option, with the value of its text. -/
def Model.Reads (model : Model) (entry : (String ×ₗ String) × Text) (option : String × Scalar) :
    Prop :=
  option.1 = (ofLex entry.1).2 ∧
    model.parseField (ofLex entry.1).1 (ofLex entry.1).2 entry.2 = .ok option.2

/-- The option is one of the table. -/
def Model.Declares (model : Model) (key : String ×ₗ String) : Prop :=
  ∃ part ∈ model.sections, ∃ field ∈ part.2, key = toLex (lowerName part.1.toList, field.name)

theorem parseFields_eq_ok {result result' : Sparse} {entries : List ((String ×ₗ String) × Text)}
    (hdeclared : ∀ entry ∈ entries, model.Declares entry.1) :
    model.parseFields result entries = .ok result' ↔
      ∃ options, List.Forall₂ model.Reads entries options ∧
        result' = options.foldl (fun m e => m.insert e.1 e.2) result := by
  induction entries generalizing result with
  | nil =>
    simp only [Model.parseFields, Outcome.pure_eq_ok, Except.ok.injEq, List.forall₂_nil_left_iff]
    constructor
    · rintro rfl
      exact ⟨[], rfl, rfl⟩
    · rintro ⟨_, rfl, rfl⟩
      rfl
  | cons entry rest ih =>
    obtain ⟨key, text⟩ := entry
    obtain ⟨part, hpart, field, hfield, hkey⟩ := hdeclared (key, text) List.mem_cons_self
    have hsection : ∃ part ∈ model.sections, lowerName part.1.toList = (ofLex key).1 :=
      ⟨part, hpart, by rw [show key = _ from hkey]; rfl⟩
    have hport : (ofLex key).2 ≠ "authentication_port" := by
      rw [show key = _ from hkey]
      exact model.sound.name_ne_authentication_port field (Model.mem_fields.2 ⟨part, hpart, hfield⟩)
    have hrest := fun {result : Sparse} => @ih result fun entry he =>
      hdeclared entry (List.mem_cons_of_mem _ he)
    rw [Model.parseFields, Outcome.ensure_of hsection, Outcome.ok_bind, if_neg fun h => hport h.2.2,
      Outcome.bind_eq_ok]
    constructor
    · rintro ⟨value, hvalue, h⟩
      obtain ⟨options, hoptions, rfl⟩ := hrest.1 h
      exact ⟨((ofLex key).2, value) :: options, List.Forall₂.cons ⟨rfl, hvalue⟩ hoptions, rfl⟩
    · rintro ⟨options, hoptions, rfl⟩
      obtain ⟨⟨name, value⟩, options, ⟨hname, hvalue⟩, htail, rfl⟩ :=
        List.forall₂_cons_left_iff.1 hoptions
      cases hname
      exact ⟨value, hvalue, hrest.2 ⟨options, htail, rfl⟩⟩

theorem names_of_reads {entries : List ((String ×ₗ String) × Text)}
    {options : List (String × Scalar)} (h : List.Forall₂ model.Reads entries options) :
    options.map Prod.fst = entries.map fun entry => (ofLex entry.1).2 := by
  induction h with
  | nil => rfl
  | cons hread _ ih => rw [List.map_cons, List.map_cons, ih, hread.1]

theorem declares_document {entry : (String ×ₗ String) × Text}
    (h : entry ∈ (document model sparse).values.entries) : model.Declares entry.1 := by
  have hget : (document model sparse).get (ofLex entry.1).1 (ofLex entry.1).2 = some entry.2 :=
    OrderedMap.mem_entries_iff.1 h
  obtain ⟨part, hpart, field, hfield, _, htitle, hname, _⟩ := get?_document.1 hget
  refine ⟨part, hpart, field, hfield, ?_⟩
  rw [htitle, hname]
  rfl

/-- The fields that were read, by the values that were written. -/
theorem get?_parseFields {result : Sparse}
    (h : model.parseFields .empty (document model sparse).values.entries = .ok result)
    {name : String} {read : Scalar} :
    result.get? name = some read ↔ ∃ field ∈ model.fields, ∃ value, field.name = name ∧
      sparse.get? name = some value ∧ value ≠ .null ∧
        field.type.parse (Text.trim value.display) = .ok read := by
  obtain ⟨options, hoptions, rfl⟩ :=
    (parseFields_eq_ok fun entry => declares_document).1 h
  have hnames : options.map Prod.fst =
      (document model sparse).values.keys.map fun key => (ofLex key).2 := by
    rw [OrderedMap.keys, List.map_map]
    exact names_of_reads hoptions
  have hnodup : (options.map Prod.fst).Nodup := by
    rw [hnames]
    refine List.Nodup.map_on (fun key hkey key' hkey' heq => ?_) (OrderedMap.keys_nodup _)
    obtain ⟨text, htext⟩ := OrderedMap.mem_keys_iff.1 hkey
    obtain ⟨text', htext'⟩ := OrderedMap.mem_keys_iff.1 hkey'
    obtain ⟨part, hpart, field, hfield, rfl⟩ :=
      declares_document (OrderedMap.mem_entries_iff.2 htext)
    obtain ⟨part', hpart', field', hfield', rfl⟩ :=
      declares_document (OrderedMap.mem_entries_iff.2 htext')
    have hname : field.name = field'.name := heq
    rw [hname, model.sound.title_of_name part hpart field hfield part' hpart' field' hfield' hname]
  rw [← OrderedMap.ofList, OrderedMap.get?_ofList_iff hnodup]
  constructor
  · intro hmem
    obtain ⟨⟨key, text⟩, hentry, hname, hparse⟩ := exists_mem_left hoptions hmem
    have hget : (document model sparse).get (ofLex key).1 (ofLex key).2 = some text :=
      OrderedMap.mem_entries_iff.1 hentry
    obtain ⟨part, hpart, field, hfield, value, htitle, hfieldName, hvalue, hne, htrim⟩ :=
      get?_document.1 hget
    rw [Model.parseField, ← htitle, ← hfieldName, model.sound.declared?_of_mem part hpart field hfield] at hparse
    have hname : name = field.name := hname.trans hfieldName.symm
    refine ⟨field, Model.mem_fields.2 ⟨part, hpart, hfield⟩, value, hname.symm, ?_, hne, ?_⟩
    · rw [hname, hfieldName]
      exact hvalue
    · rw [htrim]
      exact hparse
  · rintro ⟨field, hfield, value, rfl, hvalue, hne, hparse⟩
    obtain ⟨part, hpart, hfield⟩ := Model.mem_fields.1 hfield
    have hentry : (toLex (lowerName part.1.toList, field.name), Text.trim value.display) ∈
        (document model sparse).values.entries :=
      OrderedMap.mem_entries_iff.2 (get?_document.2
        ⟨part, hpart, field, hfield, value, rfl, rfl, hvalue, hne, rfl⟩)
    obtain ⟨⟨name, read'⟩, hmem, hname, hread⟩ := exists_mem_right hoptions hentry
    rw [Model.parseField] at hread
    have hdeclared := model.sound.declared?_of_mem part hpart field hfield
    have hsame : field.type.parse (Text.trim value.display) = .ok read' := by
      have heq : model.declared? (ofLex (toLex (lowerName part.1.toList, field.name))).1
          (ofLex (toLex (lowerName part.1.toList, field.name))).2 = some field := hdeclared
      rw [heq] at hread
      exact hread
    rw [hparse] at hsame
    cases hsame
    cases hname
    exact hmem

end Parse

end DstServer.Configuration
