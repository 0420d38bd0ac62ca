import DstServer.Rooms.Changes

/-!
# Configuration files as documents

The model of `render_ini` in `files.rs`, the text of an edited
configuration, and of `Ini::into_sections`, the document that is edited.

`Editable` is a document whose names are those that the reader finds.
`parse_rendered` says that the reader finds the whole document in its text.
-/

namespace DstServer.Rooms

open Lib Lib.Outcome DstServer.Configuration

/-- The values of the options of every section. -/
abbrev IniDocument : Type := OrderedMap String (OrderedMap String Text)

/-- `values.entry(section).or_default().insert(key, value)` -/
def insertOption (document : IniDocument) (key : String ×ₗ String) (value : Text) : IniDocument :=
  let name := (ofLex key).1
  document.insert name (((document.get? name).getD .empty).insert (ofLex key).2 value)

/-- `Ini::into_sections` -/
def intoSections (ini : Ini) : IniDocument :=
  ini.values.entries.foldl (fun document entry => insertOption document entry.1 entry.2) .empty

/-- `identifier` of `files.rs` -/
def IsIdentifier (name : String) : Prop :=
  name.toList ≠ [] ∧ ∀ c ∈ name.toList, c.isAlphanum = true ∨ c = '_'

instance (name : String) : Decidable (IsIdentifier name) := by
  unfold IsIdentifier
  infer_instance

/-- The loop of `render_ini` over the options of a section. -/
def renderFields : List (String × Text) → Text → Outcome String Text
  | [], source => pure source
  | (key, value) :: rest, source => do
    ensure (IsIdentifier key) "invalid INI option name"
    ensure ((∀ c ∈ value, c ∉ ['\x00', '\r', '\n']) ∧ Text.trim value = value)
      "INI value contains unsupported control or surrounding whitespace"
    let source := source ++ (optionLine (key, value) ++ ['\n'])
    ensure (Text.utf8Length source ≤ maxFileBytes) "INI configuration exceeds the byte limit"
    renderFields rest source

/-- The loop over the sections. -/
def renderSections : List (String × OrderedMap String Text) → Text → Outcome String Text
  | [], source => pure source
  | (name, fields) :: rest, source => do
    ensure (IsIdentifier name) "invalid INI section name"
    let source := source ++ ('[' :: name.toList ++ [']', '\n'])
    let source ← renderFields fields.entries source
    renderSections rest (source ++ ['\n'])

def renderIni (document : IniDocument) : Outcome String Text := do
  let source ← renderSections document.entries []
  let _ ← Ini.parse "configuration.ini" source none
  pure source

/-! ## The value of an option -/

/-- The value under the name of a section and that of an option. -/
def optionOf (document : IniDocument) (key : String ×ₗ String) : Option Text :=
  (document.get? (ofLex key).1).bind fun fields => fields.get? (ofLex key).2

/-- No section is empty. -/
def Inhabited (document : IniDocument) : Prop :=
  ∀ name fields, document.get? name = some fields → ∃ key value, fields.get? key = some value

theorem Inhabited.ext {document other : IniDocument} (h : Inhabited document)
    (hother : Inhabited other) (heq : ∀ key, optionOf document key = optionOf other key) :
    document = other := by
  have hsome : ∀ {first second : IniDocument}, Inhabited first →
      (∀ key, optionOf first key = optionOf second key) → ∀ {name fields},
      first.get? name = some fields → ∃ fields', second.get? name = some fields' := by
    intro first second hfirst heq name fields hfields
    obtain ⟨key, value, hvalue⟩ := hfirst name fields hfields
    have hkey := heq (toLex (name, key))
    rw [optionOf, optionOf, ofLex_toLex, hfields, Option.bind_some, hvalue] at hkey
    obtain ⟨fields', hfields', _⟩ := Option.bind_eq_some_iff.1 hkey.symm
    exact ⟨fields', hfields'⟩
  refine OrderedMap.ext_get? fun name => ?_
  cases hname : document.get? name with
  | none =>
    cases hname' : other.get? name with
    | none => rfl
    | some fields =>
      obtain ⟨_, hfields⟩ := hsome hother (fun key => (heq key).symm) hname'
      rw [hname] at hfields
      cases hfields
  | some fields =>
    obtain ⟨fields', hfields'⟩ := hsome h heq hname
    rw [hfields']
    refine congrArg some (OrderedMap.ext_get? fun key => ?_)
    have hkey := heq (toLex (name, key))
    rwa [optionOf, optionOf, ofLex_toLex, hname, hfields', Option.bind_some,
      Option.bind_some] at hkey

theorem optionOf_insertOption (document : IniDocument) (key other : String ×ₗ String)
    (value : Text) : optionOf (insertOption document key value) other =
      if other = key then some value else optionOf document other := by
  unfold optionOf insertOption
  simp only
  rw [OrderedMap.get?_insert]
  by_cases hname : (ofLex other).1 = (ofLex key).1
  · rw [if_pos hname, Option.bind_some, OrderedMap.get?_insert]
    by_cases hkey : (ofLex other).2 = (ofLex key).2
    · have heq : other = key := ofLex.injective (Prod.ext hname hkey)
      rw [if_pos hkey, if_pos heq]
    · have hne : other ≠ key := fun heq => hkey (by rw [heq])
      rw [if_neg hkey, if_neg hne, hname]
      cases document.get? (ofLex key).1 <;> rfl
  · have hne : other ≠ key := fun heq => hname (by rw [heq])
    rw [if_neg hname, if_neg hne]

theorem inhabited_insertOption {document : IniDocument} (h : Inhabited document)
    (key : String ×ₗ String) (value : Text) : Inhabited (insertOption document key value) := by
  intro name fields hfields
  rw [insertOption, OrderedMap.get?_insert] at hfields
  split_ifs at hfields with hname
  · cases hfields
    exact ⟨_, _, OrderedMap.get?_insert_self _ _ _⟩
  · exact h name fields hfields

theorem intoSections_eq (ini : Ini) : Inhabited (intoSections ini) ∧
    ∀ key, optionOf (intoSections ini) key = ini.values.get? key := by
  have hfold : ∀ (entries : List ((String ×ₗ String) × Text)) (document : IniDocument)
      (values : Options), Inhabited document →
      (∀ key, optionOf document key = values.get? key) →
      let document := entries.foldl (fun document entry => insertOption document entry.1 entry.2)
        document
      Inhabited document ∧ ∀ key, optionOf document key =
        (entries.foldl (fun values entry => values.insert entry.1 entry.2) values).get? key := by
    intro entries
    induction entries with
    | nil => exact fun document values h heq => ⟨h, heq⟩
    | cons entry rest ih =>
      intro document values h heq
      refine ih _ _ (inhabited_insertOption h entry.1 entry.2) fun key => ?_
      rw [optionOf_insertOption, OrderedMap.get?_insert, heq]
  have hall := hfold ini.values.entries .empty .empty (fun name fields hfields => by cases hfields)
    fun key => rfl
  have hvalues := OrderedMap.ofList_entries ini.values
  rw [OrderedMap.ofList] at hvalues
  rwa [hvalues] at hall

/-! ## The text of a document -/

/-- A section as it is written. -/
def blockOf (fields : String × OrderedMap String Text) : Block := ⟨fields.1, fields.2.entries⟩

/-- The sections, with an empty line behind every one. -/
def renderedLines (blocks : List Block) : List Text := blocks.flatMap fun block => block.lines ++ [[]]

/-- What `render_ini` has checked of an option. -/
structure Renderable (option : String × Text) : Prop where
  identifier : IsIdentifier option.1
  plain : IsPlain option.2
  trimmed : Text.trim option.2 = option.2

theorem renderFields_cases {fields : List (String × Text)} {source rendered : Text}
    (h : renderFields fields source = .ok rendered) :
    rendered = source ++ Text.unlines (fields.map optionLine) ∧
      ∀ option ∈ fields, Renderable option := by
  induction fields generalizing source with
  | nil =>
    cases h
    exact ⟨(List.append_nil _).symm, by simp⟩
  | cons option rest ih =>
    obtain ⟨key, value⟩ := option
    rw [renderFields] at h
    obtain ⟨_, hkey, h⟩ := bind_eq_ok.1 h
    obtain ⟨_, hvalue, h⟩ := bind_eq_ok.1 h
    obtain ⟨_, _, h⟩ := bind_eq_ok.1 h
    rw [ensure_eq_ok] at hkey hvalue
    obtain ⟨hplain, htrim⟩ := hvalue
    have hout : ∀ c, c ∈ ['\x00', '\r', '\n'] → c ∉ value := fun c hc hmem => hplain c hmem hc
    obtain ⟨heq, hrest⟩ := ih h
    refine ⟨?_, List.forall_mem_cons.2 ⟨⟨hkey, ?_, htrim⟩, hrest⟩⟩
    · rw [heq, List.append_assoc]
      rfl
    · exact ⟨hout _ (by decide), hout _ (by decide), hout _ (by decide)⟩

theorem renderSections_cases {sections : List (String × OrderedMap String Text)}
    {source rendered : Text} (h : renderSections sections source = .ok rendered) :
    rendered = source ++ Text.unlines (renderedLines (sections.map blockOf)) ∧
      ∀ fields ∈ sections, IsIdentifier fields.1 ∧
        ∀ option ∈ fields.2.entries, Renderable option := by
  induction sections generalizing source with
  | nil =>
    cases h
    exact ⟨(List.append_nil _).symm, by simp⟩
  | cons fields rest ih =>
    obtain ⟨name, fields⟩ := fields
    rw [renderSections] at h
    obtain ⟨_, hname, h⟩ := bind_eq_ok.1 h
    obtain ⟨middle, hfields, h⟩ := bind_eq_ok.1 h
    obtain ⟨hmiddle, hoptions⟩ := renderFields_cases hfields
    obtain ⟨heq, hrest⟩ := ih h
    refine ⟨?_, List.forall_mem_cons.2 ⟨⟨ensure_eq_ok.1 hname, hoptions⟩, hrest⟩⟩
    have hlines : renderedLines (((name, fields) :: rest).map blockOf) =
        (blockOf (name, fields)).lines ++ [[]] ++ renderedLines (rest.map blockOf) :=
      List.flatMap_cons
    rw [heq, hmiddle, hlines, Text.unlines_append, Text.unlines_append]
    simp [Text.unlines, blockOf, Block.lines, Block.header]

/-- The lines of a document are read section by section. -/
theorem readLines_rendered (path : String) {kind : Option Bool} {blocks : List Block}
    (hlegible : ∀ block ∈ blocks, block.Legible kind)
    (hdistinct : (blocks.map fun block => lowerName block.name.toList).Nodup) {state : IniState}
    (hseen : state.Seen)
    (hnew : ∀ block ∈ blocks, lowerName block.name.toList ∉ state.sections) (index : Nat) :
    ∃ next, readLines path kind index state (renderedLines blocks) = .ok next ∧
      next.values = insertAll state.values (blocks.flatMap Block.values) := by
  induction blocks generalizing state index with
  | nil => exact ⟨state, rfl, rfl⟩
  | cons block rest ih =>
    obtain ⟨hhead, htail⟩ := List.nodup_cons.1 hdistinct
    obtain ⟨next, hnext, hvalues, hsections, hseen⟩ := readLines_block path
      (hlegible block List.mem_cons_self) hseen (hnew block List.mem_cons_self) index
    have hnew' : ∀ b ∈ rest, lowerName b.name.toList ∉ next.sections := by
      intro b hb hmem
      rw [hsections, List.mem_cons] at hmem
      rcases hmem with heq | hmem
      · exact hhead (List.mem_map.2 ⟨b, hb, heq⟩)
      · exact hnew b (List.mem_cons_of_mem _ hb) hmem
    obtain ⟨last, hlast, hlastValues⟩ := ih (fun b hb => hlegible b (List.mem_cons_of_mem _ hb))
      htail hseen hnew' (index + block.lines.length + 1)
    refine ⟨last, ?_, ?_⟩
    · rw [renderedLines, List.flatMap_cons, ← renderedLines, List.append_assoc, readLines_append,
        hnext, ok_bind, List.singleton_append, readLines, readLine_nil, ok_bind]
      exact hlast
    · rw [hlastValues, hvalues, ← insertAll_append, List.flatMap_cons]

/-! ## The round trips -/

/-- A document whose names are those that the reader finds. -/
structure Editable (document : IniDocument) : Prop where
  inhabited : Inhabited document
  notDefault : ∀ name fields, document.get? name = some fields → name ≠ "default"
  sections : ∀ name fields, document.get? name = some fields → lowerName name.toList = name
  keys : ∀ key value, optionOf document key = some value →
    lowerName (ofLex key).2.toList = (ofLex key).2

/-- The document has only sections and options that this kind of file may have. -/
structure Permitted (kind : Option Bool) (document : IniDocument) : Prop where
  sections : ∀ name fields, document.get? name = some fields →
    kind = some true → name ∈ shardSections
  options : ∀ key value, optionOf document key = some value →
    ∀ allowed ∈ allowedOptions kind (ofLex key).1, (ofLex key).2 ∈ allowed

theorem permitted_none (document : IniDocument) : Permitted none document where
  sections := fun _ _ _ hkind => by cases hkind
  options := fun _ _ _ _ hallowed => by cases hallowed

theorem isToken_of_isIdentifier {name : String} (h : IsIdentifier name) : IsToken name :=
  ⟨h.1, fun c hc => visible_of_isAlphanum (h.2 c hc)⟩

variable {document : IniDocument} {kind : Option Bool}

theorem legible_blockOf (heditable : Editable document) (hpermitted : Permitted kind document)
    {fields : String × OrderedMap String Text} (hmem : fields ∈ document.entries)
    (hname : IsIdentifier fields.1) (hoptions : ∀ option ∈ fields.2.entries, Renderable option) :
    (blockOf fields).Legible kind := by
  obtain ⟨name, fields⟩ := fields
  have hget := OrderedMap.mem_entries_iff.1 hmem
  have hlower := heditable.sections name fields hget
  have hfind : ∀ option ∈ fields.entries,
      optionOf document (toLex (name, option.1)) = some option.2 := by
    intro option hoption
    rw [optionOf, ofLex_toLex, hget, Option.bind_some]
    exact OrderedMap.mem_entries_iff.1 hoption
  refine ⟨isToken_of_isIdentifier hname, ?_, ?_, fun option hoption => ?_, ?_, fields.keys_nodup⟩
  · show lowerName name.toList ≠ "default"
    rw [hlower]
    exact heditable.notDefault name fields hget
  · show kind = some true → lowerName name.toList ∈ shardSections
    rw [hlower]
    exact hpermitted.sections name fields hget
  · show Legible kind (lowerName name.toList) option.1
    rw [hlower]
    exact ⟨isToken_of_isIdentifier (hoptions option hoption).identifier,
      heditable.keys _ _ (hfind option hoption), hpermitted.options _ _ (hfind option hoption)⟩
  · exact fun option hoption => (hoptions option hoption).plain

/-- The values that the reader finds in a document, by their names. -/
theorem get?_values (hrenderable : ∀ fields ∈ document.entries,
      ∀ option ∈ fields.2.entries, Renderable option)
    (heditable : Editable document) (key : String ×ₗ String) :
    (OrderedMap.ofList ((document.entries.map blockOf).flatMap Block.values)).get? key =
      optionOf document key := by
  have hvalues : (document.entries.map blockOf).flatMap Block.values =
      document.entries.flatMap fun fields => fields.2.entries.map fun option =>
        (toLex (fields.1, option.1), option.2) := by
    rw [List.flatMap_map]
    refine List.flatMap_congr fun fields hfields => List.map_congr_left fun option hoption => ?_
    have hlower := heditable.sections fields.1 fields.2 (OrderedMap.mem_entries_iff.1 hfields)
    show (toLex (lowerName fields.1.toList, option.1), Text.trim option.2) = _
    rw [hlower, (hrenderable fields hfields option hoption).trimmed]
  have hnodup : ((document.entries.flatMap fun fields => fields.2.entries.map fun option =>
      (toLex (fields.1, option.1), option.2)).map Prod.fst).Nodup := by
    rw [List.map_flatMap]
    refine List.pairwise_flatMap.2 ⟨fun fields _ => ?_, ?_⟩
    · rw [List.map_map]
      have hkeys := fields.2.keys_nodup
      rw [OrderedMap.keys] at hkeys
      refine List.Nodup.of_map (fun key => (ofLex key).2) ?_
      rwa [List.map_map]
    · refine (List.pairwise_map.1 document.keys_nodup).imp fun hne => ?_
      intro key hkey other hother heq
      simp only [List.mem_map] at hkey hother
      obtain ⟨_, ⟨option, _, rfl⟩, rfl⟩ := hkey
      obtain ⟨_, ⟨option', _, rfl⟩, rfl⟩ := hother
      exact hne (Prod.mk.inj (toLex_inj.1 heq)).1
  refine Option.ext fun value => ?_
  rw [hvalues, OrderedMap.get?_ofList_iff hnodup, List.mem_flatMap, optionOf,
    Option.bind_eq_some_iff]
  constructor
  · rintro ⟨fields, hfields, hmem⟩
    obtain ⟨option, hoption, heq⟩ := List.mem_map.1 hmem
    cases heq
    exact ⟨fields.2, OrderedMap.mem_entries_iff.1 hfields, OrderedMap.mem_entries_iff.1 hoption⟩
  · rintro ⟨fields, hfields, hvalue⟩
    exact ⟨(_, fields), OrderedMap.mem_entries_iff.2 hfields,
      List.mem_map.2 ⟨(_, value), OrderedMap.mem_entries_iff.2 hvalue, rfl⟩⟩

/-- The reader finds the whole document in its text. -/
theorem parse_rendered {source : Text} (h : renderIni document = .ok source)
    (heditable : Editable document) (hpermitted : Permitted kind document) (path : String) :
    ∃ ini, Ini.parse path source kind = .ok ini ∧ intoSections ini = document := by
  unfold renderIni at h
  obtain ⟨rendered, hrender, h⟩ := bind_eq_ok.1 h
  obtain ⟨checked, hparse, h⟩ := bind_eq_ok.1 h
  cases h
  obtain ⟨_, hsize, _⟩ := bind_eq_ok.1 hparse
  obtain ⟨hsource, hsections⟩ := renderSections_cases hrender
  rw [List.nil_append] at hsource
  have hlegible : ∀ block ∈ document.entries.map blockOf, block.Legible kind := by
    intro block hblock
    obtain ⟨fields, hfields, rfl⟩ := List.mem_map.1 hblock
    exact legible_blockOf heditable hpermitted hfields (hsections fields hfields).1
      (hsections fields hfields).2
  have hlines : Text.lines source = renderedLines (document.entries.map blockOf) := by
    rw [hsource]
    refine Text.lines_unlines fun line hline => ?_
    obtain ⟨block, hblock, hline⟩ := List.mem_flatMap.1 hline
    rcases List.mem_append.1 hline with hline | hline
    · exact (hlegible block hblock).isLine line hline
    · rw [List.mem_singleton.1 hline]
      exact Text.IsLine.of_not_mem List.not_mem_nil List.not_mem_nil
  have hdistinct : ((document.entries.map blockOf).map fun block =>
      lowerName block.name.toList).Nodup := by
    have hnames : ((document.entries.map blockOf).map fun block => lowerName block.name.toList) =
        document.keys := by
      rw [List.map_map, OrderedMap.keys]
      refine List.map_congr_left fun fields hfields => ?_
      exact heditable.sections fields.1 fields.2 (OrderedMap.mem_entries_iff.1 hfields)
    rw [hnames]
    exact document.keys_nodup
  have hseen : IniState.Seen {} := fun key value hvalue => by cases hvalue
  obtain ⟨state, hstate, hvalues⟩ := readLines_rendered path hlegible hdistinct hseen
    (fun _ _ => List.not_mem_nil) 0
  refine ⟨{ path, values := state.values }, ?_, ?_⟩
  · rw [Ini.parse, ensure_of (ensure_eq_ok.1 hsize), ok_bind, hlines, hstate]
    rfl
  · obtain ⟨hinhabited, hoption⟩ := intoSections_eq { path, values := state.values }
    refine hinhabited.ext heditable.inhabited fun key => ?_
    rw [hoption, hvalues]
    exact get?_values (fun fields hfields => (hsections fields hfields).2) heditable key

/-! ## What the reader finds in any text -/

/-- The reader takes the name of a section. -/
structure Named (kind : Option Bool) (name : String) : Prop where
  notDefault : name ≠ "default"
  lower : lowerName name.toList = name
  known : kind = some true → name ∈ shardSections

/-- What holds of the reader after any number of lines. -/
structure Found (kind : Option Bool) (state : IniState) : Prop where
  current : state.sectionName ≠ "" → Named kind state.sectionName
  sections : ∀ key value, state.values.get? key = some value → Named kind (ofLex key).1
  keys : ∀ key value, state.values.get? key = some value →
    lowerName (ofLex key).2.toList = (ofLex key).2
  allowed : ∀ key value, state.values.get? key = some value →
    ∀ allowed ∈ allowedOptions kind (ofLex key).1, (ofLex key).2 ∈ allowed

theorem lowerName_lowerName (text : Text) :
    lowerName (lowerName text).toList = lowerName text := by
  rw [lowerName, lowerName, String.toList_ofList, Text.lower_lower]

variable {path : String} {index : Nat} {state next : IniState} {line : Text}

theorem readHeader_found (h : readHeader path kind index state line = .ok next)
    (hfound : Found kind state) : Found kind next := by
  unfold readHeader at h
  obtain ⟨parts, _, h⟩ := bind_eq_ok.1 h
  obtain ⟨_, _, h⟩ := bind_eq_ok.1 h
  obtain ⟨_, hname, h⟩ := bind_eq_ok.1 h
  obtain ⟨_, hknown, h⟩ := bind_eq_ok.1 h
  cases h
  exact ⟨fun _ => ⟨(ensure_eq_ok.1 hname).2.1, lowerName_lowerName _, ensure_eq_ok.1 hknown⟩,
    hfound.sections, hfound.keys, hfound.allowed⟩

theorem readOption_found (h : readOption path kind index state line = .ok next)
    (hfound : Found kind state) : Found kind next := by
  unfold readOption at h
  obtain ⟨parts, _, h⟩ := bind_eq_ok.1 h
  obtain ⟨_, hname, h⟩ := bind_eq_ok.1 h
  obtain ⟨_, _, h⟩ := bind_eq_ok.1 h
  obtain ⟨_, hallowed, h⟩ := bind_eq_ok.1 h
  cases h
  rw [ensure_eq_ok] at hname hallowed
  have hinsert : ∀ {P : String ×ₗ String → Prop}, (∀ key value, state.values.get? key = some value →
      P key) → P (toLex (state.sectionName, lowerName (Text.trim parts.1))) →
      ∀ key value, (state.values.insert
        (toLex (state.sectionName, lowerName (Text.trim parts.1))) (Text.trim parts.2)).get? key =
          some value → P key := by
    intro P hold hnew key value hvalue
    rw [OrderedMap.get?_insert] at hvalue
    split_ifs at hvalue with hkey
    · rw [hkey]
      exact hnew
    · exact hold key value hvalue
  exact ⟨hfound.current, hinsert hfound.sections (hfound.current hname.1),
    hinsert hfound.keys (lowerName_lowerName _), hinsert hfound.allowed hallowed⟩

theorem readLine_found (h : readLine path kind index state line = .ok next)
    (hfound : Found kind state) : Found kind next := by
  unfold readLine at h
  obtain ⟨_, _, h⟩ := bind_eq_ok.1 h
  split_ifs at h with hblank hheader
  · cases h
    exact hfound
  · exact readHeader_found h hfound
  · exact readOption_found h hfound

theorem readLines_found {lines : List Text}
    (h : readLines path kind index state lines = .ok next) (hfound : Found kind state) :
    Found kind next := by
  induction lines generalizing index state with
  | nil =>
    cases h
    exact hfound
  | cons line rest ih =>
    rw [readLines] at h
    obtain ⟨middle, hline, hrest⟩ := bind_eq_ok.1 h
    exact ih hrest (readLine_found hline hfound)

/-- What was read can be edited, in the same kind of file. -/
theorem editable_intoSections {source : Text} {ini : Ini}
    (h : Ini.parse path source kind = .ok ini) :
    Editable (intoSections ini) ∧ Permitted kind (intoSections ini) := by
  unfold Ini.parse at h
  obtain ⟨_, _, h⟩ := bind_eq_ok.1 h
  obtain ⟨state, hstate, h⟩ := bind_eq_ok.1 h
  cases h
  have hnone : ∀ key value, ({} : IniState).values.get? key ≠ some value :=
    fun key value hvalue => by cases hvalue
  have hstart : Found kind {} :=
    ⟨fun hne => absurd rfl hne, fun key value hvalue => absurd hvalue (hnone key value),
      fun key value hvalue => absurd hvalue (hnone key value),
      fun key value hvalue => absurd hvalue (hnone key value)⟩
  have hfound := readLines_found hstate hstart
  obtain ⟨hinhabited, hoption⟩ := intoSections_eq { path, values := state.values }
  have hnamed : ∀ name fields, (intoSections { path, values := state.values }).get? name =
      some fields → Named kind name := by
    intro name fields hfields
    obtain ⟨key, value, hvalue⟩ := hinhabited name fields hfields
    refine hfound.sections (toLex (name, key)) value ?_
    rw [← hoption, optionOf, ofLex_toLex, hfields]
    exact hvalue
  refine ⟨⟨hinhabited, ?_, ?_, ?_⟩, ?_, ?_⟩
  · exact fun name fields hfields => (hnamed name fields hfields).notDefault
  · exact fun name fields hfields => (hnamed name fields hfields).lower
  · exact fun key value hvalue => hfound.keys key value ((hoption key).symm.trans hvalue)
  · exact fun name fields hfields => (hnamed name fields hfields).known
  · exact fun key value hvalue => hfound.allowed key value ((hoption key).symm.trans hvalue)

/-- A document that is rendered is read again, and so is one that was read
before it was rendered. -/
theorem ini_round_trip :
    (∀ document source path, renderIni document = .ok source → Editable document →
      ∃ ini, Ini.parse path source none = .ok ini ∧ intoSections ini = document) ∧
    ∀ path source kind ini rendered, Ini.parse path source kind = .ok ini →
      renderIni (intoSections ini) = .ok rendered → ∀ path', ∀ kind' ∈ [none, kind],
        ∃ ini', Ini.parse path' rendered kind' = .ok ini' ∧
          intoSections ini' = intoSections ini := by
  constructor
  · intro document source path hrender heditable
    exact parse_rendered hrender heditable (permitted_none document) path
  · intro path source kind ini rendered hparse hrender path' kind' hkind
    obtain ⟨heditable, hpermitted⟩ := editable_intoSections hparse
    refine parse_rendered hrender heditable ?_ path'
    rw [List.mem_cons, List.mem_singleton] at hkind
    rcases hkind with rfl | rfl
    · exact permitted_none _
    · exact hpermitted

/-- A section with one option. -/
def sampleDocument : IniDocument where
  entries := [("network", ⟨[("cluster_name", "; a # b = c".toList)], List.pairwise_singleton _ _⟩)]
  sorted := List.pairwise_singleton _ _

theorem sampleDocument_editable : Editable sampleDocument := by
  have hget : ∀ name fields, sampleDocument.get? name = some fields →
      name = "network" ∧ fields.entries = [("cluster_name", "; a # b = c".toList)] := by
    intro name fields hfields
    have hmem := OrderedMap.mem_entries_iff.2 hfields
    rw [sampleDocument, List.mem_singleton] at hmem
    cases hmem
    exact ⟨rfl, rfl⟩
  refine ⟨fun name fields hfields => ?_, fun name fields hfields => ?_,
    fun name fields hfields => ?_, fun key value hvalue => ?_⟩
  · refine ⟨"cluster_name", "; a # b = c".toList, OrderedMap.mem_entries_iff.1 ?_⟩
    rw [(hget name fields hfields).2]
    exact List.mem_singleton_self _
  · rw [(hget name fields hfields).1]
    decide
  · rw [(hget name fields hfields).1]
    decide
  · obtain ⟨fields, hfields, hvalue⟩ := Option.bind_eq_some_iff.1 hvalue
    have hmem := OrderedMap.mem_entries_iff.2 hvalue
    rw [(hget _ fields hfields).2, List.mem_singleton] at hmem
    rw [(Prod.mk.inj hmem).1]
    decide

def sampleIni : Ini where
  path := "cluster.ini"
  values :=
    { entries := [(toLex ("network", "cluster_name"), "; a # b = c".toList)]
      sorted := List.pairwise_singleton _ _ }

theorem ini_round_trip_sample :
    (∃ ini, Ini.parse "cluster.ini" "[network]\ncluster_name = ; a # b = c\n\n".toList none =
        .ok ini ∧ intoSections ini = sampleDocument) ∧
      ∃ ini, Ini.parse "cluster.ini" "[network]\ncluster_name = ; a # b = c\n\n".toList
        (some false) = .ok ini ∧ intoSections ini = intoSections sampleIni :=
  ⟨ini_round_trip.1 sampleDocument _ "cluster.ini" (by rfl) sampleDocument_editable,
    ini_round_trip.2 "cluster.ini" " [ NetWork ] # x\r\nCluster_Name:; a # b = c".toList
      (some false) sampleIni _ (by rfl) (by rfl) "cluster.ini" (some false) (by decide)⟩

end DstServer.Rooms
