import DstServer.Deployment.Unit

/-!
# Values, lines and sections of a unit file

What is needed of a value so that it survives its line, and what the reader
makes of a text that was put together from such lines.

* The escapings have inverses: `unquote_quote` and
  `volumeUnescape_volumeEscape`.
* `IsValue` is what a value on a line has to be, and `IsSection` says it of
  the directives of a section.
* `parseLines_groups` reads a list of sections, and `fieldsOf_all` tells the
  values that a key then has.
-/

namespace DstServer.Deployment

open Lib

/-! ## The escapings have inverses -/

theorem literal_eq_ok {value : Text} {u : Unit} :
    literal value = .ok u ↔ ∀ c ∈ value, c ∉ ['\x00', '\r', '\n'] := Outcome.ensure_eq_ok

/-- The text of one character of a quoted value. -/
def quotedChar (c : Char) : Text :=
  if c = '\\' then ['\\', '\\'] else if c = '%' then ['%', '%'] else if c = '$' then ['$', '$']
  else if c = '"' then ['\\', '"'] else [c]

theorem quote_eq (value : Text) :
    quote value = '"' :: value.flatMap quotedChar ++ ['"'] := by
  have hchars : Text.replace '"' "\\\"".toList (escape value) = value.flatMap quotedChar := by
    induction value with
    | nil => rfl
    | cons c rest ih =>
      simp only [escape, Text.replace, List.flatMap_cons, List.flatMap_append] at ih ⊢
      rw [ih]
      congr 1
      unfold quotedChar
      split_ifs with h₁ h₂ h₃ h₄ <;> simp_all
  rw [quote, hchars]

theorem unquoteChars_quoted (value : Text) :
    unquoteChars (value.flatMap quotedChar) = .ok value := by
  induction value with
  | nil => rfl
  | cons c rest ih =>
    rw [List.flatMap_cons, quotedChar]
    split_ifs with h₁ h₂ h₃ h₄
    · simp [unquoteChars, ih, h₁, Outcome.ensure]
    · simp [unquoteChars, ih, h₂, Outcome.ensure]
    · simp [unquoteChars, ih, h₃, Outcome.ensure]
    · simp [unquoteChars, ih, h₄, Outcome.ensure]
    · rw [List.singleton_append, unquoteChars.eq_def]
      simp [ih, h₁, h₂, h₃, h₄]

theorem unquote_quote {value : Text} (h : ∀ c ∈ value, c ∉ ['\x00', '\r', '\n']) :
    unquote (quote value) = .ok value := by
  have hstart : ['"'].isPrefixOf? (quote value) = some (value.flatMap quotedChar ++ ['"']) := by
    rw [List.isPrefixOf?_eq_some_iff_append_eq, quote_eq]
    rfl
  have hsuffix := Text.isSuffixOf?_append (value.flatMap quotedChar) ['"']
  have hliteral : literal value = .ok () := literal_eq_ok.2 h
  simp only [unquote, hstart, hsuffix, unquoteChars_quoted, hliteral, Outcome.orError,
    Outcome.ok_bind]
  rfl

/-- The text of one character of a volume. -/
def volumeChar (c : Char) : Text :=
  if c = '%' then ['%', '%'] else if c = '$' then ['$', '$'] else [c]

theorem volumeEscape_eq (value : Text) : volumeEscape value = value.flatMap volumeChar := by
  induction value with
  | nil => rfl
  | cons c rest ih =>
    simp only [volumeEscape, Text.replace, List.flatMap_cons, List.flatMap_append] at ih ⊢
    rw [ih]
    congr 1
    unfold volumeChar
    split_ifs with h₁ h₂ <;> simp_all

theorem volumeDecode_volumeEscape (value : Text) :
    volumeDecode (volumeEscape value) = .ok value := by
  rw [volumeEscape_eq]
  induction value with
  | nil => rfl
  | cons c rest ih =>
    rw [List.flatMap_cons, volumeChar]
    split_ifs with h₁ h₂
    · simp [volumeDecode, ih, h₁, Outcome.ensure]
    · simp [volumeDecode, ih, h₂, Outcome.ensure]
    · rw [List.singleton_append, volumeDecode.eq_def]
      simp [ih, h₁, h₂]

theorem volumeUnescape_volumeEscape {value : Text} (h : ∀ c ∈ value, c ∉ ['\x00', '\r', '\n']) :
    volumeUnescape (volumeEscape value) = .ok value := by
  have hliteral : literal value = .ok () := literal_eq_ok.2 h
  rw [volumeUnescape, volumeDecode_volumeEscape, Outcome.ok_bind, hliteral]
  rfl

/-! ## Values on a line -/

/-- A value that reads back as it is: it stays on its line, has no
whitespace at its ends and does not continue the line. -/
structure IsValue (value : Text) : Prop where
  noFeed : '\n' ∉ value
  noReturn : '\r' ∉ value
  trimmed : Text.Trimmed value
  noContinuation : value.getLast? ≠ some '\\'

instance (value : Text) : Decidable (IsValue value) :=
  decidable_of_iff ('\n' ∉ value ∧ '\r' ∉ value ∧ Text.Trimmed value ∧
      value.getLast? ≠ some '\\')
    ⟨fun ⟨hn, hr, ht, hc⟩ => ⟨hn, hr, ht, hc⟩, fun ⟨hn, hr, ht, hc⟩ => ⟨hn, hr, ht, hc⟩⟩

/-- The name of a directive or a section. -/
def IsName (name : String) : Prop := name.toList ≠ [] ∧ ∀ c ∈ name.toList, c.isAlpha = true

instance (name : String) : Decidable (IsName name) := by
  unfold IsName
  infer_instance

theorem visible_of_isAlpha {c : Char} (h : c.isAlpha = true) : Text.isWhitespace c = false := by
  have hn : (65 ≤ c.toNat ∧ c.toNat ≤ 90) ∨ (97 ≤ c.toNat ∧ c.toNat ≤ 122) := by
    simpa [Char.isAlpha, Char.isUpper, Char.isLower, UInt32.le_iff_toNat_le] using h
  simp only [Text.isWhitespace, Bool.or_eq_false_iff, Bool.and_eq_false_iff, decide_eq_false_iff_not]
  omega

theorem ne_of_isAlpha {c d : Char} (h : c.isAlpha = true) (hd : d.isAlpha = false) : c ≠ d := by
  rintro rfl
  rw [h] at hd
  exact absurd hd (by decide)

theorem IsName.trimmed {name : String} (h : IsName name) : Text.Trimmed name.toList :=
  Text.Trimmed.of_forall fun c hc => visible_of_isAlpha (h.2 c hc)

theorem IsName.not_mem {name : String} (h : IsName name) {d : Char} (hd : d.isAlpha = false) :
    d ∉ name.toList := fun hmem => ne_of_isAlpha (h.2 d hmem) hd rfl

/-- A line with a directive. -/
def entryLine (entry : String × Text) : Text := entry.1.toList ++ '=' :: entry.2

/-- A line with the name of a section. -/
def sectionLine (sectionName : String) : Text := '[' :: sectionName.toList ++ [']']

theorem isLine_entryLine {entry : String × Text} (hname : IsName entry.1)
    (hvalue : IsValue entry.2) : Text.IsLine (entryLine entry) := by
  have hn := hname.not_mem (d := '\n') (by decide)
  have hr := hname.not_mem (d := '\r') (by decide)
  refine Text.IsLine.of_not_mem ?_ ?_
  · simp [entryLine, hn, hvalue.noFeed]
  · simp [entryLine, hr, hvalue.noReturn]

theorem isLine_sectionLine {sectionName : String} (h : IsName sectionName) :
    Text.IsLine (sectionLine sectionName) := by
  have hn := h.not_mem (d := '\n') (by decide)
  have hr := h.not_mem (d := '\r') (by decide)
  refine Text.IsLine.of_not_mem ?_ ?_ <;> simp [sectionLine, hn, hr]

theorem trimmed_entryLine {entry : String × Text} (hname : IsName entry.1)
    (hvalue : IsValue entry.2) : Text.Trimmed (entryLine entry) := by
  constructor
  · intro c hc
    rw [entryLine, List.head?_append_of_ne_nil _ hname.1] at hc
    exact hname.trimmed.1 c hc
  · intro c hc
    rw [entryLine, List.getLast?_append_cons] at hc
    cases hv : entry.2 with
    | nil =>
      rw [hv, List.getLast?_singleton, Option.mem_some] at hc
      rw [← hc]
      rfl
    | cons d rest =>
      rw [hv, List.getLast?_cons_cons] at hc
      exact hvalue.trimmed.2 c (hv ▸ hc)

theorem trimmed_sectionLine (sectionName : String) : Text.Trimmed (sectionLine sectionName) :=
  Text.Trimmed.of_ends (by decide) (by decide)

/-! ## Reading sections -/

theorem parseLines_skipped {line : Text} (h : isSkipped (Text.trim line) = true)
    (state : Text × Fields) (rest : List Text) :
    parseLines state (line :: rest) = parseLines state rest := by
  rw [parseLines, if_pos h]

theorem parseLines_section (sectionName : String) (state : Text × Fields) (rest : List Text) :
    parseLines state (sectionLine sectionName :: rest) =
      parseLines (sectionName.toList, state.2) rest := by
  have hskip : isSkipped (sectionLine sectionName) = false := by
    simp [isSkipped, sectionLine]
  have hstart : ['['].isPrefixOf? (sectionLine sectionName) =
      some (sectionName.toList ++ [']']) := by
    rw [List.isPrefixOf?_eq_some_iff_append_eq, sectionLine]
    rfl
  have hsuffix := Text.isSuffixOf?_append sectionName.toList [']']
  rw [parseLines, Text.trim_eq_self (trimmed_sectionLine sectionName), hskip, if_neg (by decide),
    parseLine, hstart, Option.bind_some, hsuffix]
  rfl

theorem parseLines_entry {sectionName : String} {entry : String × Text}
    (hsection : IsName sectionName) (hname : IsName entry.1) (hvalue : IsValue entry.2)
    (fields : Fields) (rest : List Text) :
    parseLines (sectionName.toList, fields) (entryLine entry :: rest) =
      parseLines (sectionName.toList, fields.push (fieldKey sectionName entry.1) entry.2) rest := by
  obtain ⟨c, name, hcons⟩ := List.exists_cons_of_ne_nil hname.1
  have hc : c.isAlpha = true := hname.2 c (by rw [hcons]; exact List.mem_cons_self)
  have hskip : isSkipped (entryLine entry) = false := by
    have h₁ := ne_of_isAlpha hc (d := '#') (by decide)
    have h₂ := ne_of_isAlpha hc (d := ';') (by decide)
    simp [isSkipped, entryLine, hcons, h₁, h₂]
  have hstart : ['['].isPrefixOf? (entryLine entry) = none := by
    have h := ne_of_isAlpha hc (d := '[') (by decide)
    simp [entryLine, hcons, List.isPrefixOf?, Ne.symm h]
  have hsplit : Text.splitOnce (· = '=') (entryLine entry) =
      some (entry.1.toList, entry.2) := by
    refine Text.splitOnce_append (fun x hx => ?_) (by decide)
    have hne : x ≠ '=' := ne_of_isAlpha (hname.2 x hx) (by decide)
    simpa using hne
  have hcheck : sectionName.toList ≠ [] ∧ entry.1.toList ≠ [] ∧
      entry.2.getLast? ≠ some '\\' := ⟨hsection.1, hname.1, hvalue.noContinuation⟩
  rw [parseLines, Text.trim_eq_self (trimmed_entryLine hname hvalue), hskip, if_neg (by decide),
    parseLine, hstart, Option.bind_none]
  simp only [hsplit, Outcome.orError, Outcome.ok_bind, Text.trim_eq_self hname.trimmed,
    Text.trim_eq_self hvalue.trimmed, Outcome.ensure_of hcheck, String.ofList_toList,
    Outcome.pure_eq_ok]

/-- Add the directives of a section. -/
def pushAll (sectionName : String) (entries : List (String × Text)) (fields : Fields) : Fields :=
  entries.foldl (fun fields entry => fields.push (fieldKey sectionName entry.1) entry.2) fields

/-- The lines of a section. -/
def sectionLines (group : String × List (String × Text)) : List Text :=
  sectionLine group.1 :: group.2.map entryLine

/-- A line that the reader takes for the directive that it was written for. -/
def IsEntry (entry : String × Text) : Prop := IsName entry.1 ∧ IsValue entry.2

instance (entry : String × Text) : Decidable (IsEntry entry) := by
  unfold IsEntry
  infer_instance

/-- A section whose lines are read as its directives. -/
def IsSection (group : String × List (String × Text)) : Prop :=
  IsName group.1 ∧ ∀ entry ∈ group.2, IsEntry entry

instance (group : String × List (String × Text)) : Decidable (IsSection group) := by
  unfold IsSection
  infer_instance

theorem isLine_of_mem_sectionLines {group : String × List (String × Text)} (h : IsSection group) :
    ∀ line ∈ sectionLines group, Text.IsLine line := by
  intro line hline
  rcases List.mem_cons.1 hline with rfl | hline
  · exact isLine_sectionLine h.1
  · obtain ⟨entry, hentry, rfl⟩ := List.mem_map.1 hline
    exact isLine_entryLine (h.2 entry hentry).1 (h.2 entry hentry).2

theorem parseLines_entries {sectionName : String} (hsection : IsName sectionName)
    {entries : List (String × Text)} (h : ∀ entry ∈ entries, IsEntry entry) (fields : Fields)
    (rest : List Text) :
    parseLines (sectionName.toList, fields) (entries.map entryLine ++ rest) =
      parseLines (sectionName.toList, pushAll sectionName entries fields) rest := by
  induction entries generalizing fields with
  | nil => rfl
  | cons entry entries ih =>
    have hentry := h entry List.mem_cons_self
    rw [List.map_cons, List.cons_append, parseLines_entry hsection hentry.1 hentry.2,
      ih fun e he => h e (List.mem_cons_of_mem _ he)]
    rfl

theorem parseLines_group {group : String × List (String × Text)} (h : IsSection group)
    (state : Text × Fields) (rest : List Text) :
    parseLines state (sectionLines group ++ rest) =
      parseLines (group.1.toList, pushAll group.1 group.2 state.2) rest := by
  rw [sectionLines, List.cons_append, parseLines_section, parseLines_entries h.1 h.2]

/-- The fields of these sections. -/
def fieldsOf (groups : List (String × List (String × Text))) (fields : Fields) : Fields :=
  groups.foldl (fun fields group => pushAll group.1 group.2 fields) fields

theorem fieldsOf_cons (group : String × List (String × Text))
    (groups : List (String × List (String × Text))) (fields : Fields) :
    fieldsOf (group :: groups) fields = fieldsOf groups (pushAll group.1 group.2 fields) := rfl

/-- Sections with a blank line before each are read as their directives. -/
theorem parseLines_groups {groups : List (String × List (String × Text))}
    (h : ∀ group ∈ groups, IsSection group) (state : Text × Fields) :
    ∃ sectionName, parseLines state (groups.flatMap fun group => [] :: sectionLines group) =
      .ok (sectionName, fieldsOf groups state.2) := by
  induction groups generalizing state with
  | nil => exact ⟨state.1, rfl⟩
  | cons group groups ih =>
    have hgroup := h group List.mem_cons_self
    obtain ⟨last, hlast⟩ := ih (fun g hg => h g (List.mem_cons_of_mem _ hg))
      (group.1.toList, pushAll group.1 group.2 state.2)
    refine ⟨last, ?_⟩
    rw [List.flatMap_cons, List.cons_append, parseLines_skipped rfl, parseLines_group hgroup, hlast]
    rfl

/-! ## The fields of what was read -/

/-- The values of a directive among these. -/
def valuesOf (name : String) (entries : List (String × Text)) : List Text :=
  (entries.filter (·.1 = name)).map Prod.snd

@[simp] theorem valuesOf_nil (name : String) : valuesOf name [] = [] := rfl

@[simp] theorem valuesOf_cons (name : String) (entry : String × Text) (entries : List (String × Text)) :
    valuesOf name (entry :: entries) =
      if entry.1 = name then entry.2 :: valuesOf name entries else valuesOf name entries := by
  by_cases h : entry.1 = name <;> simp [valuesOf, h]

@[simp] theorem valuesOf_append (name : String) (first second : List (String × Text)) :
    valuesOf name (first ++ second) = valuesOf name first ++ valuesOf name second := by
  simp [valuesOf]

/-- The values of directives of one name. -/
theorem valuesOf_map {α : Type} (name other : String) (value : α → Text) (l : List α) :
    valuesOf name (l.map fun a => (other, value a)) = if other = name then l.map value else [] := by
  by_cases h : other = name <;> simp [valuesOf, List.filter_map, Function.comp_def, h]

/-- A key that is present has a value. -/
def NoEmpty (fields : Fields) : Prop := ∀ key, fields.get? key ≠ some []

theorem noEmpty_push {fields : Fields} (h : NoEmpty fields) (key : String ×ₗ String) (value : Text) :
    NoEmpty (fields.push key value) := by
  intro other
  rw [Fields.push, OrderedMap.get?_insert]
  split_ifs
  · simp
  · exact h other

theorem noEmpty_pushAll {fields : Fields} (h : NoEmpty fields) (sectionName : String)
    (entries : List (String × Text)) : NoEmpty (pushAll sectionName entries fields) := by
  induction entries generalizing fields with
  | nil => exact h
  | cons entry entries ih => exact ih (noEmpty_push h _ _)

theorem all_push (fields : Fields) (sectionName other name wanted : String) (value : Text) :
    (fields.push (fieldKey sectionName name) value).all other wanted =
      if other = sectionName ∧ wanted = name then fields.all other wanted ++ [value]
      else fields.all other wanted := by
  have hkey : fieldKey other wanted = fieldKey sectionName name ↔
      other = sectionName ∧ wanted = name := by
    rw [fieldKey, fieldKey, EmbeddingLike.apply_eq_iff_eq, Prod.mk.injEq]
  unfold Fields.all Fields.push
  rw [OrderedMap.get?_insert]
  by_cases h : other = sectionName ∧ wanted = name
  · rw [if_pos (hkey.2 h), if_pos h, hkey.2 h]
    rfl
  · rw [if_neg (mt hkey.1 h), if_neg h]

theorem all_pushAll (fields : Fields) (sectionName other wanted : String)
    (entries : List (String × Text)) :
    (pushAll sectionName entries fields).all other wanted =
      fields.all other wanted ++ if other = sectionName then valuesOf wanted entries else [] := by
  induction entries generalizing fields with
  | nil => simp [pushAll]
  | cons entry entries ih =>
    show (pushAll sectionName entries (fields.push _ _)).all other wanted = _
    rw [ih, all_push, valuesOf_cons]
    by_cases hsection : other = sectionName
    · by_cases hname : wanted = entry.1
      · simp [hsection, hname]
      · simp [hsection, hname, Ne.symm hname]
    · simp [hsection]

theorem get?_eq_of_noEmpty {fields : Fields} (h : NoEmpty fields) (sectionName name : String) :
    fields.get? (fieldKey sectionName name) =
      if fields.all sectionName name = [] then none else some (fields.all sectionName name) := by
  unfold Fields.all
  cases hget : fields.get? (fieldKey sectionName name) with
  | none => rfl
  | some values =>
    have hne : values ≠ [] := by
      rintro rfl
      exact h _ hget
    rw [Option.getD_some, if_neg hne]

/-- What `get` finds, from the list of the values. -/
theorem single_of_all {fields : Fields} (h : NoEmpty fields) {sectionName name : String} {value : Text}
    (hall : fields.all sectionName name = [value]) :
    fields.single sectionName name = .ok value := by
  rw [Fields.single, get?_eq_of_noEmpty h, hall, if_neg (by simp)]
  rfl

theorem noEmpty_fieldsOf {fields : Fields} (h : NoEmpty fields)
    (groups : List (String × List (String × Text))) : NoEmpty (fieldsOf groups fields) := by
  induction groups generalizing fields with
  | nil => exact h
  | cons group groups ih => exact ih (noEmpty_pushAll h _ _)

/-- The values of a directive in these sections. -/
def valuesAt (sectionName name : String) (groups : List (String × List (String × Text))) :
    List Text :=
  groups.flatMap fun group => if sectionName = group.1 then valuesOf name group.2 else []

theorem fieldsOf_all (groups : List (String × List (String × Text))) (fields : Fields)
    (sectionName name : String) :
    (fieldsOf groups fields).all sectionName name =
      fields.all sectionName name ++ valuesAt sectionName name groups := by
  induction groups generalizing fields with
  | nil => simp [fieldsOf, valuesAt]
  | cons group groups ih =>
    rw [fieldsOf_cons, ih, all_pushAll, valuesAt, valuesAt, List.flatMap_cons, List.append_assoc]

end DstServer.Deployment
