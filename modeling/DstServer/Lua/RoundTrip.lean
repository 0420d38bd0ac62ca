import DstServer.Lua.Spelling

/-!
# Literals are read back

`value` reads the expression that a value spells back as that value.  Three
things differ by design or by spelling, and `Returned` names them: an empty
array is an empty table, which is read as an object, and the integer `-0` is
`0`.

* `number_spelled` is the round trip of numbers.  `Doubles.Exact` says that
  a printed double is read as that double.
* `tableFields_items` and `tableFields_fields` follow the loop over the
  fields of a table, with the values read so far as the invariant.
* `literal_round_trip` is the round trip of rendered values.
-/

namespace DstServer.Lua

open Lib Outcome

variable {doubles : Doubles}

/-! ## Numbers -/

/-- A finite double is printed with a fraction or an exponent, and what is
printed is read as that double. -/
structure Doubles.Exact (doubles : Doubles) : Prop where
  numeral : ∀ float literal, doubles.fromF64 float = some literal →
    (Numeral.value? literal.toList).isSome = true
  fraction : ∀ float literal, doubles.fromF64 float = some literal →
    '.' ∈ literal.toList ∨ 'e' ∈ literal.toList ∨ 'E' ∈ literal.toList
  positive : ∀ float literal, doubles.fromF64 float = some literal →
    literal.toList.head? ≠ some '-' → doubles.parse literal.toList = some float
  negative : ∀ float literal text, doubles.fromF64 float = some literal →
    literal.toList = '-' :: text →
    ∃ magnitude, doubles.parse text = some magnitude ∧ doubles.neg magnitude = float

/-- The number is an integer, or spelled as a finite double is printed. -/
def Printed (doubles : Doubles) (literal : String) : Prop :=
  (Json.number literal).asI64?.isSome = true ∨ ∃ float, doubles.fromF64 float = some literal

mutual

/-- Every number is an integer, or spelled as a finite double is printed. -/
def PrintedNumbers (doubles : Doubles) : Json → Prop
  | .number literal => Printed doubles literal
  | .array items => PrintedItems doubles items
  | .object fields => PrintedFields doubles fields
  | _ => True

def PrintedItems (doubles : Doubles) : List Json → Prop
  | [] => True
  | item :: rest => PrintedNumbers doubles item ∧ PrintedItems doubles rest

def PrintedFields (doubles : Doubles) : List (String × Json) → Prop
  | [] => True
  | (_, item) :: rest => PrintedNumbers doubles item ∧ PrintedFields doubles rest

end

/-- The value that comes back: an empty array is an empty table, and the
integer `-0` is `0`. -/
inductive Returned : Json → Json → Prop
  | bool (boolean : Bool) : Returned (.bool boolean) (.bool boolean)
  | number (literal : String) : Returned (.number literal) (.number literal)
  | minusZero : Returned (.number "-0") (.number "0")
  | string (text : String) : Returned (.string text) (.string text)
  | emptyArray : Returned (.array []) (.object [])
  | array {items others : List Json} (hne : items ≠ []) (h : List.Forall₂ Returned items others) :
      Returned (.array items) (.array others)
  | object {fields others : List (String × Json)}
      (hkeys : fields.map Prod.fst = others.map Prod.fst)
      (h : List.Forall₂ Returned (fields.map Prod.snd) (others.map Prod.snd)) :
      Returned (.object fields) (.object others)

/-- A numeral is not hexadecimal. -/
theorem number_plain {text : Text} (h : (Numeral.magnitude? text).isSome = true)
    (negative : Bool) :
    number doubles text negative =
      if '.' ∈ text ∨ 'e' ∈ text ∨ 'E' ∈ text then floatNumber doubles text negative
      else integerNumber (fromDecimal text) "unsupported Lua integer" negative := by
  unfold number
  split
  · exact absurd (Numeral.magnitude?_zero_cons h) (by decide)
  · exact absurd (Numeral.magnitude?_zero_cons h) (by decide)
  · rfl

theorem number_integer {text : Text} {n : Nat} (hdigits : Json.digits? text = some n)
    (hnumeral : (Numeral.magnitude? text).isSome = true) {negative : Bool} {value : Json}
    (h : number doubles text negative = .ok value) : value = integerValue n negative := by
  have hall := Numeral.isDigit_of_digits? (Option.isSome_of_eq_some hdigits)
  have hplain : ¬('.' ∈ text ∨ 'e' ∈ text ∨ 'E' ∈ text) := by
    rintro (hmem | hmem | hmem)
    · exact absurd (hall _ hmem) (by decide)
    · exact absurd (hall _ hmem) (by decide)
    · exact absurd (hall _ hmem) (by decide)
  rw [number_plain hnumeral, if_neg hplain] at h
  simp only [integerNumber, bind_eq_ok, orError_eq_ok, fromDecimal, hdigits] at h
  obtain ⟨m, hm, _, _, hpure⟩ := h
  cases hpure
  rw [← (Option.filter_eq_some_iff.1 hm).1 |> Option.some.inj]

theorem number_double (hexact : doubles.Exact) {literal : String} {float : doubles.Float}
    (hprinted : doubles.fromF64 float = some literal) {text : Text} {negative : Bool}
    (htext : literal.toList = if negative then '-' :: text else text)
    (hsign : negative = false → text.head? ≠ some '-')
    (hnumeral : (Numeral.magnitude? text).isSome = true) {value : Json}
    (h : number doubles text negative = .ok value) : value = .number literal := by
  have hfraction : '.' ∈ text ∨ 'e' ∈ text ∨ 'E' ∈ text := by
    have hmem := hexact.fraction float literal hprinted
    rw [htext] at hmem
    cases negative with
    | false => exact hmem
    | true => simpa using hmem
  rw [number_plain hnumeral, if_pos hfraction] at h
  simp only [floatNumber, bind_eq_ok, orError_eq_ok] at h
  obtain ⟨parsed, hparsed, found, hfound, hpure⟩ := h
  cases hpure
  have hread : (if negative then doubles.neg parsed else parsed) = float := by
    cases negative with
    | false =>
      have htext : literal.toList = text := htext
      have hpositive := hexact.positive float literal hprinted (htext ▸ hsign rfl)
      rw [htext, hparsed] at hpositive
      exact Option.some.inj hpositive
    | true =>
      obtain ⟨magnitude, hmagnitude, hneg⟩ := hexact.negative float literal text hprinted htext
      rw [hmagnitude] at hparsed
      cases hparsed
      exact hneg
  rw [hread, hprinted] at hfound
  rw [Option.some.inj hfound]

/-- The text of an integer. -/
theorem integerValue_false {literal : String} {n : Nat}
    (hliteral : Text.decimal n = literal.toList) : integerValue n false = .number literal := by
  have htext : toString (n : Int) = literal := by
    rw [← String.toList_inj, ← hliteral]
    show (toString n).toList = _
    simp [Text.decimal]
  show Json.number (toString (n : Int)) = _
  rw [htext]

theorem integerValue_true {literal : String} {n : Nat}
    (hliteral : '-' :: Text.decimal n = literal.toList) :
    Returned (.number literal) (integerValue n true) := by
  cases n with
  | zero =>
    have htext : literal = "-0" := by
      rw [← String.toList_inj, ← hliteral]
      decide
    rw [htext]
    exact .minusZero
  | succ m =>
    have htext : toString (-((m + 1 : Nat) : Int)) = literal := by
      rw [← String.toList_inj, ← hliteral]
      show (("-" : String) ++ toString (m + 1)).toList = _
      simp [Text.decimal]
    show Returned _ (Json.number (toString (-((m + 1 : Nat) : Int))))
    rw [htext]
    exact .number literal

/-- A rendered number is read back. -/
theorem number_spelled (hexact : doubles.Exact) {literal : String}
    (hnumeral : (Numeral.value? literal.toList).isSome = true) (hprinted : Printed doubles literal)
    {depth : Nat} {result : Json} (h : value doubles (spelledNumber literal) depth = .ok result) :
    Returned (.number literal) result := by
  unfold spelledNumber at h
  split at h
  · rename_i text hliteral
    simp only [value, bind_eq_ok] at h
    obtain ⟨_, _, hnumber⟩ := h
    rw [hliteral, Numeral.value?, Option.isSome_map] at hnumeral
    rcases hprinted with hinteger | ⟨float, hfloat⟩
    · simp only [Json.asI64?, hliteral] at hinteger
      obtain ⟨integer, hinteger⟩ := Option.isSome_iff_exists.1 hinteger
      obtain ⟨_, hcast, _⟩ := Option.map_eq_some_iff.1 hinteger
      obtain ⟨n, hn, _⟩ := Option.bind_eq_some_iff.1 hcast
      have hdigits := (Option.filter_eq_some_iff.1 hn).1
      rw [number_integer hdigits hnumeral hnumber]
      refine integerValue_true ?_
      rw [hliteral, Numeral.decimal_of_magnitude? hdigits hnumeral]
    · have htext : literal.toList = if true then '-' :: text else text := hliteral
      rw [number_double hexact hfloat htext (fun hfalse => Bool.noConfusion hfalse) hnumeral
        hnumber]
      exact .number literal
  · rename_i hplus
    have hsign : literal.toList.head? ≠ some '-' := by
      intro hhead
      cases hliteral : literal.toList with
      | nil =>
        rw [hliteral] at hhead
        cases hhead
      | cons c rest =>
        rw [hliteral] at hhead
        cases hhead
        exact hplus rest hliteral
    simp only [value, bind_eq_ok] at h
    obtain ⟨_, _, hnumber⟩ := h
    rw [Numeral.value?_of_ne_minus hsign] at hnumeral
    rcases hprinted with hinteger | ⟨float, hfloat⟩
    · have hdigits : ∃ n, Json.digits? literal.toList = some n := by
        simp only [Json.asI64?, Option.isSome_map] at hinteger
        obtain ⟨n, hn⟩ := Option.isSome_iff_exists.1 hinteger
        exact ⟨n, (Option.filter_eq_some_iff.1 hn).1⟩
      obtain ⟨n, hdigits⟩ := hdigits
      rw [number_integer hdigits hnumeral hnumber,
        integerValue_false (Numeral.decimal_of_magnitude? hdigits hnumeral)]
      exact .number literal
    · rw [number_double hexact hfloat rfl (fun _ => hsign) hnumeral hnumber]
      exact .number literal

/-! ## Tables -/

/-- The fields that were read so far from a table without keys. -/
structure Listed (table : Table) (values : List Json) : Prop where
  object : table.object = []
  implicit : table.implicit = values.length
  array : table.array.entries = values.mapIdx fun i value => (i + 1, value)

theorem listed_empty : Listed .empty [] := ⟨rfl, rfl, rfl⟩

/-- A field without a key comes last. -/
theorem Listed.add {table table' : Table} {values : List Json} (h : Listed table values)
    {item : Json}
    (hadd : Table.add { table with implicit := table.implicit + 1 }
      (.ofNat (table.implicit + 1)) item = .ok table') :
    Listed table' (values ++ [item]) := by
  simp only [Table.add, Json.ofNat, bind_eq_ok, orError_eq_ok, ensure_eq_ok] at hadd
  obtain ⟨_, _, index, hindex, _, _, hpure⟩ := hadd
  cases hpure
  have hnumber : index = values.length + 1 := by
    have hvalue := (Option.filter_eq_some_iff.1 hindex).1
    have hof := Json.asU64?_ofNat (table.implicit + 1)
    rw [Json.ofNat] at hof
    rw [hof] at hvalue
    split at hvalue
    · rw [← Option.some.inj hvalue, h.implicit]
    · cases hvalue
  subst hnumber
  refine ⟨h.object, ?_, ?_⟩
  · show table.implicit + 1 = (values ++ [item]).length
    rw [h.implicit, List.length_append]
    rfl
  · show OrderedMap.insertEntry (values.length + 1) item table.array.entries = _
    rw [List.mapIdx_concat, h.array]
    refine OrderedMap.insertEntry_last ?_
    intro e he
    obtain ⟨i, hi, rfl⟩ := List.mem_mapIdx.1 he
    show i + 1 < values.length + 1
    omega

/-- The value of a table without keys. -/
theorem Listed.value {table : Table} {values : List Json} (h : Listed table values)
    {result : Json} (hresult : table.value = .ok result) :
    (values = [] ∧ result = .object []) ∨ (values ≠ [] ∧ result = .array values) := by
  unfold Table.value at hresult
  split at hresult
  · rename_i hempty
    cases hresult
    rw [OrderedMap.isEmpty_iff, OrderedMap.keys, h.array, List.map_eq_nil_iff] at hempty
    refine Or.inl ⟨?_, by rw [h.object]⟩
    have hlength := congrArg List.length hempty
    rw [List.length_mapIdx] at hlength
    exact List.length_eq_zero_iff.1 hlength
  · rename_i hnonempty
    simp only [bind_eq_ok] at hresult
    obtain ⟨_, _, hpure⟩ := hresult
    cases hpure
    refine Or.inr ⟨?_, ?_⟩
    · rintro rfl
      refine hnonempty ?_
      rw [OrderedMap.isEmpty_iff, OrderedMap.keys, h.array]
      rfl
    · have hvalues : table.array.values = values := by
        rw [OrderedMap.values, h.array]
        refine List.ext_getElem (by simp) ?_
        intro i _ _
        simp
      rw [hvalues]

/-- The fields that were read so far from a table with keys. -/
structure Keyed (table : Table) (fields : List (String × Json)) : Prop where
  object : table.object = fields
  array : table.array.isEmpty = true

theorem keyed_empty : Keyed .empty [] := ⟨rfl, rfl⟩

theorem Keyed.add {table table' : Table} {fields : List (String × Json)} (h : Keyed table fields)
    {key : String} {item : Json} (hlast : ∀ field ∈ fields, field.1 < key)
    (hadd : table.add (.string key) item = .ok table') :
    Keyed table' (fields ++ [(key, item)]) := by
  simp only [Table.add, bind_eq_ok] at hadd
  obtain ⟨_, _, _, _, hpure⟩ := hadd
  cases hpure
  refine ⟨?_, h.array⟩
  show Json.insertField key item table.object = _
  rw [h.object, Json.insertField_append item hlast]

theorem Keyed.value {table : Table} {fields : List (String × Json)} (h : Keyed table fields) :
    table.value = .ok (.object fields) := by
  unfold Table.value
  rw [if_pos h.array, h.object]

/-! ## Values -/

mutual

/-- The expression that a value spells is read as that value. -/
theorem value_spelled (hexact : doubles.Exact) {json : Json} (hvalid : json.Valid)
    (hprinted : PrintedNumbers doubles json) {depth : Nat} {result : Json}
    (h : value doubles (spelled json) depth = .ok result) : Returned json result := by
  match json with
  | .null => simp [spelled, value, bind_eq_ok] at h
  | .bool boolean =>
    cases boolean with
    | true =>
      simp only [spelled, if_true, value, bind_eq_ok] at h
      obtain ⟨_, _, hpure⟩ := h
      cases hpure
      exact .bool true
    | false =>
      simp only [spelled, Bool.false_eq_true, if_false, value, bind_eq_ok] at h
      obtain ⟨_, _, hpure⟩ := h
      cases hpure
      exact .bool false
  | .number literal => exact number_spelled hexact hvalid hprinted h
  | .string text =>
    simp only [spelled, value, bind_eq_ok, string_body] at h
    obtain ⟨_, _, hpure⟩ := h
    cases hpure
    exact .string text
  | .array items =>
    simp only [spelled, value, bind_eq_ok] at h
    obtain ⟨_, _, table, htable, hvalue⟩ := h
    obtain ⟨others, hreturned, hlisted⟩ :=
      tableFields_items hexact hvalid hprinted listed_empty htable
    rw [List.nil_append] at hlisted
    rcases hlisted.value hvalue with ⟨rfl, rfl⟩ | ⟨hne, rfl⟩
    · cases hreturned
      exact .emptyArray
    · refine .array ?_ hreturned
      rintro rfl
      cases hreturned
      exact hne rfl
  | .object fields =>
    simp only [spelled, value, bind_eq_ok] at h
    obtain ⟨_, _, table, htable, hvalue⟩ := h
    obtain ⟨others, hkeys, hreturned, hkeyed⟩ :=
      tableFields_fields hexact hvalid.2 hprinted hvalid.1 keyed_empty (by simp) htable
    rw [List.nil_append] at hkeyed
    rw [hkeyed.value] at hvalue
    cases hvalue
    exact .object hkeys hreturned

/-- The loop over the fields of an array. -/
theorem tableFields_items (hexact : doubles.Exact) {items : List Json}
    (hvalid : Json.ValidItems items) (hprinted : PrintedItems doubles items) {depth : Nat}
    {table table' : Table} {values : List Json} (hlisted : Listed table values)
    (h : tableFields doubles (spelledItems items) depth table = .ok table') :
    ∃ others, List.Forall₂ Returned items others ∧ Listed table' (values ++ others) := by
  match items with
  | [] =>
    cases h
    exact ⟨[], .nil, by rwa [List.append_nil]⟩
  | item :: rest =>
    simp only [spelledItems, tableFields, tableKey, ok_bind, bind_eq_ok] at h
    obtain ⟨result, hresult, next, hadd, hrest⟩ := h
    have hitem := value_spelled hexact hvalid.1 hprinted.1 hresult
    obtain ⟨others, hreturned, hlast⟩ :=
      tableFields_items hexact hvalid.2 hprinted.2 (hlisted.add hadd) hrest
    refine ⟨result :: others, .cons hitem hreturned, ?_⟩
    rwa [List.append_assoc] at hlast

/-- The loop over the fields of an object. -/
theorem tableFields_fields (hexact : doubles.Exact) {fields : List (String × Json)}
    (hvalid : Json.ValidFields fields) (hprinted : PrintedFields doubles fields)
    (hsorted : (fields.map Prod.fst).Pairwise (· < ·)) {depth : Nat} {table table' : Table}
    {found : List (String × Json)} (hkeyed : Keyed table found)
    (hbefore : ∀ field ∈ found, ∀ key ∈ fields.map Prod.fst, field.1 < key)
    (h : tableFields doubles (spelledFields fields) depth table = .ok table') :
    ∃ others : List (String × Json), fields.map Prod.fst = others.map Prod.fst ∧
      List.Forall₂ Returned (fields.map Prod.snd) (others.map Prod.snd) ∧
      Keyed table' (found ++ others) := by
  match fields with
  | [] =>
    cases h
    exact ⟨[], rfl, .nil, by rwa [List.append_nil]⟩
  | (key, item) :: rest =>
    simp only [spelledFields, tableFields, tableKey, string_body, ok_bind, pure_eq_ok,
      bind_eq_ok] at h
    obtain ⟨result, hresult, next, hadd, hrest⟩ := h
    rw [List.map_cons, List.pairwise_cons] at hsorted
    have hitem := value_spelled hexact hvalid.1 hprinted.1 hresult
    have hnext := hkeyed.add (fun field hfield => hbefore field hfield key List.mem_cons_self) hadd
    have hbefore' : ∀ field ∈ found ++ [(key, result)], ∀ other ∈ rest.map Prod.fst,
        field.1 < other := by
      intro field hfield other hother
      rcases List.mem_append.1 hfield with hfield | hfield
      · exact hbefore field hfield other (List.mem_cons_of_mem _ hother)
      · rw [List.mem_singleton.1 hfield]
        exact hsorted.1 other hother
    obtain ⟨others, hkeys, hreturned, hlast⟩ :=
      tableFields_fields hexact hvalid.2 hprinted.2 hsorted.2 hnext hbefore' hrest
    refine ⟨(key, result) :: others, by rw [List.map_cons, List.map_cons, hkeys],
      .cons hitem hreturned, ?_⟩
    rwa [List.append_assoc] at hlast

end

/-! ## Literals -/

theorem return_not_mem_source {expression : Expression} {text : Text}
    (h : Spells expression text) : '\r' ∉ returnText ++ text := by
  have hreturn : '\r' ∉ returnText := by decide
  have htext := return_not_mem_spells h
  simp [hreturn, htext]

/-- A literal that was accepted has the value of the expression it spells. -/
theorem parseLiteral_eq_ok {reader : Reader} (hreader : reader.Sound) {expression : Expression}
    {text : Text} (hspells : Spells expression text) {result : Json}
    (h : parseLiteral doubles reader text = .ok result) :
    value doubles expression 0 = .ok result := by
  simp only [parseLiteral, bind_eq_ok] at h
  obtain ⟨_, _, ast, hparse, hreturned⟩ := h
  have hast := parseFallible_of_parse reader hparse (return_not_mem_source hspells)
  obtain ⟨_, hreturns⟩ := hreader expression text ast hspells hast
  simp only [returnedValue, hreturns, bind_eq_ok] at hreturned
  obtain ⟨_, _, hvalue⟩ := hreturned
  exact hvalue

/-- What `renderLiteral` writes for a value, `parseLiteral` reads as that
value again, but for empty arrays, which are empty tables, and for the sign
of the integer zero. -/
theorem literal_round_trip {reader : Reader} (hreader : reader.Sound) (hexact : doubles.Exact)
    {json : Json} (hvalid : json.Valid) (hprinted : PrintedNumbers doubles json) {text : Text}
    (h : renderLiteral doubles reader json = .ok text) :
    ∃ result, parseLiteral doubles reader text = .ok result ∧ Returned json result := by
  simp only [renderLiteral, bind_eq_ok] at h
  obtain ⟨output, hrender, result, hparse, hpure⟩ := h
  cases hpure
  obtain ⟨written, rfl, hspells⟩ := render_spells hvalid hrender
  refine ⟨result, hparse, ?_⟩
  exact value_spelled hexact hvalid hprinted (parseLiteral_eq_ok hreader hspells hparse)

/-! ### The literal of an array -/

/-- The doubles `1.5` and `-1.5`, by their signs. -/
def sampleDoubles : Doubles where
  Float := Bool
  parse := fun text => if text = "1.5".toList then some false else none
  neg := not
  fromF64 := fun float => some (if float then "-1.5" else "1.5")

/-- A text with a quotation mark and a line feed, and a number. -/
def sampleArray : Json := .array [.string "a\"\n", .number "-1.5"]

def sampleBody : Text := ['a', '\\', '"', '\\', '0', '1', '0']

def sampleNumber : Text := ['-', '1', '.', '5']

def sampleLiteral : Text :=
  '\x7b' :: ('"' :: (sampleBody ++ '"' :: ',' :: sampleNumber)) ++ ['\x7d']

/-- A parser that knows one source. -/
def sampleReader : Reader where
  tokens := fun _ =>
    [some (.symbol .returnWord), some (.symbol .leftBrace), some (.stringLiteral .double),
      some (.symbol .comma), some (.symbol .minus), some .number, some (.symbol .rightBrace),
      some .eof]
  parseFallible := fun source =>
    if source = returnText ++ sampleLiteral then
      some ⟨0, some [.tableConstructor [(.absent, .string .double sampleBody),
        (.absent, .minus (.number ['1', '.', '5']))]], returnText ++ sampleLiteral⟩
    else none

theorem sampleDoubles_exact : sampleDoubles.Exact where
  numeral := by
    intro float literal h
    cases h
    cases float with
    | true => decide +kernel
    | false => decide +kernel
  fraction := by
    intro float literal h
    cases h
    cases float with
    | true => decide
    | false => decide
  positive := by
    intro float literal h hsign
    cases h
    cases float with
    | true => exact absurd rfl hsign
    | false => rfl
  negative := by
    intro float literal text h htext
    cases h
    cases float with
    | true =>
      cases htext
      exact ⟨false, rfl, rfl⟩
    | false =>
      have hhead : some '1' = some '-' := congrArg List.head? htext
      exact absurd hhead (by decide)

/-- What may begin a literal between double quotes, and what remains. -/
theorem Closed.tail {c : Char} {text : Text} (h : Closed (c :: text)) :
    c ≠ '"' ∧ (c = '\\' → ∃ next rest, text = next :: rest ∧ Closed rest) ∧
      (c ≠ '\\' → Closed text) := by
  cases text with
  | nil => exact ⟨h.2.1, fun hslash => absurd hslash h.1, fun _ => trivial⟩
  | cons next rest =>
    simp only [Closed] at h
    split_ifs at h with hslash
    · exact ⟨by rw [hslash]; decide, fun _ => ⟨next, rest, rfl, h.2⟩, absurd hslash⟩
    · exact ⟨h.1, fun heq => absurd heq hslash, fun _ => h.2.2.2⟩

/-- A literal between double quotes ends at one place. -/
theorem closed_unique {literal literal' rest rest' : Text} (h : Closed literal)
    (h' : Closed literal') (heq : literal ++ '"' :: rest = literal' ++ '"' :: rest') :
    literal = literal' ∧ rest = rest' := by
  induction hlength : literal.length using Nat.strong_induction_on
    generalizing literal literal' with
  | _ n ih =>
    cases literal with
    | nil =>
      cases literal' with
      | nil => exact ⟨rfl, (List.cons.inj heq).2⟩
      | cons c text => exact absurd (List.cons.inj heq).1.symm h'.tail.1
    | cons c text =>
      cases literal' with
      | nil => exact absurd (List.cons.inj heq).1 h.tail.1
      | cons c' text' =>
        rw [List.cons_append, List.cons_append, List.cons.injEq] at heq
        obtain ⟨rfl, heq⟩ := heq
        obtain ⟨_, hescape, hplain⟩ := h.tail
        obtain ⟨_, hescape', hplain'⟩ := h'.tail
        by_cases hslash : c = '\\'
        · obtain ⟨next, text, rfl, hclosed⟩ := hescape hslash
          obtain ⟨next', text', rfl, hclosed'⟩ := hescape' hslash
          rw [List.cons_append, List.cons_append, List.cons.injEq] at heq
          obtain ⟨rfl, heq⟩ := heq
          simp only [List.length_cons] at hlength
          obtain ⟨rfl, hrest⟩ := ih text.length (by omega) hclosed hclosed' heq rfl
          exact ⟨rfl, hrest⟩
        · rw [List.length_cons] at hlength
          obtain ⟨rfl, hrest⟩ := ih text.length (by omega) (hplain hslash) (hplain' hslash) heq rfl
          exact ⟨rfl, hrest⟩

theorem spells_negative {expression : Expression} (h : Spells expression sampleNumber) :
    expression = .minus (.number ['1', '.', '5']) := by
  generalize htext : sampleNumber = text at h
  cases h with
  | string _ => cases htext
  | number hnumber =>
    subst htext
    exact absurd hnumber (by decide +kernel)
  | minus _ =>
    cases htext
    rfl
  | trueWord => cases htext
  | falseWord => cases htext
  | table _ => cases htext

/-- The number is the last field of its table. -/
theorem spells_last {fields : List (Key × Expression)}
    (h : SpellsFields false fields (',' :: sampleNumber)) :
    fields = [(.absent, .minus (.number ['1', '.', '5']))] := by
  generalize htext : ',' :: sampleNumber = text at h
  cases h with
  | nil => cases htext
  | @absent _ expression fields text rest hitem hrest =>
    have hrejoin : text ++ rest = sampleNumber := (List.cons.inj htext).2.symm
    cases hrest with
    | nil =>
      rw [List.append_nil] at hrejoin
      rw [hrejoin] at hitem
      rw [spells_negative hitem]
    | absent _ _ =>
      have hcomma : ',' ∈ sampleNumber := by
        rw [← hrejoin]
        simp [separator]
      exact absurd hcomma (by decide)
    | string _ _ _ =>
      have hcomma : ',' ∈ sampleNumber := by
        rw [← hrejoin]
        simp [separator]
      exact absurd hcomma (by decide)
  | string _ _ _ => cases (List.cons.inj htext).2

theorem spells_first {fields : List (Key × Expression)}
    (h : SpellsFields true fields ('"' :: (sampleBody ++ '"' :: ',' :: sampleNumber))) :
    fields = [(.absent, .string .double sampleBody),
      (.absent, .minus (.number ['1', '.', '5']))] := by
  generalize hsource : '"' :: (sampleBody ++ '"' :: ',' :: sampleNumber) = source at h
  cases h with
  | nil => cases hsource
  | @absent _ expression fields text rest hitem hrest =>
    have hrejoin : text ++ rest = '"' :: (sampleBody ++ '"' :: ',' :: sampleNumber) :=
      hsource.symm
    cases hitem with
    | @string literal hclosed =>
      have hbody : body ['a', '"', '\n'] = sampleBody := by decide +kernel
      have hsample : Closed sampleBody := hbody ▸ closed_body ['a', '"', '\n']
      have hsame : literal ++ '"' :: rest = sampleBody ++ '"' :: ',' :: sampleNumber := by
        have hbehind : literal ++ ['"'] ++ rest = sampleBody ++ '"' :: ',' :: sampleNumber :=
          (List.cons.inj hrejoin).2
        rw [List.append_assoc] at hbehind
        exact hbehind
      obtain ⟨rfl, rfl⟩ := closed_unique hclosed hsample hsame
      rw [spells_last hrest]
    | @number text hnumber =>
      cases text with
      | nil => cases hnumber
      | cons c text =>
        obtain rfl := (List.cons.inj hrejoin).1
        exact absurd (Numeral.mem_of_magnitude? hnumber _ List.mem_cons_self)
          (by unfold Numeral.IsNumeralChar; decide)
    | minus _ => cases (List.cons.inj hrejoin).1
    | trueWord => cases (List.cons.inj hrejoin).1
    | falseWord => cases (List.cons.inj hrejoin).1
    | table _ => cases (List.cons.inj hrejoin).1
  | string _ _ _ => cases hsource

theorem spells_sample {expression : Expression} (h : Spells expression sampleLiteral) :
    expression = .tableConstructor [(.absent, .string .double sampleBody),
      (.absent, .minus (.number ['1', '.', '5']))] := by
  generalize htext : sampleLiteral = text at h
  cases h with
  | string _ => cases htext
  | number hnumber =>
    subst htext
    exact absurd hnumber (by decide +kernel)
  | minus _ => cases htext
  | trueWord => cases htext
  | falseWord => cases htext
  | @table fields text hfields =>
    have hinside : '"' :: (sampleBody ++ '"' :: ',' :: sampleNumber) ++ ['\x7d'] =
        text ++ ['\x7d'] :=
      (List.cons.inj htext).2
    rw [← List.append_cancel_right hinside] at hfields
    rw [spells_first hfields]

theorem sampleReader_sound : sampleReader.Sound := by
  intro expression text ast hspells h
  have hsource : returnText ++ text = returnText ++ sampleLiteral := by
    by_contra hother
    simp [sampleReader, hother] at h
  have htext : text = sampleLiteral := List.append_cancel_left hsource
  simp only [sampleReader, if_pos hsource, Option.some.injEq] at h
  subst h
  refine ⟨rfl, congrArg some (congrArg (· :: []) ?_)⟩
  exact (spells_sample (htext ▸ hspells)).symm

theorem literal_round_trip_sample :
    renderLiteral sampleDoubles sampleReader sampleArray = .ok sampleLiteral ∧
      ∃ result, parseLiteral sampleDoubles sampleReader sampleLiteral = .ok result ∧
        Returned sampleArray result := by
  have hrender : renderLiteral sampleDoubles sampleReader sampleArray = .ok sampleLiteral := by
    decide +kernel
  have hvalid : sampleArray.Valid := by
    refine ⟨trivial, ?_, trivial⟩
    show (Numeral.value? "-1.5".toList).isSome = true
    decide +kernel
  exact ⟨hrender, literal_round_trip sampleReader_sound sampleDoubles_exact hvalid
    ⟨trivial, .inr ⟨true, rfl⟩, trivial⟩ hrender⟩

end DstServer.Lua
