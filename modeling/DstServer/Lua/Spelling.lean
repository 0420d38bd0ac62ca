import DstServer.Lib.Numeral
import DstServer.Lua.Strings

/-!
# The expressions that rendered values spell

`spelled` is the expression that `render` writes for a value, and `Spells`
says which text is a literal for which expression.  The relation covers the
literals that `render` writes, and it is what the Lua parser is taken to
know about Lua (`Reader.Sound`).

* `render_spells` says that what `render` adds to its output spells the
  value.
* `plain_of_spells` says that such a text has no carriage return.
-/

namespace DstServer.Lua

open Lib Outcome

/-! ## Literals of Lua -/

/-- The text is the inside of a literal between double quotes, and has no
carriage return. -/
def Closed : Text → Prop
  | [] => True
  | [c] => c ≠ '\\' ∧ c ≠ '"' ∧ c ≠ '\n' ∧ c ≠ '\r'
  | c :: next :: rest =>
    if c = '\\' then next ≠ '\r' ∧ Closed rest
    else c ≠ '"' ∧ c ≠ '\n' ∧ c ≠ '\r' ∧ Closed (next :: rest)

/-- A comma before every field but the first. -/
def separator (first : Bool) : Text := if first then [] else [',']

mutual

/-- The text is a literal of Lua for the expression. -/
inductive Spells : Expression → Text → Prop
  | string {literal : Text} (h : Closed literal) :
      Spells (.string .double literal) ('"' :: literal ++ ['"'])
  | number {text : Text} (h : (Numeral.magnitude? text).isSome = true) :
      Spells (.number text) text
  | minus {text : Text} (h : (Numeral.magnitude? text).isSome = true) :
      Spells (.minus (.number text)) ('-' :: text)
  | trueWord : Spells (.symbol .trueWord) "true".toList
  | falseWord : Spells (.symbol .falseWord) "false".toList
  | table {fields : List (Key × Expression)} {text : Text} (h : SpellsFields true fields text) :
      Spells (.tableConstructor fields) ('\x7b' :: text ++ ['\x7d'])

/-- The text spells the fields of a table from the first one, or from a
later one, to the last. -/
inductive SpellsFields : Bool → List (Key × Expression) → Text → Prop
  | nil {first : Bool} : SpellsFields first [] []
  | absent {first : Bool} {expression : Expression} {fields : List (Key × Expression)}
      {text rest : Text} (h : Spells expression text) (hrest : SpellsFields false fields rest) :
      SpellsFields first ((.absent, expression) :: fields) (separator first ++ text ++ rest)
  | string {first : Bool} {literal : Text} {expression : Expression}
      {fields : List (Key × Expression)} {text rest : Text} (hkey : Closed literal)
      (h : Spells expression text) (hrest : SpellsFields false fields rest) :
      SpellsFields first ((.string .double literal, expression) :: fields)
        (separator first ++ '[' :: '"' :: literal ++ ['"', ']', '='] ++ text ++ rest)

end

/-- The parser knows the literals of Lua: a source that returns one and that
it accepts, it reads as the return of that expression. -/
def Reader.Sound (reader : Reader) : Prop :=
  ∀ expression text ast, Spells expression text →
    reader.parseFallible (returnText ++ text) = some ast →
    ast.stmts = 0 ∧ ast.returns = some [expression]

/-! ## The expression of a value -/

/-- The expression of a number. -/
def spelledNumber (literal : String) : Expression :=
  match literal.toList with
  | '-' :: text => .minus (.number text)
  | text => .number text

mutual

/-- The expression that `render` writes for a value. -/
def spelled : Json → Expression
  | .null => .other
  | .bool boolean => .symbol (if boolean then .trueWord else .falseWord)
  | .number literal => spelledNumber literal
  | .string text => .string .double (body text.toList)
  | .array items => .tableConstructor (spelledItems items)
  | .object fields => .tableConstructor (spelledFields fields)

def spelledItems : List Json → List (Key × Expression)
  | [] => []
  | item :: rest => (.absent, spelled item) :: spelledItems rest

def spelledFields : List (String × Json) → List (Key × Expression)
  | [] => []
  | (key, item) :: rest =>
    (.string .double (body key.toList), spelled item) :: spelledFields rest

end

/-! ## What is written spells the value -/

theorem closed_cons {c : Char} {rest : Text} (hslash : c ≠ '\\') (hquote : c ≠ '"')
    (hfeed : c ≠ '\n') (hreturn : c ≠ '\r') (h : Closed rest) : Closed (c :: rest) := by
  cases rest with
  | nil => exact ⟨hslash, hquote, hfeed, hreturn⟩
  | cons next rest =>
    simp only [Closed, if_neg hslash]
    exact ⟨hquote, hfeed, hreturn, h⟩

theorem closed_escape {escape : Char} (hescape : escape ≠ '\r') {rest : Text} (h : Closed rest) :
    Closed ('\\' :: escape :: rest) := by
  simp only [Closed, if_true]
  exact ⟨hescape, h⟩

theorem digit_ne {n : Nat} (hn : n < 10) :
    Char.ofNat (48 + n) ≠ '\\' ∧ Char.ofNat (48 + n) ≠ '"' ∧ Char.ofNat (48 + n) ≠ '\n' ∧
      Char.ofNat (48 + n) ≠ '\r' := by
  have hdigit : ∀ n < 10, Char.ofNat (48 + n) ≠ '\\' ∧ Char.ofNat (48 + n) ≠ '"' ∧
      Char.ofNat (48 + n) ≠ '\n' ∧ Char.ofNat (48 + n) ≠ '\r' := by decide
  exact hdigit n hn

theorem closed_digit {n : Nat} (hn : n < 10) {rest : Text} (h : Closed rest) :
    Closed (.ofNat (48 + n) :: rest) := by
  obtain ⟨hslash, hquote, hfeed, hreturn⟩ := digit_ne hn
  exact closed_cons hslash hquote hfeed hreturn h

theorem closed_escapes (bytes : List UInt8) {rest : Text} (h : Closed rest) :
    Closed ((bytes.flatMap fun byte => '\\' :: threeDigits byte) ++ rest) := by
  induction bytes with
  | nil => exact h
  | cons byte bytes ih =>
    have hbyte : byte.toNat < 256 := byte.toNat_lt
    rw [List.flatMap_cons, List.append_assoc]
    have hfirst : byte.toNat / 100 < 10 := by omega
    exact closed_escape (digit_ne hfirst).2.2.2
      (closed_digit (by omega) (closed_digit (by omega) ih))

theorem closed_body (text : Text) : Closed (body text) := by
  induction text with
  | nil => trivial
  | cons c rest ih =>
    show Closed (renderChar c ++ body rest)
    unfold renderChar
    split_ifs with hquote hslash hcontrol
    · exact closed_escape (by decide) ih
    · exact closed_escape (by decide) ih
    · exact closed_escapes _ ih
    · refine closed_cons hslash hquote ?_ ?_ ih
      · intro heq
        subst heq
        exact hcontrol (by decide)
      · intro heq
        subst heq
        exact hcontrol (by decide)

theorem spells_number {literal : String}
    (h : (Numeral.value? literal.toList).isSome = true) :
    Spells (spelledNumber literal) literal.toList := by
  unfold spelledNumber
  split
  · rename_i text hliteral
    rw [hliteral, Numeral.value?, Option.isSome_map] at h
    rw [hliteral]
    exact .minus h
  · rename_i text hplus
    rw [Numeral.value?_of_ne_minus] at h
    · exact .number h
    · intro hhead
      cases hliteral : literal.toList with
      | nil =>
        rw [hliteral] at hhead
        cases hhead
      | cons c rest =>
        rw [hliteral] at hhead
        cases hhead
        exact hplus rest hliteral

mutual

/-- What `render` adds to the output spells the value. -/
theorem render_spells {value : Json} (hvalid : value.Valid) {output output' : Text} {depth : Nat}
    (h : render value output depth = .ok output') :
    ∃ text, output' = output ++ text ∧ Spells (spelled value) text := by
  match value with
  | .null => simp [render, bind_eq_ok] at h
  | .bool boolean =>
    simp only [render, bind_eq_ok] at h
    obtain ⟨_, _, _, _, hpure⟩ := h
    cases hpure
    cases boolean with
    | true => exact ⟨_, rfl, .trueWord⟩
    | false => exact ⟨_, rfl, .falseWord⟩
  | .number literal =>
    simp only [render, bind_eq_ok] at h
    obtain ⟨_, _, _, _, _, _, hpure⟩ := h
    cases hpure
    exact ⟨_, rfl, spells_number hvalid⟩
  | .string text =>
    simp only [render, bind_eq_ok] at h
    obtain ⟨_, _, written, hwritten, _, _, hpure⟩ := h
    cases hpure
    refine ⟨_, (renderString_eq hwritten).trans (List.append_assoc _ _ _), ?_⟩
    exact .string (closed_body text.toList)
  | .array items =>
    simp only [render, bind_eq_ok] at h
    obtain ⟨_, _, written, hwritten, _, _, hpure⟩ := h
    cases hpure
    obtain ⟨text, rfl, hspells⟩ := renderItems_spells hvalid hwritten
    refine ⟨'\x7b' :: text ++ ['\x7d'], ?_, .table hspells⟩
    simp [List.append_assoc]
  | .object fields =>
    simp only [render, bind_eq_ok] at h
    obtain ⟨_, _, written, hwritten, _, _, hpure⟩ := h
    cases hpure
    obtain ⟨text, rfl, hspells⟩ := renderFields_spells hvalid.2 hwritten
    refine ⟨'\x7b' :: text ++ ['\x7d'], ?_, .table hspells⟩
    simp [List.append_assoc]

theorem renderItems_spells {items : List Json} (hvalid : Json.ValidItems items) {first : Bool}
    {output output' : Text} {depth : Nat}
    (h : renderItems items first output depth = .ok output') :
    ∃ text, output' = output ++ text ∧ SpellsFields first (spelledItems items) text := by
  match items with
  | [] =>
    cases h
    exact ⟨[], (List.append_nil _).symm, .nil⟩
  | item :: rest =>
    simp only [renderItems, bind_eq_ok] at h
    obtain ⟨written, hwritten, hrest⟩ := h
    obtain ⟨text, rfl, hspells⟩ := render_spells hvalid.1 hwritten
    obtain ⟨more, rfl, hmore⟩ := renderItems_spells hvalid.2 hrest
    refine ⟨separator first ++ text ++ more, ?_, .absent hspells hmore⟩
    cases first with
    | true => simp [separator]
    | false => simp [separator]

theorem renderFields_spells {fields : List (String × Json)} (hvalid : Json.ValidFields fields)
    {first : Bool} {output output' : Text} {depth : Nat}
    (h : renderFields fields first output depth = .ok output') :
    ∃ text, output' = output ++ text ∧ SpellsFields first (spelledFields fields) text := by
  match fields with
  | [] =>
    cases h
    exact ⟨[], (List.append_nil _).symm, .nil⟩
  | (key, item) :: rest =>
    simp only [renderFields, bind_eq_ok] at h
    obtain ⟨quoted, hquoted, written, hwritten, hrest⟩ := h
    obtain ⟨text, rfl, hspells⟩ := render_spells hvalid.1 hwritten
    obtain ⟨more, rfl, hmore⟩ := renderFields_spells hvalid.2 hrest
    refine ⟨_, ?_, .string (closed_body key.toList) hspells hmore⟩
    rw [renderString_eq hquoted]
    cases first with
    | true => simp [separator]
    | false => simp [separator]

end

/-! ## Carriage returns -/

theorem return_not_mem_closed {text : Text} (h : Closed text) : '\r' ∉ text := by
  match text with
  | [] => simp
  | [c] =>
    intro hmem
    exact h.2.2.2 (List.mem_singleton.1 hmem).symm
  | c :: next :: rest =>
    simp only [Closed] at h
    split at h
    · rename_i hslash
      subst hslash
      have hrest := return_not_mem_closed h.2
      intro hmem
      rcases List.mem_cons.1 hmem with heq | hmem
      · exact absurd heq (by decide)
      rcases List.mem_cons.1 hmem with heq | hmem
      · exact h.1 heq.symm
      · exact hrest hmem
    · have hrest := return_not_mem_closed h.2.2.2
      intro hmem
      rcases List.mem_cons.1 hmem with heq | hmem
      · exact h.2.2.1 heq.symm
      · exact hrest hmem

theorem return_not_mem_number {text : Text} (h : (Numeral.magnitude? text).isSome = true) :
    '\r' ∉ text := by
  intro hmem
  have hno : ¬Numeral.IsNumeralChar '\r' := by
    unfold Numeral.IsNumeralChar
    decide
  exact hno (Numeral.mem_of_magnitude? h _ hmem)

theorem return_not_mem_separator (first : Bool) : '\r' ∉ separator first := by
  cases first with
  | true => simp [separator]
  | false => simp [separator]

mutual

theorem return_not_mem_spells {expression : Expression} {text : Text}
    (h : Spells expression text) : '\r' ∉ text := by
  match h with
  | .string hclosed =>
    have hbody := return_not_mem_closed hclosed
    simp [hbody]
  | .number hnumber => exact return_not_mem_number hnumber
  | .minus hnumber =>
    have hdigits := return_not_mem_number hnumber
    simp [hdigits]
  | .trueWord => decide
  | .falseWord => decide
  | .table hfields =>
    have hinner := return_not_mem_fields hfields
    simp [hinner]

theorem return_not_mem_fields {first : Bool} {fields : List (Key × Expression)} {text : Text}
    (h : SpellsFields first fields text) : '\r' ∉ text := by
  match h with
  | .nil => simp
  | .absent hvalue hrest =>
    have hitem := return_not_mem_spells hvalue
    have hmore := return_not_mem_fields hrest
    have hseparator := return_not_mem_separator first
    simp [hitem, hmore, hseparator]
  | .string hkey hvalue hrest =>
    have hbody := return_not_mem_closed hkey
    have hitem := return_not_mem_spells hvalue
    have hmore := return_not_mem_fields hrest
    have hseparator := return_not_mem_separator first
    simp [hbody, hitem, hmore, hseparator]

end

end DstServer.Lua
