import DstServer.Runtime.EncodeLaw

/-!
# Both ways over the wire

What the encoder writes is a document of the grammar that the decoder reads,
on one line, and the decoder gives the value back that was written.

* `characters_written`: the escapes of `quote` are escapes of the grammar.
* `spells_render`: the text of a value spells the value.
* `decode_render` is the round trip, for values of as many levels as the
  decoder enters.
-/

namespace DstServer.Runtime

open Lib JsonText

variable {ν : Type}

/-- `%.17g` writes a finite number as a numeral, from which `tonumber` reads
the number back. -/
structure Numbers.Lawful (numbers : Numbers ν) : Prop where
  numeral : ∀ n, numbers.finite n = true → Numeral (numbers.format n)
  tonumber : ∀ n, numbers.finite n = true → numbers.tonumber (numbers.format n) = some n

variable {numbers : Numbers ν} {heap : Heap ν}

theorem Numbers.Lawful.reads (h : numbers.Lawful) {n : ν} (hfinite : numbers.finite n = true) :
    numbers.reads (numbers.format n) = some n := by
  unfold Numbers.reads
  rw [h.tonumber n hfinite, Option.filter_some, if_pos hfinite]

/-! ## Strings -/

theorem hexNumber_control : ∀ n < 32,
    hexNumber [48, 48, hexDigit (n / 16), hexDigit (n % 16)] = some n := by decide

/-- How a byte is written stands for the byte. -/
theorem written_characters {text value : Bytes} (byte : UInt8) (rest : Characters text value) :
    Characters (Runtime.written byte ++ text) (byte :: value) := by
  unfold Runtime.written escapes
  split_ifs with h₁ h₂ h₃ h₄ h₅ h₆ h₇ hcontrol
  · exact h₁ ▸ .escape rfl rest
  · exact h₂ ▸ .escape rfl rest
  · exact h₃ ▸ .escape rfl rest
  · exact h₄ ▸ .escape rfl rest
  · exact h₅ ▸ .escape rfl rest
  · exact h₆ ▸ .escape rfl rest
  · exact h₇ ▸ .escape rfl rest
  · have hnumber := hexNumber_control byte.toNat hcontrol
    have hvalid : byte.toNat.isValidChar := Or.inl (by omega)
    have hcharacter : character byte.toNat = [byte] := by
      unfold character
      rw [← unicode_eq hvalid, unicode, if_pos (by omega), UInt8.ofNat_toNat]
    have hunicode :=
      Characters.unicode hnumber (by unfold IsHigh; omega) (by unfold IsLow; omega) rest
    rw [hcharacter] at hunicode
    exact hunicode
  · exact .plain (Nat.not_lt.mp hcontrol) h₁ h₂ rest

theorem characters_written (value : Bytes) :
    Characters (value.flatMap Runtime.written) value := by
  induction value with
  | nil => exact .nil
  | cons byte value ih =>
    rw [List.flatMap_cons]
    exact written_characters byte ih

/-- What `quote` writes is a literal of the string. -/
theorem literal_quoted {value : Bytes} (h : utf8Checked 0 value = true) :
    Literal (quoted value) value :=
  ⟨value.flatMap Runtime.written, by rw [quoted, List.cons_append], characters_written value,
    (utf8Checked_iff value).mp h⟩

/-! ## Values -/

theorem separated_items {spelled : Bytes → Value ν → Prop} {items : List (Value ν)}
    (h : ∀ item ∈ items, spelled (render numbers item) item) (hnonempty : items ≠ []) :
    Separated spelled (renderItems numbers true items) items := by
  induction items with
  | nil => exact absurd rfl hnonempty
  | cons item items ih =>
    have hitem := h item List.mem_cons_self
    cases items with
    | nil =>
      have hone := @Separated.one _ spelled [] _ [] _ rfl hitem rfl
      simpa [renderItems, separator] using hone
    | cons next items =>
      have hrest := ih (fun other hother => h other (List.mem_cons_of_mem _ hother))
        (List.cons_ne_nil _ _)
      have hcons := @Separated.cons _ spelled [] _ [] _ _ _ rfl hitem rfl hrest
      simpa [renderItems, separator] using hcons

theorem separated_entries {spelled : Bytes → Value ν → Prop} {entries : List (Bytes × Value ν)}
    (h : ∀ entry ∈ entries, utf8Checked 0 entry.1 = true ∧
      spelled (render numbers entry.2) entry.2) (hnonempty : entries ≠ []) :
    Separated (Member spelled) (renderEntries numbers true entries) entries := by
  induction entries with
  | nil => exact absurd rfl hnonempty
  | cons entry entries ih =>
    obtain ⟨key, value⟩ := entry
    obtain ⟨hutf8, hvalue⟩ := h (key, value) List.mem_cons_self
    have hmember : Member spelled (quoted key ++ (58 :: render numbers value)) (key, value) :=
      ⟨quoted key, [], [], render numbers value, literal_quoted hutf8, rfl, rfl, hvalue, rfl⟩
    cases entries with
    | nil =>
      have hone := @Separated.one _ (Member spelled) [] _ [] _ rfl hmember rfl
      simpa [renderEntries, separator] using hone
    | cons next entries =>
      have hrest := ih (fun other hother => h other (List.mem_cons_of_mem _ hother))
        (List.cons_ne_nil _ _)
      have hcons := @Separated.cons _ (Member spelled) [] _ [] _ _ _ rfl hmember rfl hrest
      simpa [renderEntries, separator] using hcons

/-- The value has at most so many levels. -/
def Within : Nat → Value ν → Prop
  | 0, _ => False
  | depth + 1, .array items => ∀ item ∈ items, Within depth item
  | depth + 1, .object entries => ∀ entry ∈ entries, Within depth entry.2
  | _ + 1, _ => True

theorem forall₂_right {α β : Type} {R : α → β → Prop} {P : β → Prop} (h : ∀ a b, R a b → P b)
    {l : List α} {l' : List β} (hall : List.Forall₂ R l l') : ∀ b ∈ l', P b := by
  induction hall with
  | nil => exact nofun
  | cons hab _ ih =>
    intro b hb
    rcases List.mem_cons.mp hb with rfl | hb
    · exact h _ _ hab
    · exact ih b hb

/-- The value of an item has the levels of the item. -/
theorem Unfolds.within {depth : Nat} {item : Item ν} {value : Value ν}
    (h : Unfolds heap depth item value) : Within depth value := by
  induction depth generalizing item value with
  | zero => exact absurd h id
  | succ depth ih =>
    cases item with
    | table reference =>
      rcases h with ⟨children, items, _, rfl, hitems⟩ | ⟨children, entries, _, rfl, hentries⟩
      · exact forall₂_right (fun _ _ hitem => ih hitem) hitems
      · exact forall₂_right (fun _ _ hentry => ih hentry.2) hentries
    | other => exact absurd h id
    | _ =>
      obtain rfl := h
      exact trivial

theorem soundItems_iff {items : List (Value ν)} :
    SoundItems numbers items ↔ ∀ item ∈ items, Sound numbers item := by
  induction items with
  | nil => simp [SoundItems]
  | cons item items ih => rw [SoundItems, ih, List.forall_mem_cons]

theorem soundEntries_iff {entries : List (Bytes × Value ν)} :
    SoundEntries numbers entries ↔
      ∀ entry ∈ entries, utf8Checked 0 entry.1 = true ∧ Sound numbers entry.2 := by
  induction entries with
  | nil => simp [SoundEntries]
  | cons entry entries ih => rw [SoundEntries, ih, List.forall_mem_cons, and_assoc]

/-- The text of a value spells the value. -/
theorem spells_render (hlawful : numbers.Lawful) {depth : Nat} {value : Value ν}
    (h : Within depth value) (hsound : Sound numbers value) :
    Spells numbers.reads depth (render numbers value) value := by
  induction depth generalizing value with
  | zero => exact absurd h id
  | succ depth ih =>
    cases value with
    | null =>
      rw [render]
      rfl
    | bool b => cases b <;> rw [render] <;> rfl
    | number n =>
      rw [render]
      exact ⟨hlawful.numeral n hsound, hlawful.reads hsound⟩
    | string s =>
      rw [render]
      exact literal_quoted hsound
    | array items =>
      have hspelled : ∀ item ∈ items, Spells numbers.reads depth (render numbers item) item :=
        fun item hitem => ih (h item hitem) (soundItems_iff.mp hsound item hitem)
      rw [render]
      refine ⟨_, rfl, ?_⟩
      cases items with
      | nil => exact .inl ⟨rfl, rfl⟩
      | cons item items => exact .inr (separated_items hspelled (List.cons_ne_nil _ _))
    | object entries =>
      have hspelled : ∀ entry ∈ entries, utf8Checked 0 entry.1 = true ∧
          Spells numbers.reads depth (render numbers entry.2) entry.2 := by
        intro entry hentry
        obtain ⟨hkey, hvalue⟩ := soundEntries_iff.mp hsound.2 entry hentry
        exact ⟨hkey, ih (h entry hentry) hvalue⟩
      rw [render]
      refine ⟨_, rfl, ?_, hsound.1⟩
      cases entries with
      | nil => exact .inl ⟨rfl, rfl⟩
      | cons entry entries => exact .inr (separated_entries hspelled (List.cons_ne_nil _ _))

theorem document_of_spells {depth : Nat} {text : Bytes} {value : Value ν}
    (h : Spells numbers.reads depth text value) : Document numbers.reads depth text value :=
  ⟨[], text, [], rfl, h, rfl, by rw [List.append_nil, List.nil_append]⟩

/-! ## One line -/

/-- No byte of the text is a control character. -/
def Printable (text : Bytes) : Prop := (text.all fun byte => decide (32 ≤ byte.toNat)) = true

theorem printable_iff {text : Bytes} : Printable text ↔ ∀ byte ∈ text, 32 ≤ byte.toNat := by
  unfold Printable
  simp only [List.all_eq_true, decide_eq_true_eq]

theorem printable_append {first second : Bytes} :
    Printable (first ++ second) ↔ Printable first ∧ Printable second := by
  unfold Printable
  rw [List.all_append, Bool.and_eq_true]

theorem printable_cons {byte : UInt8} {text : Bytes} :
    Printable (byte :: text) ↔ 32 ≤ byte.toNat ∧ Printable text := by
  unfold Printable
  rw [List.all_cons, Bool.and_eq_true, decide_eq_true_eq]

theorem printable_of_digits {text : Bytes} (h : text.all isDigit = true) : Printable text := by
  refine printable_iff.mpr fun byte hbyte => ?_
  have hdigit := List.all_eq_true.mp h byte hbyte
  simp only [isDigit, Bool.and_eq_true, decide_eq_true_eq] at hdigit
  omega

theorem printable_numeral {text : Bytes} (h : Numeral text) : Printable text := by
  obtain ⟨minus, whole, fraction, exponent, hminus, hwhole, hfraction, hexponent, rfl⟩ := h
  refine printable_append.mpr ⟨?_, printable_append.mpr ⟨?_, printable_append.mpr ⟨?_, ?_⟩⟩⟩
  · rcases hminus with rfl | rfl
    · rfl
    · rfl
  · rcases hwhole with rfl | ⟨hdigits, _⟩
    · rfl
    · exact printable_of_digits hdigits.2
  · rcases hfraction with rfl | ⟨digits, hdigits, rfl⟩
    · rfl
    · exact printable_cons.mpr ⟨by decide, printable_of_digits hdigits.2⟩
  · rcases hexponent with rfl | ⟨mark, sign, digits, hmark, hsign, hdigits, rfl⟩
    · rfl
    · refine printable_cons.mpr ⟨?_, printable_append.mpr ⟨?_, ?_⟩⟩
      · rcases hmark with rfl | rfl <;> decide
      · rcases hsign with rfl | rfl | rfl <;> rfl
      · exact printable_of_digits hdigits.2

theorem printable_hexDigit : ∀ n < 16, 32 ≤ (hexDigit n).toNat := by decide

theorem printable_written (byte : UInt8) : Printable (Runtime.written byte) := by
  unfold Runtime.written escapes
  split_ifs with _ _ _ _ _ _ _ hcontrol
  all_goals try (rw [Option.getD_some]; rfl)
  · rw [Option.getD_some, printable_append]
    refine ⟨rfl, printable_iff.mpr fun other hother => ?_⟩
    simp only [List.mem_cons, List.not_mem_nil, or_false] at hother
    rcases hother with rfl | rfl
    · exact printable_hexDigit _ (by omega)
    · exact printable_hexDigit _ (by omega)
  · rw [Option.getD_none, printable_cons]
    exact ⟨Nat.not_lt.mp hcontrol, rfl⟩

theorem printable_quoted (value : Bytes) : Printable (quoted value) := by
  unfold quoted
  rw [List.cons_append]
  refine printable_cons.mpr ⟨by decide, printable_append.mpr ⟨?_, rfl⟩⟩
  refine printable_iff.mpr fun byte hbyte => ?_
  obtain ⟨other, _, hwritten⟩ := List.mem_flatMap.mp hbyte
  exact printable_iff.mp (printable_written other) byte hwritten

theorem printable_separator (first : Bool) : Printable (separator first) := by
  cases first <;> rfl

mutual

/-- The text of a value is on one line. -/
theorem printable_render (hlawful : numbers.Lawful) :
    ∀ value : Value ν, Sound numbers value → Printable (render numbers value)
  | .null, _ => by rw [render]; rfl
  | .bool true, _ => by rw [render]; rfl
  | .bool false, _ => by rw [render]; rfl
  | .number value, h => by rw [render]; exact printable_numeral (hlawful.numeral value h)
  | .string value, _ => by rw [render]; exact printable_quoted value
  | .array items, h => by
    rw [render]
    refine printable_cons.mpr ⟨by decide, printable_append.mpr ⟨?_, ?_⟩⟩
    · exact printable_items hlawful true items h
    · rfl
  | .object entries, h => by
    rw [render]
    refine printable_cons.mpr ⟨by decide, printable_append.mpr ⟨?_, ?_⟩⟩
    · exact printable_entries hlawful true entries h.2
    · rfl

theorem printable_items (hlawful : numbers.Lawful) (first : Bool) :
    ∀ items : List (Value ν), SoundItems numbers items → Printable (renderItems numbers first items)
  | [], _ => rfl
  | item :: items, h => by
    rw [renderItems]
    exact printable_append.mpr ⟨printable_separator first, printable_append.mpr
      ⟨printable_render hlawful item h.1, printable_items hlawful false items h.2⟩⟩

theorem printable_entries (hlawful : numbers.Lawful) (first : Bool) :
    ∀ entries : List (Bytes × Value ν), SoundEntries numbers entries →
      Printable (renderEntries numbers first entries)
  | [], _ => rfl
  | (key, value) :: entries, h => by
    rw [renderEntries]
    exact printable_append.mpr ⟨printable_separator first, printable_append.mpr
      ⟨printable_quoted key, printable_cons.mpr ⟨by decide, printable_append.mpr
        ⟨printable_render hlawful value h.2.1, printable_entries hlawful false entries h.2.2⟩⟩⟩⟩

end

/-! ## The round trip -/

theorem separated_forall {α : Type} {spelled : Bytes → α → Prop} {P : α → Prop}
    (h : ∀ text x, spelled text x → P x) {text : Bytes} {xs : List α}
    (hlist : Separated spelled text xs) : ∀ x ∈ xs, P x := by
  induction hlist with
  | one _ hentry _ => exact List.forall_mem_singleton.mpr (h _ _ hentry)
  | cons _ hentry _ _ ih => exact List.forall_mem_cons.mpr ⟨h _ _ hentry, ih⟩

theorem listed_forall {α : Type} {spelled : Bytes → α → Prop} {P : α → Prop}
    (h : ∀ text x, spelled text x → P x) {text : Bytes} {xs : List α}
    (hlist : Listed spelled text xs) : ∀ x ∈ xs, P x := by
  rcases hlist with ⟨_, rfl⟩ | hseparated
  · exact nofun
  · exact separated_forall h hseparated

theorem within_of_spells {depth : Nat} {text : Bytes} {value : Value ν}
    (h : Spells numbers.reads depth text value) : Within depth value := by
  induction depth generalizing text value with
  | zero => exact absurd h id
  | succ depth ih =>
    cases value with
    | array items =>
      obtain ⟨body, _, hitems⟩ := h
      exact listed_forall (fun _ _ h => ih h) hitems
    | object entries =>
      obtain ⟨body, _, hentries, _⟩ := h
      refine listed_forall ?_ hentries
      intro text entry hmember
      obtain ⟨_, _, _, _, _, _, _, hvalue, _⟩ := hmember
      exact ih hvalue
    | _ => exact trivial

/-- An item unfolds at the number of levels of its value. -/
theorem unfolds_within {depth least : Nat} {item : Item ν} {value : Value ν}
    (h : Unfolds heap depth item value) (hwithin : Within least value) :
    Unfolds heap least item value := by
  induction depth generalizing least item value with
  | zero => exact absurd h id
  | succ depth ih =>
    cases least with
    | zero => exact absurd hwithin id
    | succ least =>
      cases item with
      | table reference =>
        rcases h with ⟨children, items, htable, rfl, hitems⟩ |
          ⟨children, entries, htable, rfl, hentries⟩
        · refine .inl ⟨children, items, htable, rfl, ?_⟩
          have hall : ∀ item ∈ items, Within least item := hwithin
          clear hwithin htable
          induction hitems with
          | nil => exact .nil
          | cons hitem _ ih' =>
            exact .cons (ih hitem (hall _ List.mem_cons_self))
              (ih' fun other hother => hall other (List.mem_cons_of_mem _ hother))
        · refine .inr ⟨children, entries, htable, rfl, ?_⟩
          have hall : ∀ entry ∈ entries, Within least entry.2 := hwithin
          clear hwithin htable
          induction hentries with
          | nil => exact .nil
          | cons hentry _ ih' =>
            exact .cons ⟨hentry.1, ih hentry.2 (hall _ List.mem_cons_self)⟩
              (ih' fun other hother => hall other (List.mem_cons_of_mem _ hother))
      | _ => exact h

/-- A document has one value, whatever the depth. -/
theorem document_unique {depth depth' : Nat} {text : Bytes} {value value' : Value ν}
    (h : Document numbers.reads depth text value)
    (h' : Document numbers.reads depth' text value') : value = value' := by
  have hread : ∀ {depth value}, Document numbers.reads depth text value → ∀ {most}, depth ≤ most →
      ∃ rest, parse numbers most text = .ok (value, rest) := by
    intro depth value hdocument most hmost
    obtain ⟨before, body, after, hbefore, hbody, hafter, rfl⟩ := hdocument
    have hends : Ends after := by
      rw [← List.append_nil after]
      exact ends_blank hafter nofun
    exact ⟨after, parse_complete hbefore (hbody.mono hmost) hends⟩
  obtain ⟨rest, hfirst⟩ := hread h (Nat.le_max_left depth depth')
  obtain ⟨rest', hsecond⟩ := hread h' (Nat.le_max_right depth depth')
  rw [hfirst] at hsecond
  exact (Prod.mk.inj (Except.ok.inj hsecond)).1

/-- What is decoded from the text that was written for an item. -/
theorem decode_render (hlawful : numbers.Lawful) {depth limit : Nat} {item : Item ν}
    {value value' : Value ν} (h : Unfolds heap depth item value) (hsound : Sound numbers value)
    (hlimit : (render numbers value).length ≤ limit) :
    decode numbers (render numbers value) limit = .ok value' ↔ Unfolds heap 65 item value' := by
  have hspells := spells_render hlawful h.within hsound
  rw [decode_eq_ok]
  constructor
  · intro hdecode
    obtain ⟨_, hdocument⟩ := hdecode
    obtain rfl := document_unique hdocument (document_of_spells hspells)
    obtain ⟨before, body, after, _, hbody, _, _⟩ := hdocument
    exact unfolds_within h (within_of_spells hbody)
  · intro hunfolds
    obtain rfl := unfolds_unique (h.mono (Nat.le_max_left depth 65))
      (hunfolds.mono (Nat.le_max_right depth 65))
    exact ⟨hlimit, document_of_spells (spells_render hlawful hunfolds.within hsound)⟩

/-! ## The laws of the wire -/

/-- The decoder accepts the documents that are short enough and enter at most
65 containers inside one another, and gives the one value that is spelled. -/
theorem wire_decodes (numbers : Numbers ν) (source : Bytes) (limit : Nat) :
    (∀ value, decode numbers source limit = .ok value ↔
      source.length ≤ limit ∧ Document numbers.reads 65 source value) ∧
    ∀ value value', Document numbers.reads 65 source value →
      Document numbers.reads 65 source value' → value = value' :=
  ⟨fun _ => decode_eq_ok, fun _ _ => document_unique⟩

/-- The encoder writes the items that unfold into a finite sound value, as the
text of that value, and for such an item fails only when the text is too long. -/
theorem wire_encodes (numbers : Numbers ν) (heap : Heap ν) (item : Item ν) (limit : Nat) :
    (∀ text, encode numbers heap item limit = .ok text ↔
      ∃ depth value, Unfolds heap depth item value ∧ Sound numbers value ∧
        text = render numbers value ∧ text.length ≤ limit) ∧
    ∀ depth value, Unfolds heap depth item value → Sound numbers value →
      encode numbers heap item limit =
        if limit < (render numbers value).length then .error .responseTooLarge
        else .ok (render numbers value) :=
  ⟨fun _ => encode_eq_ok, fun _ _ h hsound => encode_eq h hsound limit⟩

/-- What was written is one line within the limit, and it is decoded into the
value of the item, exactly when that value has at most 65 levels. -/
theorem wire_round_trip (hlawful : numbers.Lawful) {item : Item ν} {limit : Nat} {text : Bytes}
    (h : encode numbers heap item limit = .ok text) :
    Printable text ∧ text.length ≤ limit ∧
      ∀ value, decode numbers text limit = .ok value ↔ Unfolds heap 65 item value := by
  obtain ⟨depth, value, hvalue, hsound, rfl, hlimit⟩ := encode_eq_ok.mp h
  exact ⟨printable_render hlawful value hsound, hlimit, fun _ =>
    decode_render hlawful hvalue hsound hlimit⟩

/-- The numbers of one digit. -/
def digitNumbers : Numbers (Fin 10) where
  tonumber text := match text with
    | [digit] =>
      if h : 48 ≤ digit.toNat ∧ digit.toNat < 58 then some ⟨digit.toNat - 48, by omega⟩ else none
    | _ => none
  format n := [.ofNat (48 + n)]
  finite _ := true

theorem digitNumbers_lawful : digitNumbers.Lawful where
  numeral n _ := by
    refine ⟨[], [.ofNat (48 + n)], [], [], .inl rfl, ?_, .inl rfl, .inl rfl, rfl⟩
    by_cases hzero : n = 0
    · exact .inl (by rw [hzero]; rfl)
    · refine .inr ⟨⟨List.cons_ne_nil _ _, ?_⟩, ?_⟩
      · revert n
        decide
      · revert n
        decide
  tonumber := by decide

/-- The entry of an object and an array that are in the heap twice. -/
def sharedHeap : Heap (Fin 10)
  | 0 =>
    ⟨.object, [(.string (latin "a".toList), .table 1), (.string (latin "b".toList), .table 1)],
      by decide⟩
  | 1 => ⟨.none, [(.index 2, .bool true), (.index 1, .number 7)], by decide⟩
  | _ => ⟨.none, [], by decide⟩

theorem wire_round_trip_shared :
    Printable (latin "\x7b\"a\":[7,true],\"b\":[7,true]\x7d".toList) ∧ 27 ≤ 64 ∧
      ∀ value, decode digitNumbers (latin "\x7b\"a\":[7,true],\"b\":[7,true]\x7d".toList) 64 =
          .ok value ↔ Unfolds sharedHeap 65 (.table 0) value :=
  wire_round_trip digitNumbers_lawful (by decide +kernel)

end DstServer.Runtime
