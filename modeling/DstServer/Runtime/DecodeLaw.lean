import DstServer.Runtime.Decode

/-!
# What the decoder accepts

The reader of requests against the grammar of JSON, part by part: what a part
reads is in the grammar, and what is in the grammar is read whole, as long as
what follows cannot be taken for more of it.

* `Ends` is what may follow a value: anything but a byte that goes on with a
  number.
* `characters_sound` and `characters_complete` are the strings, `items_sound`
  and `items_complete` the containers, for entries of any kind.
* `decode_eq_ok`: a source is accepted exactly when it is short enough and a
  document, and the result is the value that it spells.
-/

namespace DstServer.Runtime

open Lib JsonText
open Outcome (bind_eq_ok map_eq_ok ok_bind)

variable {ν α : Type}

/-! ## White space -/

theorem whitespace_blank {before : Bytes} (h : Blank before) (rest : Bytes) :
    whitespace (before ++ rest) = whitespace rest := by
  unfold whitespace
  rw [List.dropWhile_append, List.dropWhile_eq_nil_iff.mpr fun byte hbyte =>
    List.all_eq_true.mp h byte hbyte]
  rfl

theorem whitespace_opens {text : Bytes} (h : JsonText.Opens text) (rest : Bytes) :
    whitespace (text ++ rest) = text ++ rest := by
  obtain ⟨byte, tail, rfl, hbyte⟩ := h
  simp only [isOpening, Bool.and_eq_true, Bool.not_eq_true'] at hbyte
  unfold whitespace
  rw [List.cons_append, List.dropWhile_cons_of_neg (by simp [hbyte.1.1])]

/-- What white space was passed over. -/
theorem exists_blank (source : Bytes) :
    ∃ before, Blank before ∧ source = before ++ whitespace source :=
  ⟨source.takeWhile isBlank, List.all_takeWhile, List.takeWhile_append_dropWhile.symm⟩

theorem whitespace_eq_nil {source : Bytes} : whitespace source = [] ↔ Blank source := by
  unfold whitespace Blank
  rw [List.dropWhile_eq_nil_iff, List.all_eq_true]

theorem whitespace_cons {byte : UInt8} (h : isBlank byte = false) (rest : Bytes) :
    whitespace (byte :: rest) = byte :: rest := by
  unfold whitespace
  rw [List.dropWhile_cons_of_neg (by simp [h])]

/-! ## Strings -/

theorem hexValue_lt {byte : UInt8} {n : Nat} (h : hexValue byte = some n) : n < 16 := by
  unfold hexValue at h
  simp only at h
  split_ifs at h <;> cases h <;> omega

theorem hexNumber_some {digits : Bytes} {code : Nat} (h : hexNumber digits = some code) :
    digits.length = 4 ∧ code < 65536 := by
  unfold hexNumber at h
  split at h
  · rename_i first second third fourth
    simp only [Option.bind_eq_bind, Option.bind_eq_some_iff, Option.pure_def,
      Option.some.injEq] at h
    obtain ⟨a, ha, b, hb, c, hc, d, hd, rfl⟩ := h
    have h₁ := hexValue_lt ha
    have h₂ := hexValue_lt hb
    have h₃ := hexValue_lt hc
    have h₄ := hexValue_lt hd
    exact ⟨rfl, by omega⟩
  · cases h

theorem hex_eq_ok {source : Bytes} {code : Nat × Bytes} :
    hex source = .ok code ↔
      ∃ digits, hexNumber digits = some code.1 ∧ source = digits ++ code.2 := by
  unfold hex
  constructor
  · intro h
    split at h
    · rename_i number hnumber
      cases h
      exact ⟨source.take 4, hnumber, (List.take_append_drop 4 source).symm⟩
    · cases h
  · intro h
    obtain ⟨digits, hdigits, rfl⟩ := h
    have hlength := (hexNumber_some hdigits).1
    rw [← hlength, List.take_left, List.drop_left, hdigits]

theorem hex_digits {digits : Bytes} {code : Nat} (h : hexNumber digits = some code)
    (rest : Bytes) : hex (digits ++ rest) = .ok (code, rest) :=
  hex_eq_ok.mpr ⟨digits, h, rfl⟩

theorem unicode_character {code : Nat} (h : code < 65536) (hhigh : ¬IsHigh code)
    (hlow : ¬IsLow code) : unicode code = character code := by
  have hvalid : code.isValidChar := by
    show code < 55296 ∨ 57343 < code ∧ code < 1114112
    omega
  exact unicode_eq hvalid

theorem unicode_surrogates {high low : Nat} (hhigh : IsHigh high) (hlow : IsLow low) :
    unicode (pairCode high low) = character (surrogatePair high low) := by
  have hsame : pairCode high low = surrogatePair high low := by
    unfold pairCode surrogatePair
    omega
  have hvalid : (surrogatePair high low).isValidChar := by
    show surrogatePair high low < 55296 ∨
      57343 < surrogatePair high low ∧ surrogatePair high low < 1114112
    unfold surrogatePair
    omega
  rw [hsame]
  exact unicode_eq hvalid

/-- What an escape stands for. -/
inductive Escaped : Bytes → Bytes → Prop
  | simple {mark byte : UInt8} (h : simpleEscape mark = some byte) : Escaped [mark] [byte]
  | unicode {digits : Bytes} {code : Nat} (h : hexNumber digits = some code)
      (hhigh : ¬IsHigh code) (hlow : ¬IsLow code) : Escaped (117 :: digits) (character code)
  | surrogates {digits digits' : Bytes} {high low : Nat} (h : hexNumber digits = some high)
      (h' : hexNumber digits' = some low) (hhigh : IsHigh high) (hlow : IsLow low) :
      Escaped (117 :: (digits ++ 92 :: 117 :: digits'))
        (character (surrogatePair high low))

theorem Escaped.characters {text bytes body value : Bytes} (h : Escaped text bytes)
    (rest : Characters body value) : Characters (92 :: (text ++ body)) (bytes ++ value) := by
  cases h with
  | simple h => exact .escape h rest
  | unicode h hhigh hlow => exact .unicode h hhigh hlow rest
  | surrogates h h' hhigh hlow =>
    rw [List.cons_append, List.append_assoc, List.cons_append, List.cons_append]
    exact .surrogates h h' hhigh hlow rest

theorem unicodeEscape_sound {source bytes rest : Bytes}
    (h : unicodeEscape source = .ok (bytes, rest)) :
    ∃ text, Escaped (117 :: text) bytes ∧ source = text ++ rest := by
  unfold unicodeEscape at h
  obtain ⟨code, hcode, hstep⟩ := bind_eq_ok.mp h
  obtain ⟨digits, hdigits, rfl⟩ := hex_eq_ok.mp hcode
  have hlimit := (hexNumber_some hdigits).2
  split_ifs at hstep with hhigh hmark hlow
  · obtain ⟨low, hlow, hpair⟩ := bind_eq_ok.mp hstep
    obtain ⟨digits', hdigits', hrest⟩ := hex_eq_ok.mp hlow
    split_ifs at hpair with hrange
    obtain ⟨rfl, rfl⟩ := Prod.mk.inj (Except.ok.inj hpair)
    have hfirst : IsHigh code.1 := hhigh
    have hsecond : IsLow low.1 := by omega
    refine ⟨digits ++ 92 :: 117 :: digits', ?_, ?_⟩
    · rw [unicode_surrogates hfirst hsecond]
      exact .surrogates hdigits hdigits' hfirst hsecond
    · rw [not_not] at hmark
      rw [List.append_assoc, List.cons_append, List.cons_append, ← hrest]
      show digits ++ code.2 = digits ++ ([92, 117] ++ code.2.drop 2)
      rw [← hmark, List.take_append_drop]
  · obtain ⟨rfl, rfl⟩ := Prod.mk.inj (Except.ok.inj hstep)
    refine ⟨digits, ?_, rfl⟩
    rw [unicode_character hlimit hhigh hlow]
    exact .unicode hdigits hhigh hlow

theorem escape_sound {source bytes after : Bytes} (h : escape source = .ok (bytes, after)) :
    ∃ text, Escaped text bytes ∧ source = text ++ after := by
  cases source with
  | nil => cases h
  | cons escaped rest =>
    simp only [escape] at h
    split_ifs at h with hunicode
    · obtain ⟨text, htext, rfl⟩ := unicodeEscape_sound h
      exact ⟨117 :: text, htext, by rw [hunicode, List.cons_append]⟩
    · split at h
      · rename_i byte hbyte
        cases h
        exact ⟨[escaped], .simple hbyte, rfl⟩
      · cases h

theorem escape_complete {text bytes : Bytes} (h : Escaped text bytes) (rest : Bytes) :
    escape (text ++ rest) = .ok (bytes, rest) := by
  cases h with
  | @simple mark byte h =>
    have hmark : mark ≠ 117 := by
      rintro rfl
      cases h
    rw [List.singleton_append, escape, if_neg hmark, h]
  | @unicode digits code h hhigh hlow =>
    rw [List.cons_append, escape, if_pos rfl, unicodeEscape, hex_digits h, ok_bind]
    simp only
    rw [if_neg hhigh, if_neg hlow, unicode_character (hexNumber_some h).2 hhigh hlow]
  | @surrogates digits digits' high low h h' hhigh hlow =>
    have hrange : ¬(low < 56320 ∨ 57343 < low) := by omega
    have hfirst : hex ((digits ++ 92 :: 117 :: digits') ++ rest) =
        .ok (high, 92 :: 117 :: (digits' ++ rest)) := by
      rw [List.append_assoc, hex_digits h, List.cons_append, List.cons_append]
    rw [List.cons_append, escape, if_pos rfl, unicodeEscape, hfirst, ok_bind]
    simp only
    have hmark : List.take 2 (92 :: 117 :: (digits' ++ rest)) = [92, 117] := rfl
    rw [if_pos hhigh, if_neg (not_not_intro hmark)]
    show (hex (digits' ++ rest) >>= _) = _
    rw [hex_digits h', ok_bind]
    simp only
    rw [if_neg hrange, unicode_surrogates hhigh hlow]

/-- What the loop of a string reads. -/
theorem characters_sound {fuel : Nat} {parts source : Bytes} {result : Bytes × Bytes}
    (h : characters fuel parts source = .ok result) :
    ∃ body value, Characters body value ∧ result.1 = parts ++ value ∧
      utf8Checked 0 result.1 = true ∧ source = body ++ 34 :: result.2 := by
  induction fuel generalizing parts source with
  | zero =>
    rw [characters] at h
    cases h
  | succ fuel ih =>
    cases source with
    | nil =>
      rw [characters] at h
      cases h
    | cons character rest =>
      rw [characters] at h
      split_ifs at h with hquote hutf8 hescape hcontrol
      · cases h
        exact ⟨[], [], .nil, (List.append_nil parts).symm, hutf8, by rw [hquote, List.nil_append]⟩
      · obtain ⟨decoded, hdecoded, hloop⟩ := bind_eq_ok.mp h
        obtain ⟨bytes, after⟩ := decoded
        obtain ⟨text, htext, rfl⟩ := escape_sound hdecoded
        obtain ⟨body, value, hbody, hresult, hvalid, hrest⟩ := ih hloop
        refine ⟨92 :: (text ++ body), bytes ++ value, htext.characters hbody, ?_, hvalid, ?_⟩
        · rw [hresult, List.append_assoc]
        · rw [hescape, show after = body ++ 34 :: result.2 from hrest, List.cons_append,
            List.append_assoc]
      · obtain ⟨body, value, hbody, hresult, hvalid, hrest⟩ := ih h
        refine ⟨character :: body, character :: value,
          .plain (Nat.not_lt.mp hcontrol) hquote hescape hbody, ?_, hvalid, ?_⟩
        · rw [hresult, List.append_assoc, List.singleton_append]
        · rw [hrest, List.cons_append]

/-- One turn of the loop for an escape. -/
theorem characters_escape {fuel : Nat} {parts text bytes rest : Bytes} (h : Escaped text bytes) :
    characters (fuel + 1) parts (92 :: (text ++ rest)) = characters fuel (parts ++ bytes) rest := by
  rw [characters, if_neg (by decide), if_pos rfl, escape_complete h, ok_bind]

/-- The loop reads a string to its closing quote. -/
theorem characters_complete {body value : Bytes} (h : Characters body value) (rest : Bytes) :
    ∀ {fuel : Nat} {parts : Bytes}, body.length < fuel → utf8Checked 0 (parts ++ value) = true →
      characters fuel parts (body ++ 34 :: rest) = .ok (parts ++ value, rest) := by
  induction h with
  | nil =>
    intro fuel parts hfuel hutf8
    obtain ⟨fuel, rfl⟩ : ∃ before, fuel = before + 1 := ⟨fuel - 1, by omega⟩
    rw [List.append_nil] at hutf8 ⊢
    rw [List.nil_append, characters, if_pos rfl, if_pos hutf8]
  | @plain byte text value h hquote hescape _ ih =>
    intro fuel parts hfuel hutf8
    rw [List.length_cons] at hfuel
    obtain ⟨fuel, rfl⟩ : ∃ before, fuel = before + 1 := ⟨fuel - 1, by omega⟩
    rw [List.cons_append, characters, if_neg hquote, if_neg hescape, if_neg (Nat.not_lt.mpr h)]
    have hsame : parts ++ byte :: value = parts ++ [byte] ++ value := by simp
    rw [hsame] at hutf8 ⊢
    exact ih (by omega) hutf8
  | @escape mark byte text value h _ ih =>
    intro fuel parts hfuel hutf8
    simp only [List.length_cons] at hfuel
    obtain ⟨fuel, rfl⟩ : ∃ before, fuel = before + 1 := ⟨fuel - 1, by omega⟩
    have hsame : parts ++ byte :: value = parts ++ [byte] ++ value := by simp
    rw [hsame] at hutf8 ⊢
    show characters (fuel + 1) parts (92 :: ([mark] ++ (text ++ 34 :: rest))) = _
    rw [characters_escape (.simple h)]
    exact ih (by omega) hutf8
  | @unicode digits text value code h hhigh hlow _ ih =>
    intro fuel parts hfuel hutf8
    simp only [List.length_cons, List.length_append] at hfuel
    obtain ⟨fuel, rfl⟩ : ∃ before, fuel = before + 1 := ⟨fuel - 1, by omega⟩
    rw [← List.append_assoc] at hutf8 ⊢
    rw [List.cons_append, List.cons_append, List.append_assoc]
    show characters (fuel + 1) parts (92 :: (117 :: digits ++ (text ++ 34 :: rest))) = _
    rw [characters_escape (.unicode h hhigh hlow)]
    exact ih (by omega) hutf8
  | @surrogates digits digits' text value high low h h' hhigh hlow _ ih =>
    intro fuel parts hfuel hutf8
    simp only [List.length_cons, List.length_append] at hfuel
    obtain ⟨fuel, rfl⟩ : ∃ before, fuel = before + 1 := ⟨fuel - 1, by omega⟩
    have hsource : 92 :: 117 :: (digits ++ 92 :: 117 :: (digits' ++ text)) ++ 34 :: rest =
        92 :: ((117 :: (digits ++ 92 :: 117 :: digits')) ++ (text ++ 34 :: rest)) := by simp
    rw [← List.append_assoc] at hutf8 ⊢
    rw [hsource, characters_escape (.surrogates h h' hhigh hlow)]
    exact ih (by omega) hutf8

/-- A string is read exactly when it is a literal. -/
theorem stringValue_eq_ok {source : Bytes} {result : Bytes × Bytes} :
    stringValue source = .ok result ↔
      ∃ text, Literal text result.1 ∧ source = text ++ result.2 := by
  constructor
  · intro h
    cases source with
    | nil => cases h
    | cons character rest =>
      simp only [stringValue] at h
      split_ifs at h with hquote
      obtain ⟨body, value, hbody, hresult, hutf8, rfl⟩ := characters_sound h
      rw [List.nil_append] at hresult
      refine ⟨34 :: (body ++ [34]), ⟨body, rfl, hresult ▸ hbody, ?_⟩, ?_⟩
      · exact (utf8Checked_iff result.1).mp hutf8
      · rw [hquote, List.cons_append, List.append_assoc, List.singleton_append]
  · intro h
    obtain ⟨text, ⟨body, rfl, hbody, hutf8⟩, rfl⟩ := h
    rw [List.cons_append, List.append_assoc, List.singleton_append, stringValue, if_pos rfl]
    have hlength : body.length < (body ++ 34 :: result.2).length + 1 := by
      rw [List.length_append]
      omega
    exact characters_complete hbody result.2 hlength ((utf8Checked_iff result.1).mpr hutf8)

/-! ## Numbers -/

/-- What may follow a value: nothing that goes on with a number. -/
def Ends (rest : Bytes) : Prop :=
  ∀ byte ∈ rest.head?, isDigit byte = false ∧ byte ≠ 46 ∧ byte ≠ 101 ∧ byte ≠ 69

/-- White space may come first. -/
theorem ends_blank {after rest : Bytes} (hafter : Blank after) (hrest : Ends rest) :
    Ends (after ++ rest) := by
  cases after with
  | nil => exact hrest
  | cons byte after =>
    intro other hother
    have hsame : byte = other := Option.some.inj hother
    subst hsame
    have hblank := List.all_eq_true.mp hafter byte List.mem_cons_self
    simp only [isBlank, Bool.or_eq_true, beq_iff_eq] at hblank
    rcases hblank with ((rfl | rfl) | rfl) | rfl <;> decide

/-- What may follow the digits of a number. -/
def NoDigit (rest : Bytes) : Prop := ∀ byte ∈ rest.head?, isDigit byte = false

theorem digits_sound {source taken rest : Bytes} (h : digits source = .ok (taken, rest)) :
    Digits taken ∧ source = taken ++ rest := by
  unfold digits at h
  split_ifs at h with hempty
  obtain ⟨rfl, rfl⟩ := Prod.mk.inj (Except.ok.inj h)
  exact ⟨⟨hempty, List.all_takeWhile⟩, List.takeWhile_append_dropWhile.symm⟩

theorem digits_complete {taken rest : Bytes} (h : Digits taken) (hrest : NoDigit rest) :
    digits (taken ++ rest) = .ok (taken, rest) := by
  have htaken : ∀ byte ∈ taken, isDigit byte = true := fun byte hbyte =>
    List.all_eq_true.mp h.2 byte hbyte
  have htake : (taken ++ rest).takeWhile isDigit = taken := by
    rw [List.takeWhile_append_of_pos htaken]
    cases rest with
    | nil => rw [List.takeWhile_nil, List.append_nil]
    | cons byte rest => rw [List.takeWhile_cons_of_neg (by simp [hrest byte rfl]), List.append_nil]
  have hdrop : (taken ++ rest).dropWhile isDigit = rest := by
    rw [List.dropWhile_append_of_pos htaken]
    cases rest with
    | nil => rw [List.dropWhile_nil]
    | cons byte rest => rw [List.dropWhile_cons_of_neg (by simp [hrest byte rfl])]
  unfold digits
  rw [htake, hdrop, if_neg h.1]

theorem whole_sound {source taken rest : Bytes} (h : whole source = .ok (taken, rest)) :
    Whole taken ∧ source = taken ++ rest := by
  cases source with
  | nil => cases h
  | cons byte source =>
    simp only [whole] at h
    split_ifs at h with hzero
    · obtain ⟨rfl, rfl⟩ := Prod.mk.inj (Except.ok.inj h)
      exact ⟨.inl rfl, by rw [hzero, List.singleton_append]⟩
    · obtain ⟨hdigits, hsource⟩ := digits_sound h
      refine ⟨.inr ⟨hdigits, ?_⟩, hsource⟩
      obtain ⟨first, tail, rfl, _⟩ := hdigits.exists_cons
      obtain ⟨rfl, _⟩ := List.cons.inj hsource
      simpa using hzero

theorem whole_complete {taken rest : Bytes} (h : Whole taken) (hrest : NoDigit rest) :
    whole (taken ++ rest) = .ok (taken, rest) := by
  rcases h with rfl | ⟨hdigits, hzero⟩
  · rw [List.singleton_append, whole, if_pos rfl]
  · obtain ⟨byte, tail, rfl, _⟩ := hdigits.exists_cons
    rw [List.cons_append, whole, if_neg (by simpa using hzero), ← List.cons_append]
    exact digits_complete hdigits hrest

theorem fraction_sound {source taken rest : Bytes} (h : fraction source = .ok (taken, rest)) :
    Fraction taken ∧ source = taken ++ rest := by
  cases source with
  | nil =>
    obtain ⟨rfl, rfl⟩ := Prod.mk.inj (Except.ok.inj h)
    exact ⟨.inl rfl, rfl⟩
  | cons byte source =>
    simp only [fraction] at h
    split_ifs at h with hpoint
    · obtain ⟨part, hpart, hresult⟩ := map_eq_ok.mp h
      obtain ⟨rfl, rfl⟩ := Prod.mk.inj hresult
      obtain ⟨hdigits, hsource⟩ := digits_sound hpart
      exact ⟨.inr ⟨part.1, hdigits, rfl⟩, by rw [hpoint, hsource, List.cons_append]⟩
    · obtain ⟨rfl, rfl⟩ := Prod.mk.inj (Except.ok.inj h)
      exact ⟨.inl rfl, rfl⟩

theorem fraction_complete {taken rest : Bytes} (h : Fraction taken) (hrest : NoDigit rest)
    (hpoint : taken = [] → ∀ byte ∈ rest.head?, byte ≠ 46) :
    fraction (taken ++ rest) = .ok (taken, rest) := by
  rcases h with rfl | ⟨digits, hdigits, rfl⟩
  · cases rest with
    | nil => rfl
    | cons byte rest => rw [List.nil_append, fraction, if_neg (hpoint rfl byte rfl)]
  · rw [List.cons_append, fraction, if_pos rfl, digits_complete hdigits hrest]
    rfl

theorem optional_sound (p : UInt8 → Bool) (source : Bytes) :
    ((optional p source).1 = [] ∨ ∃ byte, p byte = true ∧ (optional p source).1 = [byte]) ∧
      source = (optional p source).1 ++ (optional p source).2 := by
  cases source with
  | nil => exact ⟨.inl rfl, rfl⟩
  | cons byte rest =>
    by_cases hbyte : p byte = true
    · rw [optional, if_pos hbyte]
      exact ⟨.inr ⟨byte, hbyte, rfl⟩, rfl⟩
    · rw [optional, if_neg hbyte]
      exact ⟨.inl rfl, rfl⟩

theorem optional_sign (source : Bytes) :
    (optional isSign source).1 = [] ∨ (optional isSign source).1 = [43] ∨
      (optional isSign source).1 = [45] := by
  rcases (optional_sound isSign source).1 with hnone | ⟨byte, hsign, hbyte⟩
  · exact .inl hnone
  · simp only [isSign, Bool.or_eq_true, beq_iff_eq] at hsign
    rcases hsign with rfl | rfl
    · exact .inr (.inl hbyte)
    · exact .inr (.inr hbyte)

theorem exponent_sound {source taken rest : Bytes} (h : exponent source = .ok (taken, rest)) :
    Exponent taken ∧ source = taken ++ rest := by
  cases source with
  | nil =>
    obtain ⟨rfl, rfl⟩ := Prod.mk.inj (Except.ok.inj h)
    exact ⟨.inl rfl, rfl⟩
  | cons byte source =>
    simp only [exponent] at h
    split_ifs at h with hmark
    · obtain ⟨part, hpart, hresult⟩ := map_eq_ok.mp h
      obtain ⟨rfl, rfl⟩ := Prod.mk.inj hresult
      obtain ⟨hdigits, hsource⟩ := digits_sound hpart
      refine ⟨.inr ⟨byte, _, part.1, hmark, optional_sign source, hdigits, rfl⟩, ?_⟩
      rw [List.cons_append, List.append_assoc, ← hsource, ← (optional_sound isSign source).2]
    · obtain ⟨rfl, rfl⟩ := Prod.mk.inj (Except.ok.inj h)
      exact ⟨.inl rfl, rfl⟩

theorem optional_digits {sign digits rest : Bytes} (hsign : sign = [] ∨ sign = [43] ∨ sign = [45])
    (hdigits : Digits digits) :
    optional isSign (sign ++ (digits ++ rest)) = (sign, digits ++ rest) := by
  rcases hsign with rfl | rfl | rfl
  · obtain ⟨byte, tail, rfl, hbyte⟩ := hdigits.exists_cons
    have hnone : isSign byte = false := by
      simp only [isDigit, Bool.and_eq_true, decide_eq_true_eq] at hbyte
      simp only [isSign, Bool.or_eq_false_iff, beq_eq_false_iff_ne]
      constructor
      · rintro rfl
        exact absurd hbyte.1 (by decide)
      · rintro rfl
        exact absurd hbyte.1 (by decide)
    rw [List.nil_append, List.cons_append, optional, if_neg (by simp [hnone])]
  · rfl
  · rfl

theorem exponent_complete {taken rest : Bytes} (h : Exponent taken) (hrest : Ends rest) :
    exponent (taken ++ rest) = .ok (taken, rest) := by
  rcases h with rfl | ⟨mark, sign, digits, hmark, hsign, hdigits, rfl⟩
  · cases rest with
    | nil => rfl
    | cons byte rest =>
      have hbyte := hrest byte rfl
      rw [List.nil_append, exponent, if_neg fun h => h.elim hbyte.2.2.1 hbyte.2.2.2]
  · rw [List.cons_append, List.append_assoc, exponent, if_pos hmark,
      optional_digits hsign hdigits, digits_complete hdigits fun byte hbyte => (hrest byte hbyte).1]
    rfl

/-- What comes after the digits before the point. -/
theorem noDigit_exponent {taken rest : Bytes} (h : Exponent taken) (hrest : Ends rest) :
    ∀ byte ∈ (taken ++ rest).head?, isDigit byte = false ∧ byte ≠ 46 := by
  rcases h with rfl | ⟨mark, sign, digits, hmark, _, _, rfl⟩
  · intro byte hbyte
    have hends := hrest byte hbyte
    exact ⟨hends.1, hends.2.1⟩
  · intro byte hbyte
    obtain rfl := Option.some.inj hbyte
    rcases hmark with rfl | rfl <;> decide

theorem noDigit_fraction {taken rest : Bytes} (h : Fraction taken) (hrest : NoDigit rest) :
    NoDigit (taken ++ rest) := by
  rcases h with rfl | ⟨digits, _, rfl⟩
  · exact hrest
  · intro byte hbyte
    obtain rfl := Option.some.inj hbyte
    rfl

theorem numeral_sound {source text rest : Bytes} (h : numeral source = .ok (text, rest)) :
    Numeral text ∧ source = text ++ rest := by
  unfold numeral at h
  obtain ⟨⟨first, after⟩, hwhole, h⟩ := bind_eq_ok.mp h
  obtain ⟨⟨second, after'⟩, hfraction, h⟩ := bind_eq_ok.mp h
  obtain ⟨⟨third, after''⟩, hexponent, h⟩ := bind_eq_ok.mp h
  obtain ⟨rfl, rfl⟩ := Prod.mk.inj (Except.ok.inj h)
  obtain ⟨hfirst, hsource⟩ := whole_sound hwhole
  obtain ⟨hsecond, rfl⟩ := fraction_sound hfraction
  obtain ⟨hthird, rfl⟩ := exponent_sound hexponent
  obtain ⟨hminus, hsplit⟩ := optional_sound (· == 45) source
  have hsign : (optional (· == 45) source).1 = [] ∨ (optional (· == 45) source).1 = [45] := by
    rcases hminus with hnone | ⟨byte, hbyte, htaken⟩
    · exact .inl hnone
    · rw [beq_iff_eq] at hbyte
      exact .inr (hbyte ▸ htaken)
  refine ⟨⟨_, first, second, third, hsign, hfirst, hsecond, hthird, rfl⟩, ?_⟩
  rw [List.append_assoc, List.append_assoc, List.append_assoc, ← hsource]
  exact hsplit

theorem numeral_complete {text rest : Bytes} (h : Numeral text) (hrest : Ends rest) :
    numeral (text ++ rest) = .ok (text, rest) := by
  obtain ⟨minus, first, second, third, hminus, hwhole, hfraction, hexponent, rfl⟩ := h
  have hthird := noDigit_exponent hexponent hrest
  have hthird' : NoDigit (third ++ rest) := fun byte hbyte => (hthird byte hbyte).1
  have hsecond := noDigit_fraction hfraction hthird'
  have hoptional : optional (· == 45) (minus ++ (first ++ (second ++ (third ++ rest)))) =
      (minus, first ++ (second ++ (third ++ rest))) := by
    rcases hminus with rfl | rfl
    · have hfirst : ∃ byte tail, first = byte :: tail ∧ isDigit byte = true := by
        rcases hwhole with rfl | ⟨hdigits, _⟩
        · exact ⟨48, [], rfl, rfl⟩
        · exact hdigits.exists_cons
      obtain ⟨byte, tail, rfl, hbyte⟩ := hfirst
      have hminus : byte ≠ 45 := by
        rintro rfl
        cases hbyte
      rw [List.nil_append, List.cons_append, optional, if_neg (by simpa using hminus)]
    · rfl
  rw [List.append_assoc, List.append_assoc, List.append_assoc, numeral, hoptional,
    whole_complete hwhole hsecond, ok_bind,
    fraction_complete hfraction hthird' fun _ byte hbyte => (hthird byte hbyte).2, ok_bind,
    exponent_complete hexponent hrest]
  rfl

theorem number_sound {numbers : Numbers ν} {source rest : Bytes} {value : Value ν}
    (h : number numbers source = .ok (value, rest)) :
    ∃ text n, Numeral text ∧ numbers.reads text = some n ∧ value = .number n ∧
      source = text ++ rest := by
  unfold number at h
  obtain ⟨⟨text, after⟩, htext, h⟩ := bind_eq_ok.mp h
  obtain ⟨hnumeral, hsource⟩ := numeral_sound htext
  split at h
  · rename_i n hn
    obtain ⟨rfl, rfl⟩ := Prod.mk.inj (Except.ok.inj h)
    exact ⟨text, n, hnumeral, hn, rfl, hsource⟩
  · cases h

theorem number_complete {numbers : Numbers ν} {text rest : Bytes} {n : ν} (h : Numeral text)
    (hreads : numbers.reads text = some n) (hrest : Ends rest) :
    number numbers (text ++ rest) = .ok (.number n, rest) := by
  rw [number, numeral_complete h hrest, ok_bind, hreads]

/-! ## Containers -/

/-- The entries could be taken one after the other, each beside the ones
before it. -/
inductive Grown (fresh : List α → α → Prop) : List α → List α → Prop
  | nil {value : List α} : Grown fresh value []
  | cons {value entries : List α} {entry : α} (h : fresh value entry)
      (hrest : Grown fresh (value ++ [entry]) entries) : Grown fresh value (entry :: entries)

/-- Without a condition any entries can be taken. -/
theorem grown_true (value entries : List α) : Grown (fun _ _ => True) value entries := by
  induction entries generalizing value with
  | nil => exact .nil
  | cons entry entries ih => exact .cons trivial (ih _)

/-- The keys of an object that grew by new keys are distinct. -/
theorem grown_iff_nodup (value : List (Bytes × α)) {entries : List (Bytes × α)}
    (h : (value.map Prod.fst).Nodup) :
    Grown (fun value entry => entry.1 ∉ value.map Prod.fst) value entries ↔
      ((value ++ entries).map Prod.fst).Nodup := by
  induction entries generalizing value with
  | nil =>
    rw [List.append_nil]
    exact ⟨fun _ => h, fun _ => .nil⟩
  | cons entry entries ih =>
    have hsame : value ++ entry :: entries = value ++ [entry] ++ entries := by simp
    have hnext : ((value ++ [entry]).map Prod.fst).Nodup ↔ entry.1 ∉ value.map Prod.fst := by
      rw [List.map_append, List.map_singleton, List.nodup_append]
      constructor
      · intro hnodup hmember
        exact hnodup.2.2 _ hmember _ (List.mem_singleton_self _) rfl
      · intro hnew
        refine ⟨h, List.pairwise_singleton _ _, ?_⟩
        intro key hkey other hother heq
        rw [List.mem_singleton] at hother
        exact hnew (hother ▸ heq ▸ hkey)
    rw [hsame]
    constructor
    · intro hgrown
      cases hgrown with
      | cons hnew hrest => exact (ih _ (hnext.mpr hnew)).mp hrest
    · intro hnodup
      have hprefix : ((value ++ [entry]).map Prod.fst).Nodup := by
        rw [List.map_append] at hnodup
        exact (List.nodup_append.mp hnodup).1
      exact .cons (hnext.mp hprefix) ((ih _ hprefix).mpr hnodup)

section Items

variable {item : List α → Bytes → Except Raised (α × Bytes)} {closing : UInt8}
  {fresh : List α → α → Prop} {spelled : Bytes → α → Prop}

/-- What the loop of a container reads, for entries that are read soundly. -/
theorem items_sound
    (hitem : ∀ value source entry rest, item value source = .ok (entry, rest) →
      fresh value entry ∧ ∃ before text, Blank before ∧ spelled text entry ∧
        source = before ++ (text ++ rest))
    {fuel : Nat} {value all : List α} {source rest : Bytes}
    (h : items item closing fuel value source = .ok (all, rest)) :
    ∃ entries body, all = value ++ entries ∧ Grown fresh value entries ∧
      Separated spelled body entries ∧ source = body ++ closing :: rest := by
  induction fuel generalizing value source with
  | zero => cases h
  | succ fuel ih =>
    unfold items at h
    obtain ⟨⟨entry, after⟩, hentry, h⟩ := bind_eq_ok.mp h
    obtain ⟨hfresh, before, text, hbefore, htext, hsource⟩ := hitem _ _ _ _ hentry
    obtain ⟨blank, hblank, hsplit⟩ := exists_blank source
    obtain ⟨blank', hblank', hsplit'⟩ := exists_blank after
    simp only at h
    split at h
    · cases h
    · rename_i character tail htail
      rw [htail] at hsplit'
      have hleft : Blank (blank ++ before) := by
        unfold Blank
        rw [List.all_append, hblank, hbefore]
        rfl
      split_ifs at h with hclosing hcomma
      · obtain ⟨rfl, rfl⟩ := Prod.mk.inj (Except.ok.inj h)
        refine ⟨[entry], blank ++ before ++ (text ++ blank'), rfl, .cons hfresh .nil,
          .one hleft htext hblank', ?_⟩
        rw [hsplit, hsource, hsplit', hclosing]
        simp only [List.append_assoc]
      · obtain ⟨entries, body, rfl, hgrown, hbody, rfl⟩ := ih h
        refine ⟨entry :: entries, blank ++ before ++ (text ++ (blank' ++ 44 :: body)), ?_,
          .cons hfresh hgrown, .cons hleft htext hblank' hbody, ?_⟩
        · rw [List.append_assoc, List.singleton_append]
        · rw [hsplit, hsource, hsplit', hcomma]
          simp only [List.append_assoc, List.cons_append]

/-- A container with entries is read to its closing bracket, for entries that
are read whole. -/
theorem items_complete
    (hitem : ∀ value entry text rest, fresh value entry → spelled text entry → Ends rest →
      item value (text ++ rest) = .ok (entry, rest))
    (hopens : ∀ text entry, spelled text entry → JsonText.Opens text)
    (hclosing : closing = 93 ∨ closing = 125) {body : Bytes} {entries : List α}
    (h : Separated spelled body entries) (rest : Bytes) :
    ∀ {fuel : Nat} {value : List α}, body.length < fuel → Grown fresh value entries →
      items item closing fuel value (body ++ closing :: rest) = .ok (value ++ entries, rest) := by
  have hclose : isBlank closing = false ∧ Ends (closing :: rest) := by
    rcases hclosing with rfl | rfl
    · refine ⟨rfl, ?_⟩
      intro byte hbyte
      obtain rfl := Option.some.inj hbyte
      decide
    · refine ⟨rfl, ?_⟩
      intro byte hbyte
      obtain rfl := Option.some.inj hbyte
      decide
  have hcomma : ∀ tail, Ends (44 :: tail) := by
    intro tail byte hbyte
    obtain rfl := Option.some.inj hbyte
    decide
  induction h with
  | @one before text after entry hbefore htext hblank =>
    intro fuel value hfuel hgrown
    obtain ⟨fuel, rfl⟩ : ∃ less, fuel = less + 1 := ⟨fuel - 1, by omega⟩
    cases hgrown with
    | cons hfresh _ =>
      rw [List.append_assoc, List.append_assoc, items, whitespace_blank hbefore,
        whitespace_opens (hopens _ _ htext),
        hitem _ _ _ _ hfresh htext (ends_blank hblank hclose.2), ok_bind]
      simp only
      rw [whitespace_blank hblank, whitespace_cons hclose.1]
      simp only [if_true]
  | @cons before text after tail entry entries hbefore htext hblank _ ih =>
    intro fuel value hfuel hgrown
    simp only [List.length_append, List.length_cons] at hfuel
    obtain ⟨fuel, rfl⟩ : ∃ less, fuel = less + 1 := ⟨fuel - 1, by omega⟩
    cases hgrown with
    | cons hfresh hgrown =>
      have hother : (44 : UInt8) ≠ closing := by
        rcases hclosing with rfl | rfl <;> decide
      rw [List.append_assoc, List.append_assoc, List.append_assoc, List.cons_append, items,
        whitespace_blank hbefore, whitespace_opens (hopens _ _ htext),
        hitem _ _ _ _ hfresh htext (ends_blank hblank (hcomma _)), ok_bind]
      simp only
      rw [whitespace_blank hblank, whitespace_cons (by decide)]
      simp only [if_true]
      rw [if_neg hother, ih (by omega) hgrown, List.append_assoc, List.singleton_append]

theorem whitespace_whitespace (source : Bytes) :
    whitespace (whitespace source) = whitespace source := by
  obtain ⟨before, hbefore, hsplit⟩ := exists_blank source
  have hwhole := whitespace_blank hbefore (whitespace source)
  rw [← hsplit] at hwhole
  exact hwhole.symm

theorem items_whitespace (fuel : Nat) (value : List α) (source : Bytes) :
    items item closing fuel value (whitespace source) = items item closing fuel value source := by
  cases fuel with
  | zero => rfl
  | succ fuel => rw [items, items, whitespace_whitespace]

/-- What a container reads. -/
theorem container_sound
    (hitem : ∀ value source entry rest, item value source = .ok (entry, rest) →
      fresh value entry ∧ ∃ before text, Blank before ∧ spelled text entry ∧
        source = before ++ (text ++ rest))
    {all : List α} {source rest : Bytes} (h : container item closing source = .ok (all, rest)) :
    ∃ body, Listed spelled body all ∧ Grown fresh [] all ∧ source = body ++ closing :: rest := by
  obtain ⟨before, hbefore, hsplit⟩ := exists_blank source
  unfold container at h
  split_ifs at h with hempty
  · obtain ⟨rfl, rfl⟩ := Prod.mk.inj (Except.ok.inj h)
    refine ⟨before, .inl ⟨hbefore, rfl⟩, .nil, ?_⟩
    obtain ⟨tail, htail⟩ := List.head?_eq_some_iff.mp hempty
    rw [htail] at hsplit ⊢
    exact hsplit
  · rw [items_whitespace] at h
    obtain ⟨entries, body, rfl, hgrown, hbody, hsource⟩ := items_sound hitem h
    exact ⟨body, .inr hbody, hgrown, hsource⟩

/-- A container is read to its closing bracket, with entries or without. -/
theorem container_complete
    (hitem : ∀ value entry text rest, fresh value entry → spelled text entry → Ends rest →
      item value (text ++ rest) = .ok (entry, rest))
    (hopens : ∀ text entry, spelled text entry → JsonText.Opens text)
    (hclosing : closing = 93 ∨ closing = 125) {body : Bytes} {entries : List α}
    (h : Listed spelled body entries) (hgrown : Grown fresh [] entries) (rest : Bytes) :
    container item closing (body ++ closing :: rest) = .ok (entries, rest) := by
  have hblank : isBlank closing = false := by
    rcases hclosing with rfl | rfl <;> rfl
  unfold container
  rcases h with ⟨hbody, rfl⟩ | hseparated
  · rw [whitespace_blank hbody, whitespace_cons hblank, if_pos (List.head?_cons)]
    rfl
  · have hhead : (whitespace (body ++ closing :: rest)).head? ≠ some closing := by
      have hentry : ∀ {before text tail entry}, Blank before → spelled text entry →
          (whitespace (before ++ (text ++ tail) ++ closing :: rest)).head? ≠ some closing := by
        intro before text tail entry hbefore htext
        have hopen := hopens _ _ htext
        rw [List.append_assoc, whitespace_blank hbefore, List.append_assoc, whitespace_opens hopen]
        obtain ⟨byte, more, rfl, hbyte⟩ := hopen
        simp only [isOpening, Bool.and_eq_true, bne_iff_ne] at hbyte
        intro hsame
        obtain rfl := Option.some.inj hsame
        rcases hclosing with rfl | rfl
        · exact hbyte.1.2 rfl
        · exact hbyte.2 rfl
      cases hseparated with
      | one hbefore htext hafter => exact hentry hbefore htext
      | cons hbefore htext hafter hrest => exact hentry hbefore htext
    have hfuel : body.length < (body ++ closing :: rest).length + 1 := by
      rw [List.length_append]
      omega
    rw [if_neg hhead, items_whitespace,
      items_complete hitem hopens hclosing hseparated rest hfuel hgrown, List.nil_append]

end Items

/-! ## Values -/

/-- What is read of an object's entry. -/
theorem entry_sound {parse : Bytes → Except Raised (α × Bytes)} {spelled : Bytes → α → Prop}
    (hparse : ∀ source value rest, parse source = .ok (value, rest) →
      ∃ before body, Blank before ∧ spelled body value ∧ source = before ++ (body ++ rest))
    (value : List (Bytes × α)) (source : Bytes) (pair : Bytes × α) (rest : Bytes)
    (h : entry parse value source = .ok (pair, rest)) :
    pair.1 ∉ value.map Prod.fst ∧ ∃ before text, Blank before ∧ Member spelled text pair ∧
      source = before ++ (text ++ rest) := by
  unfold entry at h
  obtain ⟨⟨key, after⟩, hkey, h⟩ := bind_eq_ok.mp h
  obtain ⟨name, hname, hsource⟩ := stringValue_eq_ok.mp hkey
  obtain ⟨between, hbetween, hsplit⟩ := exists_blank after
  simp only at h
  split_ifs at h with hnew
  split at h
  · cases h
  · rename_i character tail htail
    rw [htail] at hsplit
    split_ifs at h with hcolon
    obtain ⟨⟨child, left⟩, hchild, hresult⟩ := map_eq_ok.mp h
    obtain ⟨rfl, rfl⟩ := Prod.mk.inj hresult
    obtain ⟨before, body, hbefore, hbody, rfl⟩ := hparse _ _ _ hchild
    refine ⟨hnew, [], name ++ (between ++ 58 :: (before ++ body)), rfl,
      ⟨name, between, before, body, hname, hbetween, hbefore, hbody, rfl⟩, ?_⟩
    rw [hsource, show after = _ from hsplit, hcolon]
    simp only [List.append_assoc, List.cons_append, List.nil_append]

theorem entry_complete {parse : Bytes → Except Raised (α × Bytes)} {spelled : Bytes → α → Prop}
    (hparse : ∀ before body value rest, Blank before → spelled body value → Ends rest →
      parse (before ++ (body ++ rest)) = .ok (value, rest))
    (value : List (Bytes × α)) (pair : Bytes × α) (text rest : Bytes)
    (hnew : pair.1 ∉ value.map Prod.fst) (h : Member spelled text pair) (hrest : Ends rest) :
    entry parse value (text ++ rest) = .ok (pair, rest) := by
  obtain ⟨name, between, after, body, hname, hbetween, hafter, hbody, rfl⟩ := h
  have hkey : stringValue (name ++ (between ++ 58 :: (after ++ (body ++ rest)))) =
      .ok (pair.1, between ++ 58 :: (after ++ (body ++ rest))) :=
    stringValue_eq_ok.mpr ⟨name, hname, rfl⟩
  have hsource : name ++ (between ++ 58 :: (after ++ body)) ++ rest =
      name ++ (between ++ 58 :: (after ++ (body ++ rest))) := by
    simp only [List.append_assoc, List.cons_append]
  rw [hsource, entry, hkey, ok_bind]
  simp only
  rw [if_neg hnew, whitespace_blank hbetween, whitespace_cons (by decide)]
  simp only [if_true]
  rw [hparse after body pair.2 rest hafter hbody hrest]
  rfl

/-- The names are no numbers, strings or containers. -/
theorem keyword_sound {source rest : Bytes} {value : Value ν}
    (h : keyword source = some (value, rest)) (numbers : Numbers ν) (left : Nat) :
    ∃ body, Spells numbers.reads (left + 1) body value ∧ source = body ++ rest := by
  unfold keyword at h
  split_ifs at h with htrue hfalse hnull
  · obtain ⟨rfl, rfl⟩ := Prod.mk.inj (Option.some.inj h)
    exact ⟨_, rfl, by rw [← htrue, List.take_append_drop]⟩
  · obtain ⟨rfl, rfl⟩ := Prod.mk.inj (Option.some.inj h)
    exact ⟨_, rfl, by rw [← hfalse, List.take_append_drop]⟩
  · obtain ⟨rfl, rfl⟩ := Prod.mk.inj (Option.some.inj h)
    exact ⟨_, rfl, by rw [← hnull, List.take_append_drop]⟩

/-- A numeral is none of the names. -/
theorem keyword_numeral {byte : UInt8} (h : byte = 45 ∨ isDigit byte = true) (rest : Bytes) :
    (keyword (byte :: rest) : Option (Value ν × Bytes)) = none := by
  have hother : ∀ other : UInt8, other = 116 ∨ other = 102 ∨ other = 110 → byte ≠ other := by
    intro other hother
    rcases h with rfl | hdigit
    · rcases hother with rfl | rfl | rfl <;> decide
    · rintro rfl
      rcases hother with rfl | rfl | rfl <;> cases hdigit
  have hname : ∀ (n : Nat) (first : UInt8) (name : Bytes), byte ≠ first →
      ¬(byte :: rest).take (n + 1) = first :: name := by
    intro n first name hfirst heq
    rw [List.take_succ_cons] at heq
    exact hfirst (List.cons.inj heq).1
  unfold keyword
  rw [if_neg (hname 3 116 _ (hother 116 (.inl rfl))),
    if_neg (hname 4 102 _ (hother 102 (.inr (.inl rfl)))),
    if_neg (hname 3 110 _ (hother 110 (.inr (.inr rfl))))]

variable {numbers : Numbers ν}

/-- What `parse` reads is in the grammar, with the depth that was left. -/
theorem parse_sound {left : Nat} {source rest : Bytes} {value : Value ν}
    (h : parse numbers left source = .ok (value, rest)) :
    ∃ before body, Blank before ∧ Spells numbers.reads left body value ∧
      source = before ++ (body ++ rest) := by
  induction left generalizing source rest value with
  | zero => cases h
  | succ left ih =>
    obtain ⟨before, hbefore, hsplit⟩ := exists_blank source
    unfold parse at h
    split at h
    · cases h
    · rename_i character tail htail
      rw [htail] at hsplit
      suffices hbody : ∃ body, Spells numbers.reads (left + 1) body value ∧
          character :: tail = body ++ rest by
        obtain ⟨body, hbody, hsource⟩ := hbody
        exact ⟨before, body, hbefore, hbody, hsource ▸ hsplit⟩
      split_ifs at h with hquote hobject harray
      · obtain ⟨⟨string, after⟩, hstring, hresult⟩ := map_eq_ok.mp h
        obtain ⟨rfl, rfl⟩ := Prod.mk.inj hresult
        exact stringValue_eq_ok.mp hstring
      · obtain ⟨⟨entries, after⟩, hentries, hresult⟩ := map_eq_ok.mp h
        obtain ⟨rfl, rfl⟩ := Prod.mk.inj hresult
        obtain ⟨body, hbody, hgrown, rfl⟩ :=
          container_sound (entry_sound fun _ _ _ => ih) hentries
        refine ⟨123 :: (body ++ [125]), ⟨body, rfl, hbody, ?_⟩, ?_⟩
        · exact (grown_iff_nodup [] List.nodup_nil).mp hgrown
        · rw [hobject, List.cons_append, List.append_assoc, List.singleton_append]
      · obtain ⟨⟨items, after⟩, hitems, hresult⟩ := map_eq_ok.mp h
        obtain ⟨rfl, rfl⟩ := Prod.mk.inj hresult
        have helement : ∀ (value : List (Value ν)) source entry rest,
            parse numbers left source = .ok (entry, rest) →
              (fun _ _ => True) value entry ∧ ∃ before text, Blank before ∧
              Spells numbers.reads left text entry ∧ source = before ++ (text ++ rest) :=
          fun _ _ _ _ h => ⟨trivial, ih h⟩
        obtain ⟨body, hbody, _, rfl⟩ := container_sound helement hitems
        refine ⟨91 :: (body ++ [93]), ⟨body, rfl, hbody⟩, ?_⟩
        rw [harray, List.cons_append, List.append_assoc, List.singleton_append]
      · split at h
        · rename_i result hkeyword
          obtain rfl := Except.ok.inj h
          exact keyword_sound hkeyword numbers left
        · obtain ⟨text, n, hnumeral, hreads, rfl, hsource⟩ := number_sound h
          exact ⟨text, ⟨hnumeral, hreads⟩, hsource⟩

/-- What is in the grammar is read whole, before anything that may follow. -/
theorem parse_complete {left : Nat} {before body rest : Bytes} {value : Value ν}
    (hbefore : Blank before) (h : Spells numbers.reads left body value) (hrest : Ends rest) :
    parse numbers left (before ++ (body ++ rest)) = .ok (value, rest) := by
  induction left generalizing before body rest value with
  | zero => exact absurd h id
  | succ left ih =>
    rw [parse, whitespace_blank hbefore, whitespace_opens h.opens]
    cases value with
    | null =>
      obtain rfl := h
      rfl
    | bool value =>
      cases value with
      | false =>
        obtain rfl := h
        rfl
      | true =>
        obtain rfl := h
        rfl
    | number n =>
      obtain ⟨hnumeral, hreads⟩ := h
      have hnumber := number_complete hnumeral hreads hrest
      obtain ⟨byte, tail, rfl, hbyte⟩ := hnumeral.exists_cons
      have hother : ∀ other : UInt8, other = 34 ∨ other = 123 ∨ other = 91 → byte ≠ other := by
        intro other hother
        rcases hbyte with rfl | hdigit
        · rcases hother with rfl | rfl | rfl <;> decide
        · rintro rfl
          rcases hother with rfl | rfl | rfl <;> cases hdigit
      rw [List.cons_append] at hnumber ⊢
      simp only
      rw [if_neg (hother 34 (.inl rfl)), if_neg (hother 123 (.inr (.inl rfl))),
        if_neg (hother 91 (.inr (.inr rfl))), keyword_numeral hbyte]
      exact hnumber
    | string string =>
      have hstring : stringValue (body ++ rest) = .ok (string, rest) :=
        stringValue_eq_ok.mpr ⟨body, h, rfl⟩
      obtain ⟨inner, rfl, _⟩ := h
      rw [List.cons_append] at hstring ⊢
      simp only [if_true]
      rw [hstring]
      rfl
    | array items =>
      obtain ⟨inner, rfl, hitems⟩ := h
      have helement : ∀ (value : List (Value ν)) entry text after, True →
          Spells numbers.reads left text entry → Ends after →
          parse numbers left (text ++ after) = .ok (entry, after) :=
        fun _ _ _ _ _ hspelled hends => @ih [] _ _ _ rfl hspelled hends
      have hcontainer := container_complete helement (fun _ _ => Spells.opens) (.inl rfl) hitems
        (grown_true [] items) rest
      rw [List.cons_append, List.append_assoc, List.singleton_append]
      show (container (fun _ => parse numbers left) 93 _).map _ = _
      rw [hcontainer]
      rfl
    | object entries =>
      obtain ⟨inner, rfl, hentries, hkeys⟩ := h
      have hgrown := (grown_iff_nodup [] List.nodup_nil).mpr hkeys
      have hcontainer := container_complete
        (entry_complete fun _ _ _ _ hblank hspelled hends => ih hblank hspelled hends)
        (fun _ _ => Member.opens) (.inr rfl) hentries hgrown rest
      rw [List.cons_append, List.append_assoc, List.singleton_append]
      show (container (entry (parse numbers left)) 125 _).map _ = _
      rw [hcontainer]
      rfl

/-- A source is accepted exactly when it is short enough and a document with
at most 65 containers inside one another, and its value is the result. -/
theorem decode_eq_ok {source : Bytes} {limit : Nat} {value : Value ν} :
    decode numbers source limit = .ok value ↔
      source.length ≤ limit ∧ Document numbers.reads 65 source value := by
  unfold decode
  constructor
  · intro h
    split_ifs at h with hlong
    obtain ⟨⟨result, rest⟩, hresult, hrest⟩ := bind_eq_ok.mp h
    obtain ⟨before, body, hbefore, hbody, rfl⟩ := parse_sound hresult
    split_ifs at hrest with hend
    obtain rfl := Except.ok.inj hrest
    exact ⟨Nat.not_lt.mp hlong, before, body, rest, hbefore, hbody, whitespace_eq_nil.mp hend, rfl⟩
  · intro h
    obtain ⟨hlength, before, body, after, hbefore, hbody, hafter, rfl⟩ := h
    have hends : Ends after := by
      rw [← List.append_nil after]
      exact ends_blank hafter nofun
    rw [if_neg (Nat.not_lt.mpr hlength), parse_complete hbefore hbody hends, ok_bind]
    simp only
    rw [if_pos (whitespace_eq_nil.mpr hafter)]

end DstServer.Runtime
