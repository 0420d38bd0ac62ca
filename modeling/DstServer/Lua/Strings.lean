import DstServer.Lua.Literal

/-!
# Strings as Lua literals

`renderString` writes a string between double quotes and `string` reads the
text between them back.  Quotes and backslashes are escaped, a control
character is written byte for byte in decimal, and every other character
stands for itself.

* `decode_plain`, `decode_decimal` and `decode_simple` are the three ways in
  which `decode` takes the bytes of one character, and `decode_body` puts
  them together.
* `string_body` is the round trip, and `renderString_eq` says what is
  written.
-/

namespace DstServer.Lua

open Lib Outcome

/-- The text between the quotes. -/
def body (text : Text) : Text := text.flatMap renderChar

/-! ## What a piece of the text decodes to -/

/-- A byte that is no backslash stands for itself. -/
theorem decode_plain {bytes rest : List UInt8} (h : ∀ byte ∈ bytes, byte ≠ 92) :
    decode (bytes ++ rest) = (decode rest).map (bytes ++ ·) := by
  induction bytes with
  | nil =>
    show decode rest = (decode rest).map id
    cases decode rest <;> rfl
  | cons byte bytes ih =>
    rw [List.cons_append, decode.eq_def]
    simp only [if_neg (h byte List.mem_cons_self)]
    rw [ih fun other hother => h other (List.mem_cons_of_mem byte hother)]
    cases decode rest <;> rfl

/-- An escaped quote or backslash. -/
theorem decode_simple {escape : UInt8} (h : escape = 34 ∨ escape = 92) (rest : List UInt8) :
    decode (92 :: escape :: rest) = (decode rest).map (escape :: ·) := by
  rcases h with rfl | rfl
  · rw [decode]
    rfl
  · rw [decode]
    rfl

/-- The digits of a byte. -/
def digitBytes (byte : UInt8) : List UInt8 :=
  [.ofNat (48 + byte.toNat / 100), .ofNat (48 + byte.toNat / 10 % 10),
    .ofNat (48 + byte.toNat % 10)]

theorem toNat_digit {n : Nat} (h : n < 10) : (UInt8.ofNat (48 + n)).toNat = 48 + n := by
  rw [UInt8.toNat_ofNat']
  omega

theorem digit_range {n : Nat} (h : n < 10) :
    48 ≤ UInt8.ofNat (48 + n) ∧ UInt8.ofNat (48 + n) ≤ 57 := by
  rw [UInt8.le_iff_toNat_le, UInt8.le_iff_toNat_le, toNat_digit h]
  have h₁ : (48 : UInt8).toNat = 48 := rfl
  have h₂ : (57 : UInt8).toNat = 57 := rfl
  omega

/-- An escape of three digits, whatever comes after it. -/
theorem decode_decimal (byte : UInt8) (rest : List UInt8) :
    decode (92 :: (digitBytes byte ++ rest)) = (decode rest).map (byte :: ·) := by
  have hbyte : byte.toNat < 256 := byte.toNat_lt
  have h₁ : byte.toNat / 100 < 10 := by omega
  have h₂ : byte.toNat / 10 % 10 < 10 := by omega
  have h₃ : byte.toNat % 10 < 10 := by omega
  have hnumber : decimalEscape 2 ((UInt8.ofNat (48 + byte.toNat / 100)).toNat - 48)
      (.ofNat (48 + byte.toNat / 10 % 10) :: .ofNat (48 + byte.toNat % 10) :: rest) =
      (byte.toNat, rest) := by
    rw [decimalEscape, if_pos (digit_range h₂), decimalEscape, if_pos (digit_range h₃),
      decimalEscape, toNat_digit h₁, toNat_digit h₂, toNat_digit h₃]
    congr 1
    omega
  show decode (92 :: .ofNat (48 + byte.toNat / 100) :: .ofNat (48 + byte.toNat / 10 % 10) ::
    .ofNat (48 + byte.toNat % 10) :: rest) = _
  rw [decode, if_pos rfl]
  simp only
  rw [if_pos (digit_range h₁), hnumber]
  simp only
  rw [if_pos hbyte, UInt8.ofNat_toNat]

theorem utf8_threeDigits (byte : UInt8) : utf8 (threeDigits byte) = digitBytes byte := by
  have hdigit : ∀ n, n < 10 →
      String.utf8EncodeChar (.ofNat (48 + n)) = [UInt8.ofNat (48 + n)] := by decide
  have hbyte : byte.toNat < 256 := byte.toNat_lt
  have h₁ : byte.toNat / 100 < 10 := by omega
  have h₂ : byte.toNat / 10 % 10 < 10 := by omega
  have h₃ : byte.toNat % 10 < 10 := by omega
  show String.utf8EncodeChar _ ++ (String.utf8EncodeChar _ ++ (String.utf8EncodeChar _ ++ [])) = _
  rw [hdigit _ h₁, hdigit _ h₂, hdigit _ h₃]
  rfl

/-- The escapes of some bytes. -/
theorem decode_escapes (bytes rest : List UInt8) :
    decode (utf8 (bytes.flatMap fun byte => '\\' :: threeDigits byte) ++ rest) =
      (decode rest).map (bytes ++ ·) := by
  induction bytes with
  | nil =>
    show decode rest = (decode rest).map id
    cases decode rest <;> rfl
  | cons byte bytes ih =>
    have hslash : String.utf8EncodeChar '\\' = [92] := by decide
    rw [List.flatMap_cons, utf8_append, utf8_cons, hslash, utf8_threeDigits, List.append_assoc]
    show decode (92 :: (digitBytes byte ++ _ ++ rest)) = _
    rw [List.append_assoc, decode_decimal]
    show (decode (utf8 (bytes.flatMap fun byte => '\\' :: threeDigits byte) ++ rest)).map _ = _
    rw [ih]
    cases decode rest <;> rfl

/-- What is written for a character is read as that character. -/
theorem decode_renderChar (c : Char) (rest : List UInt8) :
    decode (utf8 (renderChar c) ++ rest) = (decode rest).map (String.utf8EncodeChar c ++ ·) := by
  have hquote : utf8 ['\\', '"'] = [92, 34] := by decide
  have hslash : utf8 ['\\', '\\'] = [92, 92] := by decide
  unfold renderChar
  split_ifs with h₁ h₂ h₃
  · subst h₁
    rw [hquote]
    exact decode_simple (Or.inl rfl) rest
  · subst h₂
    rw [hslash]
    exact decode_simple (Or.inr rfl) rest
  · exact decode_escapes _ rest
  · rw [utf8_cons, utf8_nil, List.append_nil]
    refine decode_plain ?_
    intro byte hbyte heq
    subst heq
    by_cases hascii : c.toNat < 128
    · rw [utf8EncodeChar_ascii hascii, List.mem_singleton] at hbyte
      have hcode := congrArg UInt8.toNat hbyte
      rw [UInt8.toNat_ofNat'] at hcode
      have h92 : (92 : UInt8).toNat = 92 := rfl
      refine h₂ (Char.ext (UInt32.toNat_inj.1 ?_))
      show c.toNat = 92
      omega
    · have hhigh := le_of_mem_utf8EncodeChar (Nat.le_of_not_lt hascii) hbyte
      exact absurd hhigh (by decide)

theorem decode_body (text : Text) : decode (utf8 (body text)) = .ok (utf8 text) := by
  induction text with
  | nil =>
    show decode [] = _
    rw [decode]
    rfl
  | cons c rest ih =>
    rw [body, List.flatMap_cons, utf8_append, decode_renderChar]
    show (decode (utf8 (body rest))).map _ = _
    rw [ih]
    rfl

/-- A rendered string is read back. -/
theorem string_body (text : String) : string .double (body text.toList) = .ok text := by
  show (do
    let decoded ← decode (utf8 (body text.toList))
    orError (String.fromUTF8? decoded.toByteArray) "Lua string must contain valid UTF-8") = _
  rw [decode_body, ok_bind, fromUTF8?_utf8, String.ofList_toList]
  rfl

/-! ## What is written -/

theorem renderChars_eq {text output output' : Text} (h : renderChars text output = .ok output') :
    output' = output ++ body text := by
  induction text generalizing output with
  | nil =>
    cases h
    rw [body, List.flatMap_nil, List.append_nil]
  | cons c rest ih =>
    simp only [renderChars, bind_eq_ok] at h
    obtain ⟨_, _, hrest⟩ := h
    rw [ih hrest, List.append_assoc]
    rfl

theorem renderString_eq {text : String} {output output' : Text}
    (h : renderString text output = .ok output') :
    output' = output ++ '"' :: body text.toList ++ ['"'] := by
  simp only [renderString, bind_eq_ok] at h
  obtain ⟨_, _, written, hwritten, hpure⟩ := h
  cases hpure
  rw [renderChars_eq hwritten, List.append_assoc output]
  rfl

end DstServer.Lua
