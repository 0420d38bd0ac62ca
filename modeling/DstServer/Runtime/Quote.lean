import DstServer.Lib.Outcome
import DstServer.Lib.Utf8

/-!
# Strings on the wire

A Lua string is a list of bytes.  `quote` writes one as a JSON string within
a number of bytes that remain, and refuses a string that is not UTF-8.

* `utf8Checked_iff`: the scan of `quote` accepts a string exactly when it is
  the encoding of a text, so that overlong forms, surrogates and numbers
  past the last character are all refused.
* `quote_eq` says what is written and which refusal comes first.
* `unicode_eq`: what the decoder writes for a number is the encoding of the
  character with that number.
-/

namespace DstServer.Runtime

open Lib

abbrev Bytes := List UInt8

/-- The values that the functions of `wire` raise. -/
inductive Raised where
  | responseTooLarge
  | invalidUtf8
  | invalidJsonValue
  | invalidRequest
  | indeterminate
  | rejected
  | staleReference
  /-- An error of something else, such as a game function. -/
  | other
  deriving DecidableEq, Repr

/-- The bytes of a text in ASCII. -/
def latin (text : List Char) : Bytes := text.map fun c => UInt8.ofNat c.toNat

/-! ## UTF-8 -/

/-- How many bytes follow the first byte of a character. -/
def width (byte : Nat) : Option Nat :=
  if 194 ≤ byte ∧ byte ≤ 223 then some 1
  else if 224 ≤ byte ∧ byte ≤ 239 then some 2
  else if 240 ≤ byte ∧ byte ≤ 244 then some 3
  else none

/-- Whether a second byte makes an overlong form, a surrogate, or a number
that is too large. -/
def outside (byte second : Nat) : Bool :=
  (byte == 224 && decide (second < 160)) || (byte == 237 && decide (second > 159)) ||
    (byte == 240 && decide (second < 144)) || (byte == 244 && decide (second > 143))

def continuation (byte : UInt8) : Bool := decide (128 ≤ byte.toNat) && decide (byte.toNat ≤ 191)

/-- The scan of `quote` over a string, where the first `skip` bytes belong to
a character that it has seen. -/
def utf8Checked : Nat → Bytes → Bool
  | _, [] => true
  | skip + 1, _ :: rest => utf8Checked skip rest
  | 0, byte :: rest =>
    if byte.toNat < 128 then utf8Checked 0 rest
    else
      match width byte.toNat with
      | none => false
      | some width =>
        decide (width ≤ rest.length) && !outside byte.toNat (rest.headD 0).toNat &&
          (rest.take width).all continuation && utf8Checked width rest

/-- `unicode` of the decoder: the bytes for a number. -/
def unicode (code : Nat) : Bytes :=
  if code < 128 then [.ofNat code]
  else if code < 2048 then [.ofNat (192 + code / 64), .ofNat (128 + code % 64)]
  else if code < 65536 then
    [.ofNat (224 + code / 4096), .ofNat (128 + code / 64 % 64), .ofNat (128 + code % 64)]
  else
    [.ofNat (240 + code / 262144), .ofNat (128 + code / 4096 % 64),
      .ofNat (128 + code / 64 % 64), .ofNat (128 + code % 64)]

theorem toNat_charOfNat {code : Nat} (h : code.isValidChar) : (Char.ofNat code).toNat = code := by
  unfold Char.ofNat
  rw [dif_pos h]
  rfl

theorem unicode_toNat (c : Char) : unicode c.toNat = String.utf8EncodeChar c := by
  have hvalid : c.toNat < 55296 ∨ 57343 < c.toNat ∧ c.toNat < 1114112 := c.valid
  unfold unicode String.utf8EncodeChar
  show _ = if c.toNat ≤ 127 then _ else if c.toNat ≤ 2047 then _ else if c.toNat ≤ 65535 then _
    else _
  have hval : c.val.toNat = c.toNat := rfl
  rw [hval]
  split_ifs <;> first | omega | skip
  · rfl
  · have h₁ : 192 + c.toNat / 64 = c.toNat / 64 % 32 + 192 := by omega
    rw [h₁, Nat.add_comm 128]
  · have h₁ : 224 + c.toNat / 4096 = c.toNat / 4096 % 16 + 224 := by omega
    rw [h₁, Nat.add_comm 128, Nat.add_comm 128]
  · have h₁ : 240 + c.toNat / 262144 = c.toNat / 262144 % 8 + 240 := by omega
    rw [h₁, Nat.add_comm 128, Nat.add_comm 128, Nat.add_comm 128]

/-- What the decoder writes for the number of a character. -/
theorem unicode_eq {code : Nat} (h : code.isValidChar) :
    unicode code = String.utf8EncodeChar (.ofNat code) := by
  rw [← unicode_toNat, toNat_charOfNat h]

theorem utf8Checked_skip (skip : Nat) (bytes : Bytes) :
    utf8Checked skip bytes = utf8Checked 0 (bytes.drop skip) := by
  induction skip generalizing bytes with
  | zero => rfl
  | succ skip ih =>
    cases bytes with
    | nil => rfl
    | cons byte rest => exact ih rest

theorem utf8Checked_ascii {byte : UInt8} (h : byte.toNat < 128) (rest : Bytes) :
    utf8Checked 0 (byte :: rest) = utf8Checked 0 rest := by
  rw [utf8Checked, if_pos h]

/-- A character of several bytes is passed over at once. -/
theorem utf8Checked_wide {byte : UInt8} (tail : Bytes) {rest : Bytes} (h : 128 ≤ byte.toNat)
    (hwidth : width byte.toNat = some tail.length) (hfirst : tail ≠ [])
    (hinside : outside byte.toNat (tail.headD 0).toNat = false)
    (htail : tail.all continuation = true) :
    utf8Checked 0 (byte :: (tail ++ rest)) = utf8Checked 0 rest := by
  rw [utf8Checked, if_neg (Nat.not_lt.mpr h), hwidth]
  simp only
  have hhead : (tail ++ rest).headD 0 = tail.headD 0 := by
    cases tail with
    | nil => exact absurd rfl hfirst
    | cons second tail => rfl
  rw [hhead, hinside, List.take_left, htail, utf8Checked_skip, List.drop_left]
  simp

theorem toNat_byte {n : Nat} (h : n < 256) : (UInt8.ofNat n).toNat = n := by
  rw [UInt8.toNat_ofNat']
  omega

theorem continuation_mod (n : Nat) : continuation (.ofNat (128 + n % 64)) = true := by
  unfold continuation
  rw [toNat_byte (by omega)]
  simp
  omega

/-- The scan passes over the bytes of any character. -/
theorem utf8Checked_unicode {code : Nat} (h : code.isValidChar) (rest : Bytes) :
    utf8Checked 0 (unicode code ++ rest) = utf8Checked 0 rest := by
  have hvalid : code < 55296 ∨ 57343 < code ∧ code < 1114112 := h
  unfold unicode
  split_ifs with hone htwo hthree
  · exact utf8Checked_ascii (by rw [toNat_byte (by omega)]; exact hone) rest
  · have hbyte : (UInt8.ofNat (192 + code / 64)).toNat = 192 + code / 64 := toNat_byte (by omega)
    refine utf8Checked_wide [_] (by omega) ?_ (by simp) ?_ ?_
    · rw [hbyte, width, if_pos (by omega)]
      rfl
    · rw [hbyte, outside]
      simp
      omega
    · simp only [List.all_cons, List.all_nil, continuation_mod, Bool.and_true]
  · have hbyte : (UInt8.ofNat (224 + code / 4096)).toNat = 224 + code / 4096 :=
      toNat_byte (by omega)
    refine utf8Checked_wide [_, _] (by omega) ?_ (by simp) ?_ ?_
    · rw [hbyte, width, if_neg (by omega), if_pos (by omega)]
      rfl
    · rw [hbyte, outside]
      show _ = false
      rw [List.headD_cons, toNat_byte (by omega)]
      simp
      omega
    · simp only [List.all_cons, List.all_nil, continuation_mod, Bool.and_true]
  · have hbyte : (UInt8.ofNat (240 + code / 262144)).toNat = 240 + code / 262144 :=
      toNat_byte (by omega)
    refine utf8Checked_wide [_, _, _] (by omega) ?_ (by simp) ?_ ?_
    · rw [hbyte, width, if_neg (by omega), if_neg (by omega), if_pos (by omega)]
      rfl
    · rw [hbyte, outside]
      rw [List.headD_cons, toNat_byte (by omega)]
      simp
      omega
    · simp only [List.all_cons, List.all_nil, continuation_mod, Bool.and_true]

/-- The encoding of a text passes the scan. -/
theorem utf8Checked_utf8 (text : Text) : utf8Checked 0 (utf8 text) = true := by
  induction text with
  | nil => rfl
  | cons c text ih =>
    rw [utf8_cons, ← unicode_toNat, utf8Checked_unicode (show c.toNat.isValidChar from c.valid)]
    exact ih

theorem outside_eq_false {byte second : Nat} (h : outside byte second = false) :
    (byte = 224 → 160 ≤ second) ∧ (byte = 237 → second ≤ 159) ∧
      (byte = 240 → 144 ≤ second) ∧ (byte = 244 → second ≤ 143) := by
  simp only [outside, Bool.or_eq_false_iff, Bool.and_eq_false_iff, beq_eq_false_iff_ne,
    decide_eq_false_iff_not] at h
  omega

theorem continuation_range {byte : UInt8} (h : continuation byte = true) :
    128 ≤ byte.toNat ∧ byte.toNat ≤ 191 := by
  simpa only [continuation, Bool.and_eq_true, decide_eq_true_eq] using h

theorem ofNat_eq (byte : UInt8) {n : Nat} (h : n = byte.toNat) : UInt8.ofNat n = byte := by
  rw [h, UInt8.ofNat_toNat]

/-- A character of several bytes that the scan passes over is the encoding of
its number. -/
theorem exists_unicode {byte : UInt8} {tail : Bytes} (hwidth : width byte.toNat = some tail.length)
    (hinside : outside byte.toNat (tail.headD 0).toNat = false)
    (htail : tail.all continuation = true) :
    ∃ code : Nat, code.isValidChar ∧ unicode code = byte :: tail := by
  have hlimits := outside_eq_false hinside
  have hrange : ∀ other ∈ tail, 128 ≤ other.toNat ∧ other.toNat ≤ 191 := fun other hother =>
    continuation_range (List.all_eq_true.mp htail other hother)
  unfold width at hwidth
  split_ifs at hwidth with htwo hthree hfour
  · obtain ⟨second, rfl⟩ := List.length_eq_one_iff.mp (Option.some.inj hwidth).symm
    have hsecond := hrange second (by simp)
    refine ⟨(byte.toNat - 192) * 64 + (second.toNat - 128), Or.inl (by omega), ?_⟩
    rw [unicode, if_neg (by omega), if_pos (by omega), ofNat_eq byte (by omega),
      ofNat_eq second (by omega)]
  · obtain ⟨second, third, rfl⟩ := List.length_eq_two.mp (Option.some.inj hwidth).symm
    have hsecond := hrange second (by simp)
    have hthird := hrange third (by simp)
    simp only [List.headD_cons] at hlimits
    refine ⟨(byte.toNat - 224) * 4096 + (second.toNat - 128) * 64 + (third.toNat - 128), ?_, ?_⟩
    · show _ < 55296 ∨ 57343 < _ ∧ _ < 1114112
      omega
    · rw [unicode, if_neg (by omega), if_neg (by omega), if_pos (by omega),
        ofNat_eq byte (by omega), ofNat_eq second (by omega),
        ofNat_eq third (by omega)]
  · obtain ⟨second, third, fourth, rfl⟩ := List.length_eq_three.mp (Option.some.inj hwidth).symm
    have hsecond := hrange second (by simp)
    have hthird := hrange third (by simp)
    have hfourth := hrange fourth (by simp)
    simp only [List.headD_cons] at hlimits
    refine ⟨(byte.toNat - 240) * 262144 + (second.toNat - 128) * 4096 +
      (third.toNat - 128) * 64 + (fourth.toNat - 128), ?_, ?_⟩
    · show _ < 55296 ∨ 57343 < _ ∧ _ < 1114112
      omega
    · rw [unicode, if_neg (by omega), if_neg (by omega), if_neg (by omega),
        ofNat_eq byte (by omega), ofNat_eq second (by omega),
        ofNat_eq third (by omega), ofNat_eq fourth (by omega)]

/-- The scan takes a character off the front. -/
theorem utf8Checked_cons {byte : UInt8} {rest : Bytes} (h : utf8Checked 0 (byte :: rest) = true) :
    ∃ (code : Nat) (after : Bytes), code.isValidChar ∧ byte :: rest = unicode code ++ after ∧
      utf8Checked 0 after = true := by
  rw [utf8Checked] at h
  split_ifs at h with hascii
  · refine ⟨byte.toNat, rest, Or.inl (by omega), ?_, h⟩
    rw [unicode, if_pos hascii, UInt8.ofNat_toNat]
    rfl
  · split at h
    · cases h
    · rename_i count hwidth
      simp only [Bool.and_eq_true, decide_eq_true_eq, Bool.not_eq_true'] at h
      obtain ⟨⟨⟨hlength, hinside⟩, htail⟩, hafter⟩ := h
      rw [utf8Checked_skip] at hafter
      have hcount : (rest.take count).length = count := by
        rw [List.length_take]
        omega
      have hpositive : 1 ≤ count := by
        unfold width at hwidth
        split_ifs at hwidth <;> cases hwidth <;> omega
      have hhead : rest.headD 0 = (rest.take count).headD 0 := by
        cases rest with
        | nil => rw [List.take_nil]
        | cons second rest =>
          obtain ⟨count, rfl⟩ : ∃ before, count = before + 1 := ⟨count - 1, by omega⟩
          rw [List.take_succ_cons, List.headD_cons, List.headD_cons]
      rw [hhead] at hinside
      obtain ⟨code, hvalid, hcode⟩ :=
        exists_unicode (by rw [hcount]; exact hwidth) hinside htail
      refine ⟨code, rest.drop count, hvalid, ?_, hafter⟩
      rw [hcode, List.cons_append, List.take_append_drop]

/-- The scan accepts the encodings of texts and nothing else. -/
theorem utf8Checked_iff (bytes : Bytes) :
    utf8Checked 0 bytes = true ↔ ∃ text : Text, bytes = utf8 text := by
  constructor
  · intro h
    induction hlength : bytes.length using Nat.strong_induction_on generalizing bytes with
    | _ length ih =>
      cases bytes with
      | nil => exact ⟨[], rfl⟩
      | cons byte rest =>
        obtain ⟨code, after, hvalid, hbytes, hafter⟩ := utf8Checked_cons h
        have hshorter : after.length < length := by
          have hpositive := Char.utf8Size_pos (.ofNat code)
          have hsize : (unicode code).length = (Char.ofNat code).utf8Size := by
            rw [unicode_eq hvalid, String.length_utf8EncodeChar]
          rw [← hlength, hbytes, List.length_append]
          omega
        obtain ⟨text, rfl⟩ := ih after.length hshorter after hafter rfl
        refine ⟨.ofNat code :: text, ?_⟩
        rw [hbytes, unicode_eq hvalid, utf8_cons]
  · intro h
    obtain ⟨text, rfl⟩ := h
    exact utf8Checked_utf8 text

/-! ## Quoting -/

/-- A hexadecimal digit as `%x` writes it. -/
def hexDigit (n : Nat) : UInt8 := if n < 10 then .ofNat (48 + n) else .ofNat (87 + n)

/-- The table `escapes`: what is written for a byte that may not stand for
itself. -/
def escapes (byte : UInt8) : Option Bytes :=
  if byte = 34 then some (latin "\\\"".toList)
  else if byte = 92 then some (latin "\\\\".toList)
  else if byte = 8 then some (latin "\\b".toList)
  else if byte = 12 then some (latin "\\f".toList)
  else if byte = 10 then some (latin "\\n".toList)
  else if byte = 13 then some (latin "\\r".toList)
  else if byte = 9 then some (latin "\\t".toList)
  else if byte.toNat < 32 then
    some (latin "\\u00".toList ++
      [hexDigit (byte.toNat / 16), hexDigit (byte.toNat % 16)])
  else none

/-- The replacement of `quote`, which counts what it writes. -/
def gsub (remaining : Nat) : Nat → Bytes → Except Raised Bytes
  | _, [] => .ok []
  | size, byte :: rest =>
    match escapes byte with
    | none => (gsub remaining size rest).map (byte :: ·)
    | some escaped =>
      if remaining < size + escaped.length - 1 then .error .responseTooLarge
      else (gsub remaining (size + escaped.length - 1) rest).map (escaped ++ ·)

def quote (value : Bytes) (remaining : Nat) : Except Raised Bytes :=
  if remaining < value.length + 2 then .error .responseTooLarge
  else if utf8Checked 0 value = false then .error .invalidUtf8
  else (gsub remaining (value.length + 2) value).map fun body => 34 :: body ++ [34]

/-- How a byte is written inside a string. -/
def written (byte : UInt8) : Bytes := (escapes byte).getD [byte]

/-- A string as it is written. -/
def quoted (value : Bytes) : Bytes := 34 :: value.flatMap written ++ [34]

theorem length_escapes {byte : UInt8} {escaped : Bytes} (h : escapes byte = some escaped) :
    2 ≤ escaped.length := by
  unfold escapes at h
  split_ifs at h <;> cases h <;> exact Nat.le_add_left 2 _

theorem length_written_pos (byte : UInt8) : 1 ≤ (written byte).length := by
  unfold written
  cases h : escapes byte with
  | none => exact Nat.le_refl 1
  | some escaped =>
    have hlength := length_escapes h
    rw [Option.getD_some]
    omega

theorem length_le_flatMap_written (value : Bytes) :
    value.length ≤ (value.flatMap written).length := by
  induction value with
  | nil => exact Nat.le_refl 0
  | cons byte value ih =>
    have hbyte := length_written_pos byte
    rw [List.flatMap_cons, List.length_append, List.length_cons]
    omega

/-- The count is of what has been written so far and of what is left as if it
were written unchanged. -/
theorem gsub_eq (remaining : Nat) (value : Bytes) (done : Nat) :
    done + value.length ≤ remaining →
    gsub remaining (done + value.length) value =
      if remaining < done + (value.flatMap written).length then .error .responseTooLarge
      else .ok (value.flatMap written) := by
  induction value generalizing done with
  | nil =>
    intro h
    rw [gsub, List.flatMap_nil, if_neg (Nat.not_lt.mpr h)]
  | cons byte value ih =>
    intro h
    rw [List.length_cons] at h
    have hlength := length_le_flatMap_written value
    rw [gsub, List.flatMap_cons, List.length_append]
    cases hescapes : escapes byte with
    | none =>
      have hwritten : written byte = [byte] := by rw [written, hescapes, Option.getD_none]
      have hdone := ih (done + 1) (by omega)
      simp only
      rw [List.length_cons, show done + (value.length + 1) = done + 1 + value.length by omega,
        hdone, hwritten, List.length_singleton, Nat.add_assoc]
      split_ifs <;> rfl
    | some escaped =>
      have hwritten : written byte = escaped := by rw [written, hescapes, Option.getD_some]
      have hescaped := length_escapes hescapes
      simp only
      rw [List.length_cons, hwritten,
        show done + (value.length + 1) + escaped.length - 1 =
          done + escaped.length + value.length by omega]
      by_cases hlarge : remaining < done + escaped.length + value.length
      · rw [if_pos hlarge, if_pos (by omega)]
      · rw [if_neg hlarge, ih (done + escaped.length) (by omega), Nat.add_assoc]
        split_ifs <;> rfl

/-- What `quote` does: a string that is too long even unescaped is refused as
such, then one that is not UTF-8, then one whose escapes do not fit. -/
theorem quote_eq (value : Bytes) (remaining : Nat) :
    quote value remaining =
      if remaining < value.length + 2 then .error .responseTooLarge
      else if utf8Checked 0 value = false then .error .invalidUtf8
      else if remaining < (quoted value).length then .error .responseTooLarge
      else .ok (quoted value) := by
  have hlength : (quoted value).length = (value.flatMap written).length + 2 := by
    rw [quoted, List.length_append, List.length_cons, List.length_singleton]
  unfold quote
  by_cases hlong : remaining < value.length + 2
  · rw [if_pos hlong, if_pos hlong]
  rw [if_neg hlong, if_neg hlong]
  by_cases hutf8 : utf8Checked 0 value = false
  · rw [if_pos hutf8, if_pos hutf8]
  rw [if_neg hutf8, if_neg hutf8, Nat.add_comm, gsub_eq _ _ _ (by omega), hlength,
    Nat.add_comm 2]
  split_ifs <;> rfl

theorem quote_eq_ok {value text : Bytes} {remaining : Nat} :
    quote value remaining = .ok text ↔
      utf8Checked 0 value = true ∧ text = quoted value ∧ text.length ≤ remaining := by
  have hlength := length_le_flatMap_written value
  have hquoted : (quoted value).length = (value.flatMap written).length + 2 := by
    rw [quoted, List.length_append, List.length_cons, List.length_singleton]
  rw [quote_eq]
  constructor
  · intro h
    split_ifs at h with hlong hutf8 hlarge
    cases h
    exact ⟨by simpa using hutf8, rfl, Nat.not_lt.mp hlarge⟩
  · intro h
    obtain ⟨hutf8, rfl, hfits⟩ := h
    rw [if_neg (by omega), if_neg (by simp [hutf8]), if_neg (Nat.not_lt.mpr hfits)]

end DstServer.Runtime
