import DstServer.Lib.Text

/-!
# The bytes of a text

`utf8` is the UTF-8 encoding of a text, and `ascii` the text of a list of
bytes that are all below 128, character for character.

* `fromUTF8?_utf8` reads the encoding back as the text.
* `ascii_utf8` and `utf8_ascii` say that a text whose bytes are all below
  128 is determined by them.
-/

namespace Lib

/-- The UTF-8 bytes of a text. -/
def utf8 (text : Text) : List UInt8 := text.flatMap String.utf8EncodeChar

@[simp] theorem utf8_nil : utf8 [] = [] := rfl

@[simp] theorem utf8_cons (c : Char) (text : Text) :
    utf8 (c :: text) = String.utf8EncodeChar c ++ utf8 text := rfl

@[simp] theorem utf8_append (first second : Text) :
    utf8 (first ++ second) = utf8 first ++ utf8 second := List.flatMap_append

theorem utf8EncodeChar_ascii {c : Char} (h : c.toNat < 128) :
    String.utf8EncodeChar c = [UInt8.ofNat c.toNat] := by
  unfold String.utf8EncodeChar
  rw [if_pos (show c.val.toNat ≤ 0x7f from Nat.le_of_lt_succ h)]
  rfl

/-- The bytes of a character outside of ASCII are outside of ASCII. -/
theorem le_of_mem_utf8EncodeChar {c : Char} (h : 128 ≤ c.toNat) {byte : UInt8}
    (hbyte : byte ∈ String.utf8EncodeChar c) : 128 ≤ byte.toNat := by
  have hbound : ∀ n, 128 ≤ n % 256 → 128 ≤ (UInt8.ofNat n).toNat := by
    intro n hn
    rw [UInt8.toNat_ofNat']
    exact hn
  unfold String.utf8EncodeChar at hbyte
  rw [if_neg (show ¬c.val.toNat ≤ 0x7f from Nat.not_le_of_lt h)] at hbyte
  split_ifs at hbyte with htwo hthree
  · simp only [List.mem_cons, List.not_mem_nil, or_false] at hbyte
    rcases hbyte with rfl | rfl
    · exact hbound _ (by omega)
    · exact hbound _ (by omega)
  · simp only [List.mem_cons, List.not_mem_nil, or_false] at hbyte
    rcases hbyte with rfl | rfl | rfl
    · exact hbound _ (by omega)
    · exact hbound _ (by omega)
    · exact hbound _ (by omega)
  · simp only [List.mem_cons, List.not_mem_nil, or_false] at hbyte
    rcases hbyte with rfl | rfl | rfl | rfl
    · exact hbound _ (by omega)
    · exact hbound _ (by omega)
    · exact hbound _ (by omega)
    · exact hbound _ (by omega)

theorem fromUTF8?_utf8 (text : Text) :
    String.fromUTF8? (utf8 text).toByteArray = some (.ofList text) := by
  have hvalid : (utf8 text).toByteArray.IsValidUTF8 := ⟨text, rfl⟩
  unfold String.fromUTF8?
  rw [dif_pos hvalid]
  rfl

theorem utf8_toList (s : String) : (utf8 s.toList).toByteArray = s.toByteArray :=
  String.utf8Encode_toList

theorem toByteArray_inj {first second : List UInt8} :
    first.toByteArray = second.toByteArray ↔ first = second := by
  constructor
  · intro h
    have hlists := congrArg (fun bytes => bytes.data.toList) h
    simpa only [List.toList_data_toByteArray] using hlists
  · rintro rfl
    rfl

/-- The text is read from its encoding and from nothing else. -/
theorem fromUTF8?_eq_some {bytes : List UInt8} {s : String} :
    String.fromUTF8? bytes.toByteArray = some s ↔ bytes = utf8 s.toList := by
  constructor
  · intro h
    unfold String.fromUTF8? at h
    split at h
    · rename_i hvalid
      have hsame : String.fromUTF8 bytes.toByteArray hvalid = s := Option.some.inj h
      rw [← toByteArray_inj, utf8_toList, ← hsame]
      rfl
    · cases h
  · rintro rfl
    rw [fromUTF8?_utf8, String.ofList_toList]

theorem utf8_injective : Function.Injective utf8 := by
  intro first second h
  have hsame : some (String.ofList first) = some (String.ofList second) := by
    rw [← fromUTF8?_utf8, ← fromUTF8?_utf8, h]
  exact String.ofList_injective (Option.some.inj hsame)

/-! ## ASCII -/

/-- The characters of a list of ASCII bytes. -/
def ascii (bytes : List UInt8) : Text := bytes.map fun byte => .ofNat byte.toNat

@[simp] theorem ascii_cons (byte : UInt8) (bytes : List UInt8) :
    ascii (byte :: bytes) = .ofNat byte.toNat :: ascii bytes := rfl

theorem toNat_ofNat_byte (byte : UInt8) : (Char.ofNat byte.toNat).toNat = byte.toNat := by
  have hvalid : byte.toNat.isValidChar := by
    left
    have hbyte := byte.toNat_lt
    omega
  unfold Char.ofNat
  rw [dif_pos hvalid]
  rfl

theorem utf8_ascii {bytes : List UInt8} (h : ∀ byte ∈ bytes, byte.toNat < 128) :
    utf8 (ascii bytes) = bytes := by
  induction bytes with
  | nil => rfl
  | cons byte bytes ih =>
    have hchar : (Char.ofNat byte.toNat).toNat < 128 := by
      rw [toNat_ofNat_byte]
      exact h byte List.mem_cons_self
    rw [ascii_cons, utf8_cons, utf8EncodeChar_ascii hchar, toNat_ofNat_byte,
      ih fun other hother => h other (List.mem_cons_of_mem byte hother)]
    show UInt8.ofNat byte.toNat :: bytes = byte :: bytes
    rw [UInt8.ofNat_toNat]

/-- A text whose bytes are all ASCII has these bytes as its characters. -/
theorem ascii_utf8 {text : Text} (h : ∀ byte ∈ utf8 text, byte.toNat < 128) :
    ascii (utf8 text) = text := by
  induction text with
  | nil => rfl
  | cons c text ih =>
    rw [utf8_cons] at h ⊢
    have hrest := ih fun byte hbyte => h byte (List.mem_append_right _ hbyte)
    by_cases hascii : c.toNat < 128
    · have hbyte : (UInt8.ofNat c.toNat).toNat = c.toNat := by
        rw [UInt8.toNat_ofNat']
        omega
      rw [utf8EncodeChar_ascii hascii]
      show Char.ofNat (UInt8.ofNat c.toNat).toNat :: ascii (utf8 text) = c :: text
      rw [hbyte, hrest, Char.ofNat_toNat]
    · obtain ⟨byte, hbyte⟩ : ∃ byte, byte ∈ String.utf8EncodeChar c := by
        apply List.exists_mem_of_length_pos
        rw [String.length_utf8EncodeChar]
        exact Char.utf8Size_pos c
      have hhigh := le_of_mem_utf8EncodeChar (Nat.le_of_not_lt hascii) hbyte
      have hlow := h byte (List.mem_append_left _ hbyte)
      omega

/-- The bytes of a text in ASCII. -/
theorem utf8_of_ascii {text : Text} (h : ∀ c ∈ text, c.toNat < 128) :
    utf8 text = text.map fun c => UInt8.ofNat c.toNat := by
  induction text with
  | nil => rfl
  | cons c text ih =>
    rw [utf8_cons, utf8EncodeChar_ascii (h c List.mem_cons_self),
      ih fun other hother => h other (List.mem_cons_of_mem c hother)]
    rfl

theorem utf8Length_of_ascii {text : Text} (h : ∀ c ∈ text, c.toNat < 128) :
    Text.utf8Length text = text.length := by
  induction text with
  | nil => rfl
  | cons c text ih =>
    have hsize : c.utf8Size = 1 := by
      rw [← String.length_utf8EncodeChar, utf8EncodeChar_ascii (h c List.mem_cons_self)]
      rfl
    rw [Text.utf8Length_cons, hsize, ih fun other hother => h other (List.mem_cons_of_mem c hother),
      List.length_cons]
    omega

end Lib
