import DstServer.Lib.Radix
import DstServer.Lib.Utf8

/-!
# Klei IDs as directory names

The model of `encode_klei_id` and `decode_klei_id` of `native.rs`.  A Klei
ID is `KU_` and eight characters of an alphabet of sixty-four.  Its directory
name on a client is the same number, without the underscore, in twelve
characters of an alphabet of thirty-two.

* `KleiName` relates an ID with its directory name, without a computation.
* `encodeKleiId_eq_ok` and `decodeKleiId_eq_ok` say that the two functions
  compute this relation from its two sides.
* `klei_id_codec` is the bijection.
-/

namespace DstServer.Archive

open Lib Outcome Radix

/-! ## The functions -/

/-- `ALPHABET` -/
def alphabet : List UInt8 :=
  utf8 "0123456789ABCDEFGHIJKLMNOPQRSTUVWXYZabcdefghijklmnopqrstuvwxyz-_".toList

/-- `PATH_ALPHABET` -/
def pathAlphabet : List UInt8 := utf8 "0123456789ABCDEFGHIJKLMNOPQRSTUV".toList

/-- `bits = (bits << width) | value`, for the place `value` of each byte in
the alphabet. -/
def pack (letters : List UInt8) (width : UInt64) (message : String) :
    UInt64 → List UInt8 → Outcome String UInt64
  | bits, [] => .ok bits
  | bits, byte :: rest => do
    let value ← orError (letters.idxOf? byte) message
    pack letters width message ((bits <<< width) ||| value.toUInt64) rest

/-- `letters[((bits >> (index * width)) & mask) as usize] as char` -/
def unpackAt (letters : List UInt8) (width : Nat) (mask bits : UInt64) (index : Nat) :
    Outcome String Char := do
  let byte ← unwrap letters[((bits >>> (index * width).toUInt64) &&& mask).toNat]?
  pure (.ofNat byte.toNat)

def encodeKleiId (userid : Text) : Outcome String Text := do
  ensure ((utf8 userid).length = 11 ∧ "KU_".toList <+: userid)
    "Klei ID must match KU_[0-9A-Za-z_-] with eight ID characters"
  let bits ← pack alphabet 6 "invalid Klei ID character" 0 ((utf8 userid).eraseIdx 2)
  (List.range 12).reverse.mapM' (unpackAt pathAlphabet 5 31 bits)

def decodeKleiId (encoded : Text) : Outcome String Text := do
  ensure ((utf8 encoded).length = 12)
    "encoded Klei ID must contain 12 characters from 0-9 and A-V"
  let bits ← pack pathAlphabet 5 "encoded Klei ID must contain 12 characters from 0-9 and A-V" 0
    (utf8 encoded)
  let userid ← (List.range 10).reverse.mapM' (unpackAt alphabet 6 63 bits)
  ensure ("KU".toList <+: userid) "encoded path does not contain a Klei ID"
  pure (userid.insertIdx 2 '_')

/-! ## The alphabets -/

/-- The codes of the letters of `alphabet`. -/
def codes : List Nat :=
  [ 48, 49, 50, 51, 52, 53, 54, 55, 56, 57, 65, 66, 67, 68, 69, 70, 71, 72, 73, 74, 75, 76, 77,
    78, 79, 80, 81, 82, 83, 84, 85, 86, 87, 88, 89, 90, 97, 98, 99, 100, 101, 102, 103, 104,
    105, 106, 107, 108, 109, 110, 111, 112, 113, 114, 115, 116, 117, 118, 119, 120, 121, 122,
    45, 95]

/-- The codes of the letters of `pathAlphabet`. -/
def pathCodes : List Nat :=
  [ 48, 49, 50, 51, 52, 53, 54, 55, 56, 57, 65, 66, 67, 68, 69, 70, 71, 72, 73, 74, 75, 76, 77,
    78, 79, 80, 81, 82, 83, 84, 85, 86]

theorem alphabet_eq : alphabet = codes.map UInt8.ofNat := by
  have hletters : "0123456789ABCDEFGHIJKLMNOPQRSTUVWXYZabcdefghijklmnopqrstuvwxyz-_".toList =
      [ '0', '1', '2', '3', '4', '5', '6', '7', '8', '9', 'A', 'B', 'C', 'D', 'E', 'F', 'G',
      'H', 'I', 'J', 'K', 'L', 'M', 'N', 'O', 'P', 'Q', 'R', 'S', 'T', 'U', 'V', 'W', 'X',
      'Y', 'Z', 'a', 'b', 'c', 'd', 'e', 'f', 'g', 'h', 'i', 'j', 'k', 'l', 'm', 'n', 'o',
      'p', 'q', 'r', 's', 't', 'u', 'v', 'w', 'x', 'y', 'z', '-', '_'] := String.toList_ofList
  unfold alphabet
  rw [hletters]
  rfl

theorem pathAlphabet_eq : pathAlphabet = pathCodes.map UInt8.ofNat := by
  have hletters : "0123456789ABCDEFGHIJKLMNOPQRSTUV".toList =
      [ '0', '1', '2', '3', '4', '5', '6', '7', '8', '9', 'A', 'B', 'C', 'D', 'E', 'F', 'G',
      'H', 'I', 'J', 'K', 'L', 'M', 'N', 'O', 'P', 'Q', 'R', 'S', 'T', 'U', 'V'] := String.toList_ofList
  unfold pathAlphabet
  rw [hletters]
  rfl

theorem nodup_codes : codes.Nodup := by decide +kernel

theorem nodup_pathCodes : pathCodes.Nodup := by decide

theorem lt_codes : ∀ code ∈ codes, code < 128 := by decide

theorem lt_pathCodes : ∀ code ∈ pathCodes, code < 128 := by decide

theorem toNat_ofNat {code : Nat} (h : code < 128) : (UInt8.ofNat code).toNat = code :=
  UInt8.toNat_ofNat_of_lt (h.trans (by decide))

theorem nodup_bytes {codes : List Nat} (h : codes.Nodup) (hlt : ∀ code ∈ codes, code < 128) :
    (codes.map UInt8.ofNat).Nodup := by
  refine h.map_on ?_
  intro code hcode code' hcode' heq
  rw [← toNat_ofNat (hlt code hcode), heq, toNat_ofNat (hlt code' hcode')]

theorem ascii_bytes {codes : List Nat} (hlt : ∀ code ∈ codes, code < 128) :
    ∀ byte ∈ codes.map UInt8.ofNat, byte.toNat < 128 := by
  intro byte hbyte
  obtain ⟨code, hcode, rfl⟩ := List.mem_map.1 hbyte
  rw [toNat_ofNat (hlt code hcode)]
  exact hlt code hcode

theorem nodup_alphabet : alphabet.Nodup := by
  rw [alphabet_eq]
  exact nodup_bytes nodup_codes lt_codes

theorem nodup_pathAlphabet : pathAlphabet.Nodup := by
  rw [pathAlphabet_eq]
  exact nodup_bytes nodup_pathCodes lt_pathCodes

theorem length_alphabet : alphabet.length = 2 ^ 6 := by
  rw [alphabet_eq]
  rfl

theorem length_pathAlphabet : pathAlphabet.length = 2 ^ 5 := by
  rw [pathAlphabet_eq]
  rfl

theorem ascii_alphabet : ∀ byte ∈ alphabet, byte.toNat < 128 := by
  rw [alphabet_eq]
  exact ascii_bytes lt_codes

theorem ascii_pathAlphabet : ∀ byte ∈ pathAlphabet, byte.toNat < 128 := by
  rw [pathAlphabet_eq]
  exact ascii_bytes lt_pathCodes

/-! ## The loops -/

/-- The bytes are packed when all of them are letters, and then as the
digits that they spell. -/
theorem pack_eq_ok {letters : List UInt8} (width : Nat) (hnodup : letters.Nodup)
    {message : String} {bits result : UInt64} {bytes : List UInt8} :
    pack letters width.toUInt64 message bits bytes = .ok result ↔
      ∃ digits, Spelt letters bytes digits ∧ result = gather width bits digits := by
  induction bytes generalizing bits with
  | nil =>
    constructor
    · intro h
      exact ⟨[], .nil, (Except.ok.inj h).symm⟩
    · intro h
      obtain ⟨digits, hspelt, rfl⟩ := h
      cases hspelt
      rfl
  | cons byte bytes ih =>
    unfold pack
    rw [bind_eq_ok]
    constructor
    · intro h
      obtain ⟨value, hvalue, hrest⟩ := h
      rw [orError_eq_ok, idxOf?_eq_some hnodup] at hvalue
      obtain ⟨digits, hspelt, hresult⟩ := ih.1 hrest
      exact ⟨value :: digits, .cons hvalue hspelt, hresult⟩
    · intro h
      obtain ⟨digits, hspelt, hresult⟩ := h
      cases hspelt with
      | cons hdigit hspelt =>
        refine ⟨_, ?_, ih.2 ⟨_, hspelt, hresult⟩⟩
        rw [orError_eq_ok, idxOf?_eq_some hnodup]
        exact hdigit

/-- The digits that are unpacked are letters, so the indexing cannot fail. -/
theorem unpack_eq_ok {letters : List UInt8} (width : Nat) (hsmall : width < 64)
    (hlength : letters.length = 2 ^ width) (bits : UInt64) (count : Nat) :
    ∃ bytes, Spelt letters bytes (scatter width bits count) ∧
      (List.range count).reverse.mapM' (unpackAt letters width (2 ^ width - 1).toUInt64 bits) =
        .ok (ascii bytes) := by
  unfold scatter
  induction (List.range count).reverse with
  | nil => exact ⟨[], .nil, rfl⟩
  | cons index indices ih =>
    obtain ⟨bytes, hspelt, hrest⟩ := ih
    have hlt : digit width bits index < letters.length := by
      rw [hlength]
      exact digit_lt hsmall bits index
    have hbyte := List.getElem?_eq_getElem hlt
    refine ⟨_ :: bytes, .cons hbyte hspelt, ?_⟩
    have hfirst : unpackAt letters width (2 ^ width - 1).toUInt64 bits index =
        .ok (.ofNat (letters.get ⟨_, hlt⟩).toNat) := by
      show (unwrap letters[digit width bits index]? >>= fun byte : UInt8 =>
        pure (Char.ofNat byte.toNat)) = _
      rw [hbyte]
      rfl
    rw [List.mapM'_cons, hfirst, ok_bind, hrest]
    rfl

/-! ## IDs and directory names -/

/-- The ID and the directory name are spelt by digits of one number. -/
def KleiName (userid encoded : Text) : Prop :=
  ∃ rest bytes digits digits',
    userid = "KU_".toList ++ ascii rest ∧ encoded = ascii bytes ∧ digits.length = 10 ∧
      Spelt alphabet (utf8 "KU".toList ++ rest) digits ∧ Spelt pathAlphabet bytes digits' ∧
      Regrouped 6 5 digits digits'

theorem encodeKleiId_eq_ok {userid encoded : Text} :
    encodeKleiId userid = .ok encoded ↔ KleiName userid encoded := by
  have herase : ∀ rest, (utf8 ("KU_".toList ++ rest)).eraseIdx 2 = utf8 "KU".toList ++ utf8 rest :=
    fun rest => rfl
  have hlength : ∀ rest, (utf8 ("KU_".toList ++ rest)).length = (utf8 rest).length + 3 :=
    fun rest => rfl
  unfold encodeKleiId
  rw [bind_eq_ok]
  constructor
  · intro h
    obtain ⟨_, hform, h⟩ := h
    obtain ⟨hbytes, rest, rfl⟩ := ensure_eq_ok.1 hform
    obtain ⟨bits, hpack, h⟩ := bind_eq_ok.1 h
    obtain ⟨digits, hspelt, rfl⟩ := (pack_eq_ok 6 nodup_alphabet).1 hpack
    rw [herase] at hspelt
    rw [hlength] at hbytes
    have hcount : digits.length = 10 := by
      rw [← hspelt.length_eq, List.length_append]
      show 2 + (utf8 rest).length = 10
      omega
    have hascii : ascii (utf8 rest) = rest := ascii_utf8 fun byte hbyte =>
      ascii_alphabet byte (hspelt.mem (List.mem_append_right _ hbyte))
    obtain ⟨bytes, hbytes', hresult⟩ :=
      unpack_eq_ok 5 (by omega) length_pathAlphabet (gather 6 0 digits) 12
    refine ⟨utf8 rest, bytes, digits, _, ?_, ?_, hcount, hspelt, hbytes', ?_⟩
    · rw [hascii]
    · exact Except.ok.inj (h.symm.trans hresult)
    · apply regrouped_scatter (by omega) (by omega) (by omega) _ (by omega) (by omega)
      intro digit hdigit
      rw [← length_alphabet]
      exact hspelt.lt hdigit
  · intro h
    obtain ⟨rest, bytes, digits, digits', rfl, rfl, hcount, hspelt, hspelt', hregroup⟩ := h
    have hascii : utf8 (ascii rest) = rest := utf8_ascii fun byte hbyte =>
      ascii_alphabet byte (hspelt.mem (List.mem_append_right _ hbyte))
    have hrest : rest.length = 8 := by
      have hlen := hspelt.length_eq
      rw [List.length_append] at hlen
      change 2 + rest.length = _ at hlen
      omega
    refine ⟨(), ensure_eq_ok.2 ⟨?_, List.prefix_append _ _⟩, ?_⟩
    · rw [hlength, hascii, hrest]
    · rw [bind_eq_ok]
      refine ⟨gather 6 0 digits, (pack_eq_ok 6 nodup_alphabet).2 ⟨digits, ?_, rfl⟩, ?_⟩
      · rw [herase, hascii]
        exact hspelt
      · obtain ⟨other, hother, hresult⟩ :=
          unpack_eq_ok 5 (by omega) length_pathAlphabet (gather 6 0 digits) 12
        have hscatter : digits' = scatter 5 (gather 6 0 digits) 12 :=
          hregroup.right_unique (by omega)
            (regrouped_scatter (by omega) (by omega) (by omega) hregroup.lt (by omega) (by omega))
        rw [hscatter] at hspelt'
        rw [hspelt'.text_eq hother]
        exact hresult

theorem decodeKleiId_eq_ok {userid encoded : Text} :
    decodeKleiId encoded = .ok userid ↔ KleiName userid encoded := by
  unfold decodeKleiId
  rw [bind_eq_ok]
  constructor
  · intro h
    obtain ⟨_, hform, h⟩ := h
    obtain ⟨bits, hpack, h⟩ := bind_eq_ok.1 h
    obtain ⟨digits', hspelt', rfl⟩ := (pack_eq_ok 5 nodup_pathAlphabet).1 hpack
    have hcount : digits'.length = 12 := by
      rw [← hspelt'.length_eq]
      exact ensure_eq_ok.1 hform
    have hascii : ascii (utf8 encoded) = encoded := ascii_utf8 fun byte hbyte =>
      ascii_pathAlphabet byte (hspelt'.mem hbyte)
    obtain ⟨text, hspelt, hresult⟩ :=
      unpack_eq_ok 6 (by omega) length_alphabet (gather 5 0 digits') 10
    obtain ⟨_, hunpack, h⟩ := bind_eq_ok.1 h
    cases Except.ok.inj (hunpack.symm.trans hresult)
    obtain ⟨_, hpre, h⟩ := bind_eq_ok.1 h
    obtain ⟨rest, hrest⟩ := ensure_eq_ok.1 hpre
    have hregroup : Regrouped 5 6 digits' (scatter 6 (gather 5 0 digits') 10) := by
      apply regrouped_scatter (by omega) (by omega) (by omega) _ (by omega) (by omega)
      intro digit hdigit
      rw [← length_pathAlphabet]
      exact hspelt'.lt hdigit
    have htext : text = utf8 "KU".toList ++ utf8 rest := by
      rw [← utf8_append, hrest, utf8_ascii fun byte hbyte => ascii_alphabet byte (hspelt.mem hbyte)]
    refine ⟨utf8 rest, utf8 encoded, _, digits', ?_, hascii.symm, ?_, ?_, hspelt', hregroup.symm⟩
    · have hrest' : ascii (utf8 rest) = rest := ascii_utf8 fun byte hbyte => by
        apply ascii_alphabet byte (hspelt.mem _)
        rw [htext]
        exact List.mem_append_right _ hbyte
      rw [hrest', ← Except.ok.inj h, ← hrest]
      rfl
    · have hlength := hregroup.length
      omega
    · rw [← htext]
      exact hspelt
  · intro h
    obtain ⟨rest, bytes, digits, digits', rfl, rfl, hcount, hspelt, hspelt', hregroup⟩ := h
    have hascii : utf8 (ascii bytes) = bytes := utf8_ascii fun byte hbyte =>
      ascii_pathAlphabet byte (hspelt'.mem hbyte)
    have hcount' : digits'.length = 12 := by
      have hlength := hregroup.length
      omega
    refine ⟨(), ensure_eq_ok.2 ?_, ?_⟩
    · rw [hascii, hspelt'.length_eq, hcount']
    · rw [bind_eq_ok]
      refine ⟨gather 5 0 digits',
        (pack_eq_ok 5 nodup_pathAlphabet).2 ⟨digits', ?_, rfl⟩, ?_⟩
      · rw [hascii]
        exact hspelt'
      · obtain ⟨other, hother, hresult⟩ :=
          unpack_eq_ok 6 (by omega) length_alphabet (gather 5 0 digits') 10
        have hscatter : digits = scatter 6 (gather 5 0 digits') 10 :=
          hregroup.symm.right_unique (by omega)
            (regrouped_scatter (by omega) (by omega) (by omega) hregroup.lt' (by omega) (by omega))
        rw [hscatter] at hspelt
        rw [bind_eq_ok]
        refine ⟨_, hresult, ?_⟩
        rw [← hspelt.text_eq hother]
        rfl

/-! ## The bijection -/

/-- `KU_` and eight characters of the alphabet. -/
def Admitted (userid : Text) : Prop :=
  ∃ rest, userid = "KU_".toList ++ rest ∧ rest.length = 8 ∧ ∀ c ∈ rest, c ∈ ascii alphabet

/-- The admitted IDs are those that have a directory name. -/
theorem exists_kleiName_iff {userid : Text} :
    (∃ encoded, KleiName userid encoded) ↔ Admitted userid := by
  constructor
  · intro h
    obtain ⟨encoded, rest, bytes, digits, digits', rfl, rfl, hcount, hspelt, -, -⟩ := h
    refine ⟨ascii rest, rfl, ?_, ?_⟩
    · have hlength := hspelt.length_eq
      rw [List.length_append] at hlength
      change 2 + rest.length = _ at hlength
      unfold ascii
      rw [List.length_map]
      omega
    · intro c hc
      obtain ⟨byte, hbyte, rfl⟩ := List.mem_map.1 hc
      exact List.mem_map_of_mem (hspelt.mem (List.mem_append_right _ hbyte))
  · intro h
    obtain ⟨text, rfl, hlength, hmem⟩ := h
    -- The characters are letters, so the bytes of the text are letters as well.
    obtain ⟨rest, rfl, hrest⟩ : ∃ rest, text = ascii rest ∧ ∀ byte ∈ rest, byte ∈ alphabet := by
      clear hlength
      induction text with
      | nil => exact ⟨[], rfl, by simp⟩
      | cons c text ih =>
        obtain ⟨rest, rfl, hrest⟩ := ih fun other hother => hmem other (List.mem_cons_of_mem c hother)
        obtain ⟨byte, hbyte, rfl⟩ := List.mem_map.1 (hmem c List.mem_cons_self)
        exact ⟨byte :: rest, rfl, List.forall_mem_cons.2 ⟨hbyte, hrest⟩⟩
    have hletters : ∀ byte ∈ utf8 "KU".toList ++ rest, byte ∈ alphabet := by
      intro byte hbyte
      rcases List.mem_append.1 hbyte with hbyte | hbyte
      · have hpre : ∀ byte ∈ utf8 "KU".toList, byte ∈ alphabet := by decide +kernel
        exact hpre byte hbyte
      · exact hrest byte hbyte
    obtain ⟨digits, hspelt⟩ := spelt_of_mem hletters
    have hcount : digits.length = 10 := by
      unfold ascii at hlength
      rw [List.length_map] at hlength
      rw [← hspelt.length_eq, List.length_append, hlength]
      rfl
    have hlt : ∀ digit ∈ digits, digit < 2 ^ 6 := by
      intro digit hdigit
      rw [← length_alphabet]
      exact hspelt.lt hdigit
    have hregroup : Regrouped 6 5 digits (scatter 5 (gather 6 0 digits) 12) :=
      regrouped_scatter (by omega) (by omega) (by omega) hlt (by omega) (by omega)
    obtain ⟨bytes, hbytes⟩ := spelt_of_lt fun digit hdigit => by
      rw [length_pathAlphabet]
      exact hregroup.lt' digit hdigit
    exact ⟨ascii bytes, rest, bytes, digits, _, rfl, rfl, hcount, hspelt, hbytes, hregroup⟩

/-- An ID has one directory name, and a directory name has one ID. -/
theorem KleiName.userid_eq {userid userid' encoded : Text} (h : KleiName userid encoded)
    (h' : KleiName userid' encoded) : userid = userid' :=
  Except.ok.inj ((decodeKleiId_eq_ok.2 h).symm.trans (decodeKleiId_eq_ok.2 h'))

/-- The letters of directory names differ by more than their case. -/
theorem toLower_pathAlphabet : ∀ byte ∈ pathAlphabet, ∀ byte' ∈ pathAlphabet,
    (Char.ofNat byte.toNat).toLower = (Char.ofNat byte'.toNat).toLower → byte = byte' := by
  have hnodup : (pathCodes.map fun code => (Char.ofNat code).toLower.toNat).Nodup := by decide
  intro byte hbyte byte' hbyte' heq
  rw [pathAlphabet_eq] at hbyte hbyte'
  obtain ⟨code, hcode, rfl⟩ := List.mem_map.1 hbyte
  obtain ⟨code', hcode', rfl⟩ := List.mem_map.1 hbyte'
  rw [toNat_ofNat (lt_pathCodes code hcode), toNat_ofNat (lt_pathCodes code' hcode')] at heq
  rw [List.inj_on_of_nodup_map hnodup hcode hcode' (congrArg Char.toNat heq)]

theorem KleiName.encoded_eq {userid userid' encoded encoded' : Text} (h : KleiName userid encoded)
    (h' : KleiName userid' encoded') (hcase : encoded.map Char.toLower = encoded'.map Char.toLower) :
    encoded = encoded' := by
  obtain ⟨-, bytes, -, digits, -, rfl, -, -, hspelt, -⟩ := h
  obtain ⟨-, bytes', -, digits', -, rfl, -, -, hspelt', -⟩ := h'
  have hmem : ∀ byte ∈ bytes, byte ∈ pathAlphabet := fun byte => hspelt.mem
  have hmem' : ∀ byte ∈ bytes', byte ∈ pathAlphabet := fun byte => hspelt'.mem
  clear hspelt hspelt'
  unfold ascii at hcase ⊢
  rw [List.map_map, List.map_map] at hcase
  congr 1
  induction bytes generalizing bytes' with
  | nil => exact (List.map_eq_nil_iff.1 hcase.symm).symm
  | cons byte bytes ih =>
    cases bytes' with
    | nil => cases hcase
    | cons byte' bytes' =>
      obtain ⟨hbyte, hrest⟩ := List.cons.inj hcase
      rw [toLower_pathAlphabet byte (hmem byte List.mem_cons_self) byte'
        (hmem' byte' List.mem_cons_self) hbyte,
        ih bytes' hrest (fun other hother => hmem other (List.mem_cons_of_mem _ hother))
          fun other hother => hmem' other (List.mem_cons_of_mem _ hother)]

/-- The two functions are inverse to each other between the admitted IDs and
the directory names, and names that differ in case only belong to one ID. -/
theorem klei_id_codec :
    (∀ userid, (∃ encoded, encodeKleiId userid = .ok encoded) ↔ Admitted userid) ∧
      (∀ userid encoded, encodeKleiId userid = .ok encoded ↔ decodeKleiId encoded = .ok userid) ∧
      ∀ userid userid' encoded encoded', encodeKleiId userid = .ok encoded →
        encodeKleiId userid' = .ok encoded' → userid ≠ userid' →
        encoded.map Char.toLower ≠ encoded'.map Char.toLower := by
  refine ⟨?_, ?_, ?_⟩
  · intro userid
    rw [← exists_kleiName_iff]
    exact exists_congr fun encoded => encodeKleiId_eq_ok
  · intro userid encoded
    rw [encodeKleiId_eq_ok, decodeKleiId_eq_ok]
  · intro userid userid' encoded encoded' h h' hne hcase
    rw [encodeKleiId_eq_ok] at h h'
    rw [← h.encoded_eq h' hcase] at h'
    exact hne (h.userid_eq h')

theorem klei_id_codec_sample :
    encodeKleiId "KU_ABCDEFGH".toList = .ok "A7H8MC6JHT0H".toList ∧
      decodeKleiId "A7H8MC6JHT0H".toList = .ok "KU_ABCDEFGH".toList ∧
      "A7H8MC6JHT0H".toList.map Char.toLower ≠ "A7KIB6JQ56LB".toList.map Char.toLower := by
  have hfirst : encodeKleiId "KU_ABCDEFGH".toList = .ok "A7H8MC6JHT0H".toList := by decide +kernel
  have hsecond : encodeKleiId "KU_abcdefgh".toList = .ok "A7KIB6JQ56LB".toList := by decide +kernel
  exact ⟨hfirst, (klei_id_codec.2.1 _ _).1 hfirst,
    klei_id_codec.2.2 _ _ _ _ hfirst hsecond (by decide)⟩

end DstServer.Archive
