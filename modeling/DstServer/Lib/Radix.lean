import DstServer.Lib.Outcome

/-!
# Numbers in a word, in digits of a fixed width

A machine word holds the digits of a number when the number of digits times
their width fits.  `gather` shifts digits into a word, the most significant
one first, and `digit` takes one out again.

* `Spelt` relates a text over an alphabet with the digits its letters stand
  for; in an alphabet without repetition each determines the other.
* `Regrouped` relates two lists of digits of one number, in two widths and
  with the same number of bits; each determines the other.
* `toNat_gather` and `number_digits` say what the two operations do to the
  number that the word holds.
-/

namespace Lib.Radix

/-! ## Letters and their values -/

section Letters

variable {α : Type} {letters text : List α} {digits : List Nat}

/-- Each letter of the text stands at the place in the alphabet that its
digit names. -/
def Spelt (letters text : List α) (digits : List Nat) : Prop :=
  List.Forall₂ (fun letter digit => letters[digit]? = some letter) text digits

theorem Spelt.length_eq (h : Spelt letters text digits) : text.length = digits.length :=
  List.Forall₂.length_eq h

theorem Spelt.lt (h : Spelt letters text digits) {digit : Nat} (hdigit : digit ∈ digits) :
    digit < letters.length := by
  obtain ⟨letter, _, hletter⟩ := exists_mem_left h hdigit
  exact (List.getElem?_eq_some_iff.1 hletter).1

theorem Spelt.mem (h : Spelt letters text digits) {letter : α} (hletter : letter ∈ text) :
    letter ∈ letters := by
  obtain ⟨digit, _, hdigit⟩ := exists_mem_right h hletter
  exact List.mem_of_getElem? hdigit

/-- The digits determine the text. -/
theorem Spelt.text_eq (h : Spelt letters text digits) {text' : List α}
    (h' : Spelt letters text' digits) : text = text' := by
  induction h generalizing text' with
  | nil =>
    cases h'
    rfl
  | cons hdigit _ ih =>
    cases h' with
    | cons hdigit' h' =>
      rw [ih h', Option.some.inj (hdigit.symm.trans hdigit')]

/-- Every text over the alphabet is spelt by some digits. -/
theorem spelt_of_mem (h : ∀ letter ∈ text, letter ∈ letters) :
    ∃ digits, Spelt letters text digits := by
  induction text with
  | nil => exact ⟨[], .nil⟩
  | cons letter text ih =>
    obtain ⟨digits, hdigits⟩ := ih fun other hother => h other (List.mem_cons_of_mem _ hother)
    obtain ⟨digit, hdigit⟩ := List.mem_iff_getElem?.1 (h letter List.mem_cons_self)
    exact ⟨digit :: digits, .cons hdigit hdigits⟩

/-- All digits below the size of the alphabet spell some text. -/
theorem spelt_of_lt (h : ∀ digit ∈ digits, digit < letters.length) :
    ∃ text, Spelt letters text digits := by
  induction digits with
  | nil => exact ⟨[], .nil⟩
  | cons digit digits ih =>
    obtain ⟨text, htext⟩ := ih fun other hother => h other (List.mem_cons_of_mem _ hother)
    have hdigit := List.getElem?_eq_getElem (h digit List.mem_cons_self)
    exact ⟨letters.get ⟨digit, h digit List.mem_cons_self⟩ :: text, .cons hdigit htext⟩

theorem idxOf?_eq_some [DecidableEq α] (hnodup : letters.Nodup) {letter : α} {digit : Nat} :
    letters.idxOf? letter = some digit ↔ letters[digit]? = some letter := by
  rw [List.idxOf?_eq_some_iff]
  constructor
  · intro h
    obtain ⟨hlt, heq, _⟩ := h
    rw [List.getElem?_eq_getElem hlt, heq]
  · intro h
    obtain ⟨hlt, heq⟩ := List.getElem?_eq_some_iff.1 h
    refine ⟨hlt, heq, fun earlier hearlier hsame => ?_⟩
    have hindex : earlier = digit := (List.getElem?_inj (hearlier.trans hlt) hnodup).1 (by
      rw [List.getElem?_eq_getElem (hearlier.trans hlt), List.getElem?_eq_getElem hlt, hsame, heq])
    omega

end Letters

/-! ## The number of a list of digits -/

/-- The number with these digits, the most significant one first. -/
def number (width : Nat) (digits : List Nat) : Nat := Nat.ofDigits (2 ^ width) digits.reverse

theorem number_concat (width : Nat) (digits : List Nat) (digit : Nat) :
    number width (digits ++ [digit]) = number width digits * 2 ^ width + digit := by
  unfold number
  rw [List.reverse_append, List.reverse_singleton, List.singleton_append, Nat.ofDigits_cons,
    Nat.mul_comm, Nat.add_comm]

theorem number_lt {width : Nat} (hwidth : 0 < width) {digits : List Nat}
    (h : ∀ digit ∈ digits, digit < 2 ^ width) :
    number width digits < 2 ^ (width * digits.length) := by
  have hlt := Nat.ofDigits_lt_base_pow_length (Nat.one_lt_two_pow (Nat.ne_of_gt hwidth))
    (l := digits.reverse) fun digit hdigit => h digit (List.mem_reverse.1 hdigit)
  rwa [List.length_reverse, ← Nat.pow_mul] at hlt

theorem number_inj {width : Nat} (hwidth : 0 < width) {digits digits' : List Nat}
    (hlength : digits.length = digits'.length) (h : ∀ digit ∈ digits, digit < 2 ^ width)
    (h' : ∀ digit ∈ digits', digit < 2 ^ width)
    (hnumber : number width digits = number width digits') : digits = digits' := by
  apply List.reverse_injective
  refine Nat.ofDigits_inj_of_len_eq (Nat.one_lt_two_pow (Nat.ne_of_gt hwidth)) ?_ ?_ ?_ hnumber
  · rw [List.length_reverse, List.length_reverse, hlength]
  · exact fun digit hdigit => h digit (List.mem_reverse.1 hdigit)
  · exact fun digit hdigit => h' digit (List.mem_reverse.1 hdigit)

/-! ## Two widths -/

/-- Digits of two widths that write one number in the same number of bits. -/
structure Regrouped (width width' : Nat) (digits digits' : List Nat) : Prop where
  lt : ∀ digit ∈ digits, digit < 2 ^ width
  lt' : ∀ digit ∈ digits', digit < 2 ^ width'
  length : width * digits.length = width' * digits'.length
  number : number width digits = Radix.number width' digits'

variable {width width' : Nat} {digits digits' : List Nat}

theorem Regrouped.symm (h : Regrouped width width' digits digits') :
    Regrouped width' width digits' digits :=
  ⟨h.lt', h.lt, h.length.symm, h.number.symm⟩

/-- One side determines the other. -/
theorem Regrouped.right_unique (hwidth : 0 < width') (h : Regrouped width width' digits digits')
    {other : List Nat} (hother : Regrouped width width' digits other) : digits' = other :=
  number_inj hwidth (Nat.eq_of_mul_eq_mul_left hwidth (h.length.symm.trans hother.length)) h.lt'
    hother.lt' (h.number.symm.trans hother.number)

/-! ## Words -/

/-- One more digit at the low end of a word. -/
def shiftIn (width : Nat) (bits : UInt64) (digit : Nat) : UInt64 :=
  (bits <<< width.toUInt64) ||| digit.toUInt64

theorem toNat_shiftIn {bits : UInt64} {digit : Nat} (hwidth : width < 64)
    (hbits : bits.toNat * 2 ^ width < 2 ^ 64) (hdigit : digit < 2 ^ width) :
    (shiftIn width bits digit).toNat = bits.toNat * 2 ^ width + digit := by
  have hpow : 2 ^ width < 2 ^ 64 := Nat.pow_lt_pow_right (by omega) hwidth
  have hshift : (width.toUInt64.toNat) % 64 = width := by
    rw [UInt64.toNat_ofNat']
    omega
  have hvalue : digit.toUInt64.toNat = digit := by
    rw [UInt64.toNat_ofNat']
    omega
  unfold shiftIn
  rw [UInt64.toNat_or, UInt64.toNat_shiftLeft, hshift, hvalue, Nat.shiftLeft_eq,
    Nat.mod_eq_of_lt hbits, ← Nat.shiftLeft_eq, ← Nat.shiftLeft_add_eq_or_of_lt hdigit]

/-- Shift the digits into the word, from the left to the right. -/
def gather (width : Nat) (bits : UInt64) (digits : List Nat) : UInt64 :=
  digits.foldl (shiftIn width) bits

/-- A word that holds the digits so far holds all of them afterwards. -/
theorem toNat_gather {bits : UInt64} (before : List Nat) (hwidth : 0 < width) (hsmall : width < 64)
    (hbits : bits.toNat = number width before) (hlt : ∀ digit ∈ before ++ digits, digit < 2 ^ width)
    (hfits : width * (before ++ digits).length ≤ 64) :
    (gather width bits digits).toNat = number width (before ++ digits) := by
  induction digits generalizing bits before with
  | nil =>
    rw [List.append_nil]
    exact hbits
  | cons digit digits ih =>
    have hsplit : before ++ digit :: digits = before ++ [digit] ++ digits := by simp
    rw [hsplit] at hlt hfits ⊢
    apply ih (before ++ [digit]) _ hlt hfits
    have hbefore := number_lt hwidth fun d hd =>
      hlt d (List.mem_append_left _ (List.mem_append_left _ hd))
    have hroom : bits.toNat * 2 ^ width < 2 ^ 64 := by
      have hlength : width * before.length + width ≤ 64 := by
        simp only [List.length_append, List.length_singleton, Nat.mul_add] at hfits
        omega
      rw [hbits]
      calc number width before * 2 ^ width
          < 2 ^ (width * before.length) * 2 ^ width :=
            Nat.mul_lt_mul_of_pos_right hbefore (Nat.two_pow_pos width)
        _ = 2 ^ (width * before.length + width) := (Nat.pow_add _ _ _).symm
        _ ≤ 2 ^ 64 := Nat.pow_le_pow_right (by omega) hlength
    rw [toNat_shiftIn hsmall hroom (hlt digit (by simp)), hbits, number_concat]

/-- One digit of the word, counted from the low end. -/
def digit (width : Nat) (bits : UInt64) (index : Nat) : Nat :=
  ((bits >>> (index * width).toUInt64) &&& (2 ^ width - 1).toUInt64).toNat

theorem digit_eq {bits : UInt64} {index : Nat} (hsmall : width < 64) (hindex : index * width < 64) :
    digit width bits index = bits.toNat / (2 ^ width) ^ index % 2 ^ width := by
  have hpow : 2 ^ width < 2 ^ 64 := Nat.pow_lt_pow_right (by omega) hsmall
  have hshift : (index * width).toUInt64.toNat % 64 = index * width := by
    rw [UInt64.toNat_ofNat']
    omega
  have hmask : (2 ^ width - 1).toUInt64.toNat = 2 ^ width - 1 := by
    rw [UInt64.toNat_ofNat']
    omega
  unfold digit
  rw [UInt64.toNat_and, UInt64.toNat_shiftRight, hshift, hmask, Nat.and_two_pow_sub_one_eq_mod,
    Nat.shiftRight_eq_div_pow, ← Nat.pow_mul, Nat.mul_comm width]

theorem digit_lt (hsmall : width < 64) (bits : UInt64) (index : Nat) :
    digit width bits index < 2 ^ width := by
  have hpow : 2 ^ width < 2 ^ 64 := Nat.pow_lt_pow_right (by omega) hsmall
  have hmask : (2 ^ width - 1).toUInt64.toNat = 2 ^ width - 1 := by
    rw [UInt64.toNat_ofNat']
    omega
  unfold digit
  rw [UInt64.toNat_and, hmask, Nat.and_two_pow_sub_one_eq_mod]
  exact Nat.mod_lt _ (Nat.two_pow_pos width)

/-- The digits of the word, the most significant one first. -/
def scatter (width : Nat) (bits : UInt64) (count : Nat) : List Nat :=
  (List.range count).reverse.map (digit width bits)

theorem ofDigits_range (b n count : Nat) :
    Nat.ofDigits b ((List.range count).map fun index => n / b ^ index % b) = n % b ^ count := by
  induction count with
  | zero =>
    show 0 = n % b ^ 0
    rw [Nat.pow_zero, Nat.mod_one]
  | succ count ih =>
    rw [List.range_succ, List.map_append, List.map_singleton, Nat.ofDigits_append, ih,
      Nat.ofDigits_singleton, List.length_map, List.length_range, Nat.mod_pow_succ]

theorem number_scatter {bits : UInt64} {count : Nat} (hsmall : width < 64)
    (hfits : width * count ≤ 64) :
    number width (scatter width bits count) = bits.toNat % 2 ^ (width * count) := by
  have hdigits : (List.range count).map (digit width bits) =
      (List.range count).map fun index => bits.toNat / (2 ^ width) ^ index % 2 ^ width := by
    apply List.map_congr_left
    intro index hindex
    apply digit_eq hsmall
    have hlt : index + 1 ≤ count := List.mem_range.1 hindex
    have hmul : (index + 1) * width ≤ count * width := Nat.mul_le_mul_right width hlt
    have hswap : count * width = width * count := Nat.mul_comm count width
    rw [Nat.add_mul] at hmul
    by_cases hzero : width = 0
    · rw [hzero]
      omega
    · omega
  unfold number scatter
  rw [List.map_reverse, List.reverse_reverse, hdigits, ofDigits_range, Nat.pow_mul]

/-- Digits shifted into a word and taken out in another width. -/
theorem regrouped_scatter {count : Nat} (hwidth : 0 < width) (hsmall : width < 64)
    (hsmall' : width' < 64) (hlt : ∀ digit ∈ digits, digit < 2 ^ width)
    (hlength : width * digits.length = width' * count) (hfits : width' * count ≤ 64) :
    Regrouped width width' digits (scatter width' (gather width 0 digits) count) where
  lt := hlt
  lt' := by
    intro d hd
    obtain ⟨index, _, rfl⟩ := List.mem_map.1 hd
    exact digit_lt hsmall' _ _
  length := by
    unfold scatter
    rw [List.length_map, List.length_reverse, List.length_range, hlength]
  number := by
    have hgather : (gather width 0 digits).toNat = number width digits :=
      toNat_gather [] hwidth hsmall rfl hlt (by rw [List.nil_append]; omega)
    rw [number_scatter hsmall' hfits, hgather, ← hlength, Nat.mod_eq_of_lt (number_lt hwidth hlt)]

end Lib.Radix
