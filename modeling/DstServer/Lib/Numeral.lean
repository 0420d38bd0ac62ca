import DstServer.Lib.Json

/-!
# The values of decimal numerals

`Numeral.value?` is the exact value of a numeral in the grammar of JSON, or
nothing for any other text.  Two spellings of a number have one value.

`Json.Valid` says that the numbers of a value are numerals and that the keys
of its objects increase, and `Json.Same` that two values differ in the
spelling of numbers at most.
-/

namespace Lib

namespace Numeral

/-- The number that these digits spell. -/
def digits (text : List Char) : Nat :=
  text.foldl (fun n c => 10 * n + (c.toNat - '0'.toNat)) 0

/-- The exponent of a numeral, which may be absent. -/
def exponent? : List Char → Option Int
  | [] => some 0
  | mark :: rest =>
    if mark = 'e' ∨ mark = 'E' then
      match rest with
      | '+' :: text => (Json.digits? text).map Int.ofNat
      | '-' :: text => (Json.digits? text).map fun n => -(n : Int)
      | text => (Json.digits? text).map Int.ofNat
    else none

/-- The value of a numeral with no sign. -/
def magnitude? (text : List Char) : Option ℚ :=
  let whole := text.takeWhile Char.isDigit
  if whole = [] ∨ (whole.head? = some '0' ∧ whole ≠ ['0']) then none
  else match text.dropWhile Char.isDigit with
    | '.' :: tail =>
      let fraction := tail.takeWhile Char.isDigit
      if fraction = [] then none
      else (exponent? (tail.dropWhile Char.isDigit)).map fun exponent : Int =>
        (digits (whole ++ fraction) : ℚ) * 10 ^ (exponent - fraction.length)
    | tail => (exponent? tail).map fun exponent : Int => (digits whole : ℚ) * 10 ^ exponent

/-- The value of a numeral. -/
def value? : List Char → Option ℚ
  | '-' :: text => (magnitude? text).map Neg.neg
  | text => magnitude? text

/-! ## Integers -/

/-- A numeral of digits alone spells their number. -/
theorem magnitude?_digits {text : List Char} {n : Nat} {value : ℚ}
    (hdigits : Json.digits? text = some n) (hvalue : magnitude? text = some value) :
    value = n := by
  unfold Json.digits? at hdigits
  split at hdigits
  · rename_i hall
    cases hdigits
    have hwhole : text.takeWhile Char.isDigit = text :=
      List.takeWhile_eq_self_iff.2 (List.all_eq_true.1 hall.2)
    have htail : text.dropWhile Char.isDigit = [] :=
      List.dropWhile_eq_nil_iff.2 (List.all_eq_true.1 hall.2)
    simp only [magnitude?, hwhole, htail] at hvalue
    split at hvalue
    · cases hvalue
    · simp only [exponent?, Option.map_some, zpow_zero, mul_one, Option.some.injEq] at hvalue
      exact hvalue.symm
  · cases hdigits

theorem digits_ne_minus {text : List Char} {n : Nat} (h : Json.digits? text = some n) :
    text.head? ≠ some '-' := by
  unfold Json.digits? at h
  split at h
  · rename_i hall
    cases text with
    | nil => simp
    | cons c rest =>
      intro hc
      rw [List.head?_cons, Option.some.injEq] at hc
      have hdigit := List.all_eq_true.1 hall.2 c List.mem_cons_self
      rw [hc] at hdigit
      exact absurd hdigit (by decide)
  · cases h

theorem value?_of_ne_minus {text : List Char} (h : text.head? ≠ some '-') :
    value? text = magnitude? text := by
  unfold value?
  split
  · exact absurd rfl h
  · rfl

/-- What a signed integer is read from has its value. -/
theorem value?_asI64 {literal : String} {n : Int} {value : ℚ}
    (hint : (Json.number literal).asI64? = some n) (hvalue : value? literal.toList = some value) :
    value = n := by
  simp only [Json.asI64?] at hint
  split at hint
  · rename_i rest hliteral
    rw [hliteral, value?, Option.map_eq_some_iff] at hvalue
    obtain ⟨magnitude, hmagnitude, rfl⟩ := hvalue
    obtain ⟨m, hm, rfl⟩ := Option.map_eq_some_iff.1 hint
    obtain ⟨k, hk, hcast⟩ := Option.bind_eq_some_iff.1 hm
    cases hcast
    rw [Option.filter_eq_some_iff] at hk
    rw [magnitude?_digits hk.1 hmagnitude]
    push_cast
    rfl
  · obtain ⟨m, hm, rfl⟩ := Option.map_eq_some_iff.1 hint
    rw [Option.filter_eq_some_iff] at hm
    rw [value?_of_ne_minus (digits_ne_minus hm.1)] at hvalue
    exact (magnitude?_digits hm.1 hvalue).trans rfl

theorem value?_asU64 {literal : String} {n : Nat} {value : ℚ}
    (hint : (Json.number literal).asU64? = some n) (hvalue : value? literal.toList = some value) :
    value = n := by
  simp only [Json.asU64?, Option.filter_eq_some_iff] at hint
  rw [value?_of_ne_minus (digits_ne_minus hint.1)] at hvalue
  exact magnitude?_digits hint.1 hvalue

/-- Only the numeral of zero begins with a zero. -/
theorem head?_decimal (n : Nat) (h : (Text.decimal n).head? = some '0') : n = 0 := by
  induction n using Nat.strongRecOn with
  | ind n ih =>
    by_cases hlt : n < 10
    · have hzero : ∀ m < 10, m.digitChar = '0' → m = 0 := by decide
      rw [Text.decimal, Nat.toDigits_of_lt_base hlt] at h
      exact hzero n hlt (Option.some.inj h)
    · rw [Text.decimal, Nat.toDigits_of_base_le (by decide) (by omega),
        List.head?_append_of_ne_nil _ Nat.toDigits_ne_nil] at h
      have hquotient := ih (n / 10) (by omega) h
      omega

/-- The numeral of a natural number. -/
theorem magnitude?_decimal (n : Nat) : magnitude? (Text.decimal n) = some (n : ℚ) := by
  have hall : ∀ c ∈ Text.decimal n, c.isDigit = true := fun _ => Text.isDigit_of_mem_decimal
  have hwhole : (Text.decimal n).takeWhile Char.isDigit = Text.decimal n :=
    List.takeWhile_eq_self_iff.2 hall
  have htail : (Text.decimal n).dropWhile Char.isDigit = [] := List.dropWhile_eq_nil_iff.2 hall
  have hvalue : digits (Text.decimal n) = n := by
    rw [digits, ← Nat.ofDigitChars_eq_foldl]
    exact Nat.ofDigitChars_ten_toDigits
  have hplain : ¬(Text.decimal n = [] ∨
      ((Text.decimal n).head? = some '0' ∧ Text.decimal n ≠ ['0'])) := by
    rintro (hnil | ⟨hzero, hother⟩)
    · exact Text.decimal_ne_nil n hnil
    · rw [head?_decimal n hzero] at hother
      exact hother (Nat.toDigits_zero 10)
  simp only [magnitude?, hwhole, htail, if_neg hplain, exponent?, Option.map_some, hvalue,
    zpow_zero, mul_one]

theorem value?_toString_nat (n : Nat) : value? (toString n).toList = some (n : ℚ) := by
  have hlist : (toString n).toList = Text.decimal n := by simp [Text.decimal]
  have hminus : (Text.decimal n).head? ≠ some '-' := by
    intro hhead
    have hmem := List.mem_of_head? hhead
    exact absurd (Text.isDigit_of_mem_decimal hmem) (by decide)
  rw [hlist, value?_of_ne_minus hminus, magnitude?_decimal]

theorem value?_toString_int (n : Int) : value? (toString n).toList = some (n : ℚ) := by
  cases n with
  | ofNat m =>
    have htext : toString (Int.ofNat m) = toString m := rfl
    rw [htext, value?_toString_nat]
    rfl
  | negSucc m =>
    have htext : (toString (Int.negSucc m)).toList = '-' :: Text.decimal (m + 1) := by
      show (("-" : String) ++ toString (m + 1)).toList = _
      simp [Text.decimal]
    rw [htext, value?, magnitude?_decimal, Option.map_some, Int.cast_negSucc]

/-! ## Spelling -/

/-- Digits that do not begin with a zero are the decimal text of their
number. -/
theorem decimal_digits {text : List Char} (hall : ∀ c ∈ text, c.isDigit = true) (hne : text ≠ [])
    (hzero : text.head? ≠ some '0') :
    0 < digits text ∧ Text.decimal (digits text) = text := by
  have hdigit : ∀ c : Char, c.isDigit = true →
      ∃ d < 10, c = d.digitChar ∧ c.toNat - '0'.toNat = d := by
    intro c hc
    simp only [Char.isDigit, Bool.and_eq_true, decide_eq_true_eq] at hc
    have hlow : 48 ≤ c.toNat := hc.1
    have hhigh : c.toNat ≤ 57 := hc.2
    have hchar : ∀ d < 10, (Char.ofNat (48 + d)) = d.digitChar := by decide
    refine ⟨c.toNat - 48, by omega, ?_, rfl⟩
    rw [← hchar _ (by omega), Nat.add_sub_cancel' hlow, Char.ofNat_toNat]
  induction text using List.reverseRecOn with
  | nil => exact absurd rfl hne
  | append_singleton text c ih =>
    obtain ⟨d, hd, rfl, hvalue⟩ := hdigit c (hall c (by simp))
    have hstep : digits (text ++ [d.digitChar]) = 10 * digits text + d := by
      rw [digits, List.foldl_append]
      show 10 * digits text + (d.digitChar.toNat - '0'.toNat) = _
      rw [hvalue]
    cases text with
    | nil =>
      have hpos : d ≠ 0 := by
        rintro rfl
        exact hzero rfl
      rw [hstep]
      show 0 < 10 * 0 + d ∧ Text.decimal (10 * 0 + d) = [d.digitChar]
      rw [Nat.mul_zero, Nat.zero_add]
      exact ⟨Nat.pos_of_ne_zero hpos, Nat.toDigits_of_lt_base hd⟩
    | cons first rest =>
      obtain ⟨hpos, htext⟩ := ih (fun c hc => hall c (List.mem_append_left _ hc)) (by simp) hzero
      rw [hstep]
      refine ⟨by omega, ?_⟩
      rw [Text.decimal, ← Nat.toDigits_append_toDigits (by decide) hpos hd,
        Nat.toDigits_of_lt_base hd]
      exact congrArg (· ++ [d.digitChar]) htext

/-- A numeral without a fraction and an exponent is the decimal text of its
number. -/
theorem decimal_of_magnitude? {text : List Char} {n : Nat} (hdigits : Json.digits? text = some n)
    (hnumeral : (magnitude? text).isSome = true) : Text.decimal n = text := by
  unfold Json.digits? at hdigits
  split at hdigits
  · rename_i hall
    cases hdigits
    have hdigit : ∀ c ∈ text, c.isDigit = true := List.all_eq_true.1 hall.2
    have hwhole : text.takeWhile Char.isDigit = text := List.takeWhile_eq_self_iff.2 hdigit
    by_cases hzero : text.head? = some '0'
    · have htext : text = ['0'] := by
        by_contra hother
        simp only [magnitude?, hwhole] at hnumeral
        rw [if_pos (Or.inr ⟨hzero, hother⟩)] at hnumeral
        exact nomatch hnumeral
      rw [htext]
      decide
    · exact (decimal_digits hdigit hall.1 hzero).2
  · cases hdigits

/-- The characters of numerals. -/
def IsNumeralChar (c : Char) : Prop := c.isDigit = true ∨ c ∈ ['.', 'e', 'E', '+', '-']

theorem isDigit_of_digits? {text : List Char} (h : (Json.digits? text).isSome = true) :
    ∀ c ∈ text, c.isDigit = true := by
  unfold Json.digits? at h
  split at h
  · rename_i hall
    exact List.all_eq_true.1 hall.2
  · exact nomatch h

theorem mem_of_exponent? {text : List Char} (h : (exponent? text).isSome = true) :
    ∀ c ∈ text, IsNumeralChar c := by
  unfold exponent? at h
  split at h
  · intro c hc
    simp at hc
  · rename_i mark rest
    split at h
    · rename_i hmark
      have hmark' : IsNumeralChar mark := by
        rcases hmark with rfl | rfl
        · exact Or.inr (by decide)
        · exact Or.inr (by decide)
      have hrest : ∀ c ∈ rest, IsNumeralChar c := by
        split at h
        · have hdigits := isDigit_of_digits? (Option.isSome_map.symm.trans h)
          intro c hc
          rcases List.mem_cons.1 hc with rfl | hc
          · exact Or.inr (by decide)
          · exact Or.inl (hdigits c hc)
        · rename_i text
          have hsome : (Json.digits? text).isSome = true := by
            cases hdigits : Json.digits? text with
            | none =>
              rw [hdigits] at h
              exact nomatch h
            | some n => rfl
          have hdigits := isDigit_of_digits? hsome
          intro c hc
          rcases List.mem_cons.1 hc with rfl | hc
          · exact Or.inr (by decide)
          · exact Or.inl (hdigits c hc)
        · have hdigits := isDigit_of_digits? (Option.isSome_map.symm.trans h)
          intro c hc
          exact Or.inl (hdigits c hc)
      intro c hc
      rcases List.mem_cons.1 hc with rfl | hc
      · exact hmark'
      · exact hrest c hc
    · exact nomatch h

/-- A numeral without a sign begins with digits, and a fraction or an
exponent may follow. -/
theorem mem_of_magnitude? {text : List Char} (h : (magnitude? text).isSome = true) :
    ∀ c ∈ text, IsNumeralChar c := by
  have hsplit := List.takeWhile_append_dropWhile (p := Char.isDigit) (l := text)
  have htail : ∀ c ∈ text.dropWhile Char.isDigit, IsNumeralChar c := by
    simp only [magnitude?] at h
    split at h
    · exact nomatch h
    split at h
    · rename_i tail hdrop
      split at h
      · exact nomatch h
      rw [Option.isSome_map] at h
      have hexponent := mem_of_exponent? h
      have hfraction := List.takeWhile_append_dropWhile (p := Char.isDigit) (l := tail)
      intro c hc
      rw [hdrop] at hc
      rcases List.mem_cons.1 hc with rfl | hc
      · exact Or.inr (by decide)
      rw [← hfraction] at hc
      rcases List.mem_append.1 hc with hc | hc
      · exact Or.inl (List.mem_takeWhile_imp hc)
      · exact hexponent c hc
    · rw [Option.isSome_map] at h
      exact mem_of_exponent? h
  intro c hc
  rw [← hsplit] at hc
  rcases List.mem_append.1 hc with hc | hc
  · exact Or.inl (List.mem_takeWhile_imp hc)
  · exact htail c hc

/-- The second character of a numeral that begins with a zero. -/
theorem magnitude?_zero_cons {mark : Char} {rest : List Char}
    (h : (magnitude? ('0' :: mark :: rest)).isSome = true) :
    mark = '.' ∨ mark = 'e' ∨ mark = 'E' := by
  have hzero : Char.isDigit '0' = true := by decide
  by_cases hmark : mark.isDigit = true
  · simp only [magnitude?, List.takeWhile_cons, hzero, hmark, if_true] at h
    simp at h
  · simp only [magnitude?, List.takeWhile_cons, List.dropWhile_cons, hzero, if_true,
      if_neg hmark] at h
    split at h
    · exact nomatch h
    split at h
    · rename_i tail hdrop
      cases hdrop
      exact Or.inl rfl
    · rw [Option.isSome_map] at h
      simp only [exponent?] at h
      split at h
      · rename_i heq
        exact Or.inr heq
      · exact nomatch h

end Numeral

namespace Json

mutual

/-- The numbers are numerals, and the keys of each object increase. -/
def Valid : Json → Prop
  | .number literal => (Numeral.value? literal.toList).isSome = true
  | .array items => ValidItems items
  | .object fields => (fields.map Prod.fst).Pairwise (· < ·) ∧ ValidFields fields
  | _ => True

def ValidItems : List Json → Prop
  | [] => True
  | item :: rest => item.Valid ∧ ValidItems rest

def ValidFields : List (String × Json) → Prop
  | [] => True
  | (_, value) :: rest => value.Valid ∧ ValidFields rest

end

/-- The values are equal but for the spelling of their numbers. -/
inductive Same : Json → Json → Prop
  | null : Same .null .null
  | bool (value : Bool) : Same (.bool value) (.bool value)
  | number {first second : String} {value : ℚ}
      (hfirst : Numeral.value? first.toList = some value)
      (hsecond : Numeral.value? second.toList = some value) :
      Same (.number first) (.number second)
  | string (value : String) : Same (.string value) (.string value)
  | array {items others : List Json} (h : List.Forall₂ Same items others) :
      Same (.array items) (.array others)
  | object {fields others : List (String × Json)}
      (hkeys : fields.map Prod.fst = others.map Prod.fst)
      (h : List.Forall₂ Same (fields.map Prod.snd) (others.map Prod.snd)) :
      Same (.object fields) (.object others)

end Json

end Lib
