import DstServer.Lib.Utf8

/-!
# The text of JSON

The grammar of JSON over bytes, for numbers of any type.  It says which
bytes spell a value and gives no reader: white space and escapes may be
chosen freely, so a value has many spellings.

* `Numeral`, `Characters` and `Literal` are the numbers and the strings.  A
  string literal stands for bytes that are UTF-8.
* `Listed` is a list between commas, for entries of any kind.
* `Spells depth text value`: the text spells the value, which nests at most
  `depth` containers, itself included.  No object names a key twice.
* `Spells.mono` raises the depth, and `Spells.opens` says that a spelling
  begins with a byte that is neither white space nor a closing bracket.
-/

namespace Lib.JsonText

variable {ν α : Type}

/-- A value of JSON, with the keys of an object in the order of the text. -/
inductive Value (ν : Type) where
  | null
  | bool (value : Bool)
  | number (value : ν)
  | string (value : List UInt8)
  | array (items : List (Value ν))
  | object (entries : List (List UInt8 × Value ν))

/-! ## White space and numbers -/

def isBlank (byte : UInt8) : Bool := byte == 32 || byte == 9 || byte == 13 || byte == 10

/-- White space. -/
def Blank (text : List UInt8) : Prop := text.all isBlank = true

def isDigit (byte : UInt8) : Bool := decide (48 ≤ byte.toNat) && decide (byte.toNat ≤ 57)

def Digits (text : List UInt8) : Prop := text ≠ [] ∧ text.all isDigit = true

/-- The digits before the point, which begin with a zero only as zero. -/
def Whole (text : List UInt8) : Prop := text = [48] ∨ Digits text ∧ text.head? ≠ some 48

def Fraction (text : List UInt8) : Prop := text = [] ∨ ∃ digits, Digits digits ∧ text = 46 :: digits

/-- An exponent, after `e` or `E`. -/
def Exponent (text : List UInt8) : Prop :=
  text = [] ∨ ∃ mark sign digits, (mark = 101 ∨ mark = 69) ∧
    (sign = [] ∨ sign = [43] ∨ sign = [45]) ∧ Digits digits ∧ text = mark :: (sign ++ digits)

/-- The text of a number. -/
def Numeral (text : List UInt8) : Prop :=
  ∃ minus whole fraction exponent, (minus = [] ∨ minus = [45]) ∧ Whole whole ∧
    Fraction fraction ∧ Exponent exponent ∧ text = minus ++ (whole ++ (fraction ++ exponent))

/-! ## Strings -/

/-- The escapes of one character. -/
def simpleEscape (byte : UInt8) : Option UInt8 :=
  if byte = 34 then some 34
  else if byte = 92 then some 92
  else if byte = 47 then some 47
  else if byte = 98 then some 8
  else if byte = 102 then some 12
  else if byte = 110 then some 10
  else if byte = 114 then some 13
  else if byte = 116 then some 9
  else none

def hexValue (byte : UInt8) : Option Nat :=
  let n := byte.toNat
  if 48 ≤ n ∧ n ≤ 57 then some (n - 48)
  else if 97 ≤ n ∧ n ≤ 102 then some (n - 87)
  else if 65 ≤ n ∧ n ≤ 70 then some (n - 55)
  else none

/-- The number of four hexadecimal digits. -/
def hexNumber : List UInt8 → Option Nat
  | [first, second, third, fourth] => do
    let a ← hexValue first
    let b ← hexValue second
    let c ← hexValue third
    let d ← hexValue fourth
    pure (((a * 16 + b) * 16 + c) * 16 + d)
  | _ => none

/-- The first of two surrogates. -/
abbrev IsHigh (code : Nat) : Prop := 55296 ≤ code ∧ code ≤ 56319

/-- The second of two surrogates. -/
abbrev IsLow (code : Nat) : Prop := 56320 ≤ code ∧ code ≤ 57343

/-- The number that two surrogates stand for. -/
def surrogatePair (high low : Nat) : Nat := 65536 + (high - 55296) * 1024 + (low - 56320)

/-- The UTF-8 bytes of the character with a number. -/
def character (code : Nat) : List UInt8 := String.utf8EncodeChar (.ofNat code)

/-- The text between the quotes of a string, and the bytes it stands for. -/
inductive Characters : List UInt8 → List UInt8 → Prop
  | nil : Characters [] []
  | plain {byte : UInt8} {text value : List UInt8} (h : 32 ≤ byte.toNat) (hquote : byte ≠ 34)
      (hescape : byte ≠ 92) (rest : Characters text value) :
      Characters (byte :: text) (byte :: value)
  | escape {mark byte : UInt8} {text value : List UInt8} (h : simpleEscape mark = some byte)
      (rest : Characters text value) : Characters (92 :: mark :: text) (byte :: value)
  | unicode {digits text value : List UInt8} {code : Nat} (h : hexNumber digits = some code)
      (hhigh : ¬IsHigh code) (hlow : ¬IsLow code) (rest : Characters text value) :
      Characters (92 :: 117 :: (digits ++ text)) (character code ++ value)
  | surrogates {digits digits' text value : List UInt8} {high low : Nat}
      (h : hexNumber digits = some high) (h' : hexNumber digits' = some low) (hhigh : IsHigh high)
      (hlow : IsLow low) (rest : Characters text value) :
      Characters (92 :: 117 :: (digits ++ 92 :: 117 :: (digits' ++ text)))
        (character (surrogatePair high low) ++ value)

/-- A string literal and its value, which is UTF-8. -/
def Literal (text value : List UInt8) : Prop :=
  ∃ body, text = 34 :: (body ++ [34]) ∧ Characters body value ∧
    ∃ characters, value = utf8 characters

/-! ## Lists -/

/-- Entries between commas, one at least. -/
inductive Separated (entry : List UInt8 → α → Prop) : List UInt8 → List α → Prop
  | one {before text after : List UInt8} {x : α} (hbefore : Blank before) (h : entry text x)
      (hafter : Blank after) : Separated entry (before ++ (text ++ after)) [x]
  | cons {before text after rest : List UInt8} {x : α} {xs : List α} (hbefore : Blank before)
      (h : entry text x) (hafter : Blank after) (hrest : Separated entry rest xs) :
      Separated entry (before ++ (text ++ (after ++ 44 :: rest))) (x :: xs)

/-- The text between the brackets of a container. -/
def Listed (entry : List UInt8 → α → Prop) (text : List UInt8) (xs : List α) : Prop :=
  Blank text ∧ xs = [] ∨ Separated entry text xs

/-- A key with its value. -/
def Member (spells : List UInt8 → α → Prop) (text : List UInt8) (entry : List UInt8 × α) : Prop :=
  ∃ name between after body, Literal name entry.1 ∧ Blank between ∧ Blank after ∧
    spells body entry.2 ∧ text = name ++ (between ++ 58 :: (after ++ body))

/-! ## Values -/

/-- The text spells the value, for the numbers that `reads` gives to numerals. -/
def Spells (reads : List UInt8 → Option ν) : Nat → List UInt8 → Value ν → Prop
  | 0, _, _ => False
  | _ + 1, text, .null => text = [110, 117, 108, 108]
  | _ + 1, text, .bool true => text = [116, 114, 117, 101]
  | _ + 1, text, .bool false => text = [102, 97, 108, 115, 101]
  | _ + 1, text, .number value => Numeral text ∧ reads text = some value
  | _ + 1, text, .string value => Literal text value
  | depth + 1, text, .array items =>
    ∃ body, text = 91 :: (body ++ [93]) ∧ Listed (Spells reads depth) body items
  | depth + 1, text, .object entries =>
    ∃ body, text = 123 :: (body ++ [125]) ∧ Listed (Member (Spells reads depth)) body entries ∧
      (entries.map Prod.fst).Nodup

/-- A whole document, with white space around the value. -/
def Document (reads : List UInt8 → Option ν) (depth : Nat) (text : List UInt8) (value : Value ν) :
    Prop :=
  ∃ before body after, Blank before ∧ Spells reads depth body value ∧ Blank after ∧
    text = before ++ (body ++ after)

section Mono

variable {entry entry' : List UInt8 → α → Prop}

theorem Separated.mono (h : ∀ text x, entry text x → entry' text x) {text : List UInt8}
    {xs : List α} (hlist : Separated entry text xs) : Separated entry' text xs := by
  induction hlist with
  | one hbefore hentry hafter => exact .one hbefore (h _ _ hentry) hafter
  | cons hbefore hentry hafter _ ih => exact .cons hbefore (h _ _ hentry) hafter ih

theorem Listed.mono (h : ∀ text x, entry text x → entry' text x) {text : List UInt8}
    {xs : List α} (hlist : Listed entry text xs) : Listed entry' text xs :=
  hlist.imp id (Separated.mono h)

theorem Member.mono (h : ∀ text x, entry text x → entry' text x) (text : List UInt8)
    (pair : List UInt8 × α) (hmember : Member entry text pair) : Member entry' text pair := by
  obtain ⟨name, between, after, body, hname, hbetween, hafter, hbody, htext⟩ := hmember
  exact ⟨name, between, after, body, hname, hbetween, hafter, h _ _ hbody, htext⟩

end Mono

variable {reads : List UInt8 → Option ν}

/-- A value may nest less deeply than is allowed. -/
theorem Spells.succ {depth : Nat} {text : List UInt8} {value : Value ν}
    (h : Spells reads depth text value) : Spells reads (depth + 1) text value := by
  induction depth generalizing text value with
  | zero => exact absurd h id
  | succ depth ih =>
    have hinner : ∀ text value, Spells reads depth text value →
        Spells reads (depth + 1) text value := fun _ _ => ih
    cases value with
    | null => exact h
    | bool value => cases value <;> exact h
    | number value => exact h
    | string value => exact h
    | array items =>
      obtain ⟨body, htext, hitems⟩ := h
      exact ⟨body, htext, hitems.mono hinner⟩
    | object entries =>
      obtain ⟨body, htext, hentries, hkeys⟩ := h
      exact ⟨body, htext, hentries.mono (Member.mono hinner), hkeys⟩

theorem Spells.mono {depth depth' : Nat} (hdepth : depth ≤ depth') {text : List UInt8}
    {value : Value ν} (h : Spells reads depth text value) : Spells reads depth' text value := by
  induction hdepth with
  | refl => exact h
  | step _ ih => exact ih.succ

/-! ## The first byte of a spelling -/

/-- The byte is neither white space nor a closing bracket. -/
def isOpening (byte : UInt8) : Bool := !isBlank byte && byte != 93 && byte != 125

/-- The text begins with such a byte. -/
def Opens (text : List UInt8) : Prop := ∃ byte rest, text = byte :: rest ∧ isOpening byte = true

theorem isOpening_of_isDigit {byte : UInt8} (h : isDigit byte = true) : isOpening byte = true := by
  have hother : ∀ other : UInt8, isDigit other = false → byte ≠ other := by
    rintro other hother rfl
    rw [h] at hother
    cases hother
  simp only [isOpening, isBlank, Bool.and_eq_true, Bool.not_eq_true', Bool.or_eq_false_iff,
    beq_eq_false_iff_ne, bne_iff_ne]
  exact ⟨⟨⟨⟨⟨hother 32 rfl, hother 9 rfl⟩, hother 13 rfl⟩, hother 10 rfl⟩, hother 93 rfl⟩,
    hother 125 rfl⟩

theorem Digits.exists_cons {text : List UInt8} (h : Digits text) :
    ∃ byte rest, text = byte :: rest ∧ isDigit byte = true := by
  obtain ⟨hnonempty, hdigits⟩ := h
  cases text with
  | nil => exact absurd rfl hnonempty
  | cons byte rest => exact ⟨byte, rest, rfl, List.all_eq_true.mp hdigits byte List.mem_cons_self⟩

/-- A number begins with a minus sign or a digit. -/
theorem Numeral.exists_cons {text : List UInt8} (h : Numeral text) :
    ∃ byte rest, text = byte :: rest ∧ (byte = 45 ∨ isDigit byte = true) := by
  obtain ⟨minus, whole, fraction, exponent, hminus, hwhole, _, _, rfl⟩ := h
  rcases hminus with rfl | rfl
  · rcases hwhole with rfl | ⟨hdigits, _⟩
    · exact ⟨48, _, rfl, .inr rfl⟩
    · obtain ⟨byte, rest, rfl, hbyte⟩ := hdigits.exists_cons
      exact ⟨byte, _, rfl, .inr hbyte⟩
  · exact ⟨45, _, rfl, .inl rfl⟩

theorem Literal.opens {text value : List UInt8} (h : Literal text value) : Opens text := by
  obtain ⟨body, rfl, _⟩ := h
  exact ⟨34, _, rfl, rfl⟩

theorem Spells.opens {depth : Nat} {text : List UInt8} {value : Value ν}
    (h : Spells reads depth text value) : Opens text := by
  cases depth with
  | zero => exact absurd h id
  | succ depth =>
    cases value with
    | null => exact ⟨110, _, h, rfl⟩
    | bool value =>
      cases value with
      | false => exact ⟨102, _, h, rfl⟩
      | true => exact ⟨116, _, h, rfl⟩
    | number value =>
      obtain ⟨byte, rest, rfl, hbyte⟩ := h.1.exists_cons
      refine ⟨byte, rest, rfl, ?_⟩
      rcases hbyte with rfl | hdigit
      · rfl
      · exact isOpening_of_isDigit hdigit
    | string value => exact Literal.opens h
    | array items =>
      obtain ⟨body, rfl, _⟩ := h
      exact ⟨91, _, rfl, rfl⟩
    | object entries =>
      obtain ⟨body, rfl, _⟩ := h
      exact ⟨123, _, rfl, rfl⟩

theorem Member.opens {spells : List UInt8 → α → Prop} {text : List UInt8}
    {entry : List UInt8 × α} (h : Member spells text entry) : Opens text := by
  obtain ⟨name, between, after, body, hname, _, _, _, rfl⟩ := h
  obtain ⟨byte, rest, rfl, hbyte⟩ := hname.opens
  exact ⟨byte, _, rfl, hbyte⟩

end Lib.JsonText
