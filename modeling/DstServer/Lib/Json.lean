import DstServer.Lib.Text

/-!
# JSON values

`Json` is a value as `serde_json::Value` holds it: a number is its literal
text (`arbitrary_precision`), and the fields of an object are in strictly
increasing key order.

* `get` and `get?` look a field up, and the `as…` functions read a value at
  a type.
* `insertField` and `removeField` are the updates of an object that keep
  its order.
* `render` is the compact text of a value.
-/

namespace Lib

/-- A JSON value. -/
inductive Json where
  | null
  | bool (value : Bool)
  | number (literal : String)
  | string (value : String)
  | array (items : List Json)
  | object (fields : List (String × Json))

namespace Json

/-! ## Lookups -/

/-- `Value::get`. -/
def get? (value : Json) (key : String) : Option Json :=
  match value with
  | .object fields => fields.lookup key
  | _ => none

/-- `value[key]`, which is null when there is no such field. -/
def get (value : Json) (key : String) : Json := (value.get? key).getD .null

/-- `Value::is_object`. -/
def isObject (value : Json) : Bool := match value with
  | .object _ => true
  | _ => false

/-- `Value::as_object`. -/
def asObject? (value : Json) : Option (List (String × Json)) := match value with
  | .object fields => some fields
  | _ => none

/-- `Value::as_str`. -/
def asStr? (value : Json) : Option String := match value with
  | .string text => some text
  | _ => none

/-- The natural number that these decimal digits spell. -/
def digits? (text : List Char) : Option Nat :=
  if text ≠ [] ∧ text.all Char.isDigit = true then
    some (text.foldl (fun n c => 10 * n + (c.toNat - '0'.toNat)) 0)
  else none

/-- The first natural number that is no `u64`. -/
def u64Bound : Nat := 18446744073709551616

/-- The first natural number that is no `i64`. -/
def i64Bound : Nat := 9223372036854775808

/-- `Value::as_u64`. -/
def asU64? (value : Json) : Option Nat := match value with
  | .number literal => (digits? literal.toList).filter (· < u64Bound)
  | _ => none

/-- `Value::as_i64`. -/
def asI64? (value : Json) : Option Int := match value with
  | .number literal =>
    match literal.toList with
    | '-' :: rest => ((digits? rest).filter (· ≤ i64Bound)).map fun n => -(n : Int)
    | text => ((digits? text).filter (· < i64Bound)).map Int.ofNat
  | _ => none

/-- `value == text`. -/
def isStr (value : Json) (text : String) : Bool := value.asStr? = some text

/-- `value == n` for a machine integer. -/
def isInt (value : Json) (n : Int) : Bool := value.asI64? = some n

/-- `value == flag`. -/
def isBool (value : Json) (flag : Bool) : Bool := match value with
  | .bool found => found = flag
  | _ => false

/-- The number of a natural number. -/
def ofNat (n : Nat) : Json := .number (toString n)

mutual

/-- The number of values in a value. -/
def nodes : Json → Nat
  | .array items => 1 + nodesItems items
  | .object fields => 1 + nodesFields fields
  | _ => 1

def nodesItems : List Json → Nat
  | [] => 0
  | item :: rest => item.nodes + nodesItems rest

def nodesFields : List (String × Json) → Nat
  | [] => 0
  | (_, value) :: rest => value.nodes + nodesFields rest

end

mutual

/-- The number of values around the innermost one. -/
def depth : Json → Nat
  | .array items => depthItems items
  | .object fields => depthFields fields
  | _ => 0

def depthItems : List Json → Nat
  | [] => 0
  | item :: rest => max (item.depth + 1) (depthItems rest)

def depthFields : List (String × Json) → Nat
  | [] => 0
  | (_, value) :: rest => max (value.depth + 1) (depthFields rest)

end

/-! ## Updates of an object -/

/-- `Map::remove`. -/
def removeField (key : String) (fields : List (String × Json)) : List (String × Json) :=
  fields.filter fun field => field.1 ≠ key

/-- `Map::insert`. -/
def insertField (key : String) (value : Json) : List (String × Json) → List (String × Json)
  | [] => [(key, value)]
  | (other, found) :: rest =>
    if key < other then (key, value) :: (other, found) :: rest
    else if key = other then (key, value) :: rest
    else (other, found) :: insertField key value rest

/-- A field with the largest key is inserted at the end. -/
theorem insertField_append {before : List (String × Json)} {key : String} (value : Json)
    (h : ∀ field ∈ before, field.1 < key) :
    insertField key value before = before ++ [(key, value)] := by
  induction before with
  | nil => rfl
  | cons field rest ih =>
    have hkey := h field List.mem_cons_self
    have hrest := ih fun other hother => h other (List.mem_cons_of_mem _ hother)
    have hne : key ≠ field.1 := fun heq => String.lt_irrefl key (heq ▸ hkey)
    simp only [insertField, if_neg (String.lt_asymm hkey), if_neg hne, hrest,
      List.cons_append]

/-! ## Text -/

/-- A hexadecimal digit in lower case. -/
def hexDigit (n : Nat) : Char := if n < 10 then .ofNat (n + 48) else .ofNat (n + 87)

/-- The text of a character inside a string. -/
def escaped (c : Char) : List Char :=
  if c = '"' then ['\\', '"']
  else if c = '\\' then ['\\', '\\']
  else if c.toNat = 8 then ['\\', 'b']
  else if c.toNat = 12 then ['\\', 'f']
  else if c = '\n' then ['\\', 'n']
  else if c = '\r' then ['\\', 'r']
  else if c = '\t' then ['\\', 't']
  else if c.toNat < 32 then
    ['\\', 'u', '0', '0', hexDigit (c.toNat / 16), hexDigit (c.toNat % 16)]
  else [c]

def quoted (text : String) : List Char := '"' :: text.toList.flatMap escaped ++ ['"']

mutual

/-- The compact text of a value. -/
def chars : Json → List Char
  | .null => "null".toList
  | .bool value => (toString value).toList
  | .number literal => literal.toList
  | .string value => quoted value
  | .array items => '[' :: charsItems items ++ [']']
  | .object fields => '{' :: charsFields fields ++ ['}']

def charsItems : List Json → List Char
  | [] => []
  | [item] => item.chars
  | item :: rest => item.chars ++ ',' :: charsItems rest

def charsFields : List (String × Json) → List Char
  | [] => []
  | [(key, value)] => quoted key ++ ':' :: value.chars
  | (key, value) :: rest => quoted key ++ ':' :: value.chars ++ ',' :: charsFields rest

end

def render (value : Json) : String := .ofList value.chars

/-! ## The text has no control characters -/

theorem le_of_mem_escaped {c x : Char} (h : x ∈ escaped c) : 32 ≤ x.toNat := by
  have hfixed : ∀ d : Char, 32 ≤ d.toNat → x ∈ ['\\', d] → 32 ≤ x.toNat := by
    intro d hd hx
    simp only [List.mem_cons, List.not_mem_nil, or_false] at hx
    rcases hx with rfl | rfl
    · decide
    · exact hd
  have hhex : ∀ n, n < 16 → 32 ≤ (hexDigit n).toNat := by decide
  unfold escaped at h
  split_ifs at h with h₁ h₂ h₃ h₄ h₅ h₆ h₇ h₈
  · exact hfixed _ (by decide) h
  · exact hfixed _ (by decide) h
  · exact hfixed _ (by decide) h
  · exact hfixed _ (by decide) h
  · exact hfixed _ (by decide) h
  · exact hfixed _ (by decide) h
  · exact hfixed _ (by decide) h
  · simp only [List.mem_cons, List.not_mem_nil, or_false] at h
    rcases h with rfl | rfl | rfl | rfl | rfl | rfl
    · decide
    · decide
    · decide
    · decide
    · exact hhex _ (by omega)
    · exact hhex _ (by omega)
  · rw [List.mem_singleton] at h
    rw [h]
    omega

theorem le_of_mem_quoted {text : String} {x : Char} (h : x ∈ quoted text) : 32 ≤ x.toNat := by
  simp only [quoted, List.cons_append, List.mem_cons, List.mem_append, List.mem_flatMap,
    List.not_mem_nil, or_false] at h
  rcases h with rfl | ⟨c, _, hx⟩ | rfl
  · decide
  · exact le_of_mem_escaped hx
  · decide

/-- Fields with plain values have a plain text. -/
theorem le_of_mem_charsFields {fields : List (String × Json)}
    (hvalues : ∀ field ∈ fields, ∀ c ∈ field.2.chars, 32 ≤ c.toNat) {x : Char}
    (h : x ∈ charsFields fields) : 32 ≤ x.toNat := by
  induction fields with
  | nil => simp [charsFields] at h
  | cons field rest ih =>
    have hvalue := hvalues field List.mem_cons_self
    have hrest := ih fun f hf => hvalues f (List.mem_cons_of_mem _ hf)
    cases rest with
    | nil =>
      simp only [charsFields, List.mem_append, List.mem_cons] at h
      rcases h with h | rfl | h
      · exact le_of_mem_quoted h
      · decide
      · exact hvalue x h
    | cons next rest =>
      simp only [charsFields, List.mem_append, List.mem_cons] at h
      rcases h with (h | rfl | h) | rfl | h
      · exact le_of_mem_quoted h
      · decide
      · exact hvalue x h
      · decide
      · exact hrest h

/-! ## The size of the text -/

theorem utf8Length_escaped (c : Char) : Text.utf8Length (escaped c) ≤ 6 * c.utf8Size := by
  have hpos : 1 ≤ c.utf8Size := Char.utf8Size_pos c
  have hhex : ∀ n, n < 16 → (hexDigit n).utf8Size = 1 := by decide
  have htwo : ∀ d : Char, d.utf8Size = 1 → Text.utf8Length ['\\', d] ≤ 6 * c.utf8Size := by
    intro d hd
    have hslash : Char.utf8Size '\\' = 1 := by decide
    simp only [Text.utf8Length_cons, Text.utf8Length_nil, hd, hslash]
    omega
  unfold escaped
  split_ifs with h₁ h₂ h₃ h₄ h₅ h₆ h₇ h₈
  · exact htwo _ (by decide)
  · exact htwo _ (by decide)
  · exact htwo _ (by decide)
  · exact htwo _ (by decide)
  · exact htwo _ (by decide)
  · exact htwo _ (by decide)
  · exact htwo _ (by decide)
  · have hslash : Char.utf8Size '\\' = 1 := by decide
    have hu : Char.utf8Size 'u' = 1 := by decide
    have hzero : Char.utf8Size '0' = 1 := by decide
    simp only [Text.utf8Length_cons, Text.utf8Length_nil, hslash, hu, hzero,
      hhex _ (show c.toNat / 16 < 16 by omega), hhex _ (show c.toNat % 16 < 16 by omega)]
    omega
  · simp only [Text.utf8Length_cons, Text.utf8Length_nil]
    omega

theorem utf8Length_quoted (text : String) :
    Text.utf8Length (quoted text) ≤ 6 * Text.utf8Length text.toList + 2 := by
  have hbody : ∀ chars : List Char,
      Text.utf8Length (chars.flatMap escaped) ≤ 6 * Text.utf8Length chars := by
    intro chars
    induction chars with
    | nil => exact Nat.le_refl 0
    | cons c rest ih =>
      have hc := utf8Length_escaped c
      simp only [List.flatMap_cons, Text.utf8Length_append, Text.utf8Length_cons]
      omega
  have hquote : Char.utf8Size '"' = 1 := by decide
  have htext := hbody text.toList
  simp only [quoted, List.cons_append, Text.utf8Length_cons, Text.utf8Length_append,
    Text.utf8Length_nil, hquote]
  omega

/-- Each field of an object takes its name, its value and four more characters. -/
theorem utf8Length_charsFields (fields : List (String × Json)) :
    Text.utf8Length (charsFields fields) ≤
      (fields.map fun field => 6 * Text.utf8Length field.1.toList + 4 +
        Text.utf8Length field.2.chars).sum := by
  have hcolon : Char.utf8Size ':' = 1 := by decide
  have hcomma : Char.utf8Size ',' = 1 := by decide
  induction fields with
  | nil => exact Nat.le_refl 0
  | cons field rest ih =>
    have hname := utf8Length_quoted field.1
    cases rest with
    | nil =>
      simp only [charsFields, Text.utf8Length_append, Text.utf8Length_cons, List.map_cons,
        List.map_nil, List.sum_cons, List.sum_nil, hcolon]
      omega
    | cons next rest =>
      rw [List.map_cons, List.sum_cons]
      simp only [charsFields, Text.utf8Length_append, Text.utf8Length_cons, hcolon, hcomma]
      omega

/-! ## The text of a number -/

theorem chars_ofNat (n : Nat) : (ofNat n).chars = Text.decimal n := by
  simp [ofNat, chars, Text.decimal]

theorem digits?_decimal (n : Nat) : digits? (Text.decimal n) = some n := by
  have hall : (Text.decimal n).all Char.isDigit = true :=
    List.all_eq_true.2 fun c hc => Text.isDigit_of_mem_decimal hc
  rw [digits?, if_pos ⟨Text.decimal_ne_nil n, hall⟩, ← Nat.ofDigitChars_eq_foldl]
  exact congrArg some Nat.ofDigitChars_ten_toDigits

theorem asU64?_ofNat (n : Nat) : (ofNat n).asU64? = if n < u64Bound then some n else none := by
  have hdigits : digits? (toString n).toList = some n := by
    have hlist : (toString n).toList = Text.decimal n := by simp [Text.decimal]
    rw [hlist, digits?_decimal]
  show (digits? (toString n).toList).filter (· < u64Bound) = _
  rw [hdigits, Option.filter_some]
  simp

theorem isDigit_of_mem_ofNat {n : Nat} {x : Char} (h : x ∈ (ofNat n).chars) :
    x.isDigit = true := by
  refine Nat.isDigit_of_mem_toDigits (n := n) (by decide) (by decide) (b := 10) ?_
  simpa [ofNat, chars] using h

end Json

end Lib
