import DstServer.Lib.Numeral
import DstServer.Lib.Outcome

/-!
# The codec of RPC values

A value goes over the wire as a tree of native fields (`Wire`).  Both ends
keep a budget of bytes: what each value, text and list takes of it is its
size on the wire, so that neither end can be made to hold more than a
message.

The framing is that of Cap'n Proto: the tree that was built is the tree that
is read.  What `serde_json` does with floating-point and decimal numbers is
a parameter (`Numbers`).
-/

namespace DstServer.Rpc

open Lib Outcome

/-! ## Errors and numbers -/

inductive ErrorCode where
  | invalid
  | notReady
  | busy
  | unsupported
  | notFound
  | conflict
  | partialFailure
  | unknown
  | transport
  | timeout
  | overflow
  | staleReference
  | lua
  | protocol
  | internal
  deriving DecidableEq, Repr

structure Error where
  code : ErrorCode
  message : String
  details : Json := .null

/-- `serde_json::Number`, as far as the codec uses it. -/
structure Numbers where
  Float : Type
  /-- `Number::as_f64`. -/
  asF64 : String → Option Float
  /-- `Number::from_f64`. -/
  fromF64 : Float → Option String
  /-- `str::parse::<Number>`. -/
  parse : String → Option String

/-- A number that was printed is read again. -/
structure Numbers.Lawful (numbers : Numbers) : Prop where
  parse : ∀ (literal : String) (value : ℚ), Numeral.value? literal.toList = some value →
    ∃ parsed, numbers.parse literal = some parsed ∧ Numeral.value? parsed.toList = some value

/-- A value on the wire. -/
inductive Wire (φ : Type) where
  | null
  | boolean (value : Bool)
  | signed (value : Int)
  | unsigned (value : Nat)
  | float (value : φ)
  | text (value : String)
  | decimal (value : String)
  | list (values : List (Wire φ))
  | object (entries : List (String × Wire φ))

def maxMessage : Nat := 1024 * 1024

def maxDepth : Nat := 64

/-! ## The size of a message -/

namespace Wire

variable {φ : Type}

/-- A text with its terminator, in whole words. -/
def textBytes (value : String) : Nat := (value.utf8ByteSize + 8) / 8 * 8

mutual

/-- The size of a value: its struct and all that it points to. -/
def bytes : Wire φ → Nat
  | .text value => 24 + textBytes value
  | .decimal value => 24 + textBytes value
  | .list values => 24 + (8 + bytesValues values)
  | .object entries => 24 + (8 + bytesEntries entries)
  | _ => 24

def bytesValues : List (Wire φ) → Nat
  | [] => 0
  | value :: rest => value.bytes + bytesValues rest

def bytesEntries : List (String × Wire φ) → Nat
  | [] => 0
  | (key, value) :: rest => 16 + (textBytes key + value.bytes) + bytesEntries rest

end

end Wire

def overflow (message : String) : Error := { code := .overflow, message := message }

/-- `check_size`, for a message with no capabilities. -/
def checkSize (bytes limit : Nat) : Outcome Error Unit :=
  ensure (bytes / 8 ≤ limit / 8) (overflow "RPC value exceeds its size limit")

/-! ## The budget -/

namespace Budget

def take (budget bytes : Nat) : Outcome Error Nat :=
  if bytes ≤ budget then .ok (budget - bytes)
  else fail (overflow "RPC value exceeds its size limit")

def text (budget : Nat) (value : String) : Outcome Error Nat :=
  take budget (Wire.textBytes value)

def list (budget length itemBytes : Nat) : Outcome Error Nat :=
  if budget / itemBytes < length then fail (overflow "RPC list exceeds its size limit")
  else take budget 8

end Budget

def checkDepth (depth : Nat) : Outcome Error Unit :=
  ensure (depth ≤ maxDepth) (overflow "RPC value exceeds 64 nesting levels")

/-! ## Writing -/

section Codec

variable (numbers : Numbers)

/-- The number as a float that prints as it does. -/
def exactFloat? (literal : String) : Option numbers.Float :=
  (numbers.asF64 literal).filter fun float => numbers.fromF64 float = some literal

def writeNumber (literal : String) (budget : Nat) : Outcome Error (Wire numbers.Float × Nat) :=
  match (Json.number literal).asI64? with
  | some value => .ok (.signed value, budget)
  | none =>
    match (Json.number literal).asU64? with
    | some value => .ok (.unsigned value, budget)
    | none =>
      match exactFloat? numbers literal with
      | some float => .ok (.float float, budget)
      | none => do
        let budget ← Budget.text budget literal
        pure (.decimal literal, budget)

mutual

/-- `write_value`: the value on the wire, and the budget that is left. -/
def writeValue (value : Json) (budget depth : Nat) :
    Outcome Error (Wire numbers.Float × Nat) := do
  checkDepth depth
  let budget ← Budget.take budget 24
  match value with
  | .null => pure (.null, budget)
  | .bool value => pure (.boolean value, budget)
  | .number literal => writeNumber numbers literal budget
  | .string value =>
    let budget ← Budget.text budget value
    pure (.text value, budget)
  | .array values =>
    let budget ← Budget.list budget values.length 24
    let (list, budget) ← writeItems values budget (depth + 1)
    pure (.list list, budget)
  | .object values =>
    let budget ← Budget.list budget values.length 40
    let budget ← Budget.take budget (values.length * 16)
    let (entries, budget) ← writeFields values budget (depth + 1)
    pure (.object entries, budget)

def writeItems (values : List Json) (budget depth : Nat) :
    Outcome Error (List (Wire numbers.Float) × Nat) :=
  match values with
  | [] => pure ([], budget)
  | value :: rest => do
    let (item, budget) ← writeValue value budget depth
    let (list, budget) ← writeItems rest budget depth
    pure (item :: list, budget)

def writeFields (values : List (String × Json)) (budget depth : Nat) :
    Outcome Error (List (String × Wire numbers.Float) × Nat) :=
  match values with
  | [] => pure ([], budget)
  | (key, value) :: rest => do
    let budget ← Budget.text budget key
    let (item, budget) ← writeValue value budget depth
    let (entries, budget) ← writeFields rest budget depth
    pure ((key, item) :: entries, budget)

end

def encodeValue (value : Json) (limit : Nat) : Outcome Error (Wire numbers.Float) := do
  let (encoded, _) ← writeValue numbers value limit 0
  checkSize encoded.bytes limit
  pure encoded

/-! ## Reading -/

mutual

/-- `read_value_with_budget`: the value, and the budget that is left. -/
def readValue (wire : Wire numbers.Float) (budget depth : Nat) : Outcome Error (Json × Nat) := do
  checkDepth depth
  let budget ← Budget.take budget 24
  match wire with
  | .null => pure (.null, budget)
  | .boolean value => pure (.bool value, budget)
  | .signed value => pure (.number (toString value), budget)
  | .unsigned value => pure (.number (toString value), budget)
  | .float value =>
    let literal ← orError (numbers.fromF64 value)
      { code := .invalid, message := "RPC numbers must be finite" }
    pure (.number literal, budget)
  | .text value =>
    let budget ← Budget.text budget value
    pure (.string value, budget)
  | .decimal value =>
    let budget ← Budget.text budget value
    let literal ← orError (numbers.parse value) { code := .invalid, message := "invalid number" }
    pure (.number literal, budget)
  | .list values =>
    let budget ← Budget.list budget values.length 24
    let (values, budget) ← readItems values budget (depth + 1)
    pure (.array values, budget)
  | .object entries =>
    let budget ← Budget.list budget entries.length 40
    let budget ← Budget.take budget (entries.length * 16)
    let (fields, budget) ← readEntries entries [] budget (depth + 1)
    pure (.object fields, budget)

def readItems (values : List (Wire numbers.Float)) (budget depth : Nat) :
    Outcome Error (List Json × Nat) :=
  match values with
  | [] => pure ([], budget)
  | value :: rest => do
    let (item, budget) ← readValue value budget depth
    let (items, budget) ← readItems rest budget depth
    pure (item :: items, budget)

/-- The fields that were read are in the map `fields`. -/
def readEntries (entries : List (String × Wire numbers.Float)) (fields : List (String × Json))
    (budget depth : Nat) : Outcome Error (List (String × Json) × Nat) :=
  match entries with
  | [] => pure (fields, budget)
  | (key, value) :: rest => do
    let budget ← Budget.text budget key
    ensure ((fields.lookup key).isSome = false)
      { code := .invalid, message := "duplicate RPC object key" }
    let (value, budget) ← readValue value budget depth
    readEntries rest (Json.insertField key value fields) budget depth

end

/-- `read_list`. -/
def readList (values : List (Wire numbers.Float)) (budget depth : Nat) :
    Outcome Error (List Json × Nat) := do
  let budget ← Budget.list budget values.length 24
  readItems numbers values budget depth

/-- `read_value`. -/
def decodeValue (wire : Wire numbers.Float) : Outcome Error Json := do
  let (value, _) ← readValue numbers wire maxMessage 0
  pure value

/-- `read_values`. -/
def decodeValues (values : List (Wire numbers.Float)) : Outcome Error (List Json) := do
  let (values, _) ← readList numbers values maxMessage 0
  pure values

end Codec

end DstServer.Rpc
