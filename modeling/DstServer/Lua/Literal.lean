import DstServer.Lib.Json
import DstServer.Lib.OrderedMap
import DstServer.Lib.Utf8
import DstServer.Lua.Syntax

/-!
# Literal Lua data

The model of the second half of `lua.rs`: `parseLiteral` reads a JSON value
from Lua source and `renderLiteral` writes one as Lua source.

`Doubles` is what Rust does with a `f64`: `str::parse`, the negation and
`Number::from_f64`, which prints a finite number and refuses any other.
-/

namespace DstServer.Lua

open Lib Outcome

/-- `(1 << 53) - 1`. -/
def maxSafeInteger : Nat := 9007199254740991

/-- The floating point numbers of the host. -/
structure Doubles where
  Float : Type
  /-- `str::parse::<f64>`. -/
  parse : Text → Option Float
  neg : Float → Float
  /-- `Number::from_f64`, as the text of the number. -/
  fromF64 : Float → Option String

/-! ## Strings -/

/-- Up to `count` decimal digits after a number of decimal digits. -/
def decimalEscape : Nat → Nat → List UInt8 → Nat × List UInt8
  | 0, number, source => (number, source)
  | _ + 1, number, [] => (number, [])
  | count + 1, number, digit :: source =>
    if 48 ≤ digit ∧ digit ≤ 57 then
      decimalEscape count (number * 10 + (digit.toNat - 48)) source
    else (number, digit :: source)

theorem length_decimalEscape (count number : Nat) (source : List UInt8) :
    (decimalEscape count number source).2.length ≤ source.length := by
  induction count generalizing number source with
  | zero => exact Nat.le_refl _
  | succ count ih =>
    cases source with
    | nil => exact Nat.le_refl _
    | cons digit source =>
      unfold decimalEscape
      split
      · exact Nat.le_succ_of_le (ih _ source)
      · exact Nat.le_refl _

/-- What an escape of one character stands for. -/
def simpleEscape (escape : UInt8) : Option UInt8 :=
  match escape.toNat with
  | 97 => some 7
  | 98 => some 8
  | 102 => some 12
  | 110 => some 10
  | 114 => some 13
  | 116 => some 9
  | 118 => some 11
  | 92 | 39 | 34 => some escape
  | _ => none

/-- The rest of a string after an escaped line ending. -/
def skipNewline (escape : UInt8) : List UInt8 → List UInt8
  | next :: rest => if next = (if escape = 10 then 13 else 10) then rest else next :: rest
  | [] => []

theorem length_skipNewline (escape : UInt8) (source : List UInt8) :
    (skipNewline escape source).length ≤ source.length := by
  cases source with
  | nil => exact Nat.le_refl 0
  | cons next rest =>
    show (if next = (if escape = 10 then 13 else 10) then rest else next :: rest).length ≤ _
    by_cases hpair : next = (if escape = 10 then 13 else 10)
    · rw [if_pos hpair]
      exact Nat.le_succ _
    · rw [if_neg hpair]

/-- The loop of `string` over the bytes of a quoted literal. -/
def decode : List UInt8 → Outcome String (List UInt8)
  | [] => .ok []
  | byte :: source =>
    if byte = 92 then
      match source with
      | [] => fail "incomplete Lua string escape"
      | escape :: source =>
        if 48 ≤ escape ∧ escape ≤ 57 then
          let number := decimalEscape 2 (escape.toNat - 48) source
          if number.1 < 256 then (decode number.2).map (UInt8.ofNat number.1 :: ·)
          else fail "decimal Lua escape exceeds one byte"
        else if escape = 10 ∨ escape = 13 then
          (decode (skipNewline escape source)).map (10 :: ·)
        else
          match simpleEscape escape with
          | some decoded => (decode source).map (decoded :: ·)
          | none => fail "unsupported Lua string escape"
    else (decode source).map (byte :: ·)
  termination_by source => source.length
  decreasing_by
    · exact Nat.lt_succ_of_lt (Nat.lt_succ_of_le (length_decimalEscape 2 _ source))
    · exact Nat.lt_succ_of_lt (Nat.lt_succ_of_le (length_skipNewline escape source))
    · exact Nat.lt_succ_of_lt (Nat.lt_succ_self source.length)
    · exact Nat.lt_succ_self source.length

def string (quoteType : StringLiteralQuoteType) (literal : Text) : Outcome String String :=
  match quoteType with
  | .brackets =>
    .ok (.ofList (match literal with
      | '\n' :: rest => rest
      | other => other))
  | .single | .double => do
    let decoded ← decode (utf8 literal)
    orError (String.fromUTF8? decoded.toByteArray) "Lua string must contain valid UTF-8"

/-! ## Numbers -/

/-- The hexadecimal digit of a character. -/
def hexadecimal? (c : Char) : Option Nat :=
  if c.isDigit then some (c.toNat - '0'.toNat)
  else if 'a' ≤ c ∧ c ≤ 'f' then some (c.toNat - 'a'.toNat + 10)
  else if 'A' ≤ c ∧ c ≤ 'F' then some (c.toNat - 'A'.toNat + 10)
  else none

/-- `i64::from_str_radix` at sixteen, for the digits of a token. -/
def fromHexadecimal (digits : Text) : Option Nat :=
  if digits = [] then none
  else (digits.foldlM (fun n c => (hexadecimal? c).map (16 * n + ·)) 0).filter (· < Json.i64Bound)

/-- `str::parse::<i64>`, for the digits of a token. -/
def fromDecimal (digits : Text) : Option Nat :=
  (Json.digits? digits).filter (· < Json.i64Bound)

/-- `Value::from` of an integer. -/
def integerValue (integer : Nat) (negative : Bool) : Json :=
  .number (toString (if negative then -(integer : Int) else integer))

section Parse

variable (doubles : Doubles)

/-- A safe integer, as a JSON number. -/
def integerNumber (integer : Option Nat) (message : String) (negative : Bool) :
    Outcome String Json := do
  let integer ← orError integer message
  ensure (integer ≤ maxSafeInteger) "Lua integer exceeds the safe range"
  pure (integerValue integer negative)

def floatNumber (text : Text) (negative : Bool) : Outcome String Json := do
  let float ← orError (doubles.parse text) "unsupported Lua number"
  let literal ← orError (doubles.fromF64 (if negative then doubles.neg float else float))
    "Lua number must be finite"
  pure (.number literal)

def number (text : Text) (negative : Bool) : Outcome String Json :=
  match text with
  | '0' :: 'x' :: hex | '0' :: 'X' :: hex =>
    integerNumber (fromHexadecimal hex) "unsupported hexadecimal Lua integer" negative
  | text =>
    if '.' ∈ text ∨ 'e' ∈ text ∨ 'E' ∈ text then floatNumber doubles text negative
    else integerNumber (fromDecimal text) "unsupported Lua integer" negative

/-! ## Values -/

/-- The table that is being read. -/
structure Table where
  object : List (String × Json)
  array : OrderedMap Nat Json
  implicit : Nat

def Table.empty : Table := ⟨[], .empty, 0⟩

/-- The key of a field, as a string or as a JSON number, and the number of
fields without a key so far. -/
def tableKey (key : Key) (implicit : Nat) : Outcome String (Json × Nat) :=
  match key with
  | .name identifier => .ok (.string (.ofList identifier), implicit)
  | .string quoteType literal => do
    let text ← string quoteType literal
    pure (.string text, implicit)
  | .number text => do
    let index ← number doubles text false
    pure (index, implicit)
  | .expression => fail "table keys must be literal strings or positive integers"
  | .absent => .ok (.ofNat (implicit + 1), implicit + 1)
  | .other => fail "unsupported Lua table field"

/-- Add a field to a table. -/
def Table.add (table : Table) (key : Json) (item : Json) : Outcome String Table :=
  match key with
  | .string key => do
    ensure (table.array.isEmpty = true) "mixed Lua table keys"
    ensure (table.object.lookup key = none) "duplicate Lua table key"
    pure { table with object := Json.insertField key item table.object }
  | key => do
    ensure (table.object = []) "mixed Lua table keys"
    let index ← orError (key.asU64?.filter (0 < ·))
      "array keys must be positive literal integers"
    ensure (table.array.get? index = none) "duplicate Lua table key"
    pure { table with array := table.array.insert index item }

/-- The value of a table that has been read. -/
def Table.value (table : Table) : Outcome String Json :=
  if table.array.isEmpty = true then .ok (.object table.object)
  else do
    ensure (table.array.keys = (List.range table.array.keys.length).map (· + 1))
      "array keys must be consecutive from 1"
    pure (.array table.array.values)

mutual

def value (expression : Expression) (depth : Nat) : Outcome String Json := do
  ensure (depth ≤ maxNesting) "Lua nesting exceeds the limit"
  match expression with
  | .string quoteType literal => (string quoteType literal).map .string
  | .number text => number doubles text false
  | .minus (.number text) => number doubles text true
  | .minus _ => fail "minus requires a literal number"
  | .symbol .trueWord => .ok (.bool true)
  | .symbol .falseWord => .ok (.bool false)
  | .symbol _ => fail "unsupported Lua literal"
  | .tableConstructor fields => do
    let table ← tableFields fields depth .empty
    table.value
  | .other => fail "only literal Lua values are supported"

/-- The loop of `value` over the fields of a table. -/
def tableFields (fields : List (Key × Expression)) (depth : Nat) (table : Table) :
    Outcome String Table :=
  match fields with
  | [] => .ok table
  | (key, expression) :: rest => do
    let (key, implicit) ← tableKey doubles key table.implicit
    let item ← value expression (depth + 1)
    let table ← Table.add { table with implicit := implicit } key item
    tableFields rest depth table

end

variable (reader : Reader)

def returnedValue (ast : Ast) : Outcome String Json := do
  ensure (ast.stmts = 0) "expected one literal Lua return value"
  match ast.returns with
  | some [expression] => value doubles expression 0
  | _ => fail "expected one literal Lua return value"

def returnText : Text := "return ".toList

def parseLiteral (source : Text) : Outcome String Json := do
  ensure (Text.utf8Length source ≤ maxSourceBytes - 7) "Lua source exceeds the byte limit"
  let ast ← parse reader (returnText ++ source) false
  returnedValue doubles ast

end Parse

/-! ## Rendering -/

/-- `{byte:03}`. -/
def threeDigits (byte : UInt8) : Text :=
  [.ofNat (48 + byte.toNat / 100), .ofNat (48 + byte.toNat / 10 % 10),
    .ofNat (48 + byte.toNat % 10)]

def renderChar (character : Char) : Text :=
  if character = '"' then ['\\', '"']
  else if character = '\\' then ['\\', '\\']
  else if Text.isControl character then
    (String.utf8EncodeChar character).flatMap fun byte => '\\' :: threeDigits byte
  else [character]

def checkOutput (output : Text) : Outcome String Unit :=
  ensure (Text.utf8Length output ≤ maxSourceBytes - 7) "Lua output exceeds the byte limit"

/-- The loop of `render_string`. -/
def renderChars : Text → Text → Outcome String Text
  | [], output => .ok output
  | character :: rest, output => do
    let output := output ++ renderChar character
    checkOutput output
    renderChars rest output

def renderString (text : String) (output : Text) : Outcome String Text := do
  ensure (text.utf8ByteSize ≤ maxSourceBytes) "Lua string exceeds the byte limit"
  let output ← renderChars text.toList (output ++ ['"'])
  pure (output ++ ['"'])

/-- The check of an integer in `render`. -/
def checkNumber (literal : String) : Outcome String Unit :=
  match (Json.number literal).asI64? with
  | some integer =>
    ensure (-(maxSafeInteger : Int) ≤ integer ∧ integer ≤ maxSafeInteger)
      "Lua integer exceeds the safe range"
  | none =>
    match (Json.number literal).asU64? with
    | some integer => ensure (integer ≤ maxSafeInteger) "Lua integer exceeds the safe range"
    | none => .ok ()

mutual

def render (value : Json) (output : Text) (depth : Nat) : Outcome String Text := do
  ensure (depth ≤ maxNesting) "Lua nesting exceeds the limit"
  match value with
  | .null => fail "null cannot be represented as literal Lua data"
  | .bool boolean => do
    let output := output ++ (if boolean then "true" else "false").toList
    checkOutput output
    pure output
  | .number literal => do
    checkNumber literal
    let output := output ++ literal.toList
    checkOutput output
    pure output
  | .string text => do
    let output ← renderString text output
    checkOutput output
    pure output
  | .array items => do
    let output ← renderItems items true (output ++ ['\x7b']) depth
    let output := output ++ ['\x7d']
    checkOutput output
    pure output
  | .object fields => do
    let output ← renderFields fields true (output ++ ['\x7b']) depth
    let output := output ++ ['\x7d']
    checkOutput output
    pure output

def renderItems (items : List Json) (first : Bool) (output : Text) (depth : Nat) :
    Outcome String Text :=
  match items with
  | [] => .ok output
  | item :: rest => do
    let output := if first then output else output ++ [',']
    let output ← render item output (depth + 1)
    renderItems rest false output depth

def renderFields (fields : List (String × Json)) (first : Bool) (output : Text) (depth : Nat) :
    Outcome String Text :=
  match fields with
  | [] => .ok output
  | (key, item) :: rest => do
    let output := if first then output else output ++ [',']
    let output ← renderString key (output ++ ['['])
    let output ← render item (output ++ [']', '=']) (depth + 1)
    renderFields rest false output depth

end

def renderLiteral (doubles : Doubles) (reader : Reader) (value : Json) : Outcome String Text := do
  let output ← render value [] 0
  -- rendered output stays within the grammar and the limits of the input
  let _ ← parseLiteral doubles reader output
  pure output

end DstServer.Lua
