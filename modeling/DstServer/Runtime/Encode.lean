import DstServer.Runtime.Decode

/-!
# Writing a value

A Lua value is written from the tables of a heap, which may share tables and
may contain themselves.  `wire.encode` writes it as JSON within a number of
bytes, and refuses whatever is no JSON value.

* `scan` is the first loop over a table, which tells objects from arrays and
  refuses mixtures, holes and other keys.
* `encode` walks the tables and keeps the ones that it is inside of.  Each
  of them has used up a byte, so the first argument lasts when it is larger
  than what remains.
* `render` is the text of a value without the limit.
-/

namespace DstServer.Runtime

open Lib JsonText

/-- A key of a table.  A number key is a whole number from 1 on, or it is
among the others. -/
inductive Key where
  | string (value : Bytes)
  | index (value : Nat)
  | other
  deriving DecidableEq

/-- A Lua value, where a table is a place in the heap. -/
inductive Item (ν : Type) where
  | nil
  /-- `json.null` -/
  | null
  | bool (value : Bool)
  | number (value : ν)
  | string (value : Bytes)
  | table (reference : Nat)
  /-- A function, a thread or userdata. -/
  | other

/-- The metatable: none, that of `wire.object`, or another one. -/
inductive Marker where
  | none
  | object
  | other
  deriving DecidableEq

/-- A table, with its entries in the order in which `next` gives them.  No
two entries have the same key. -/
structure Table (ν : Type) where
  marker : Marker
  entries : List (Key × Item ν)
  distinct : (entries.map Prod.fst).Nodup

abbrev Heap (ν : Type) := Nat → Table ν

variable {ν : Type}

/-- `rawget(item, index)` -/
def Table.rawget (table : Table ν) (index : Nat) : Item ν :=
  match table.entries.find? fun entry => entry.1 == .index index with
  | some entry => entry.2
  | none => .nil

/-- The first loop over the entries: whether they make an object, how many
there are, and the largest number among their keys. -/
def scan : Bool → Nat → Nat → List (Key × Item ν) → Except Raised (Bool × Nat × Nat)
  | object, count, maximum, [] => .ok (object, count, maximum)
  | object, count, maximum, (key, _) :: entries =>
    match key with
    | .string _ =>
      if 0 < maximum then .error .invalidJsonValue else scan true (count + 1) maximum entries
    | .index value =>
      if value < 1 then .error .invalidJsonValue
      else if object = true then .error .invalidJsonValue
      else scan object (count + 1) (max maximum value) entries
    | .other => .error .invalidJsonValue

/-- What is being written: the bytes that remain, and the text so far. -/
structure Writer where
  remaining : Nat
  parts : Bytes

def Writer.append (text : Bytes) (writer : Writer) : Except Raised Writer :=
  if writer.remaining < text.length then .error .responseTooLarge
  else .ok ⟨writer.remaining - text.length, writer.parts ++ text⟩

/-- `append(quote(value, remaining))` -/
def Writer.quote (value : Bytes) (writer : Writer) : Except Raised Writer := do
  let text ← Runtime.quote value writer.remaining
  writer.append text

/-- The comma before every entry but the first. -/
def Writer.comma (first : Bool) (writer : Writer) : Except Raised Writer :=
  if first = true then .ok writer else writer.append [44]

/-- The name before a value.  Only names get here: the first loop refuses
other keys in an object. -/
def Writer.name (key : Key) (writer : Writer) : Except Raised Writer :=
  match key with
  | .string value => writer.quote value
  | _ => .error .invalidJsonValue

/-- The loop over the entries of an object. -/
def members (encode : Item ν → Writer → Except Raised Writer) (first : Bool) :
    List (Key × Item ν) → Writer → Except Raised Writer
  | [], writer => .ok writer
  | (key, child) :: entries, writer => do
    let writer ← writer.comma first
    let writer ← writer.name key
    let writer ← writer.append [58]
    let writer ← encode child writer
    members encode false entries writer

/-- The loop over the elements of an array. -/
def elements (encode : Item ν → Writer → Except Raised Writer) (first : Bool) :
    List (Item ν) → Writer → Except Raised Writer
  | [], writer => .ok writer
  | child :: children, writer => do
    let writer ← writer.comma first
    let writer ← encode child writer
    elements encode false children writer

/-- The part of `encode` for the entries of a table. -/
def contents (encode : Item ν → Writer → Except Raised Writer) (table : Table ν)
    (writer : Writer) : Except Raised Writer := do
  let shape ← scan (table.marker == .object) 0 0 table.entries
  if shape.1 = true then do
    let writer ← writer.append [123]
    let writer ← members encode true table.entries writer
    writer.append [125]
  else if shape.2.1 ≠ shape.2.2 then .error .invalidJsonValue
  else do
    let writer ← writer.append [91]
    let children := (List.range shape.2.1).map fun index => table.rawget (index + 1)
    let writer ← elements encode true children writer
    writer.append [93]

/-- The part of `encode` before the tables. -/
def encodeScalar (numbers : Numbers ν) : Item ν → Writer → Except Raised Writer
  | .nil, writer => writer.append (latin "null".toList)
  | .null, writer => writer.append (latin "null".toList)
  | .string value, writer => writer.quote value
  | .bool true, writer => writer.append (latin "true".toList)
  | .bool false, writer => writer.append (latin "false".toList)
  | .number value, writer =>
    if numbers.finite value = false then .error .invalidJsonValue
    else writer.append (numbers.format value)
  | _, _ => .error .invalidJsonValue

/-- The inner `encode`.  `seen` are the tables that the item is inside of. -/
def encodeItem (numbers : Numbers ν) (heap : Heap ν) :
    Nat → List Nat → Item ν → Writer → Except Raised Writer
  -- Not reached: every table in `seen` has used up a byte.
  | 0, _, .table _, _ => .error .responseTooLarge
  | fuel + 1, seen, .table reference, writer =>
    if reference ∈ seen then .error .invalidJsonValue
    else if (heap reference).marker = .other then .error .invalidJsonValue
    else contents (encodeItem numbers heap fuel (reference :: seen)) (heap reference) writer
  | _, _, item, writer => encodeScalar numbers item writer

/-- `wire.encode` -/
def encode (numbers : Numbers ν) (heap : Heap ν) (value : Item ν) (limit : Nat) :
    Except Raised Bytes := do
  let writer ← encodeItem numbers heap (limit + 1) [] value ⟨limit, []⟩
  .ok writer.parts

end DstServer.Runtime
