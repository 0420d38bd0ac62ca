import DstServer.Lib.Document
import DstServer.Lib.Outcome

/-!
# Edits of a room

The model of `edit_many`, `edit_pointer` and the functions on JSON pointers
of `rooms.rs`.  An edit works on the sparse data of a room and creates the
parents of a field from the defaults.

How a room is written as data and read back are parameters of `editMany`:
the edits only see the data and the defaults.
-/

namespace DstServer.Rooms

open Lib Outcome

/-! ## Pointers -/

/-- The body of the loop of `pointer_parts` over the characters of a part. -/
def decodePart : Text → Outcome String Text
  | [] => .ok []
  | '~' :: '0' :: rest => (decodePart rest).map ('~' :: ·)
  | '~' :: '1' :: rest => (decodePart rest).map ('/' :: ·)
  | '~' :: _ => fail "invalid JSON Pointer escape"
  | c :: rest => (decodePart rest).map (c :: ·)

def pointerParts (pointer : Text) : Outcome String (List String) :=
  match pointer with
  | [] => .ok []
  | '/' :: rest => (rest.splitOn '/').mapM' fun part => (decodePart part).map String.ofList
  | _ => fail "invalid JSON Pointer"

def pointerIndex (part : String) (length : Nat) : Outcome String Nat := do
  let index ← orError (Json.index? part) "invalid JSON Pointer array index"
  -- the length of an array fits a word, so a number that does not is none of its indices
  ensure (index < 2 ^ 64 ∨ index < length) "invalid JSON Pointer array index"
  ensure (index < length) "JSON Pointer array index is out of range"
  pure index

def pointerItem (value : Json) (part : String) : Outcome String Json :=
  match value with
  | .object fields => orError (fields.lookup part) "JSON Pointer field is absent"
  | .array items => do
    let index ← pointerIndex part items.length
    unwrap items[index]?
  | _ => fail "JSON Pointer cannot traverse a scalar"

/-! ## One edit -/

/-- `PERMISSION_FIELDS` -/
def permissionFields : List String := ["adminlist", "whitelist", "blocklist"]

/-- The edit is one of the permission lists of the cluster. -/
def isPermission (parts : List String) (value : Json) : Bool :=
  match parts with
  | "cluster" :: field :: _ => decide (field ∈ permissionFields)
  | ["cluster"] => permissionFields.any fun field => (value.get? field).isSome
  | _ => false

/-- The object of a parent that is absent, if the defaults have a container
there. -/
def materialize (target fallback : Json) (part : String) : Json :=
  match target with
  | .object fields =>
    if (fields.lookup part).isSome then target
    else match fallback with
      | .object _ => .object (Json.insertField part (.object []) fields)
      | .array items => .object (Json.insertField part (.array items) fields)
      | _ => target
  | _ => target

/-- The edit of the last part of a pointer. -/
def editLast (target : Json) (key : String) (value : Json) (unset : Bool) : Outcome String Json :=
  match target with
  | .object fields =>
    if unset then do
      ensure ((fields.lookup key).isSome = true) "JSON Pointer field is absent"
      pure (.object (Json.removeField key fields))
    else pure (.object (Json.insertField key value fields))
  | .array items =>
    if key = "-" ∧ unset = false then pure (.array (items ++ [value]))
    else do
      let index ← pointerIndex key items.length
      pure (.array (if unset then items.eraseIdx index else items.set index value))
  | _ => fail "JSON Pointer parent is not an object or array"

/-- The fallback of an item: that of the parent, or else the item itself. -/
def fallbackItem (fallback target : Json) (part : String) : Outcome String Json :=
  match pointerItem fallback part with
  | .ok item => .ok item
  | .error _ => pointerItem target part

/-- The loop of `edit_pointer` over the parts before the last one, which
returns the target with the change below it. -/
def editBelow (key : String) (value : Json) (unset : Bool) :
    List String → Json → Json → Outcome String Json
  | [], target, _ => editLast target key value unset
  | part :: rest, target, fallback => do
    let fallback ← fallbackItem fallback target part
    let target := materialize target fallback part
    let item ← pointerItem target part
    let item ← editBelow key value unset rest item fallback
    pure (target.setItem part item)

def editPointer (data defaults : Json) (pointer : Text) (value : Json) (unset : Bool) :
    Outcome String Json := do
  let parts ← pointerParts pointer
  ensure (parts ≠ [] ∧ parts.head? ≠ some "number")
    "room identity cannot be changed through a configuration field"
  ensure (isPermission parts value = false)
    "permission lists are managed through player commands"
  editBelow (parts.getLast?.getD "") value unset parts.dropLast data defaults

/-! ## Many edits -/

/-- An edit of one field: a new value, or none. -/
structure Edit where
  pointer : Text
  value : Option Json

/-- The edits of `edit_many`, in their order. -/
def edits (changes : List (Text × Json)) (unset : List Text) : List Edit :=
  (changes.map fun change => ⟨change.1, some change.2⟩) ++ unset.map fun pointer => ⟨pointer, none⟩

def applyEdit (defaults data : Json) (edit : Edit) : Outcome String Json :=
  editPointer data defaults edit.pointer (edit.value.getD .null) edit.value.isNone

section Room

variable {Room : Type} (validate : Room → Outcome String Unit) (asValue resolved : Room → Json)
  (fromValue : Json → Outcome String Room)

def editMany (room : Room) (changes : List (Text × Json)) (unset : List Text) :
    Outcome String Room := do
  validate room
  let value ← (edits changes unset).foldlM (applyEdit (resolved room)) (asValue room)
  fromValue value

/-- The room that a caller of `edit_many` has afterwards: the edited one, or
after an error the one it had. -/
def roomAfter (room : Room) (changes : List (Text × Json)) (unset : List Text) : Room :=
  match editMany validate asValue resolved fromValue room changes unset with
  | .ok edited => edited
  | .error _ => room

end Room

end DstServer.Rooms
