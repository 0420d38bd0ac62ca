import DstServer.Configuration.Settings
import DstServer.Lua.Calls

/-!
# The setup file of the Mods

Two readers of `dedicated_server_mods_setup.lua`: `WorkshopDownloads::parse` of
`settings.rs` takes a file of literal calls only, and `scan_setup` of `mods.rs`
finds the direct declarations of any script.
-/

namespace DstServer.Mods

open Lib Outcome
open DstServer.Lua (ScriptReader FunctionCall FunctionArgs LastStmt Doubles)

/-! ## Ids -/

/-- A positive `u64`. -/
abbrev WorkshopId : Type := { id : Nat // 0 < id ∧ id < Json.u64Bound }

def workshopId (value : String) : Outcome String WorkshopId := do
  ensure (value.toList ≠ [] ∧ value.toList.head? ≠ some '0' ∧ value.toList.all Char.isDigit = true)
    "Workshop id must be a positive decimal uint64"
  let id ← orError (Json.digits? value.toList) "Workshop id exceeds uint64"
  if h : 0 < id ∧ id < Json.u64Bound then pure ⟨id, h⟩ else fail "Workshop id exceeds uint64"

/-- The order in which a set of ids is gone through. -/
def ascending (ids : Finset WorkshopId) : List WorkshopId := ids.sort (· ≤ ·)

theorem ascending_nodup (ids : Finset WorkshopId) : (ascending ids).Nodup :=
  ids.sort_nodup (· ≤ ·)

@[simp] theorem mem_ascending {ids : Finset WorkshopId} {id : WorkshopId} :
    id ∈ ascending ids ↔ id ∈ ids := ids.mem_sort (· ≤ ·)

@[simp] theorem length_ascending (ids : Finset WorkshopId) : (ascending ids).length = ids.card :=
  ids.length_sort (· ≤ ·)

/-- The ids that are declared. -/
structure Declared where
  items : Finset WorkshopId
  collections : Finset WorkshopId
  deriving DecidableEq

def Declared.empty : Declared := ⟨∅, ∅⟩

/-! ## The configuration -/

/-- `WorkshopDownloads`, with its constraints. -/
structure WorkshopDownloads where
  collections : Option (List WorkshopId)
  items : Option (List WorkshopId)
  nodup_collections : (collections.getD []).Nodup
  nodup_items : (items.getD []).Nodup

namespace WorkshopDownloads

def declared (downloads : WorkshopDownloads) : Declared where
  items := (downloads.items.getD []).toFinset
  collections := (downloads.collections.getD []).toFinset

/-- The elements of a set as a JSON array. -/
def idArray (ids : Finset WorkshopId) : Json := .array ((ascending ids).map fun id => .ofNat id.val)

/-- `from_value` of the sets of ids of a setup file, which have the types and
meet the constraints of the fields. -/
def fromDeclared (ids : Declared) : Outcome String WorkshopDownloads := do
  Configuration.checkInput
    (.object [("collections", idArray ids.collections), ("items", idArray ids.items)])
  pure ⟨some (ascending ids.collections), some (ascending ids.items),
    ascending_nodup ids.collections, ascending_nodup ids.items⟩

/-- What a call of a setup function with an id adds. -/
def addId (ids : Declared) (function : Text) (id : String) : Outcome String Declared :=
  if function = "ServerModSetup".toList then
    if id = "" then pure ids
    else do
      let item ← workshopId id
      pure { ids with items := insert item ids.items }
  else if function = "ServerModCollectionSetup".toList then do
    let item ← workshopId id
    pure { ids with collections := insert item ids.collections }
  else fail "unsupported Workshop setup function"

/-- The body of the loop of `parse` over the calls. -/
def addCall (ids : Declared) (call : Text × List Json) : Outcome String Declared := do
  ensure (call.2.length = 1) "Workshop setup requires one string id"
  let id ← orError (call.2.head?.bind Json.asStr?) "Workshop id must be a string"
  addId ids call.1 id

def parse (doubles : Doubles) (reader : ScriptReader) (source : Text) :
    Outcome String WorkshopDownloads := do
  let calls ← Lua.literalCalls doubles reader source
  let ids ← calls.foldlM addCall .empty
  fromDeclared ids

/-- A line of a rendered setup file. -/
def callLine (function : String) (id : WorkshopId) : Text :=
  function.toList ++ "(\"".toList ++ Text.decimal id.val ++ "\")\n".toList

/-- The calls of a setup file: the function and the id of each. -/
def calls (downloads : WorkshopDownloads) : List (String × WorkshopId) :=
  ((ascending downloads.declared.items).map fun id => ("ServerModSetup", id)) ++
    (ascending downloads.declared.collections).map fun id => ("ServerModCollectionSetup", id)

def render (downloads : WorkshopDownloads) : Text :=
  downloads.calls.flatMap fun call => callLine call.1 call.2

end WorkshopDownloads

/-! ## The scan -/

structure Setup extends Declared where
  hasCode : Bool
  deriving DecidableEq

/-- `Error::invalid` -/
structure Invalid where
  field : String
  message : String
  deriving DecidableEq, Repr

def invalid (outcome : Outcome String α) : Outcome Invalid α :=
  outcome.mapError fun
    | .error message => .error ⟨"mods.setup", message⟩
    | .panic message => .panic message

/-- Whether a function declares a collection, if it declares anything. -/
def declares (name : Text) : Option Bool :=
  if name = "ServerModSetup".toList then some false
  else if name = "ServerModCollectionSetup".toList then some true
  else none

/-- The only argument of a call, if it is a string. -/
def stringArgument (arguments : FunctionArgs) : Option (Lua.StringLiteralQuoteType × Text) :=
  match arguments with
  | .parentheses [.string quoteType literal] => some (quoteType, literal)
  | .string quoteType literal => some (quoteType, literal)
  | _ => none

/-- The declaration of a call: the kind and the text of its id. -/
def declaration? (call : FunctionCall) : Option (Bool × String) := do
  let name ← call.name
  let collection ← declares name
  match call.suffixes with
  | [.anonymousCall arguments] => do
    let (quoteType, literal) ← stringArgument arguments
    let value ← (Lua.string quoteType literal).toOption
    -- native Lua strings are bytes; ids outside of ASCII are not declarations
    if value.toList.all (·.toNat < 128) = true ∧ ¬(value = "" ∧ collection = false) then
      some (collection, value)
    else none
  | _ => none

def collectCall (setup : Setup) (call : FunctionCall) : Outcome Invalid Setup :=
  match declaration? call with
  | none => .ok setup
  | some (collection, value) => do
    let item ← invalid (workshopId value)
    pure (if collection then { setup with collections := insert item setup.collections }
      else { setup with items := insert item setup.items })

/-- A statement or a returned expression that is no call declares nothing. -/
def collect (setup : Setup) (call : Option FunctionCall) : Outcome Invalid Setup :=
  match call with
  | some call => collectCall setup call
  | none => .ok setup

def collectReturns (setup : Setup) (last : Option LastStmt) : Outcome Invalid Setup :=
  match last with
  | some (.returned expressions) => expressions.foldlM collect setup
  | _ => .ok setup

/-- Extract only direct, top-level declarations.  Dynamic Lua remains
executable by the game and is never interpreted. -/
def scanSetup (reader : ScriptReader) (source : Text) : Outcome Invalid Setup := do
  let _ ← invalid (Lua.parseScript reader.toReader source)
  let nodes := reader.nodes (Lua.normalizeLineEndings source)
  let setup ← nodes.stmts.foldlM collect
    { Declared.empty with hasCode := !nodes.stmts.isEmpty || nodes.lastStmt.isSome }
  collectReturns setup nodes.lastStmt

end DstServer.Mods
