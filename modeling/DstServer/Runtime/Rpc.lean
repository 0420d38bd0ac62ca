import DstServer.Runtime.Response

/-!
# The console command of a request

`rpc.install` replaces `ExecuteConsoleCommand`.  A line with the prefix is a
request: the new command reads it, accepts or refuses it, calls the method and
prints what it answers with `LuaPrintRemote`, which can fail.

* `Handler` is what one call of the command keeps, with the events so far: the
  lines that were given to the printer and the call of the method.
* `send`, `reject` and `respond` are its local functions.  One that raises
  returns the error beside what it has done.
* `execute` is the command.

What the game does is a `Game`: the printer, the methods, and the order in
which `next` walks a table.
-/

namespace DstServer.Runtime

open Lib JsonText

/-- What Lua does with the whole numbers of a request. -/
structure Integers (ν : Type) extends Numbers ν where
  ofNat : Nat → ν
  /-- The number is from 0 to 9007199254740991 and whole. -/
  natural : ν → Option Nat

def rpcPrefix : Bytes := latin "DST_RPC|".toList

def maximumRequestBytes : Nat := 4096

def maximumLineBytes : Nat := 64 * 1024

def maximumInteger : Nat := 9007199254740991

def vKey : Bytes := latin "v".toList

def nonceKey : Bytes := latin "nonce".toList

def idKey : Bytes := latin "id".toList

def generationKey : Bytes := latin "generation".toList

def methodKey : Bytes := latin "method".toList

def argumentsKey : Bytes := latin "arguments".toList

def acceptedKey : Bytes := latin "accepted".toList

def resultKey : Bytes := latin "result".toList

/-- The names that a request may have. -/
def fields : List Bytes := [vKey, nonceKey, idKey, generationKey, methodKey, argumentsKey]

/-- `[0-9A-HJKMNP-TV-Z]` -/
def isCrockford (byte : UInt8) : Bool :=
  (decide (48 ≤ byte.toNat) && decide (byte.toNat ≤ 57)) ||
    (decide (65 ≤ byte.toNat) && decide (byte.toNat ≤ 72)) || byte == 74 || byte == 75 ||
    byte == 77 || byte == 78 || (decide (80 ≤ byte.toNat) && decide (byte.toNat ≤ 84)) ||
    (decide (86 ≤ byte.toNat) && decide (byte.toNat ≤ 90))

def identifier (value : Bytes) : Bool :=
  value.length == 26 && value.all isCrockford && decide (48 ≤ (value.headD 0).toNat) &&
    decide ((value.headD 0).toNat ≤ 55)

/-- `[a-z_]` -/
def isInitial (byte : UInt8) : Bool :=
  (decide (97 ≤ byte.toNat) && decide (byte.toNat ≤ 122)) || byte == 95

/-- The name matches `^[a-z_][a-z0-9_]*$`. -/
def isMethod (name : Bytes) : Bool :=
  match name with
  | [] => false
  | first :: rest => isInitial first && rest.all fun byte => isInitial byte || isDigit byte

variable {ν : Type}

/-- The nonce and the generation that `rpc.install` was given. -/
structure Installed where
  nonce : Bytes
  generation : Nat
  named : identifier nonce = true
  safe : generation ≤ maximumInteger

/-- The part of `dst_server.state` that a request depends on. -/
structure RuntimeState where
  installed : Bool
  nonce : Option Bytes
  generation : Option Nat

/-- What one call of the printer does: it may raise after the line went out. -/
structure Printing where
  delivered : Bool
  returned : Bool

/-- The game around a request.  The number is that of the events before, and
`order` is the order in which `next` walks a table with these fields. -/
structure Game (ν : Type) where
  state : RuntimeState
  ordinaryPrint : Nat
  print : Nat → Printing
  order : Nat → (entries : List (Bytes × Item ν)) →
    { walk : List (Bytes × Item ν) // walk.Perm entries }
  call : Bytes → List (Bytes × Value ν) → Heap ν × Except Raised (Item ν)

inductive Event (ν : Type) where
  | printed (line : Bytes) (printing : Printing)
  /-- The method runs, while `print` is this function. -/
  | called (method : Bytes) (arguments : List (Bytes × Value ν)) (print : Nat)

/-! ## The header -/

/-- The fields of `header` that change. -/
structure Header where
  id : Option Bytes
  accepted : Bool
  /-- The error of `header.result`. -/
  result : Option Bytes

def Header.entries (numbers : Integers ν) (installed : Installed) (header : Header) :
    List (Bytes × Item ν) :=
  [(vKey, .number (numbers.ofNat 1)), (nonceKey, .string installed.nonce),
    (idKey, (header.id.map Item.string).getD .null),
    (generationKey, .number (numbers.ofNat installed.generation))] ++
    ((if header.accepted = true then [(acceptedKey, .bool true)] else []) ++
      (if header.result.isSome = true then [(resultKey, .table 1)] else []))

/-- `{ ok = false, error = reason }` -/
def failureEntries (reason : Bytes) : List (Bytes × Item ν) :=
  [(okKey, .bool false), (errorKey, .string reason)]

theorem Header.nodup_entries (numbers : Integers ν) (installed : Installed) (header : Header) :
    ((header.entries numbers installed).map Prod.fst).Nodup := by
  obtain ⟨id, accepted, result⟩ := header
  cases accepted <;> cases result <;>
    simp only [entries, if_true, if_false, Option.isSome_none, Option.isSome_some,
      Bool.false_eq_true, List.map_append, List.map_cons, List.map_nil, List.append_nil] <;>
    decide

theorem nodup_failureEntries (reason : Bytes) :
    ((failureEntries reason : List (Bytes × Item ν)).map Prod.fst).Nodup := by
  show [okKey, errorKey].Nodup
  decide

/-- A table with these fields, as `next` walks it. -/
def tableOf (entries : List (Bytes × Item ν)) (h : (entries.map Prod.fst).Nodup)
    (walk : { walk : List (Bytes × Item ν) // walk.Perm entries }) : Table ν where
  marker := .none
  entries := named walk.val
  distinct := by
    have hnames : (named walk.val).map Prod.fst = (walk.val.map Prod.fst).map Key.string := by
      unfold named
      rw [List.map_map, List.map_map]
      rfl
    rw [hnames]
    exact (((walk.property.map Prod.fst).nodup_iff).mpr h).map fun _ _ => Key.string.inj

section Command

variable (numbers : Integers ν) (installed : Installed) (game : Game ν)

/-- The header in the heap, with its result. -/
def Header.heap (step : Nat) (header : Header) : Heap ν
  | 0 => tableOf _ (header.nodup_entries numbers installed)
      (game.order step (header.entries numbers installed))
  | _ => tableOf _ (nodup_failureEntries (header.result.getD []))
      (game.order step (failureEntries (header.result.getD [])))

def Header.encode (step : Nat) (header : Header) (limit : Nat) : Except Raised Bytes :=
  Runtime.encode numbers.toNumbers (header.heap numbers installed game step) (.table 0) limit

/-! ## The command -/

/-- What a call of the command keeps. -/
structure Handler (ν : Type) where
  header : Header := { id := none, accepted := false, result := none }
  completed : Bool := false
  /-- The global `print`. -/
  print : Nat
  events : List (Event ν) := []

/-- `remote_print(sim, line)` -/
def remotePrint (line : Bytes) (handler : Handler ν) : Except Raised Unit × Handler ν :=
  let printing := game.print handler.events.length
  (if printing.returned = true then .ok () else .error .other,
    { handler with events := handler.events ++ [.printed line printing] })

def send (handler : Handler ν) : Except Raised Unit × Handler ν :=
  match handler.header.encode numbers installed game handler.events.length
      (maximumLineBytes - rpcPrefix.length - 1) with
  | .error raised => (.error raised, handler)
  | .ok text => remotePrint game (rpcPrefix ++ (text ++ [10])) handler

def reject (reason : Bytes) (handler : Handler ν) : Except Raised Unit × Handler ν :=
  if handler.completed = true then (.ok (), handler)
  else send numbers installed game
    { handler with completed := true, header := { handler.header with result := some reason } }

def invalidRequest : Bytes :=
  latin "invalid_request".toList

def staleGeneration : Bytes :=
  latin "stale_generation".toList

def notReady : Bytes := latin "not_ready".toList

/-- A valid request. -/
structure Request (ν : Type) where
  id : Bytes
  generation : Nat
  method : Bytes
  arguments : List (Bytes × Value ν)

def natural? (value : Value ν) : Option Nat :=
  match value with
  | .number n => numbers.natural n
  | _ => none

def string? (value : Value ν) : Option Bytes :=
  match value with
  | .string text => some text
  | _ => none

def object? (value : Value ν) : Option (List (Bytes × Value ν)) :=
  match value with
  | .object entries => some entries
  | _ => none

/-- `request.id`, where it is an identifier. -/
def idOf (entries : List (Bytes × Value ν)) : Option Bytes :=
  ((entries.lookup idKey).bind string?).filter identifier

/-- The request, where `valid`. -/
def readRequest (entries : List (Bytes × Value ν)) : Option (Request ν) := do
  let v ← (entries.lookup vKey).bind (natural? numbers)
  let nonce ← (entries.lookup nonceKey).bind string?
  let id ← idOf entries
  let generation ← (entries.lookup generationKey).bind (natural? numbers)
  let method ← (entries.lookup methodKey).bind string?
  let arguments ← (entries.lookup argumentsKey).bind object?
  if (v == 1 && nonce == installed.nonce && isMethod method &&
      entries.all fun entry => fields.contains entry.1) = true then
    some ⟨id, generation, method, arguments⟩
  else none

/-- The state is that of the installed command. -/
def ready : Bool :=
  game.state.installed && game.state.nonce == some installed.nonce &&
    game.state.generation == some installed.generation

/-- `respond`, for the method of the request. -/
def respond (beginning : Bytes) (request : Request ν) (handler : Handler ν) : Handler ν :=
  if handler.completed = true then handler
  else
    let called := game.call request.method request.arguments
    let response :=
      match Runtime.response numbers.toNumbers called.1 called.2
          (maximumLineBytes - beginning.length - 2) with
      | .ok response => response
      | .error _ => failureLine luaError
    (remotePrint game (beginning ++ (response ++ [125, 10]))
      { handler with
        completed := true
        events := handler.events ++ [.called request.method request.arguments handler.print] }).2

/-- `,"result":` -/
def resultPrefix : Bytes := latin ",\"result\":".toList

/-- What follows once the request was accepted. -/
def answer (request : Request ν) (handler : Handler ν) : Except Raised Unit × Handler ν :=
  let sent := send numbers installed game
    { handler with header := { handler.header with accepted := true } }
  match sent.1 with
  | .error raised => (.error raised, sent.2)
  | .ok () =>
    let handler := { sent.2 with header := { sent.2.header with accepted := false } }
    match handler.header.encode numbers installed game handler.events.length maximumLineBytes with
    | .error raised => (.error raised, handler)
    | .ok text =>
      (.ok (), respond numbers game (rpcPrefix ++ (text.dropLast ++ resultPrefix)) request handler)

/-- `line:gsub("\n$", "")` -/
def chomp (line : Bytes) : Bytes := if line.getLast? = some 10 then line.dropLast else line

/-- The request may be decoded: it is short, and on one line. -/
def decodable (line : Bytes) : Bool :=
  decide (line.length + 1 ≤ maximumRequestBytes) && line.all fun byte => byte != 13 && byte != 10

/-- The function that `pcall` protects. -/
def body (line : Bytes) (handler : Handler ν) : Except Raised Unit × Handler ν :=
  if decodable (chomp line) = false then reject numbers installed game invalidRequest handler
  else match decode numbers.toNumbers ((chomp line).drop rpcPrefix.length) maximumLineBytes with
    | .ok (.object entries) =>
      let handler := { handler with header := { handler.header with id := idOf entries } }
      match readRequest numbers installed entries with
      | none => reject numbers installed game invalidRequest handler
      | some request =>
        if request.generation ≠ installed.generation then
          reject numbers installed game staleGeneration handler
        else if ready installed game = false then reject numbers installed game notReady handler
        else answer numbers installed game request handler
    | _ => reject numbers installed game invalidRequest handler

/-- `ExecuteConsoleCommand`, while `print` is this function: nothing for a line
that goes to the original command. -/
def execute (line : Bytes) (print : Nat) : Option (Handler ν) :=
  if line.take rpcPrefix.length ≠ rpcPrefix then none
  else
    let ran := body numbers installed game line { print := game.ordinaryPrint }
    let handler := { ran.2 with print := print }
    match ran.1 with
    | .ok () => some handler
    | .error _ =>
      some (reject numbers installed game luaError
        { handler with header := { handler.header with accepted := false } }).2

end Command

end DstServer.Runtime
