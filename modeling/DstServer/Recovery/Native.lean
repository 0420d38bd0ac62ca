import DstServer.Lib.Journal
import DstServer.Recovery.Model

/-!
# The native side of a rollback

The model of `recovery.lua`.  The Rust side starts each shard once with a
recovery request; `gate` holds the game back until the request is known,
and `run` answers it and shuts the game down.

`Native` is what survives the process: the session of the shard index and
the snapshots of that session, newest first.  `WorldFiles` stands for the
choice of the world file that a session loads, of which only the case of a
newest snapshot with a file is known.  The effects of `run` are in a
`Journal`, so that a crash is a cut of its log.
-/

namespace DstServer.Recovery

open Lib Lib.Outcome

/-! ## The native state -/

/-- `text` -/
def isText (value : String) (limit : Nat) : Bool :=
  0 < value.utf8ByteSize && value.utf8ByteSize ≤ limit &&
    !value.toList.any fun c => c = '\x00' || c = '\r' || c = '\n'

/-- `integer`, at a number without a sign or a fraction. -/
def isInteger (value : Nat) : Bool := value ≤ maxSafeInteger

/-- The entry of a catalog that `run` takes. -/
def Snapshot.valid (snapshot : Snapshot) : Bool :=
  isInteger snapshot.snapshotId && snapshot.worldFile.all (isText · 4096)

/-- The snapshots of a session, newest first.  Nothing is known of an entry besides its place: `run`
refuses those that it cannot take. -/
structure NativeCatalog where
  snapshots : List Snapshot
  newestFirst : snapshots.Pairwise fun a b => b.snapshotId < a.snapshotId

structure Native where
  /-- `TheWorld ~= nil` -/
  worldLoaded : Bool
  session : Option String
  catalog : NativeCatalog

/-- `TheNet:GetWorldSessionFile` -/
structure WorldFiles where
  select : NativeCatalog → Option String
  /-- The newest snapshot is selected when it is a good one with a file. -/
  newest : ∀ catalog snapshot rest file, catalog.snapshots = snapshot :: rest →
    snapshot.valid = true → snapshot.worldFile = some file → select catalog = some file

/-- `TheNet:ListSnapshots`: the newest snapshots, and whether there are more. -/
def NativeCatalog.list (catalog : NativeCatalog) (count : Nat) : List Snapshot × Bool :=
  (catalog.snapshots.take count, count < catalog.snapshots.length)

/-- `TheNet:TruncateSnapshots`: without the snapshots newer than the target. -/
def NativeCatalog.truncate (catalog : NativeCatalog) (target : Nat) : NativeCatalog where
  snapshots := catalog.snapshots.filter fun snapshot => snapshot.snapshotId ≤ target
  newestFirst := catalog.newestFirst.filter _

/-! ## Requests -/

inductive Request where
  | catalog (sessionId : Option String)
  | apply (sessionId : String) (snapshotId : Nat) (worldFile : String)
  deriving DecidableEq, Repr

namespace Request

def sessionId : Request → Option String
  | catalog sessionId => sessionId
  | apply sessionId _ _ => some sessionId

def snapshotId : Request → Option Nat
  | catalog _ => none
  | apply _ snapshotId _ => some snapshotId

/-- `recovery.validate`, whose assertions are errors that are not known. -/
def validate (request : Request) : Bool :=
  request.sessionId.all (isText · 128) &&
    match request with
    | catalog _ => true
    | apply _ snapshotId worldFile => isInteger snapshotId && 0 < snapshotId && isText worldFile 4096

end Request

inductive Record where
  | catalog (sessionId : String) (latestWorldFile : Option String) (snapshots : List Snapshot)
      (hasMore : Bool)
  | applied (sessionId : String) (snapshotId : Nat) (worldFile : String) (changed : Bool)
  | failed (sessionId : Option String) (error : String)
  deriving DecidableEq, Repr

/-- What a process does to the outside. -/
inductive NativeEffect where
  | truncate (sessionId : String) (snapshotId : Nat)
  | emit (record : Record)
  | shutdown
  deriving DecidableEq, Repr

/-! ## The run -/

/-- The two snapshots that the loop looks for. -/
structure Sought where
  target : Option Snapshot := none
  current : Option Snapshot := none

/-- The body of the loop over a page. -/
def inspect (request : Request) (latest : Option String) (sought : Sought) (snapshot : Snapshot) :
    Outcome String Sought := do
  ensure (snapshot.valid = true) "invalid_catalog"
  pure {
    current :=
      if snapshot.worldFile.isSome = true ∧ snapshot.worldFile = latest then some snapshot
      else sought.current
    target := if some snapshot.snapshotId = request.snapshotId then some snapshot else sought.target }

/-- The sizes of the pages: `fetch` starts at 100 and doubles while it is below 6400. -/
def fetches : List Nat := [100, 200, 400, 800, 1600, 3200, 6400]

/-- The loop that looks for the target. -/
def scan (catalog : NativeCatalog) (request : Request) (latest : Option String) :
    List Nat → Sought → Outcome String Sought
  | [], sought => pure sought
  | fetch :: rest, sought => do
    let page := catalog.list fetch
    let sought ← page.1.foldlM (inspect request latest) sought
    if sought.target.isSome = true ∨ page.2 = false then pure sought
    else scan catalog request latest rest sought

/-- The checks of an apply request: whether the target is still to be selected. -/
def choose (snapshotId : Nat) (worldFile : String) (latest : Option String) (sought : Sought) :
    Outcome String Bool := do
  let target ← orError sought.target "target_not_found"
  ensure (target.worldFile = some worldFile) "target_path_mismatch"
  let current ← orError sought.current "current_not_found"
  ensure (snapshotId ≤ current.snapshotId) "target_is_newer"
  let changed := decide (latest ≠ some worldFile)
  ensure (changed = false ∨ current.snapshotId ≠ snapshotId) "target_path_mismatch"
  pure changed

/-- The session that an error names. -/
def namedSession (native : Native) (request : Request) : Option String :=
  if request.validate && !native.worldLoaded then native.session else none

/-- The protected function up to the session. -/
def checkSession (native : Native) (request : Request) : Outcome String String := do
  Outcome.assert (request.validate = true)
  ensure (native.worldLoaded = false) "world_already_loaded"
  let session ← orError (native.session.filter (isText · 128)) "missing_session"
  ensure (∀ expected ∈ request.sessionId, expected = session) "session_changed"
  pure session

/-- The protected function after the truncation. -/
def confirm (files : WorldFiles) (native : Native) (session : String) (snapshotId : Nat)
    (worldFile : String) (changed : Bool) : Outcome String Record := do
  ensure (native.session = some session) "session_changed"
  ensure (files.select native.catalog = some worldFile) "target_not_selected"
  pure (.applied session snapshotId worldFile changed)

/-- The record of a failure, which names only known errors. -/
def failure (session : Option String) : Fault String → Record
  | .error reason => .failed session reason
  | .panic _ => .failed session "native_recovery_failed"

/-- The end of `recovery.run`: the record is written and the game is shut down. -/
def finish (session : Option String) (outcome : Outcome String Record) :
    Journal Native NativeEffect Bool := do
  let native ← Journal.read
  match outcome with
  | .ok record => do
    Journal.emit (.emit record) native
    Journal.emit .shutdown native
    pure true
  | .error fault => do
    Journal.emit (.emit (failure session fault)) native
    Journal.emit .shutdown native
    pure false

/-- `recovery.run` -/
def run (files : WorldFiles) (request : Request) : Journal Native NativeEffect Bool := do
  let native ← Journal.read
  let latest := files.select native.catalog
  let named := namedSession native request
  match checkSession native request with
  | .error fault => finish named (.error fault)
  | .ok session =>
    match request with
    | .catalog _ =>
      let page := native.catalog.list 100
      finish named (page.1.foldlM (inspect request latest) {} >>= fun _ =>
        pure (.catalog session latest page.1 page.2))
    | .apply _ snapshotId worldFile =>
      match scan native.catalog request latest fetches {} >>= choose snapshotId worldFile latest with
      | .error fault => finish named (.error fault)
      | .ok changed => do
        if changed then
          Journal.emit (.truncate session snapshotId)
            { native with catalog := native.catalog.truncate snapshotId }
        let native ← Journal.read
        finish named (confirm files native session snapshotId worldFile changed)

/-! ## The gate -/

/-- What the gate holds back: the callback of the shard index, and a start of the server. -/
inductive GateCall where
  | load
  | start
  deriving DecidableEq, Repr

structure Gate where
  resolved : Bool := false
  request : Option Request := none
  pending : List GateCall := []
  finished : Bool := false
  deriving DecidableEq, Repr

inductive GateEvent where
  | call (call : GateCall)
  | resolve (value : Option Request)
  deriving DecidableEq, Repr

/-- What the gate lets through: the callback that loads the world, the start of the server, or a run
of the recovery. -/
inductive GateOutput where
  | proceed
  | start
  | run (request : Request)
  deriving DecidableEq, Repr

namespace Gate

/-- `resume` -/
def resume (gate : Gate) (call : GateCall) : Gate × List GateOutput :=
  match gate.request, call with
  | none, .load => (gate, [.proceed])
  | none, .start => (gate, [.start])
  | some request, .load =>
    if gate.finished then (gate, []) else ({ gate with finished := true }, [.run request])
  | some _, .start => (gate, [])

def resumeAll : Gate → List GateCall → Gate × List GateOutput
  | gate, [] => (gate, [])
  | gate, call :: rest =>
    let first := gate.resume call
    let last := first.1.resumeAll rest
    (last.1, first.2 ++ last.2)

def step (gate : Gate) : GateEvent → Gate × List GateOutput
  | .call call =>
    if gate.resolved then gate.resume call
    else ({ gate with pending := gate.pending ++ [call] }, [])
  | .resolve value =>
    if gate.resolved then (gate, [])
    else { gate with resolved := true, request := value, pending := [] }.resumeAll gate.pending

/-- The gate after some events, and what it has let through. -/
def after (events : List GateEvent) : Gate × List GateOutput :=
  events.foldl (fun before event =>
    let next := before.1.step event
    (next.1, before.2 ++ next.2)) ({}, [])

end Gate

end DstServer.Recovery
