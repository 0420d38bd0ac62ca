import DstServer.Lib.OrderedMap
import DstServer.Lib.Text

/-!
# The recovery machine of one room

The model of `recovery.rs`: the persisted `RecoveryState`, the decision
that a failed game leads to, and the operations that the Agent calls on the
state.  Every operation goes through `update`, which reads and validates
the saved state, changes a copy, validates the copy and writes it back; an
operation that returns an error leaves the saved state as it was.

Snapshot identities and times are `u64` in the source.  They are `Nat` here
with the two operations that can leave the range written out: the retry
deadline is a checked addition, and every subtraction of snapshot
identities is `checkedSub`, which panics below zero.
-/

namespace DstServer.Recovery

open Lib Lib.Outcome

/-! ## Constants -/

def currentRestarts : Nat := 2

def maxSnapshotGap : Nat := 3

/-- `RETRY_DELAY` in milliseconds. -/
def retryDelayMs : Nat := 30 * 1000

/-- `STABLE_RESET` in nanoseconds, the unit of a `Duration`. -/
def stableReset : Nat := 30 * 60 * 1000000000

/-- `lua::MAX_SAFE_INTEGER`. -/
def maxSafeInteger : Nat := 9007199254740991

/-- `u64::MAX`. -/
def u64Max : Nat := 18446744073709551615

/-! ## Data -/

structure Snapshot where
  snapshotId : Nat
  worldFile : Option String
  deriving DecidableEq, Repr

structure Catalog where
  sessionId : String
  latestWorldFile : String
  snapshots : List Snapshot
  deriving DecidableEq, Repr

abbrev Catalogs : Type := OrderedMap String Catalog

structure SavedShard where
  sessionId : String
  snapshotId : Nat
  worldFile : String
  deriving DecidableEq, Repr

abbrev SavedRoom : Type := OrderedMap String SavedShard

structure FailedLoad where
  sessionId : String
  worldFile : String
  deriving DecidableEq, Repr

inductive Failure where
  | retryable
  | loadFailure (shards : OrderedMap String FailedLoad)
  | disk
  | permission
  | configuration
  | mods
  | unknown
  deriving DecidableEq

inductive ClosedReason where
  | disk
  | permission
  | configuration
  | mods
  | unknownFailure
  | unprovenSnapshots
  | sessionChanged
  | snapshotGapExceeded
  | currentSaveChanged
  | unprovenLoadFailure
  | currentRetriesExhausted
  | rollbackAlreadyUsed
  | noPreviousCompleteSnapshot
  | recoveryTargetFailed
  deriving DecidableEq, Repr

inductive TargetPhase where
  | preparing
  | starting
  | ready
  | failed
  deriving DecidableEq, Repr

structure FixedTarget where
  snapshotId : Nat
  shards : SavedRoom
  phase : TargetPhase
  deriving DecidableEq

structure CurrentRetry where
  notBeforeMs : Nat
  started : Bool
  shards : SavedRoom
  deriving DecidableEq

structure RecoveryState where
  restartsUsed : Nat := 0
  lastOpenWindowMs : Option Nat := none
  closed : Option ClosedReason := none
  retry : Option CurrentRetry := none
  target : Option FixedTarget := none
  deriving DecidableEq

inductive Decision where
  | retryCurrent (attempt notBeforeMs : Nat) (shards : SavedRoom)
  | restore (target : FixedTarget) (resumed : Bool)
  | stayClosed (reason : ClosedReason)
  deriving DecidableEq

/-! ## Checks on saved identities -/

def validText (value : String) (limit : Nat) : Bool :=
  !value.isEmpty && value.utf8ByteSize ≤ limit && !value.toList.any Text.isControl

def verifySaved (saved : SavedShard) : Outcome String Unit := do
  ensure (validText saved.sessionId 128) "invalid session identity"
  ensure (0 < saved.snapshotId ∧ saved.snapshotId ≤ maxSafeInteger) "invalid snapshot identity"
  ensure (validText saved.worldFile 4096) "invalid native snapshot path"

namespace RecoveryState

/-- The part of `validate` about a pending retry. -/
def validateRetry (state : RecoveryState) : Outcome String Unit :=
  match state.retry with
  | none => .ok ()
  | some retry => do
    ensure (0 < state.restartsUsed ∧ retry.shards.keys ≠ [] ∧ state.closed = none)
      "invalid pending retry"
    retry.shards.values.forM verifySaved

/-- The part of `validate` about a fixed target. -/
def validateTarget (state : RecoveryState) : Outcome String Unit :=
  match state.target with
  | none => .ok ()
  | some target => do
    ensure (target.shards.keys ≠ []) "empty recovery target"
    target.shards.values.forM fun saved => do
      verifySaved saved
      ensure (saved.snapshotId = target.snapshotId) "inconsistent recovery target"

def validate (state : RecoveryState) : Outcome String Unit := do
  ensure (state.restartsUsed ≤ currentRestarts) "invalid recovery state"
  state.validateRetry
  state.validateTarget

end RecoveryState

/-- A target whose application or first start is not over:
`matches!(phase, Preparing | Starting)`. -/
def TargetPhase.unfinished : TargetPhase → Bool
  | .preparing | .starting => true
  | .ready | .failed => false

namespace RecoveryState

def close (state : RecoveryState) (reason : ClosedReason) : Decision × RecoveryState :=
  (.stayClosed reason,
    { state with
      closed := some reason
      retry := none
      target := state.target.map fun target =>
        if target.phase.unfinished then { target with phase := .failed } else target })

def reset (state : RecoveryState) : RecoveryState :=
  { state with
    restartsUsed := 0
    closed := none
    retry := none
    target := match state.target with
      | none => none
      | some target =>
        if target.phase = .ready then none else some { target with phase := .preparing } }

end RecoveryState

/-- Read and validate the saved state, change a copy, validate the copy
and write it back.  An error leaves the saved state as it was. -/
def update {α : Type} (change : RecoveryState → Outcome String (α × RecoveryState))
    (state : RecoveryState) : Outcome String (α × RecoveryState) := do
  state.validate
  let (result, state) ← change state
  state.validate
  pure (result, state)

/-! ## Catalogs -/

def saved (catalog : Catalog) (snapshot : Snapshot) : Outcome String SavedShard := do
  let worldFile ← orError snapshot.worldFile "snapshot world file is missing"
  let saved : SavedShard := ⟨catalog.sessionId, snapshot.snapshotId, worldFile⟩
  verifySaved saved
  pure saved

/-- The entry of a catalog whose world file is the latest one. -/
def Catalog.latest? (catalog : Catalog) : Option Snapshot :=
  catalog.snapshots.find? fun snapshot => snapshot.worldFile = some catalog.latestWorldFile

/-- The body of the loop of `latest_room` for one shard. -/
def latestShard (catalog : Catalog) : Outcome String SavedShard := do
  ensure (catalog.snapshots.map Snapshot.snapshotId).Nodup "duplicate snapshot identity"
  let latest ← orError catalog.latest? "latest snapshot is absent from its catalog"
  saved catalog latest

def latestRoom (required : OrderedSet String) (catalogs : Catalogs) : Outcome String SavedRoom := do
  ensure (required.keys ≠ [] ∧ catalogs.keys = required.keys) "required shard catalogs differ"
  required.mapM fun name _ => do
    let catalog ← unwrap (catalogs.get? name)
    latestShard catalog

/-- `latest.values().map(|saved| saved.snapshot_id).max().unwrap()`. -/
def newestId {ε : Type} (latest : SavedRoom) : Outcome ε Nat :=
  unwrap (latest.values.map SavedShard.snapshotId).max?

/-- `latest.values().map(|saved| saved.snapshot_id).min().unwrap()`. -/
def oldestId {ε : Type} (latest : SavedRoom) : Outcome ε Nat :=
  unwrap (latest.values.map SavedShard.snapshotId).min?

/-- The identity is present with a world file in the catalog. -/
def Catalog.complete (catalog : Catalog) (id : Nat) : Bool :=
  catalog.snapshots.any fun other => other.snapshotId = id && other.worldFile.isSome

/-- The identities of the first catalog that every catalog can restore,
below the failed snapshot and not above the oldest latest one. -/
def candidates (first : Catalog) (catalogs : Catalogs) (failedSnapshotId oldest : Nat) : List Nat :=
  ((first.snapshots.filter fun snapshot =>
      0 < snapshot.snapshotId && snapshot.snapshotId < failedSnapshotId &&
        snapshot.snapshotId ≤ oldest).filter fun snapshot =>
      catalogs.values.all fun catalog => catalog.complete snapshot.snapshotId).map
    Snapshot.snapshotId

/-- `saved(...).map_err(|_| ClosedReason::UnprovenSnapshots)`. -/
def provenSaved (catalog : Catalog) (snapshot : Snapshot) : Outcome ClosedReason SavedShard :=
  match saved catalog snapshot with
  | .ok saved => .ok saved
  | .error (.error _) => fail .unprovenSnapshots
  | .error (.panic message) => panics message

def previousTarget (latest : SavedRoom) (catalogs : Catalogs) (failedSnapshotId : Nat) :
    Outcome ClosedReason FixedTarget := do
  let newest ← newestId latest
  let oldest ← oldestId latest
  let first ← unwrap catalogs.values.head?
  let selected ← orError (candidates first catalogs failedSnapshotId oldest).max?
    .noPreviousCompleteSnapshot
  let gap ← checkedSub newest selected
  ensure (gap ≤ maxSnapshotGap) .snapshotGapExceeded
  let shards ← catalogs.mapM fun _ catalog => do
    let snapshot ← unwrap (catalog.snapshots.find? fun snapshot => snapshot.snapshotId = selected)
    provenSaved catalog snapshot
  pure ⟨selected, shards, .preparing⟩

/-- The body of the loop of `verify_replay` for one shard. -/
def verifyReplayShard (target : FixedTarget) (catalogs : Catalogs) (latest : SavedRoom)
    (name : String) (expected : SavedShard) : Outcome ClosedReason Unit := do
  let current ← unwrap (latest.get? name)
  ensure (current.sessionId = expected.sessionId) .sessionChanged
  let catalog ← unwrap (catalogs.get? name)
  let snapshot ← orError
    (catalog.snapshots.find? fun snapshot => snapshot.snapshotId = target.snapshotId)
    .noPreviousCompleteSnapshot
  let found ← provenSaved catalog snapshot
  ensure (found = expected ∧ target.snapshotId ≤ current.snapshotId) .currentSaveChanged
  let gap ← checkedSub current.snapshotId target.snapshotId
  ensure (gap ≤ maxSnapshotGap) .snapshotGapExceeded

/-- `latest_room(...).map_err(|_| ClosedReason::UnprovenSnapshots)`. -/
def provenLatestRoom (required : OrderedSet String) (catalogs : Catalogs) :
    Outcome ClosedReason SavedRoom :=
  match latestRoom required catalogs with
  | .ok latest => .ok latest
  | .error (.error _) => fail .unprovenSnapshots
  | .error (.panic message) => panics message

def verifyReplay (target : FixedTarget) (required : OrderedSet String) (catalogs : Catalogs) :
    Outcome ClosedReason Unit := do
  let latest ← provenLatestRoom required catalogs
  ensure (target.shards.keys = latest.keys) .sessionChanged
  target.shards.entries.forM fun entry =>
    verifyReplayShard target catalogs latest entry.1 entry.2

/-! ## The decision -/

/-- The failures that close the recovery at once. -/
def Failure.fatal : Failure → Option ClosedReason
  | .disk => some .disk
  | .permission => some .permission
  | .configuration => some .configuration
  | .mods => some .mods
  | .unknown => some .unknownFailure
  | .retryable | .loadFailure _ => none

/-- The loop over the reported shards: the least snapshot identity of a
verified one, or nothing when a report does not match the latest save. -/
def earliestFailed (latest : SavedRoom) : List (String × FailedLoad) → Nat → Option Nat
  | [], earliest => some earliest
  | (name, failure) :: rest, earliest =>
    match (latest.get? name).filter fun saved =>
        saved.sessionId = failure.sessionId && saved.worldFile = failure.worldFile with
    | none => none
    | some failed => earliestFailed latest rest (min earliest failed.snapshotId)

/-- The failed snapshot: nothing for a failure that is not a load failure,
and an error for a load failure that the latest saves do not prove. -/
def failedSnapshotId (failure : Failure) (latest : SavedRoom) :
    Except ClosedReason (Option Nat) :=
  match failure with
  | .loadFailure shards =>
    if shards.keys = [] then .error .unprovenLoadFailure
    else match earliestFailed latest shards.entries u64Max with
      | none => .error .unprovenLoadFailure
      | some earliest => .ok (some earliest)
  | _ => .ok none

/-- The pending retry was reserved for other shards or sessions. -/
def CurrentRetry.moved (previous : CurrentRetry) (latest : SavedRoom) : Bool :=
  previous.shards.keys ≠ latest.keys ||
    previous.shards.entries.any fun entry =>
      (latest.get? entry.1).map SavedShard.sessionId ≠ some entry.2.sessionId

namespace RecoveryState

/-- A fixed target is being prepared or started. -/
def hasUnfinishedTarget (state : RecoveryState) : Bool :=
  state.target.any fun target => target.phase.unfinished

/-- The part of `decide` after the failed snapshot is known and the latest
saves are close enough: a retry while the budget lasts, else one rollback. -/
def spend (state : RecoveryState) (failedSnapshotId : Option Nat) (latest : SavedRoom)
    (catalogs : Catalogs) (nowMs : Nat) : Outcome String (Decision × RecoveryState) :=
  if state.restartsUsed < currentRestarts then do
    ensure (nowMs + retryDelayMs ≤ u64Max) "retry deadline overflow"
    let notBeforeMs := nowMs + retryDelayMs
    pure (.retryCurrent (state.restartsUsed + 1) notBeforeMs latest,
      { state with
        restartsUsed := state.restartsUsed + 1
        retry := some ⟨notBeforeMs, false, latest⟩ })
  else match failedSnapshotId with
    | none => .ok (state.close .currentRetriesExhausted)
    | some failedSnapshotId =>
      if state.target.isSome then .ok (state.close .rollbackAlreadyUsed)
      else match previousTarget latest catalogs failedSnapshotId with
        | .error (.panic message) => panics message
        | .error (.error reason) => .ok (state.close reason)
        | .ok target =>
          .ok (.restore target false, { state with retry := none, target := some target })

/-- The part of `decide` after the latest saves are known. -/
def decideLatest (state : RecoveryState) (failure : Failure) (latest : SavedRoom)
    (catalogs : Catalogs) (nowMs : Nat) : Outcome String (Decision × RecoveryState) :=
  if state.retry.any fun previous => previous.moved latest then .ok (state.close .sessionChanged)
  else match failedSnapshotId failure latest with
    | .error reason => .ok (state.close reason)
    | .ok failed => do
      let newest ← newestId latest
      let oldest ← oldestId latest
      let gap ← checkedSub newest oldest
      if maxSnapshotGap < gap then pure (state.close .snapshotGapExceeded)
      else state.spend failed latest catalogs nowMs

def decide (state : RecoveryState) (failure : Failure) (required : OrderedSet String)
    (catalogs : Catalogs) (nowMs : Nat) : Outcome String (Decision × RecoveryState) :=
  match state.closed with
  | some reason => .ok (.stayClosed reason, state)
  | none =>
    match failure.fatal with
    | some reason => .ok (state.close reason)
    | none =>
      if state.hasUnfinishedTarget then .ok (state.close .recoveryTargetFailed)
      else match latestRoom required catalogs with
        | .error (.panic message) => panics message
        | .error (.error _) => .ok (state.close .unprovenSnapshots)
        | .ok latest => state.decideLatest failure latest catalogs nowMs

end RecoveryState

/-! ## What each operation changes -/

namespace RecoveryState

/-- The branch of `resume_pending` for an unfinished target. -/
def resumeTarget (state : RecoveryState) (target : FixedTarget) (required : OrderedSet String)
    (catalogs : Catalogs) : Outcome String (Option Decision × RecoveryState) :=
  match verifyReplay target required catalogs with
  | .error (.panic message) => panics message
  | .error (.error reason) => .ok ((state.close reason).map some id)
  | .ok _ =>
    let target := { target with phase := .preparing }
    .ok (some (.restore target true), { state with target := some target })

/-- The branch of `resume_pending` for a pending retry. -/
def resumeRetry (state : RecoveryState) (retry : CurrentRetry) (required : OrderedSet String)
    (catalogs : Catalogs) (nowMs : Nat) : Outcome String (Option Decision × RecoveryState) :=
  if retry.started then do
    let decided ← state.decide .retryable required catalogs nowMs
    pure (decided.map some id)
  else match latestRoom required catalogs with
    | .error (.panic message) => panics message
    | .error (.error _) => .ok ((state.close .currentSaveChanged).map some id)
    | .ok latest =>
      if latest ≠ retry.shards then .ok ((state.close .currentSaveChanged).map some id)
      else .ok (some (.retryCurrent state.restartsUsed retry.notBeforeMs retry.shards), state)

def resumePending (required : OrderedSet String) (catalogs : Catalogs) (nowMs : Nat)
    (state : RecoveryState) : Outcome String (Option Decision × RecoveryState) :=
  match state.closed with
  | some reason => .ok (some (.stayClosed reason), state)
  | none =>
    match state.target.filter fun target => target.phase.unfinished with
    | some target => state.resumeTarget target required catalogs
    | none =>
      match state.retry with
      | some retry => state.resumeRetry retry required catalogs nowMs
      | none => .ok (none, state)

def beginCurrentRetry (nowMs : Nat) (state : RecoveryState) :
    Outcome String (Unit × RecoveryState) := do
  let retry ← orError state.retry "no current-save retry is pending"
  ensure (retry.started = false ∧ retry.notBeforeMs ≤ nowMs ∧ state.closed = none)
    "retry is not ready to start"
  pure ((), { state with retry := some { retry with started := true } })

def markPrepared (state : RecoveryState) : Outcome String (Unit × RecoveryState) := do
  ensure (state.closed = none) "room is closed after failure"
  let target ← orError state.target "no recovery target"
  ensure (target.phase = .preparing) "recovery is not preparing"
  pure ((), { state with target := some { target with phase := .starting } })

def markReady (state : RecoveryState) : Outcome String (Unit × RecoveryState) := do
  ensure (state.closed = none) "closed room cannot become ready"
  ensure (∀ retry ∈ state.retry, retry.started = true) "reserved retry has not started"
  ensure (∀ target ∈ state.target, target.phase = .starting ∨ target.phase = .ready)
    "fixed target has not started"
  pure ((), { state with
    target := state.target.map fun target => { target with phase := .ready }
    retry := none })

/-- `reset_after_stable` once the room was ready for long enough. -/
def resetAfterStable (state : RecoveryState) : Outcome String (Bool × RecoveryState) := do
  ensure (state.closed = none ∧ state.retry = none) "room is not continuously ready"
  ensure (∀ target ∈ state.target, target.phase = .ready) "recovery remains unfinished"
  pure (true, state.reset)

def resetForOpenWindow (windowStartMs : Nat) (state : RecoveryState) :
    Outcome String (Bool × RecoveryState) :=
  if ∃ previous ∈ state.lastOpenWindowMs, windowStartMs ≤ previous then .ok (false, state)
  else .ok (true, { state with lastOpenWindowMs := some windowStartMs }.reset)

def explicitStart (alwaysOpen : Bool) (state : RecoveryState) :
    Outcome String (Bool × RecoveryState) :=
  if alwaysOpen = false ∨ state.closed = none then .ok (false, state)
  else .ok (true, state.reset)

end RecoveryState

/-! ## The operations -/

def onFailure (failure : Failure) (required : OrderedSet String) (catalogs : Catalogs)
    (nowMs : Nat) : RecoveryState → Outcome String (Decision × RecoveryState) :=
  update fun state => state.decide failure required catalogs nowMs

def resumePending (required : OrderedSet String) (catalogs : Catalogs) (nowMs : Nat) :
    RecoveryState → Outcome String (Option Decision × RecoveryState) :=
  update (RecoveryState.resumePending required catalogs nowMs)

def beginCurrentRetry (nowMs : Nat) : RecoveryState → Outcome String (Unit × RecoveryState) :=
  update (RecoveryState.beginCurrentRetry nowMs)

def markPrepared : RecoveryState → Outcome String (Unit × RecoveryState) :=
  update RecoveryState.markPrepared

def markReady : RecoveryState → Outcome String (Unit × RecoveryState) :=
  update RecoveryState.markReady

def resetAfterStable (continuousReady : Nat) (state : RecoveryState) :
    Outcome String (Bool × RecoveryState) :=
  if continuousReady < stableReset then .ok (false, state)
  else update RecoveryState.resetAfterStable state

def resetForOpenWindow (windowStartMs : Nat) :
    RecoveryState → Outcome String (Bool × RecoveryState) :=
  update (RecoveryState.resetForOpenWindow windowStartMs)

def explicitStart (alwaysOpen : Bool) : RecoveryState → Outcome String (Bool × RecoveryState) :=
  update (RecoveryState.explicitStart alwaysOpen)

end DstServer.Recovery
