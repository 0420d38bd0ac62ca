import DstServer.Lib.OrderedMap
import DstServer.Policy.Schedule

/-!
# The policy state and its observations

The data that `Policy::plan` reads and writes: the observations of a tick
(`Inputs`), the record of the last activity (`Activity`), the phases of a
mod update (`ModMaintenance`) and the persisted `PolicyState`, each with its
validation.

A `TimeDelta` is a number of nanoseconds, a `std::time::Duration` a natural
number of them.  A floating-point number is an exact rational or one of the
values that are not finite; a conversion to a duration rounds to the nearest
nanosecond, ties to even.
-/

namespace DstServer

open Lib Lib.Outcome

/-! ## Durations -/

/-- `TimeDelta::seconds`. -/
def seconds (n : Int) : Int := n * 1000000000

/-- `DateTime::MIN_UTC`. -/
def minInstant : Int := minDate * dayNs

/-- `DateTime::MAX_UTC`. -/
def maxInstant : Int := (maxDate + 1) * dayNs - 1

/-- `DateTime::checked_add_signed`. -/
def checkedAdd (instant delta : Int) : Option Int :=
  if minInstant ≤ instant + delta ∧ instant + delta ≤ maxInstant then some (instant + delta)
  else none

/-- Addition of a `TimeDelta` to a `DateTime`, which panics out of range. -/
def addDelta (instant delta : Int) : Outcome String Int :=
  match checkedAdd instant delta with
  | some sum => .ok sum
  | none => panics "DateTime + TimeDelta overflowed"

/-- Subtraction of a `TimeDelta` from a `DateTime`, which panics out of range. -/
def minusDelta (instant delta : Int) : Outcome String Int :=
  match checkedAdd instant (-delta) with
  | some difference => .ok difference
  | none => panics "DateTime - TimeDelta overflowed"

/-- `TimeDelta::MAX`, which is `i64::MAX` milliseconds. -/
def maxDelta : Int := (2 ^ 63 - 1) * 1000000

/-- Subtraction of two `TimeDelta`, which panics out of range. -/
def subDelta (a b : Int) : Outcome String Int :=
  if -maxDelta ≤ a - b ∧ a - b ≤ maxDelta then .ok (a - b)
  else panics "TimeDelta - TimeDelta overflowed"

/-- `TimeDelta::from_std`. -/
def fromStd (duration : Nat) : Option Int :=
  if (duration : Int) ≤ maxDelta then some duration else none

/-! ## Floating-point numbers -/

/-- An `f64`. -/
inductive F64 where
  | finite (value : Rat)
  | posInf
  | negInf
  | nan
  deriving DecidableEq

namespace F64

def isFinite : F64 → Bool
  | finite _ => true
  | _ => false

/-- `<=` of two floating-point numbers. -/
def le : F64 → F64 → Bool
  | nan, _ => false
  | _, nan => false
  | negInf, _ => true
  | _, posInf => true
  | finite a, finite b => a ≤ b
  | _, _ => false

/-- `<` of two floating-point numbers. -/
def lt : F64 → F64 → Bool
  | nan, _ => false
  | _, nan => false
  | a, b => !le b a

end F64

/-- The nearest integer, ties to even. -/
def roundHalfEven (value : Rat) : Int :=
  let below := value.floor
  let rest := value - below
  if rest < 1 / 2 then below
  else if 1 / 2 < rest then below + 1
  else if below % 2 = 0 then below
  else below + 1

/-- `Duration::try_from_secs_f64` in nanoseconds. -/
def tryFromSecs : F64 → Option Nat
  | .finite value =>
    if value < 0 then none
    else
      let rounded := roundHalfEven (value * 1000000000)
      if rounded < 2 ^ 64 * 1000000000 then some rounded.toNat else none
  | _ => none

/-! ## Observations -/

structure Presence where
  sessionId : String
  observation : String
  reliable : Bool
  clientCount : Nat
  playerCount : Nat
  idleSeconds : F64
  observedSeconds : F64
  deriving DecidableEq

structure Inputs where
  gameRunning : Bool := false
  allReady : Bool := false
  cleanStopInProgress : Bool := false
  busy : Bool := false
  writesInProgress : Bool := false
  faulted : Bool := false
  modsOutdated : Bool := false
  expectedShards : List String := []
  presence : OrderedMap String Presence := .empty
  masterDay : Option Nat := none
  /-- The uptime of the Agent in nanoseconds. -/
  monotonic : Option Nat := none
  deriving DecidableEq

namespace Presence

def validate (presence : Presence) : Outcome String Unit := do
  ensure (presence.sessionId ≠ "" ∧ presence.observation ≠ "") "presence identity is missing"
  ensure (∀ value ∈ [presence.idleSeconds, presence.observedSeconds],
      value.isFinite ∧ F64.le (.finite 0) value ∧ (tryFromSecs value).isSome)
    "presence times must be finite nonnegative durations"

/-- Nobody is connected. -/
def Empty (presence : Presence) : Prop := presence.clientCount = 0 ∧ presence.playerCount = 0

instance (presence : Presence) : Decidable presence.Empty := inferInstanceAs (Decidable (_ ∧ _))

end Presence

namespace Inputs

def validate (inputs : Inputs) : Outcome String Unit := do
  ensure (inputs.allReady = false ∨ inputs.gameRunning = true) "a stopped room cannot be ready"
  ensure (∀ day ∈ inputs.masterDay, 0 < day) "world day must be positive"
  ensure (inputs.expectedShards.Nodup ∧ ∀ name ∈ inputs.expectedShards, name ≠ "")
    "expected shards must be nonempty and unique"
  inputs.presence.values.forM Presence.validate

/-- `Inputs::reliable`. -/
def Reliable (inputs : Inputs) : Prop :=
  inputs.allReady = true ∧ inputs.expectedShards ≠ [] ∧
    inputs.presence.keys.length = inputs.expectedShards.length ∧
    ∀ name ∈ inputs.expectedShards,
      (inputs.presence.get? name).any fun presence => presence.reliable

instance (inputs : Inputs) : Decidable inputs.Reliable := inferInstanceAs (Decidable (_ ∧ _))

/-- `Inputs::reliable_empty`. -/
def ReliableEmpty (inputs : Inputs) : Prop :=
  inputs.Reliable ∧ ∀ presence ∈ inputs.presence.values, presence.Empty

instance (inputs : Inputs) : Decidable inputs.ReliableEmpty := inferInstanceAs (Decidable (_ ∧ _))

/-- The session of every observed shard. -/
def sessions (inputs : Inputs) : OrderedMap String String :=
  inputs.presence.map fun _ presence => presence.sessionId

end Inputs

/-! ## The persisted state -/

structure Activity where
  sessions : OrderedMap String String
  observations : OrderedMap String String
  observedSeconds : OrderedMap String F64
  lastActiveAt : Int
  cleanShutdown : Bool
  interrupted : Bool
  deriving DecidableEq

structure ClosingNotice where
  close : Int
  minutes : Int
  deriving DecidableEq, Repr

inductive ModPhase where
  | idle
  | pending
  | announcing (deadline nextNotice : Int)
  | stopping
  | updating
  | retry (notBefore : Int)
  | failed
  deriving DecidableEq, Repr

structure ModMaintenance where
  phase : ModPhase := .idle
  attempts : Nat := 0
  manual : Bool := false
  resumeGame : Bool := true
  observedOutdated : Bool := false
  error : Option String := none
  deriving DecidableEq, Repr

structure PolicyState where
  version : Nat := 1
  currentOpening : Option Int := none
  lastOpening : Option Int := none
  activity : Option Activity := none
  mods : ModMaintenance := {}
  lastClosingNotice : Option ClosingNotice := none
  lastWall : Option Int := none
  lastMonotonic : Option Nat := none
  deriving DecidableEq

/-- `MOD_ATTEMPTS`. -/
def modAttempts : Nat := 3

/-- `MOD_NOTICE_DELAY` in seconds. -/
def modNoticeDelay : Int := 60

/-- `MOD_RETRY_DELAY` in seconds. -/
def modRetryDelay : Int := 300

/-- `CHECK_INTERVAL` in seconds. -/
def checkInterval : Int := 30

/-- What `validate` asks of each phase. -/
def ModPhase.check (phase : ModPhase) (attempts : Nat) : Outcome String Unit :=
  match phase with
  | .idle => ensure (attempts = 0) "idle mod state retains attempts"
  | .updating => ensure (0 < attempts) "running update has no reserved attempt"
  | .retry _ =>
    ensure (1 ≤ attempts ∧ attempts < modAttempts) "retry state has no remaining attempts"
  | .failed => ensure (attempts = modAttempts) "failed mod state has an incomplete budget"
  | .announcing deadline nextNotice =>
    ensure (nextNotice ≤ deadline) "mod countdown is invalid"
  | .pending => pure ()
  | .stopping => pure ()

def ModMaintenance.validate (mods : ModMaintenance) : Outcome String Unit := do
  ensure (mods.attempts ≤ modAttempts) "mod retry budget is invalid"
  mods.phase.check mods.attempts

def Activity.validate (activity : Activity) : Outcome String Unit := do
  ensure (activity.sessions.isEmpty = false ∧
      activity.sessions.keys = activity.observations.keys ∧
      activity.sessions.keys = activity.observedSeconds.keys)
    "activity shard identities differ"
  ensure (∀ value ∈ activity.sessions.values ++ activity.observations.values, value ≠ "")
    "activity identities cannot be empty"
  ensure (∀ value ∈ activity.observedSeconds.values, value.isFinite ∧ F64.le (.finite 0) value)
    "invalid activity observation duration"

def PolicyState.validate (state : PolicyState) : Outcome String Unit := do
  ensure (state.version = 1) "unsupported policy state version"
  state.mods.validate
  match state.activity with
  | some activity => activity.validate
  | none => pure ()

end DstServer
