import DstServer.Lib.Journal
import DstServer.Recovery.Model

/-!
# The lives of the Agent on one room

The model of the parts of `agent.rs` that touch the recovery state and the
run marker: `initialize`, `start`, the resets of `tick`, `record_stop` and
`persist_failure`.  A life is a program over the persisted `Control`, with
one effect for every persisted write and one for the `Start` request that
launches the game.

What the Agent learns from outside (the schedule, the maintenance of the
mods, the native catalogs, the result of the launch) is read from a record
in the order in which the source asks for it.  The policy state has its own
writes, which change neither the recovery state nor the run marker; they
are left out.

A life ends at any point of its log: by a crash, by a recorded clean stop
or by a recorded failure.  `Ledger` counts what the runs are about, the
launches since the last reset of the recovery budget.
-/

namespace DstServer.Agent

open Lib Lib.Journal Recovery

/-! ## The persisted state -/

/-- The run marker: a launch is running, or the last life failed. -/
structure RunState where
  active : Bool := false
  failure : Option Failure := none
  deriving DecidableEq

/-- The part of the room state that decides about launches. -/
structure Control where
  recovery : RecoveryState := {}
  run : RunState := {}
  deriving DecidableEq

/-- What a life does to the outside: persist a change, persist a reset of
the recovery budget, or send the `Start` request to the room. -/
inductive Effect where
  | wrote
  | reset
  | launched
  deriving DecidableEq, Repr

abbrev AgentM (α : Type) : Type := Journal Control Effect α

/-- `Controller::recovery`: load and validate the recovery state. -/
def loadRecovery : AgentM RecoveryState := do
  let control ← read
  match control.recovery.validate with
  | .ok _ => pure control.recovery
  | .error _ => stop

/-- `Controller::run_state`. -/
def runState : AgentM RunState := do
  let control ← read
  pure control.run

/-- `Controller::save_run`. -/
def saveRun (run : RunState) : AgentM Unit := do
  let control ← read
  emit .wrote { control with run }

/-- An operation of the recovery machine under the room lock.  Its error
ends the caller, and its success is persisted. -/
def change {α : Type} (effect : α → Effect)
    (operation : RecoveryState → Outcome String (α × RecoveryState)) : AgentM α := do
  let control ← read
  match operation control.recovery with
  | .ok (result, recovery) =>
    emit (effect result) { control with recovery }
    pure result
  | .error _ => stop

/-- An operation that does not reset. -/
def update {α : Type} (operation : RecoveryState → Outcome String (α × RecoveryState)) :
    AgentM α :=
  change (fun _ => .wrote) operation

/-- An operation that says whether it reset the recovery. -/
def resetting (operation : RecoveryState → Outcome String (Bool × RecoveryState)) : AgentM Bool :=
  change (fun reset => if reset then .reset else .wrote) operation

/-! ## Launching the game -/

/-- What `start` learns from outside. -/
structure Launch where
  /-- The Agent or the game is closing at the beginning. -/
  closing : Bool
  /-- The room is running already. -/
  running : Bool
  /-- The schedule is open after the retry delay. -/
  openAfterDelay : Bool
  required : OrderedSet String
  /-- The native catalogs, unless reading them failed. -/
  catalogs : Option Catalogs
  nowMs : Nat
  /-- The shards of the native cluster. -/
  topology : OrderedSet String
  /-- Every native shard confirmed the target. -/
  applied : Bool
  /-- The Agent or the schedule closed before the launch. -/
  closed : Bool
  beginMs : Nat
  /-- The room became ready. -/
  started : Bool

/-- `preloader::apply`. -/
def apply (target : FixedTarget) (launch : Launch) : AgentM Unit := do
  let state ← loadRecovery
  stopIf (state.closed ≠ none)
  stopIf (target.phase ≠ .preparing ∨ state.target ≠ some target)
  stopIf (launch.topology.keys ≠ target.shards.keys)
  stopIf (launch.applied = false)
  update markPrepared

/-- The part of `start` that prepares a pending retry or an unfinished
target. -/
def prepare (state : RecoveryState) (launch : Launch) : AgentM Unit :=
  match state.retry with
  | some _ => do
    stopIf (launch.openAfterDelay = false)
    match launch.catalogs with
    | none => stop
    | some catalogs =>
      let decision ← update (resumePending launch.required catalogs launch.nowMs)
      match decision with
      | some (.retryCurrent _ _ _) => pure ()
      | _ => stop
  | none =>
    match state.target.filter fun target => target.phase.unfinished with
    | some target => apply target launch
    | none => pure ()

/-- The part of `start` that marks a pending retry as started. -/
def beginRetry (state : RecoveryState) (launch : Launch) : AgentM Unit :=
  match state.retry with
  | some retry => update (beginCurrentRetry (max launch.beginMs retry.notBeforeMs))
  | none => pure ()

/-- The part of `start` from the run marker on. -/
def launchGame (launch : Launch) : AgentM Unit := do
  saveRun { active := true, failure := none }
  let control ← read
  emit .launched control
  if launch.started then update markReady else stop

/-- The part of `start` for a room that is not running. -/
def startStopped (launch : Launch) : AgentM Unit := do
  let state ← loadRecovery
  stopIf (state.closed ≠ none)
  prepare state launch
  stopIf (launch.closed = true)
  beginRetry state launch
  launchGame launch

def start (launch : Launch) : AgentM Unit := do
  stopIf (launch.closing = true)
  if launch.running then pure () else startStopped launch

/-! ## The beginning of a life -/

/-- What `initialize` learns from outside. -/
structure Boot where
  scheduleOpen : Bool
  /-- A manual mod update is pending. -/
  manual : Bool
  /-- The identity of the current opening in milliseconds. -/
  opening : Option Nat
  /-- A step on the policy state failed. -/
  policyFailed : Bool
  /-- The mod maintenance came to rest with the game to be resumed and the
  schedule open. -/
  maintained : Bool
  required : OrderedSet String
  /-- The native catalogs, unless reading them failed. -/
  catalogs : Option Catalogs
  nowMs : Nat
  launch : Launch

/-- A retry or an unfinished target is pending. -/
def pending (state : RecoveryState) : Bool :=
  state.retry.isSome || state.hasUnfinishedTarget

/-- The pending launch was reserved but not started. -/
def unstarted (state : RecoveryState) : Bool :=
  (state.retry.any fun retry => !retry.started) ||
    state.target.any fun target => target.phase = .preparing

/-- The part of `initialize` that turns the end of the previous life into a
decision. -/
def settle (boot : Boot) : AgentM Unit := do
  let previous ← runState
  let state ← loadRecovery
  if previous.active || previous.failure.isSome || pending state then
    match boot.catalogs with
    | none =>
      let _ ← update (onFailure .unknown boot.required .empty boot.nowMs)
      saveRun {}
      stop
    | some catalogs =>
      if pending state && (unstarted state || previous.failure.isNone) then
        let _ ← update (resumePending boot.required catalogs boot.nowMs)
        saveRun {}
      else
        let failure := previous.failure.getD .retryable
        let _ ← update (onFailure failure boot.required catalogs boot.nowMs)
        saveRun {}

/-- The reset for an opening that was not seen yet. -/
def enterWindow (opening : Option Nat) : AgentM Unit :=
  match opening with
  | some opening => do
    let _ ← resetting (resetForOpenWindow opening)
  | none => pure ()

/-- The part of `initialize` about the schedule and the maintenance. -/
def openRoom (boot : Boot) : AgentM Unit := do
  stopIf (boot.scheduleOpen = false ∧ boot.manual = false)
  enterWindow boot.opening
  stopIf (boot.policyFailed = true)
  let state ← loadRecovery
  stopIf (state.closed ≠ none ∧ boot.manual = false)
  stopIf (boot.maintained = false)

/-- `Controller::initialize`. -/
def initializeRoom (boot : Boot) : AgentM Unit := do
  openRoom boot
  settle boot
  let state ← loadRecovery
  stopIf (state.closed ≠ none)
  start boot.launch

/-! ## A whole life -/

/-- What one `tick` learns from outside. -/
structure Tick where
  /-- How long the room has been ready, when it is healthy. -/
  stable : Option Nat
  /-- The opening that the policy found, in milliseconds. -/
  newOpening : Option Nat

/-- The part of `tick` about a room that has been ready for long enough. -/
def resetStable (stable : Option Nat) : AgentM Unit :=
  match stable with
  | some stable =>
    if stableReset ≤ stable then do
      let state ← loadRecovery
      if 0 < state.restartsUsed ∨ state.target ≠ none then
        let _ ← resetting (resetAfterStable stable)
    else pure ()
  | none => pure ()

/-- The part of `tick` about the recovery budget. -/
def tick (input : Tick) : AgentM Unit := do
  resetStable input.stable
  enterWindow input.newOpening

/-- The inputs of one life. -/
structure Inputs where
  boot : Boot
  ticks : List Tick

/-- One life: the ticks do something only once `initialize` is over, and an
error of a tick does not end the life. -/
def life (inputs : Inputs) : AgentM Unit := do
  initializeRoom inputs.boot
  inputs.ticks.forM fun input => attempt (tick input)

/-! ## Runs of lives -/

/-- How a life ends.  `recordStop` writes only where a game was launched. -/
inductive Ending where
  | crash
  | recordStop
  | persistFailure (failure : Failure)
  deriving DecidableEq

/-- The launches since the last reset of the recovery budget. -/
structure Ledger where
  /-- Launches that no recorded clean stop ended. -/
  launches : Nat := 0
  /-- Crashes that interrupted the launch of a rollback target before it
  was marked ready. -/
  interrupted : Nat := 0
  /-- This life launched the game. -/
  launched : Bool := false
  /-- The launch of this life is counted in `launches`. -/
  counted : Bool := false
  deriving DecidableEq, Repr

namespace Ledger

/-- One effect of a life. -/
def mark (ledger : Ledger) : Effect → Ledger
  | .wrote => ledger
  | .reset => { ledger with launches := 0, interrupted := 0, counted := false }
  | .launched => { ledger with launches := ledger.launches + 1, launched := true, counted := true }

/-- The next life has launched nothing. -/
def endLife (ledger : Ledger) : Ledger := { ledger with launched := false, counted := false }

end Ledger

/-- The rollback target is being started. -/
def restoring (control : Control) : Bool :=
  control.recovery.target.any fun target => target.phase = .starting

/-- The world between two lives. -/
abbrev World : Type := Control × Ledger

/-- The end of a life. -/
def Ending.finish : Ending → World → World
  | .crash, (control, ledger) =>
    (control,
      { ledger with
        interrupted :=
          if ledger.launched && restoring control then ledger.interrupted + 1
          else ledger.interrupted }.endLife)
  | .recordStop, (control, ledger) =>
    if ledger.launched then
      ({ control with run := {} },
        { ledger with
          launches := if ledger.counted then ledger.launches - 1 else ledger.launches }.endLife)
    else (control, ledger.endLife)
  | .persistFailure failure, (control, ledger) =>
    ({ control with run := { active := false, failure := some failure } }, ledger.endLife)

/-- What can happen to a room: an explicit start while no Agent runs, or a
life of the Agent that is cut after some effects and then ends. -/
inductive Episode where
  | explicitStart (alwaysOpen : Bool)
  | life (inputs : Inputs) (cut : Nat) (ending : Ending)

/-- The world after the first effects of a life. -/
def during (world : World) (inputs : Inputs) (cut : Nat) : World :=
  replay Ledger.mark world ((life inputs world.1).1.take cut)

def play (world : World) : Episode → World
  | .explicitStart alwaysOpen =>
    match explicitStart alwaysOpen world.1.recovery with
    | .ok (true, recovery) => ({ world.1 with recovery }, world.2.mark .reset)
    | .ok (false, recovery) => ({ world.1 with recovery }, world.2)
    | .error _ => world
  | .life inputs cut ending => ending.finish (during world inputs cut)

/-- The world after a run from a new room. -/
def history (episodes : List Episode) : World := episodes.foldl play ({}, {})

end DstServer.Agent
