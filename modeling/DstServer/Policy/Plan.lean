import DstServer.Policy.State

/-!
# One tick of the policy

`Policy::plan` and the other operations on the persisted `PolicyState`.
`plan` is cut into the parts it runs in order: the clock, the opening, the
request for a mod update, the observed activity and the choice of an action.

Every caller loads the state, applies one operation and saves the result
when the operation succeeded.  So an operation is a function from the saved
state to the next one, and after a failure the saved state is still there.
`finish_mod_update` and `queue_mod_update` are modelled in place as well,
with the state that they leave behind when they fail.
-/

namespace DstServer

open Lib Lib.Outcome

/-! ## Actions -/

inductive StopReason where
  | schedule
  | modUpdate
  | modFailure
  deriving DecidableEq, Repr

inductive Action where
  | start
  | stop (reason : StopReason) (message : Option String)
  | announce (message : String)
  | updateMods (attempt : Nat)
  | regenerate (expectedSessions : OrderedMap String String)
  deriving DecidableEq

structure Plan where
  schedule : ScheduleState
  newOpening : Option Int
  action : Option Action
  fault : Option String
  deriving DecidableEq

/-- How long an idle world of this age is kept. -/
def retention (day : Nat) : Int :=
  seconds (3600 *
    if day ≤ 8 then 6 else if day ≤ 30 then 24 else if day ≤ 70 then 36
    else if day ≤ 280 then 72 else 168)

/-- The remaining time in the words of a notice. -/
def remainingTime (remaining : Int) : String :=
  if remaining = 0 then "即将"
  else if 60 ≤ remaining then "将在约 " ++ toString (Int.tdiv (remaining + 59) 60) ++ " 分钟后"
  else "将在" ++ toString remaining ++ "秒后"

/-- `mod_message`. -/
def modMessage (remaining : Int) : String :=
  "本房间" ++ remainingTime remaining ++ "重启更新 MOD，预计耗时约 5 分钟，请提前安排游戏进度。"

/-! ## The clock -/

namespace PolicyState

/-- What the last tick and this one say about the clocks: whether the wall
clock went backwards, and by how much it moved against the monotonic one. -/
def clockSkew (state : PolicyState) (now : Int) (monotonic : Option Nat) :
    Outcome String (Bool × Int) :=
  match state.lastWall with
  | none => pure (false, 0)
  | some previous => do
    let elapsed := now - previous
    match state.lastMonotonic, monotonic with
    | some before, some after =>
      let actual ← orError (fromStd (after - before)) "monotonic interval is out of range"
      let skew ← subDelta elapsed actual
      pure (elapsed < 0, skew)
    | _, _ => pure (elapsed < 0, if elapsed < 0 then elapsed else 0)

/-- The phase with its times moved by a clock change. -/
def shiftPhase (skew : Int) : ModPhase → Outcome String ModPhase
  | .announcing deadline nextNotice => do
    let deadline ← orError (checkedAdd deadline skew) "mod countdown is out of range"
    let nextNotice ← orError (checkedAdd nextNotice skew) "mod countdown is out of range"
    pure (.announcing deadline nextNotice)
  | .retry notBefore => do
    let notBefore ← orError (checkedAdd notBefore skew) "mod retry is out of range"
    pure (.retry notBefore)
  | phase => pure phase

def clockChanged (state : PolicyState) (now : Int) (monotonic : Option Nat) :
    Outcome String (Bool × PolicyState) := do
  let (backwards, skew) ← state.clockSkew now monotonic
  let tolerance := seconds checkInterval
  let changed := backwards || decide (skew < -tolerance) || decide (tolerance < skew)
  let phase ← if changed then shiftPhase skew state.mods.phase else pure state.mods.phase
  pure (changed, { state with
    mods := { state.mods with phase }
    lastWall := some now
    lastMonotonic := monotonic })

end PolicyState

/-! ## Mod maintenance -/

namespace ModMaintenance

def request (mods : ModMaintenance) : Outcome String ModMaintenance := do
  ensure (mods.phase ≠ .updating) "a mod update is already writing"
  pure { mods with
    phase := .pending, attempts := 0, manual := false, resumeGame := true, error := none }

/-- Begin the countdown, or reserve an attempt when no game is running. -/
def advance (mods : ModMaintenance) (now : Int) (inputs : Inputs) :
    Outcome String (Option Action × ModMaintenance) :=
  if inputs.gameRunning then
    if inputs.allReady = false then pure (none, mods)
    else do
      let deadline ← addDelta now (seconds 60)
      let nextNotice ← addDelta now (seconds 30)
      pure (some (.announce (modMessage 60)),
        { mods with phase := .announcing deadline nextNotice })
  else do
    ensure (mods.attempts < modAttempts) "mod update retry budget is exhausted"
    pure (some (.updateMods (mods.attempts + 1)),
      { mods with attempts := mods.attempts + 1, phase := .updating })

/-- The seconds that a notice announces. -/
def noticeSeconds (deadline now : Int) : Int :=
  max (Int.tdiv (Int.tdiv (deadline - now) 1000000 + 999) 1000) 1

def action (mods : ModMaintenance) (now : Int) (inputs : Inputs) :
    Outcome String (Option Action × ModMaintenance) :=
  match mods.phase with
  | .idle => pure (none, mods)
  | .updating => pure (none, mods)
  | .failed => pure (none, mods)
  | .retry notBefore => if now < notBefore then pure (none, mods) else mods.advance now inputs
  | .announcing deadline nextNotice =>
    if inputs.gameRunning then
      if deadline ≤ now then
        pure (some (.stop .modUpdate (some (modMessage 0))), { mods with phase := .stopping })
      else if nextNotice ≤ now then do
        let remaining := noticeSeconds deadline now
        let nextNotice ← minusDelta deadline (seconds ((Int.tdiv (remaining + 29) 30 - 1) * 30))
        pure (some (.announce (modMessage remaining)),
          { mods with phase := .announcing deadline nextNotice })
      else pure (none, mods)
    else mods.advance now inputs
  | .stopping =>
    if inputs.gameRunning then pure (some (.stop .modUpdate none), mods)
    else mods.advance now inputs
  | .pending => mods.advance now inputs

end ModMaintenance

namespace PolicyState

/-- A new opening, which gives a failed mod update a new budget. -/
def enterOpening (state : PolicyState) (schedule : ScheduleState) (clockChanged : Bool) :
    Outcome String (Option Int × PolicyState) := do
  let newOpening := schedule.openingId.filter fun opening =>
    !clockChanged && decide (state.currentOpening ≠ some opening) &&
      state.lastOpening.all fun previous => decide (previous < opening)
  let state := { state with currentOpening := schedule.openingId }
  match newOpening with
  | none => pure (none, state)
  | some opening =>
    let state := { state with lastOpening := some opening }
    if state.mods.phase = .failed then
      let mods ← state.mods.request
      pure (some opening, { state with mods })
    else pure (some opening, state)

/-- Notice outdated mods, and forget a maintenance that is not wanted. -/
def observeOutdated (state : PolicyState) (modAutoUpdate modsOutdated : Bool) : PolicyState :=
  let mods :=
    if modAutoUpdate = true ∧ modsOutdated = true ∧ state.mods.observedOutdated = false ∧
      state.mods.phase = .idle then { state.mods with phase := .pending }
    else state.mods
  let mods := { mods with observedOutdated := modsOutdated }
  if modAutoUpdate = false ∧ mods.manual = false ∧ mods.attempts = 0 then
    { state with mods := { observedOutdated := modsOutdated } }
  else { state with mods }

end PolicyState

/-! ## Activity -/

/-- The last activity with the report of one more shard. -/
def Presence.observe (now lastActiveAt : Int) (presence : Presence) : Outcome String Int :=
  if ¬presence.Empty then pure now
  else if F64.lt presence.idleSeconds presence.observedSeconds then do
    let duration ← orError (tryFromSecs presence.idleSeconds)
      "cannot convert float seconds to Duration: value is either too big or NaN"
    let idle ← orError (fromStd duration) "presence idle duration is too large"
    let observedActivity ← orError (checkedAdd now (-idle))
      "presence activity timestamp is out of range"
    pure (max lastActiveAt observedActivity)
  else pure lastActiveAt

namespace Activity

/-- The observation continues the previous one. -/
def Continues (previous : Activity) (inputs : Inputs) : Prop :=
  previous.interrupted = false ∧ previous.sessions = inputs.sessions ∧
    (previous.cleanShutdown = true ∨
      previous.observations = inputs.presence.map (fun _ presence => presence.observation) ∧
        ∀ entry ∈ inputs.presence.entries, (previous.observedSeconds.get? entry.1).any fun old =>
          F64.le old entry.2.observedSeconds)

instance (previous : Activity) (inputs : Inputs) : Decidable (previous.Continues inputs) :=
  inferInstanceAs (Decidable (_ ∧ _ ∧ (_ ∨ _)))

end Activity

/-- The record of a reliable observation. -/
def Inputs.activity (inputs : Inputs) (lastActiveAt : Int) : Activity where
  sessions := inputs.sessions
  observations := inputs.presence.map fun _ presence => presence.observation
  observedSeconds := inputs.presence.map fun _ presence => presence.observedSeconds
  lastActiveAt := lastActiveAt
  cleanShutdown := false
  interrupted := false

namespace PolicyState

/-- A clock change or a lost observation interrupts the idle period. -/
def interruptActivity (state : PolicyState) (inputs : Inputs) (clockChanged : Bool) :
    Option Activity :=
  let activity := if clockChanged then
      state.activity.map fun activity =>
        { activity with interrupted := true, cleanShutdown := false }
    else state.activity
  if inputs.Reliable then activity
  else activity.map fun activity =>
    if activity.cleanShutdown = false ∧ inputs.cleanStopInProgress = false then
      { activity with interrupted := true }
    else activity

def observeActivity (state : PolicyState) (now : Int) (inputs : Inputs) (clockChanged : Bool) :
    Outcome String PolicyState :=
  let activity := state.interruptActivity inputs clockChanged
  if ¬inputs.Reliable then pure { state with activity }
  else do
    let lastActiveAt := match activity with
      | some previous => if previous.Continues inputs then min previous.lastActiveAt now else now
      | none => now
    let lastActiveAt ← inputs.presence.values.foldlM (Presence.observe now) lastActiveAt
    pure { state with activity := some (inputs.activity lastActiveAt) }

end PolicyState

/-! ## The choice of an action -/

/-- A number with two digits. -/
def twoDigits (n : Nat) : String := if n < 10 then "0" ++ toString n else toString n

/-- `time.format("%H:%M")` of a local minute. -/
def clockText (minute : Nat) : String := twoDigits (minute / 60) ++ ":" ++ twoDigits (minute % 60)

/-- The minute of the local day of an instant. -/
def Zone.minuteOfDay (zone : Zone) (instant : Int) : Nat :=
  (zone.localTime instant / minuteNs % 1440).toNat

/-- `CLOSING_NOTICE_MINUTES`. -/
def closingNoticeMinutes : Int := 8

/-- `matches!(phase, ModPhase::Announcing { .. })`. -/
def ModPhase.isAnnouncing : ModPhase → Bool
  | .announcing _ _ => true
  | _ => false

/-- A maintenance that waits again, if the condition holds. -/
def PolicyState.suspendIf (state : PolicyState) (condition : Bool) : PolicyState :=
  { state with mods :=
    { state.mods with phase := if condition then .pending else state.mods.phase } }

namespace Policy

def closingNotice (policy : Policy) (zones : Zones) (state : PolicyState) (now : Int)
    (inputs : Inputs) (schedule : ScheduleState) :
    Outcome String (Option Action × PolicyState) :=
  match schedule.nextChange with
  | none => pure (none, state)
  | some close =>
    let minutes := Int.tdiv (Int.tdiv (close - now) 1000000000 + 59) 60
    if inputs.gameRunning = false ∨ inputs.allReady = false ∨
      ¬(1 ≤ minutes ∧ minutes ≤ closingNoticeMinutes) then pure (none, state)
    else if state.lastClosingNotice = some ⟨close, minutes⟩ then pure (none, state)
    else do
      let next ← policy.scheduleAt zones close
      let zone ← policy.zone zones
      let opening := match next.nextChange with
        | some time => "下次开放时间：" ++ clockText (zone.minuteOfDay time) ++ "。"
        | none => ""
      pure (some (.announce ("本房间将在约 " ++ toString minutes ++
          " 分钟后定时关闭，请提前安排游戏进度。" ++ opening)),
        { state with lastClosingNotice := some ⟨close, minutes⟩ })

/-- The schedule closes before the notice of a mod update would be over. -/
def closingSoon (schedule : ScheduleState) (now : Int) : Bool :=
  schedule.nextChange.any fun close => decide (close - now ≤ seconds modNoticeDelay)

/-- A world that was idle for longer than it is kept. -/
def regenerable (policy : Policy) (state : PolicyState) (now : Int) (inputs : Inputs) :
    Option Activity :=
  match inputs.masterDay, state.activity with
  | some day, some activity =>
    if policy.idleRegeneration = true ∧ inputs.allReady = true ∧ activity.interrupted = false ∧
      inputs.ReliableEmpty ∧ retention day < now - activity.lastActiveAt then some activity
    else none
  | _, _ => none

/-- The part of `plan` that chooses an action. -/
def selectAction (policy : Policy) (zones : Zones) (state : PolicyState) (now : Int)
    (inputs : Inputs) (schedule : ScheduleState) : Outcome String (Option Action × PolicyState) :=
  if schedule.isOpen = false then
    let state :=
      state.suspendIf (state.mods.phase.isAnnouncing || decide (state.mods.phase = .stopping))
    pure (if inputs.gameRunning = true ∧ inputs.writesInProgress = false then
        some (.stop .schedule none) else none, state)
  else if inputs.writesInProgress = true ∨ inputs.faulted = true then pure (none, state)
  else if state.mods.phase = .failed then
    pure (if inputs.gameRunning then some (.stop .modFailure none) else none, state)
  else if state.mods.phase ≠ .idle then
    if closingSoon schedule now then
      let state := state.suspendIf state.mods.phase.isAnnouncing
      if inputs.busy then pure (none, state)
      else policy.closingNotice zones state now inputs schedule
    else if inputs.busy then pure (none, state)
    else do
      let (action, mods) ← state.mods.action now inputs
      pure (action, { state with mods })
  else if inputs.busy then pure (none, state)
  else if inputs.gameRunning = false then pure (some .start, state)
  else match policy.regenerable state now inputs with
    -- renewed before the dispatch, whatever becomes of the regeneration
    | some activity =>
      pure (some (.regenerate activity.sessions),
        { state with activity := some { activity with lastActiveAt := now } })
    | none => policy.closingNotice zones state now inputs schedule

def plan (policy : Policy) (zones : Zones) (state : PolicyState) (now : Int) (inputs : Inputs) :
    Outcome String (Plan × PolicyState) := do
  state.validate
  inputs.validate
  let schedule ← policy.scheduleAt zones now
  let (clockChanged, state) ← state.clockChanged now inputs.monotonic
  let (newOpening, state) ← state.enterOpening schedule clockChanged
  let state := state.observeOutdated policy.modAutoUpdate inputs.modsOutdated
  let state ← state.observeActivity now inputs clockChanged
  let fault :=
    if state.mods.phase = .failed then some "mod update failed after three attempts" else none
  let (action, state) ← policy.selectAction zones state now inputs schedule
  pure ({ schedule, newOpening, action, fault }, state)

end Policy

/-! ## The other operations -/

namespace PolicyState

def recordCleanShutdown (state : PolicyState) : PolicyState :=
  { state with
    activity := state.activity.map fun activity =>
      if activity.interrupted = false then { activity with cleanShutdown := true } else activity }

/-- `finish_mod_update` with the state that it leaves behind. -/
def finishModUpdate (state : PolicyState) (now : Int) (outcome : Except String Unit) :
    Outcome String Unit × PolicyState :=
  if state.mods.phase ≠ .updating then (fail "no mod update is running", state)
  else match outcome with
    | .ok _ => (.ok (), { state with mods := { observedOutdated := state.mods.observedOutdated } })
    | .error error =>
      let mods := { state.mods with error := some error }
      if modAttempts ≤ mods.attempts then
        (.ok (), { state with mods := { mods with phase := .failed } })
      else match addDelta now (seconds modRetryDelay) with
        | .ok notBefore =>
          (.ok (), { state with mods := { mods with phase := .retry notBefore } })
        | .error fault => (.error fault, { state with mods })

/-- `queue_mod_update` with the state that it leaves behind. -/
def queueModUpdate (state : PolicyState) (resumeGame : Bool) :
    Outcome String Unit × PolicyState :=
  match state.mods.request with
  | .ok mods => (.ok (), { state with mods := { mods with manual := true, resumeGame } })
  | .error fault => (.error fault, state)

/-- The state that is saved after an operation in place: the new one when it
succeeded. -/
def saved (result : Outcome String Unit × PolicyState) : Outcome String PolicyState :=
  result.1.map fun _ => result.2

/-- Without a monotonic clock from before the restart, a running update was
interrupted, and so was an observation without a clean shutdown. -/
def resumeAfterRestart (state : PolicyState) (now : Int) : Outcome String PolicyState := do
  let state := { state with lastWall := none, lastMonotonic := none }
  let state ← if state.mods.phase = .updating then
      saved (state.finishModUpdate now (.error "previous mod update was interrupted"))
    else pure state
  pure { state with
    activity := state.activity.map fun activity =>
      if activity.cleanShutdown = false then { activity with interrupted := true } else activity }

end PolicyState

end DstServer
