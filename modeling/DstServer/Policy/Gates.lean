import DstServer.Policy.Steps
import DstServer.Recovery.Machine

/-!
# What gates an action

`Gated` lists the conditions under which `plan` returns each action, and
`selectAction_gates` goes through the order in which the source checks them.

* `plan_gates` is the gate of every tick.
* `adopted_increasing` says that the new openings of a run increase, by the
  invariant that the last one is remembered, and `granted_increasing` says
  the same of the openings that reset the recovery.
* `gates_and_openings` puts the three together.
-/

namespace DstServer

open Lib Lib.Outcome

/-! ## Gates -/

/-- Every expected shard reported reliably that nobody is connected. -/
def Inputs.AllEmpty (inputs : Inputs) : Prop :=
  ∀ name ∈ inputs.expectedShards,
    ∃ presence, inputs.presence.get? name = some presence ∧ presence.reliable = true ∧ presence.Empty

/-- The conditions on the action of a tick, with the schedule, the inputs and
the phase of the mod maintenance that the tick decided on. -/
structure Gated (schedule : ScheduleState) (inputs : Inputs) (phase : ModPhase)
    (action : Option Action) : Prop where
  closed : schedule.isOpen = false → ∀ a, action = some a →
    a = .stop .schedule none ∧ inputs.gameRunning = true ∧ inputs.writesInProgress = false
  writing : inputs.writesInProgress = true → action = none
  faulted : schedule.isOpen = true → inputs.faulted = true → action = none
  busy : schedule.isOpen = true → inputs.busy = true → ∀ a, action = some a →
    a = .stop .modFailure none ∧ phase = .failed
  start : action = some .start →
    schedule.isOpen = true ∧ inputs.gameRunning = false ∧ phase = .idle
  regenerate : ∀ sessions, action = some (.regenerate sessions) →
    phase = .idle ∧ inputs.AllEmpty

section Gates

variable {schedule : ScheduleState} {inputs : Inputs} {phase : ModPhase} {action : Option Action}

theorem gated_none : Gated schedule inputs phase none where
  closed := fun _ _ h => nomatch h
  writing := fun _ => rfl
  faulted := fun _ _ => rfl
  busy := fun _ _ _ h => nomatch h
  start := fun h => nomatch h
  regenerate := fun _ h => nomatch h

/-- An action of an open room that is not busy and that neither starts the
game nor regenerates the world. -/
theorem gated_plain (hopen : schedule.isOpen = true) (hwrites : inputs.writesInProgress = false)
    (hfaulted : inputs.faulted = false) (hbusy : inputs.busy = false)
    (hstart : action ≠ some .start) (hregenerate : ∀ sessions, action ≠ some (.regenerate sessions)) :
    Gated schedule inputs phase action where
  closed := by simp [hopen]
  writing := by simp [hwrites]
  faulted := by simp [hfaulted]
  busy := by simp [hbusy]
  start := fun h => absurd h hstart
  regenerate := fun sessions h => absurd h (hregenerate sessions)

theorem Inputs.ReliableEmpty.allEmpty (h : inputs.ReliableEmpty) : inputs.AllEmpty := by
  obtain ⟨⟨-, -, -, hreliable⟩, hempty⟩ := h
  intro name hname
  have hreport := hreliable name hname
  cases hpresence : inputs.presence.get? name with
  | none =>
    rw [hpresence] at hreport
    cases hreport
  | some presence =>
    rw [hpresence] at hreport
    exact ⟨presence, rfl, hreport, hempty presence (OrderedMap.mem_values_iff.2 ⟨name, hpresence⟩)⟩

/-- The maintenance neither starts the game nor regenerates the world. -/
theorem ModMaintenance.advance_action {mods mods' : ModMaintenance} {now : Int}
    (h : mods.advance now inputs = .ok (action, mods')) :
    action ≠ some .start ∧ ∀ sessions, action ≠ some (.regenerate sessions) := by
  unfold advance at h
  split at h
  · split at h
    · cases h
      simp
    · rw [bind_eq_ok] at h
      obtain ⟨deadline, -, h⟩ := h
      rw [bind_eq_ok] at h
      obtain ⟨nextNotice, -, h⟩ := h
      cases h
      simp
  · rw [bind_eq_ok] at h
    obtain ⟨_, -, h⟩ := h
    cases h
    simp

theorem ModMaintenance.action_action {mods mods' : ModMaintenance} {now : Int}
    (h : mods.action now inputs = .ok (action, mods')) :
    action ≠ some .start ∧ ∀ sessions, action ≠ some (.regenerate sessions) := by
  have hnone : (none : Option Action) ≠ some .start ∧
      ∀ sessions, (none : Option Action) ≠ some (.regenerate sessions) := by simp
  unfold ModMaintenance.action at h
  split at h
  · cases h
    exact hnone
  · cases h
    exact hnone
  · cases h
    exact hnone
  · split at h
    · cases h
      exact hnone
    · exact advance_action h
  · split at h
    · split at h
      · cases h
        simp
      · split at h
        · rw [bind_eq_ok] at h
          obtain ⟨later, -, h⟩ := h
          cases h
          simp
        · cases h
          exact hnone
    · exact advance_action h
  · split at h
    · cases h
      simp
    · exact advance_action h
  · exact advance_action h

/-- The closing notice only announces, and it leaves the openings alone. -/
theorem Policy.closingNotice_action {policy : Policy} {zones : Zones} {state state' : PolicyState}
    {now : Int} (h : policy.closingNotice zones state now inputs schedule = .ok (action, state')) :
    (action ≠ some .start ∧ ∀ sessions, action ≠ some (.regenerate sessions)) ∧
      state'.lastOpening = state.lastOpening := by
  unfold closingNotice at h
  split at h
  · cases h
    simp
  · simp only at h
    split at h
    · cases h
      simp
    · split at h
      · cases h
        simp
      · rw [bind_eq_ok] at h
        obtain ⟨next, -, h⟩ := h
        rw [bind_eq_ok] at h
        obtain ⟨zone, -, h⟩ := h
        cases h
        simp

/-- The gates, in the order in which the source checks them. -/
theorem Policy.selectAction_gates {policy : Policy} {zones : Zones} {state state' : PolicyState}
    {now : Int} (h : policy.selectAction zones state now inputs schedule = .ok (action, state')) :
    Gated schedule inputs state'.mods.phase action ∧ state'.lastOpening = state.lastOpening := by
  unfold selectAction at h
  by_cases hclosed : schedule.isOpen = false
  · rw [if_pos hclosed] at h
    cases h
    refine ⟨?_, rfl⟩
    by_cases hstop : inputs.gameRunning = true ∧ inputs.writesInProgress = false
    · rw [if_pos hstop]
      refine ⟨fun _ a ha => ?_, fun hwrites => ?_, ?_, ?_, ?_, ?_⟩
      · exact ⟨(Option.some.inj ha).symm, hstop⟩
      · rw [hstop.2] at hwrites
        cases hwrites
      · simp [hclosed]
      · simp [hclosed]
      · simp
      · simp
    · rw [if_neg hstop]
      exact gated_none
  rw [if_neg hclosed] at h
  rw [Bool.not_eq_false] at hclosed
  by_cases hwrites : inputs.writesInProgress = true ∨ inputs.faulted = true
  · rw [if_pos hwrites] at h
    cases h
    exact ⟨gated_none, rfl⟩
  rw [if_neg hwrites] at h
  rw [not_or, Bool.not_eq_true, Bool.not_eq_true] at hwrites
  by_cases hfailed : state.mods.phase = .failed
  · rw [if_pos hfailed] at h
    cases h
    refine ⟨?_, rfl⟩
    cases inputs.gameRunning with
    | false => exact gated_none
    | true =>
      refine ⟨?_, ?_, ?_, fun _ _ a ha => ?_, ?_, ?_⟩
      · simp [hclosed]
      · simp [hwrites.1]
      · simp [hwrites.2]
      · exact ⟨(Option.some.inj ha).symm, hfailed⟩
      · simp
      · simp
  rw [if_neg hfailed] at h
  by_cases hphase : state.mods.phase ≠ .idle
  · rw [if_pos hphase] at h
    by_cases hsoon : closingSoon schedule now = true
    · rw [if_pos hsoon] at h
      by_cases hbusy : inputs.busy = true
      · simp only [if_pos hbusy] at h
        cases h
        exact ⟨gated_none, rfl⟩
      · simp only [if_neg hbusy] at h
        rw [Bool.not_eq_true] at hbusy
        obtain ⟨⟨hstart, hregenerate⟩, hopening⟩ := closingNotice_action h
        exact ⟨gated_plain hclosed hwrites.1 hwrites.2 hbusy hstart hregenerate, hopening⟩
    rw [if_neg hsoon] at h
    by_cases hbusy : inputs.busy = true
    · rw [if_pos hbusy] at h
      cases h
      exact ⟨gated_none, rfl⟩
    rw [if_neg hbusy, bind_eq_ok] at h
    rw [Bool.not_eq_true] at hbusy
    obtain ⟨⟨acted, mods⟩, haction, h⟩ := h
    cases h
    obtain ⟨hstart, hregenerate⟩ := ModMaintenance.action_action haction
    exact ⟨gated_plain hclosed hwrites.1 hwrites.2 hbusy hstart hregenerate, rfl⟩
  rw [if_neg hphase] at h
  rw [not_not] at hphase
  by_cases hbusy : inputs.busy = true
  · rw [if_pos hbusy] at h
    cases h
    exact ⟨gated_none, rfl⟩
  rw [if_neg hbusy] at h
  rw [Bool.not_eq_true] at hbusy
  by_cases hrunning : inputs.gameRunning = false
  · rw [if_pos hrunning] at h
    cases h
    refine ⟨⟨?_, ?_, ?_, ?_, fun _ => ⟨hclosed, hrunning, hphase⟩, ?_⟩, rfl⟩
    · simp [hclosed]
    · simp [hwrites.1]
    · simp [hwrites.2]
    · simp [hbusy]
    · simp
  rw [if_neg hrunning] at h
  cases hregenerable : policy.regenerable state now inputs with
  | some activity =>
    rw [hregenerable] at h
    cases h
    obtain ⟨-, day, -, -, hempty, -⟩ := regenerable_eq_some hregenerable
    refine ⟨⟨?_, ?_, ?_, ?_, ?_, fun _ _ => ⟨hphase, hempty.allEmpty⟩⟩, rfl⟩
    · simp [hclosed]
    · simp [hwrites.1]
    · simp [hwrites.2]
    · simp [hbusy]
    · simp
  | none =>
    rw [hregenerable] at h
    obtain ⟨⟨hstart, hregenerate⟩, hopening⟩ := closingNotice_action h
    exact ⟨gated_plain hclosed hwrites.1 hwrites.2 hbusy hstart hregenerate, hopening⟩

end Gates

/-! ## New openings -/

theorem PolicyState.enterOpening_adopted {state state' : PolicyState} {schedule : ScheduleState}
    {clockChanged : Bool} {newOpening : Option Int}
    (h : state.enterOpening schedule clockChanged = .ok (newOpening, state')) :
    Advances state.lastOpening newOpening state'.lastOpening := by
  unfold enterOpening at h
  simp only at h
  split at h
  · cases h
    exact ⟨fun _ h => (nomatch h), rfl⟩
  · rename_i opening hfilter
    have hlater : ∀ previous ∈ state.lastOpening, previous < opening := by
      intro previous hprevious
      have hnew := (Option.filter_eq_some_iff.1 hfilter).2
      rw [hprevious] at hnew
      simp only [Option.all_some, Bool.and_eq_true, decide_eq_true_eq] at hnew
      exact hnew.2
    split at h
    · rw [bind_eq_ok] at h
      obtain ⟨mods, -, h⟩ := h
      cases h
      refine ⟨fun _ heq => ?_, rfl⟩
      rw [← Option.some.inj heq]
      exact hlater
    · cases h
      refine ⟨fun _ heq => ?_, rfl⟩
      rw [← Option.some.inj heq]
      exact hlater

theorem PolicyState.observeActivity_lastOpening {state state' : PolicyState} {now : Int}
    {inputs : Inputs} {clockChanged : Bool}
    (h : state.observeActivity now inputs clockChanged = .ok state') :
    state'.lastOpening = state.lastOpening := by
  unfold observeActivity at h
  by_cases hreliable : inputs.Reliable
  · simp only [not_not.2 hreliable, if_false] at h
    rw [bind_eq_ok] at h
    obtain ⟨lastActiveAt, -, h⟩ := h
    cases h
    rfl
  · simp only [hreliable, not_false_eq_true, if_true] at h
    cases h
    rfl

theorem PolicyState.observeOutdated_lastOpening (state : PolicyState)
    (modAutoUpdate modsOutdated : Bool) :
    (state.observeOutdated modAutoUpdate modsOutdated).lastOpening = state.lastOpening := by
  unfold observeOutdated
  exact (apply_ite PolicyState.lastOpening _ _ _).trans (ite_self _)

/-- A tick is gated, and adopts an opening only when it is later than all
before it. -/
theorem plan_gates {policy : Policy} {zones : Zones} {state after : PolicyState} {now : Int}
    {inputs : Inputs} {plan : Plan} (h : policy.plan zones state now inputs = .ok (plan, after)) :
    Gated plan.schedule inputs after.mods.phase plan.action ∧
      Advances state.lastOpening plan.newOpening after.lastOpening := by
  unfold Policy.plan at h
  rw [bind_eq_ok] at h
  obtain ⟨_, -, h⟩ := h
  rw [bind_eq_ok] at h
  obtain ⟨_, -, h⟩ := h
  rw [bind_eq_ok] at h
  obtain ⟨schedule, -, h⟩ := h
  rw [bind_eq_ok] at h
  obtain ⟨⟨clockChanged, clocked⟩, hclock, h⟩ := h
  rw [bind_eq_ok] at h
  obtain ⟨⟨newOpening, opened⟩, hopened, h⟩ := h
  rw [bind_eq_ok] at h
  obtain ⟨observed, hobserved, h⟩ := h
  rw [bind_eq_ok] at h
  obtain ⟨⟨action, selected⟩, hselected, h⟩ := h
  cases h
  obtain ⟨phase, -, rfl⟩ := PolicyState.clockChanged_cases hclock
  have hadopted := PolicyState.enterOpening_adopted hopened
  obtain ⟨hgated, hlast⟩ := Policy.selectAction_gates hselected
  refine ⟨hgated, ?_⟩
  rw [PolicyState.observeActivity_lastOpening hobserved,
    PolicyState.observeOutdated_lastOpening] at hlast
  show Advances state.lastOpening newOpening after.lastOpening
  rw [hlast]
  exact hadopted

/-! ## Openings over a run -/

section Runs

variable {state after : PolicyState} {now : Int}

theorem PolicyState.finishModUpdate_lastOpening {outcome : Except String Unit}
    (h : saved (state.finishModUpdate now outcome) = .ok after) :
    after.lastOpening = state.lastOpening := by
  unfold finishModUpdate at h
  split at h
  · cases h
  · split at h
    · cases h
      rfl
    · simp only at h
      split at h
      · cases h
        rfl
      · split at h
        · cases h
          rfl
        · cases h

theorem PolicyState.queueModUpdate_lastOpening {resumeGame : Bool}
    (h : saved (state.queueModUpdate resumeGame) = .ok after) :
    after.lastOpening = state.lastOpening := by
  unfold queueModUpdate at h
  split at h
  · cases h
    rfl
  · cases h

theorem PolicyState.resumeAfterRestart_lastOpening (h : state.resumeAfterRestart now = .ok after) :
    after.lastOpening = state.lastOpening := by
  unfold resumeAfterRestart at h
  simp only at h
  by_cases hphase : state.mods.phase = .updating
  · rw [if_pos hphase, bind_eq_ok] at h
    obtain ⟨finished, hfinished, h⟩ := h
    cases h
    have hlast := finishModUpdate_lastOpening hfinished
    exact hlast
  · rw [if_neg hphase] at h
    cases h
    rfl

/-- The opening that an event adopts. -/
def PolicyEvent.newOpening (e : PolicyEvent) : Option Int :=
  match e.result with
  | .ok (some plan) => plan.newOpening
  | _ => none

/-- The adopted openings of a run, in order. -/
def adopted (events : List PolicyEvent) : List Int := events.filterMap PolicyEvent.newOpening

/-- Every event adopts a later opening or none. -/
theorem Stepped.advances {e : PolicyEvent} (h : Stepped state e after) :
    Advances state.lastOpening e.newOpening after.lastOpening := by
  cases h with
  | ticked policy zones now inputs plan _ hplan => exact (plan_gates hplan).2
  | finished now outcome _ hfinish =>
    rw [PolicyState.finishModUpdate_lastOpening hfinish]
    exact advances_none _
  | queued resumeGame _ hqueue =>
    rw [PolicyState.queueModUpdate_lastOpening hqueue]
    exact advances_none _
  | recorded => exact advances_none _
  | resumed now _ hresume =>
    rw [PolicyState.resumeAfterRestart_lastOpening hresume]
    exact advances_none _
  | refused => exact advances_none _

theorem adopted_increasing {events : List PolicyEvent} (h : PolicyRun events state) :
    (adopted events).Pairwise (· < ·) :=
  Run.increasing (fun _ => True) PolicyState.lastOpening PolicyEvent.newOpening
    (fun _ _ _ _ hfires => ⟨trivial, (stepped_of_fires hfires).advances⟩) h trivial

end Runs

/-! ## Resets of the recovery -/

namespace Recovery

variable {state after : RecoveryState}

theorem Decided.lastOpenWindowMs {decision : Decision} (h : Decided state decision after) :
    after.lastOpenWindowMs = state.lastOpenWindowMs := by
  cases h <;> rfl

theorem Resumed.lastOpenWindowMs {decision : Option Decision} (h : Resumed state decision after) :
    after.lastOpenWindowMs = state.lastOpenWindowMs := by
  cases h with
  | closed reason _ hdecided => exact hdecided.lastOpenWindowMs
  | failed decision _ _ hdecided _ => exact hdecided.lastOpenWindowMs
  | _ => rfl

/-- The opening for which an operation reset the recovery. -/
def grantedWindow (e : Event RecoveryState Op Report String) : Option Nat :=
  match e.op, e.result with
  | .resetForOpenWindow windowStartMs, .ok r => if r.reset then some windowStartMs else none
  | _, _ => none

/-- The openings of a history that reset the recovery, in order. -/
def granted (events : List (Event RecoveryState Op Report String)) : List Nat :=
  events.filterMap grantedWindow

theorem advances_change {op : Op} {r : Report} (h : op.change state = .ok (r, after)) :
    Advances state.lastOpenWindowMs (grantedWindow ⟨state, op, .ok r⟩) after.lastOpenWindowMs := by
  cases op with
  | onFailure failure required catalogs nowMs =>
    obtain ⟨decision, hop, rfl⟩ := report_eq_ok.1 h
    rw [(decide_cases hop).1.lastOpenWindowMs]
    exact advances_none _
  | resumePending required catalogs nowMs =>
    obtain ⟨decision, hop, rfl⟩ := report_eq_ok.1 h
    rw [(resumePending_cases hop).lastOpenWindowMs]
    exact advances_none _
  | beginCurrentRetry nowMs =>
    obtain ⟨_, hop, rfl⟩ := report_eq_ok.1 h
    obtain ⟨retry, -, -, -, -, rfl⟩ := beginCurrentRetry_cases hop
    exact advances_none _
  | markPrepared =>
    obtain ⟨_, hop, rfl⟩ := report_eq_ok.1 h
    obtain ⟨target, -, -, -, rfl⟩ := markPrepared_cases hop
    exact advances_none _
  | markReady =>
    obtain ⟨_, hop, rfl⟩ := report_eq_ok.1 h
    obtain ⟨-, -, -, rfl⟩ := markReady_cases hop
    exact advances_none _
  | resetAfterStable continuousReady =>
    obtain ⟨reset, hop, rfl⟩ := report_eq_ok.1 h
    split at hop
    · cases hop
      exact advances_none _
    · obtain ⟨-, -, -, -, rfl⟩ := resetAfterStable_cases hop
      exact advances_none _
  | resetForOpenWindow windowStartMs =>
    obtain ⟨reset, hop, rfl⟩ := report_eq_ok.1 h
    unfold RecoveryState.resetForOpenWindow at hop
    split at hop
    · cases hop
      exact advances_none _
    · rename_i hnew
      cases hop
      refine ⟨fun value hvalue previous hprevious => ?_, rfl⟩
      rw [← Option.some.inj hvalue]
      by_contra hle
      exact hnew ⟨previous, hprevious, not_lt.1 hle⟩
  | explicitStart alwaysOpen =>
    obtain ⟨reset, hop, rfl⟩ := report_eq_ok.1 h
    unfold RecoveryState.explicitStart at hop
    split at hop
    · cases hop
      exact advances_none _
    · cases hop
      exact advances_none _

theorem granted_increasing {events : List (Event RecoveryState Op Report String)}
    (h : History events state) : (granted events).Pairwise (· < ·) := by
  refine Run.increasing Consistent RecoveryState.lastOpenWindowMs grantedWindow ?_ h
    consistent_default
  intro before e after hbefore hfires
  have hafter : Consistent after := by
    refine hfires.invariant ?_ hbefore
    intro op before r after hbefore hcall
    exact hbefore.change (call_cases hbefore hcall)
  refine ⟨hafter, ?_⟩
  obtain ⟨previous, op, result⟩ := e
  rcases hfires.cases with ⟨r, hcall, hresult⟩ | ⟨fault, -, hresult, rfl⟩
  · simp only at hcall hresult
    subst hresult
    rw [call_eq_change hbefore] at hcall
    exact advances_change hcall
  · simp only at hresult
    subst hresult
    have hnone : grantedWindow ⟨previous, op, .error fault⟩ = none := by
      cases op <;> rfl
    rw [hnone]
    exact advances_none _

end Recovery

/-! ## The policy -/

/-- Every tick is gated, and over every run the new openings increase, so
that none of them is adopted twice; the openings for which the recovery was
reset increase as well. -/
theorem gates_and_openings :
    (∀ (policy : Policy) (zones : Zones) (state : PolicyState) (now : Int) (inputs : Inputs)
        (plan : Plan) (after : PolicyState), policy.plan zones state now inputs = .ok (plan, after) →
        Gated plan.schedule inputs after.mods.phase plan.action) ∧
      (∀ (events : List PolicyEvent) (state : PolicyState), PolicyRun events state →
        (adopted events).Pairwise (· < ·)) ∧
      ∀ (events : List (Event Recovery.RecoveryState Recovery.Op Recovery.Report String))
        (state : Recovery.RecoveryState), Recovery.History events state →
        (Recovery.granted events).Pairwise (· < ·) :=
  ⟨fun _ _ _ _ _ _ _ h => (plan_gates h).1, fun _ _ => adopted_increasing,
    fun _ _ => Recovery.granted_increasing⟩

/-- A room that opens from eight to twelve, in the zone without an offset. -/
def dailyTick (now : Int) : PolicyOp :=
  .plan { schedule := [⟨⟨8, 0, 0, 0⟩, ⟨12, 0, 0, 0⟩⟩] }
    ⟨⟨fun _ => 0, fun minute => .single (minute * minuteNs)⟩, fun _ => none⟩ now {}

/-- The state and the plan at ten o'clock of a day. -/
def dailyState (day : Int) : PolicyState :=
  { currentOpening := some (seconds (86400 * day + 28800))
    lastOpening := some (seconds (86400 * day + 28800))
    lastWall := some (seconds (86400 * day + 36000)) }

def dailyPlan (day : Int) : Plan :=
  ⟨⟨true, some (seconds (86400 * day + 28800)), some (seconds (86400 * day + 43200))⟩,
    some (seconds (86400 * day + 28800)), some .start, none⟩

theorem gates_and_openings_sample :
    Gated (dailyPlan 0).schedule {} .idle (some .start) ∧
      (adopted [⟨{}, dailyTick (seconds 36000), .ok (some (dailyPlan 0))⟩,
        ⟨dailyState 0, dailyTick (seconds 122400), .ok (some (dailyPlan 1))⟩]).Pairwise (· < ·) ∧
      (Recovery.granted [⟨{}, .resetForOpenWindow 28800000, .ok { reset := true }⟩]).Pairwise
        (· < ·) := by
  have hfirst : PolicyOp.call (dailyTick (seconds 36000)) {} =
      .ok (some (dailyPlan 0), dailyState 0) := by decide +kernel
  have hsecond : PolicyOp.call (dailyTick (seconds 122400)) (dailyState 0) =
      .ok (some (dailyPlan 1), dailyState 1) := by decide +kernel
  have hreset : Recovery.call (.resetForOpenWindow 28800000) {} =
      .ok ({ reset := true }, { lastOpenWindowMs := some 28800000 }) := by decide +kernel
  have hplan : Policy.plan { schedule := [⟨⟨8, 0, 0, 0⟩, ⟨12, 0, 0, 0⟩⟩] }
      ⟨⟨fun _ => 0, fun minute => .single (minute * minuteNs)⟩, fun _ => none⟩ {} (seconds 36000) {} =
      .ok (dailyPlan 0, dailyState 0) := by decide +kernel
  exact ⟨gates_and_openings.1 _ _ _ _ _ _ _ hplan,
    gates_and_openings.2.1 _ _ ((Run.nil.snoc (Fires.of_ok hfirst)).snoc (Fires.of_ok hsecond)),
    gates_and_openings.2.2 _ _ (Run.nil.snoc (Fires.of_ok hreset))⟩

end DstServer
