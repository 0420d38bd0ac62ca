import DstServer.Agent.Life
import DstServer.Recovery.Rollback

/-!
# How often a game is launched between two resets

Every launch that no clean stop ends is paid for: by a restart of the
current saves, by the rollback target, or by a crash that interrupted the
target while it was being started.  `spent` is what the recovery state has
paid for, and `slack` is the one launch that the next life still has to pay
for because of its run marker.

* `Idle` is the bound between two lives and before the launch of a life,
  `Flying` the bound after the launch.
* `Safe` is either; `life_safe` shows that every effect of a life keeps it,
  with the weakest preconditions of `Lib.Journal`, and `Safe.finish` that
  every ending leads back to `Idle`.
* `launch_bound` is the result for all runs of lives.
-/

namespace DstServer.Agent

open Lib Lib.Journal Recovery

/-! ## The budget -/

/-- The launches that the recovery state has paid for. -/
def spent (state : RecoveryState) : Nat :=
  state.restartsUsed + if state.target.isSome then 1 else 0

/-- The launch that the state of the room still has to pay for. -/
def slack (control : Control) : Nat :=
  if control.recovery.closed.isSome then 1
  else
    match control.recovery.retry with
    | some retry => if retry.started then 1 else 0
    | none =>
      match control.recovery.target.map FixedTarget.phase with
      | some .preparing => 0
      | some .starting => if control.run.failure.isSome then 1 else 0
      | _ => if control.run.active || control.run.failure.isSome then 1 else 0

theorem slack_le_one (control : Control) : slack control ≤ 1 := by
  unfold slack
  split
  · exact le_refl 1
  · split
    · split <;> omega
    · split
      · omega
      · split <;> omega
      · split <;> omega

theorem slack_of_closed {control : Control} {reason : ClosedReason}
    (h : control.recovery.closed = some reason) : slack control = 1 := by
  unfold slack
  rw [h]
  rfl

/-- A recorded failure asks for no less than what it overwrites. -/
theorem slack_le_failed (control : Control) (failure : Failure) :
    slack control ≤ slack { control with run := { active := false, failure := some failure } } := by
  unfold slack
  dsimp only
  split
  · exact le_refl 1
  · split
    · exact le_refl _
    · split
      · exact le_refl 0
      · simp only [Option.isSome_some, if_true]
        split <;> omega
      · simp only [Option.isSome_some, Bool.or_true, if_true]
        split <;> omega

theorem spent_le {state : RecoveryState} (h : Consistent state) :
    spent state ≤ currentRestarts + 1 := by
  have hbudget := h.budget
  unfold spent
  split <;> omega

theorem spent_close (state : RecoveryState) (reason : ClosedReason) :
    spent (state.close reason).2 = spent state := by
  unfold spent
  rw [close_restartsUsed, close_target, Option.isSome_map]

/-- The budget depends on the used restarts and on whether a target is
fixed. -/
theorem spent_eq {state after : RecoveryState} (hbudget : after.restartsUsed = state.restartsUsed)
    (htarget : after.target.isSome = state.target.isSome) : spent after = spent state := by
  unfold spent
  rw [hbudget, htarget]

/-- A decision that does not close the recovery pays for one launch. -/
theorem spent_of_open {state after : RecoveryState} {decision : Decision}
    (h : Decided state decision after) (hclosed : after.closed = none) :
    spent state + 1 ≤ spent after := by
  cases h with
  | stayClosed reason hreason =>
    rw [hclosed] at hreason
    cases hreason
  | close => cases hclosed
  | retry =>
    dsimp only [spent]
    omega
  | fix _ _ _ hnone =>
    unfold spent
    rw [hnone]
    exact le_refl _

/-- No decision gives a launch back. -/
theorem spent_decided {state after : RecoveryState} {decision : Decision}
    (h : Decided state decision after) : spent state ≤ spent after := by
  by_cases hclosed : after.closed = none
  · have hpaid := spent_of_open h hclosed
    omega
  · cases h with
    | stayClosed => exact le_refl _
    | close reason => rw [spent_close]
    | retry _ _ hopened => exact absurd hopened hclosed
    | fix _ hopened => exact absurd hopened hclosed

theorem spent_resumed {state after : RecoveryState} {decision : Option Decision}
    (h : Resumed state decision after) : spent state ≤ spent after := by
  cases h with
  | nothing => exact le_refl _
  | replay target _ htarget =>
    unfold spent
    rw [htarget]
    exact le_refl _
  | pending => exact le_refl _
  | closed _ _ hdecided => exact spent_decided hdecided
  | failed _ _ _ hdecided => exact spent_decided hdecided

/-! ## The invariants of a life -/

/-- Nothing was launched in this life, and all earlier launches are paid
for up to the slack. -/
structure Idle (world : World) : Prop where
  consistent : Consistent world.1.recovery
  unlaunched : world.2.launched = false
  bound : world.2.launches ≤
    spent world.1.recovery + world.2.interrupted + slack world.1

/-- This life launched the game. -/
structure Flying (world : World) : Prop where
  consistent : Consistent world.1.recovery
  launched : world.2.launched = true
  /-- A counted launch is not paid for yet. -/
  bound : world.2.counted = true →
    world.2.launches ≤ spent world.1.recovery + world.2.interrupted + 1
  /-- The launch was reserved as a started retry or as a target that is
  being started, or it is marked as active. -/
  active : world.2.counted = true → world.1.run.active = true
  started : world.2.counted = true → ∀ retry ∈ world.1.recovery.retry, retry.started = true
  prepared : world.2.counted = true →
    ∀ target ∈ world.1.recovery.target, target.phase ≠ .preparing
  uncounted : world.2.counted = false → world.2.launches = 0

/-- What holds at every point of a life. -/
def Safe (world : World) : Prop := Idle world ∨ Flying world

/-- The bound on the launches in a safe world. -/
theorem Safe.bound {world : World} (h : Safe world) :
    world.2.launches ≤ 1 + currentRestarts + 1 + world.2.interrupted := by
  rcases h with h | h
  · have hspent := spent_le h.consistent
    have hslack := slack_le_one world.1
    have hbound := h.bound
    omega
  · have hspent := spent_le h.consistent
    by_cases hcounted : world.2.counted = true
    · have hbound := h.bound hcounted
      omega
    · have hzero := h.uncounted (Bool.eq_false_of_not_eq_true hcounted)
      omega

/-- The end of the previous life is settled: everything is paid for, unless
the recovery is closed. -/
structure Settled (world : World) : Prop where
  consistent : Consistent world.1.recovery
  unlaunched : world.2.launched = false
  bound : world.1.recovery.closed = none →
    world.2.launches ≤ spent world.1.recovery + world.2.interrupted
  closedBound : world.2.launches ≤ spent world.1.recovery + world.2.interrupted + 1

theorem Settled.idle {world : World} (h : Settled world) : Idle world := by
  refine ⟨h.consistent, h.unlaunched, ?_⟩
  cases hclosed : world.1.recovery.closed with
  | none =>
    have hbound := h.bound hclosed
    omega
  | some reason =>
    rw [slack_of_closed hclosed]
    exact h.closedBound

theorem Settled.safe {world : World} (h : Settled world) : Safe world := .inl h.idle

/-- The run marker does not matter once the previous life is settled. -/
theorem Settled.setRun {world : World} (h : Settled world) (run : RunState) :
    Settled ({ world.1 with run }, world.2) :=
  ⟨h.consistent, h.unlaunched, h.bound, h.closedBound⟩

/-- Everything is paid for, and the next launch may be handed out. -/
structure Paid (world : World) : Prop where
  consistent : Consistent world.1.recovery
  unlaunched : world.2.launched = false
  bound : world.2.launches ≤ spent world.1.recovery + world.2.interrupted

theorem Paid.safe {world : World} (h : Paid world) : Safe world := by
  refine .inl ⟨h.consistent, h.unlaunched, ?_⟩
  have hbound := h.bound
  omega

/-- A recovery state that has paid for no less keeps the world paid. -/
theorem Paid.setRecovery {world : World} (h : Paid world) {recovery : RecoveryState}
    (hconsistent : Consistent recovery) (hspent : spent world.1.recovery ≤ spent recovery) :
    Paid ({ world.1 with recovery }, world.2) := by
  refine ⟨hconsistent, h.unlaunched, ?_⟩
  have hbound := h.bound
  show world.2.launches ≤ spent recovery + world.2.interrupted
  omega

/-! ## Resets -/

/-- The world after a reset of the recovery budget. -/
def resetWorld (world : World) (lastOpenWindowMs : Option Nat) : World :=
  ({ world.1 with recovery := { world.1.recovery with lastOpenWindowMs := lastOpenWindowMs }.reset },
    world.2.mark .reset)

theorem Idle.reset {world : World} (h : Idle world) (lastOpenWindowMs : Option Nat) :
    Idle (resetWorld world lastOpenWindowMs) :=
  ⟨h.consistent.reset lastOpenWindowMs, h.unlaunched, Nat.zero_le _⟩

theorem Safe.reset {world : World} (h : Safe world) (lastOpenWindowMs : Option Nat) :
    Safe (resetWorld world lastOpenWindowMs) := by
  rcases h with h | h
  · exact .inl (h.reset lastOpenWindowMs)
  · refine .inr ⟨h.consistent.reset lastOpenWindowMs, h.launched, ?_, ?_, ?_, ?_, ?_⟩
    · rintro ⟨⟩
    · rintro ⟨⟩
    · rintro ⟨⟩
    · rintro ⟨⟩
    · exact fun _ => rfl

/-- An operation that resets, or leaves the state as it was. -/
def Resets (operation : RecoveryState → Outcome String (Bool × RecoveryState)) : Prop :=
  ∀ state reset after, operation state = .ok (reset, after) →
    (reset = false ∧ after = state) ∨
      (reset = true ∧ ∃ lastOpenWindowMs,
        after = { state with lastOpenWindowMs := lastOpenWindowMs }.reset)

theorem resets_openWindow (windowStartMs : Nat) : Resets (resetForOpenWindow windowStartMs) := by
  intro state reset after h
  obtain ⟨_, h, _⟩ := update_eq_ok.1 h
  unfold RecoveryState.resetForOpenWindow at h
  split at h
  · cases h
    exact .inl ⟨rfl, rfl⟩
  · cases h
    exact .inr ⟨rfl, _, rfl⟩

theorem resets_afterStable (continuousReady : Nat) : Resets (resetAfterStable continuousReady) := by
  intro state reset after h
  unfold resetAfterStable at h
  split at h
  · cases h
    exact .inl ⟨rfl, rfl⟩
  · obtain ⟨_, h, _⟩ := update_eq_ok.1 h
    obtain ⟨_, _, _, rfl, rfl⟩ := resetAfterStable_cases h
    exact .inr ⟨rfl, state.lastOpenWindowMs, rfl⟩

theorem resets_explicitStart (alwaysOpen : Bool) : Resets (explicitStart alwaysOpen) := by
  intro state reset after h
  obtain ⟨_, h, _⟩ := update_eq_ok.1 h
  unfold RecoveryState.explicitStart at h
  split at h
  · cases h
    exact .inl ⟨rfl, rfl⟩
  · cases h
    exact .inr ⟨rfl, state.lastOpenWindowMs, rfl⟩

/-! ## The rules of the steps of the Agent -/

/-- The weakest precondition of a part of a life. -/
abbrev Meets {α : Type} (m : AgentM α) (post : α → World → Prop) (world : World) : Prop :=
  Wp Ledger.mark Safe m post world

section Rules

variable {world : World}

theorem meets_loadRecovery {post : RecoveryState → World → Prop} (hsafe : Safe world)
    (hpost : post world.1.recovery world) : Meets loadRecovery post world := by
  refine wp_bind (wp_read hsafe ?_)
  split
  · exact wp_done hsafe hpost
  · exact wp_stop hsafe

theorem meets_runState {post : RunState → World → Prop} (hsafe : Safe world)
    (hpost : post world.1.run world) : Meets runState post world :=
  wp_bind (wp_read hsafe (wp_done hsafe hpost))

theorem meets_saveRun {run : RunState} {post : Unit → World → Prop} (hsafe : Safe world)
    (hafter : Safe ({ world.1 with run }, world.2))
    (hpost : post () ({ world.1 with run }, world.2)) : Meets (saveRun run) post world :=
  wp_bind (wp_read hsafe (wp_emit hsafe hafter hpost))

/-- An operation under the room lock: it is enough to look at the ways in
which it succeeds. -/
theorem meets_change {α : Type} {effect : α → Effect}
    {operation : RecoveryState → Outcome String (α × RecoveryState)} {post : α → World → Prop}
    (hsafe : Safe world)
    (h : ∀ a recovery, operation world.1.recovery = .ok (a, recovery) →
      Safe ({ world.1 with recovery }, world.2.mark (effect a)) ∧
        post a ({ world.1 with recovery }, world.2.mark (effect a))) :
    Meets (change effect operation) post world := by
  refine wp_bind (wp_read hsafe ?_)
  split
  · rename_i a recovery hok
    obtain ⟨hafter, hpost⟩ := h a recovery hok
    exact wp_bind (wp_emit hsafe hafter (wp_done hafter hpost))
  · exact wp_stop hsafe

theorem meets_update {α : Type}
    {operation : RecoveryState → Outcome String (α × RecoveryState)} {post : α → World → Prop}
    (hsafe : Safe world)
    (h : ∀ a recovery, operation world.1.recovery = .ok (a, recovery) →
      Safe ({ world.1 with recovery }, world.2) ∧ post a ({ world.1 with recovery }, world.2)) :
    Meets (update operation) post world :=
  meets_change hsafe h

/-- A resetting operation keeps every invariant that a reset keeps. -/
theorem meets_resetting {operation : RecoveryState → Outcome String (Bool × RecoveryState)}
    {inv : World → Prop} (hresets : Resets operation) (hinv : ∀ world, inv world → Safe world)
    (hreset : ∀ world lastOpenWindowMs, inv world → inv (resetWorld world lastOpenWindowMs))
    (h : inv world) : Meets (resetting operation) (fun _ => inv) world := by
  refine meets_change (hinv world h) ?_
  intro reset recovery hok
  have hafter : inv ({ world.1 with recovery },
      world.2.mark (if reset then .reset else .wrote)) := by
    rcases hresets _ _ _ hok with ⟨rfl, rfl⟩ | ⟨rfl, lastOpenWindowMs, rfl⟩
    · exact h
    · exact hreset world lastOpenWindowMs h
  exact ⟨hinv _ hafter, hafter⟩

theorem meets_enterWindow {inv : World → Prop} (hinv : ∀ world, inv world → Safe world)
    (hreset : ∀ world lastOpenWindowMs, inv world → inv (resetWorld world lastOpenWindowMs))
    (opening : Option Nat) (h : inv world) :
    Meets (enterWindow opening) (fun _ => inv) world := by
  unfold enterWindow
  split
  · rename_i opening
    refine wp_bind ((meets_resetting (resets_openWindow opening) hinv hreset h).mono ?_)
    intro _ after hafter
    exact wp_done (hinv after hafter) hafter
  · exact wp_done (hinv world h) h

end Rules

/-! ## Settling the previous life -/

/-- An operation settles the previous life when it pays for all launches
or closes the recovery. -/
theorem Idle.settle {world : World} (h : Idle world) {recovery : RecoveryState}
    (hconsistent : Consistent recovery) (hspent : spent world.1.recovery ≤ spent recovery)
    (hpaid : recovery.closed = none → world.2.launches ≤ spent recovery + world.2.interrupted) :
    Settled ({ world.1 with recovery }, world.2) := by
  have hslack := slack_le_one world.1
  have hbound := h.bound
  refine ⟨hconsistent, h.unlaunched, hpaid, ?_⟩
  show world.2.launches ≤ spent recovery + world.2.interrupted + 1
  omega

/-- A decision about the previous life settles it: it reserves a launch,
fixes a target or closes the recovery. -/
theorem Idle.decided {world : World} (h : Idle world) {decision : Decision}
    {recovery : RecoveryState} (hdecided : Decided world.1.recovery decision recovery) :
    Settled ({ world.1 with recovery }, world.2) := by
  refine h.settle (h.consistent.decided hdecided) (spent_decided hdecided) ?_
  intro hclosed
  have hslack := slack_le_one world.1
  have hbound := h.bound
  have hpaid := spent_of_open hdecided hclosed
  omega

/-- A pending launch is handed out again only where it was not launched, or
where a crash interrupted it. -/
theorem Idle.resumed {world : World} (h : Idle world) {decision : Option Decision}
    {recovery : RecoveryState} (hpending : pending world.1.recovery = true)
    (hunstarted : unstarted world.1.recovery = true ∨ world.1.run.failure = none)
    (hresumed : Resumed world.1.recovery decision recovery) :
    Settled ({ world.1 with recovery }, world.2) := by
  have hbound := h.bound
  have hconsistent := h.consistent.resumed hresumed
  have hspent := spent_resumed hresumed
  cases hresumed with
  | nothing _ htarget hretry =>
    unfold pending at hpending
    rw [hretry, htarget] at hpending
    cases hpending
  | replay target hclosed htarget hphase =>
    refine h.settle hconsistent hspent fun _ => ?_
    have hretry := h.consistent.retry_eq_none htarget hphase
    have hslack : slack world.1 = 0 := by
      unfold slack
      rw [hclosed, hretry, htarget]
      cases hstarting : target.phase with
      | preparing => simp [hstarting]
      | starting =>
        rcases hunstarted with hunstarted | hfailure
        · simp [unstarted, hretry, htarget, hstarting] at hunstarted
        · simp [hstarting, hfailure]
      | ready =>
        rw [hstarting] at hphase
        cases hphase
      | failed =>
        rw [hstarting] at hphase
        cases hphase
    omega
  | pending retry hclosed htarget hretry hstarted =>
    refine h.settle hconsistent hspent fun _ => ?_
    have hslack : slack world.1 = 0 := by
      unfold slack
      rw [hclosed, hretry]
      simp [hstarted]
    omega
  | closed _ _ hdecided => exact h.decided hdecided
  | failed _ _ _ hdecided => exact h.decided hdecided

/-- With nothing pending and a clean run marker there is nothing to pay
for. -/
theorem Idle.settled {world : World} (h : Idle world) (hactive : world.1.run.active = false)
    (hfailure : world.1.run.failure = none) (hpending : pending world.1.recovery = false) :
    Settled world := by
  have hbound := h.bound
  have hslack := slack_le_one world.1
  unfold pending at hpending
  rw [Bool.or_eq_false_iff] at hpending
  obtain ⟨hretry, htarget⟩ := hpending
  rw [Option.isSome_eq_false_iff, Option.isNone_iff_eq_none] at hretry
  rw [hasUnfinishedTarget_eq_false] at htarget
  refine ⟨h.consistent, h.unlaunched, ?_, by omega⟩
  intro hclosed
  have hzero : slack world.1 = 0 := by
    unfold slack
    rw [hclosed, hretry, hactive, hfailure]
    cases hphase : world.1.recovery.target with
    | none => rfl
    | some target =>
      have hunfinished := htarget target hphase
      cases hready : target.phase with
      | preparing =>
        rw [hready] at hunfinished
        cases hunfinished
      | starting =>
        rw [hready] at hunfinished
        cases hunfinished
      | ready => simp [hready]
      | failed => simp [hready]
  omega

/-- `initialize` settles the previous life before it goes on. -/
theorem meets_settle {world : World} (boot : Boot) (h : Idle world) :
    Meets (settle boot) (fun _ => Settled) world := by
  refine wp_bind (meets_runState (.inl h) ?_)
  refine wp_bind (meets_loadRecovery (.inl h) ?_)
  have hsave : ∀ {world : World}, Settled world → Meets (saveRun {}) (fun _ => Settled) world :=
    fun hsettled => meets_saveRun hsettled.safe (hsettled.setRun {}).safe (hsettled.setRun {})
  split
  · split
    · refine wp_bind (meets_update (.inl h) ?_)
      intro decision recovery hok
      have hsettled := h.decided (decide_cases (update_eq_ok.1 hok).2.1).1
      refine ⟨hsettled.safe, wp_bind ((hsave hsettled).mono ?_)⟩
      intro _ after hafter
      exact wp_stop hafter.safe
    · split
      · rename_i hcondition
        rw [Bool.and_eq_true, Bool.or_eq_true, Option.isNone_iff_eq_none] at hcondition
        refine wp_bind (meets_update (.inl h) ?_)
        intro decision recovery hok
        have hsettled := h.resumed hcondition.1 hcondition.2
          (resumePending_cases (update_eq_ok.1 hok).2.1)
        exact ⟨hsettled.safe, hsave hsettled⟩
      · refine wp_bind (meets_update (.inl h) ?_)
        intro decision recovery hok
        have hsettled := h.decided (decide_cases (update_eq_ok.1 hok).2.1).1
        exact ⟨hsettled.safe, hsave hsettled⟩
  · rename_i hnothing
    rw [Bool.not_eq_true, Bool.or_eq_false_iff, Bool.or_eq_false_iff] at hnothing
    have hfailure := hnothing.1.2
    rw [Option.isSome_eq_false_iff, Option.isNone_iff_eq_none] at hfailure
    have hsettled := h.settled hnothing.1.1 hfailure hnothing.2
    exact wp_done hsettled.safe hsettled

/-! ## The launch -/

/-- A decision to restart the current saves leaves no target to be
started. -/
theorem target_of_retryCurrent {state after : RecoveryState} {attempt notBeforeMs : Nat}
    {shards : SavedRoom}
    (h : Resumed state (some (.retryCurrent attempt notBeforeMs shards)) after) :
    after.hasUnfinishedTarget = false := by
  cases h with
  | pending _ _ htarget => exact htarget
  | failed _ _ _ hdecided =>
    cases hdecided with
    | retry _ _ _ htarget => exact htarget

theorem not_preparing_of_finished {state : RecoveryState}
    (h : state.hasUnfinishedTarget = false) : ∀ target ∈ state.target, target.phase ≠ .preparing := by
  intro target htarget hphase
  have hfinished := hasUnfinishedTarget_eq_false.1 h target htarget
  rw [hphase] at hfinished
  cases hfinished

/-- A paid world in which the launch is prepared: only a retry that `start`
has seen is pending, and no target waits to be prepared. -/
structure Prepared (state : RecoveryState) (world : World) : Prop extends Paid world where
  retry : state.retry = none → world.1.recovery.retry = none
  target : ∀ target ∈ world.1.recovery.target, target.phase ≠ .preparing

theorem meets_apply {world : World} {target : FixedTarget} (launch : Launch) (h : Paid world)
    (hretry : world.1.recovery.retry = none) :
    Meets (apply target launch)
      (fun _ after => Paid after ∧ after.1.recovery.retry = none ∧
        ∀ target ∈ after.1.recovery.target, target.phase ≠ .preparing) world := by
  refine wp_bind (meets_loadRecovery h.safe ?_)
  refine wp_bind (wp_stopIf h.safe fun _ => ?_)
  refine wp_bind (wp_stopIf h.safe fun _ => ?_)
  refine wp_bind (wp_stopIf h.safe fun _ => ?_)
  refine wp_bind (wp_stopIf h.safe fun _ => ?_)
  refine meets_update h.safe ?_
  intro _ recovery hok
  obtain ⟨current, hclosed, htarget, hphase, rfl⟩ := markPrepared_cases (update_eq_ok.1 hok).2.1
  have hconsistent := h.consistent.change (.prepared current hclosed htarget hphase)
  have hpaid := h.setRecovery hconsistent (by
    unfold spent
    rw [htarget]
    exact le_refl _)
  refine ⟨hpaid.safe, hpaid, hretry, ?_⟩
  rintro _ ⟨⟩ hpreparing
  cases hpreparing

theorem meets_prepare {world : World} (launch : Launch) (h : Paid world) :
    Meets (prepare world.1.recovery launch) (fun _ => Prepared world.1.recovery) world := by
  unfold prepare
  split
  · rename_i retry hretry
    refine wp_bind (wp_stopIf h.safe fun _ => ?_)
    split
    · exact wp_stop h.safe
    · refine wp_bind (meets_update h.safe ?_)
      intro decision recovery hok
      have hresumed := resumePending_cases (update_eq_ok.1 hok).2.1
      have hpaid := h.setRecovery (h.consistent.resumed hresumed) (spent_resumed hresumed)
      refine ⟨hpaid.safe, ?_⟩
      split
      · refine wp_done hpaid.safe ⟨hpaid, ?_, ?_⟩
        · intro hnone
          rw [hretry] at hnone
          cases hnone
        · exact not_preparing_of_finished (target_of_retryCurrent hresumed)
      · exact wp_stop hpaid.safe
  · rename_i hretry
    split
    · refine (meets_apply launch h hretry).mono ?_
      rintro _ after ⟨hpaid, hnone, htarget⟩
      exact ⟨hpaid, fun _ => hnone, htarget⟩
    · rename_i hfilter
      refine wp_done h.safe ⟨h, fun hnone => hnone, ?_⟩
      rw [Option.filter_eq_none_iff] at hfilter
      intro target htarget hphase
      exact hfilter target htarget (by rw [hphase]; rfl)

/-- A paid world that the next effect may launch. -/
structure Ready (world : World) : Prop extends Paid world where
  retry : ∀ retry ∈ world.1.recovery.retry, retry.started = true
  target : ∀ target ∈ world.1.recovery.target, target.phase ≠ .preparing

theorem meets_beginRetry {world : World} {state : RecoveryState} (launch : Launch)
    (h : Prepared state world) : Meets (beginRetry state launch) (fun _ => Ready) world := by
  unfold beginRetry
  split
  · refine meets_update h.safe ?_
    intro _ recovery hok
    obtain ⟨retry, hretry, hstarted, hclosed, _, rfl⟩ :=
      beginCurrentRetry_cases (update_eq_ok.1 hok).2.1
    have hpaid := h.toPaid.setRecovery
      (h.consistent.change (.begun retry hretry hstarted hclosed)) (le_refl _)
    refine ⟨hpaid.safe, hpaid, ?_, h.target⟩
    rintro _ ⟨⟩
    rfl
  · rename_i hnone
    refine wp_done h.safe ⟨h.toPaid, ?_, h.target⟩
    rw [h.retry hnone]
    simp

/-- Marking the room as ready ends the reservation that was launched. -/
theorem Flying.ready {world : World} (h : Flying world) {recovery : RecoveryState}
    (hok : world.1.recovery.markReady = .ok ((), recovery)) :
    Flying ({ world.1 with recovery }, world.2) := by
  obtain ⟨hclosed, hretry, htarget, hrecovery⟩ := markReady_cases hok
  have hconsistent : Consistent recovery := by
    rw [hrecovery]
    exact h.consistent.change (.ready hclosed hretry htarget)
  have hspent : spent recovery = spent world.1.recovery := by
    rw [hrecovery]
    exact spent_eq rfl Option.isSome_map
  refine ⟨hconsistent, h.launched, ?_, h.active, ?_, ?_, h.uncounted⟩
  · intro hcounted
    have hbound := h.bound hcounted
    show world.2.launches ≤ spent recovery + world.2.interrupted + 1
    omega
  · rw [hrecovery]
    simp
  · intro _ target hmem
    rw [hrecovery, Option.mem_def, Option.map_eq_some_iff] at hmem
    obtain ⟨previous, _, rfl⟩ := hmem
    simp

theorem meets_launchGame {world : World} (launch : Launch) (h : Ready world) :
    Meets (launchGame launch) (fun _ => Safe) world := by
  have hsaved : Paid ({ world.1 with run := { active := true, failure := none } }, world.2) :=
    ⟨h.consistent, h.unlaunched, h.bound⟩
  refine wp_bind (meets_saveRun h.safe hsaved.safe ?_)
  refine wp_bind (wp_read hsaved.safe ?_)
  have hflying : Flying ({ world.1 with run := { active := true, failure := none } },
      world.2.mark .launched) := by
    refine ⟨h.consistent, rfl, ?_, fun _ => rfl, fun _ => h.retry, fun _ => h.target, ?_⟩
    · intro _
      have hbound := h.bound
      show world.2.launches + 1 ≤ spent world.1.recovery + world.2.interrupted + 1
      omega
    · rintro ⟨⟩
  refine wp_bind (wp_emit hsaved.safe (.inr hflying) ?_)
  split
  · refine meets_update (.inr hflying) ?_
    intro _ recovery hok
    have hready := hflying.ready (update_eq_ok.1 hok).2.1
    exact ⟨.inr hready, .inr hready⟩
  · exact wp_stop (.inr hflying)

theorem meets_start {world : World} (launch : Launch) (h : Settled world) :
    Meets (start launch) (fun _ => Safe) world := by
  refine wp_bind (wp_stopIf h.safe fun _ => ?_)
  split
  · exact wp_done h.safe h.safe
  · refine wp_bind (meets_loadRecovery h.safe ?_)
    refine wp_bind (wp_stopIf h.safe fun hclosed => ?_)
    have hpaid : Paid world := ⟨h.consistent, h.unlaunched, h.bound (not_not.1 hclosed)⟩
    refine wp_bind ((meets_prepare launch hpaid).mono ?_)
    intro _ prepared hprepared
    refine wp_bind (wp_stopIf hprepared.safe fun _ => ?_)
    refine wp_bind ((meets_beginRetry launch hprepared).mono ?_)
    intro _ ready hready
    exact meets_launchGame launch hready

/-! ## Whole lives -/

theorem meets_initializeRoom {world : World} (boot : Boot) (h : Idle world) :
    Meets (initializeRoom boot) (fun _ => Safe) world := by
  have hopen : Meets (openRoom boot) (fun _ => Idle) world := by
    refine wp_bind (wp_stopIf (.inl h) fun _ => ?_)
    refine wp_bind ((meets_enterWindow (fun _ => .inl) (fun _ _ hidle => hidle.reset _)
      boot.opening h).mono ?_)
    intro _ entered hentered
    refine wp_bind (wp_stopIf (.inl hentered) fun _ => ?_)
    refine wp_bind (meets_loadRecovery (.inl hentered) ?_)
    refine wp_bind (wp_stopIf (.inl hentered) fun _ => ?_)
    exact wp_stopIf (.inl hentered) fun _ => hentered
  refine wp_bind (hopen.mono ?_)
  intro _ opened hopened
  refine wp_bind ((meets_settle boot hopened).mono ?_)
  intro _ settled hsettled
  refine wp_bind (meets_loadRecovery hsettled.safe ?_)
  refine wp_bind (wp_stopIf hsettled.safe fun _ => ?_)
  exact meets_start boot.launch hsettled

theorem meets_tick {world : World} (input : Tick) (h : Safe world) :
    Meets (tick input) (fun _ => Safe) world := by
  have hreset : ∀ world lastOpenWindowMs, Safe world → Safe (resetWorld world lastOpenWindowMs) :=
    fun _ lastOpenWindowMs hsafe => hsafe.reset lastOpenWindowMs
  have hstable : Meets (resetStable input.stable) (fun _ => Safe) world := by
    unfold resetStable
    split
    · split
      · refine wp_bind (meets_loadRecovery h ?_)
        split
        · refine wp_bind ((meets_resetting (resets_afterStable _) (fun _ => id) hreset h).mono ?_)
          intro _ after hafter
          exact wp_done hafter hafter
        · exact wp_done h h
      · exact wp_done h h
    · exact wp_done h h
  refine wp_bind (hstable.mono ?_)
  intro _ after hafter
  exact meets_enterWindow (fun _ => id) hreset input.newOpening hafter

/-- Every effect of a life keeps the bound. -/
theorem life_safe {world : World} (inputs : Inputs) (h : Idle world) :
    Meets (life inputs) (fun _ => Safe) world := by
  refine wp_bind ((meets_initializeRoom inputs.boot h).mono ?_)
  intro _ started hstarted
  refine wp_forM (fun _ => id) ?_ hstarted
  intro input _ before hbefore
  exact wp_attempt (meets_tick input hbefore) fun _ => id

/-- A life that launched nothing ends as paid as it began. -/
theorem Idle.finish {world : World} (h : Idle world) (ending : Ending) :
    Idle (ending.finish world) := by
  obtain ⟨control, ledger⟩ := world
  have hunlaunched : ledger.launched = false := h.unlaunched
  have hbound : ledger.launches ≤ spent control.recovery + ledger.interrupted + slack control :=
    h.bound
  cases ending with
  | crash =>
    have hfinish : Ending.crash.finish (control, ledger) = (control, ledger.endLife) := by
      simp [Ending.finish, Ledger.endLife, hunlaunched]
    rw [hfinish]
    exact ⟨h.consistent, rfl, hbound⟩
  | recordStop =>
    have hfinish : Ending.recordStop.finish (control, ledger) = (control, ledger.endLife) := by
      simp [Ending.finish, hunlaunched]
    rw [hfinish]
    exact ⟨h.consistent, rfl, hbound⟩
  | persistFailure failure =>
    refine ⟨h.consistent, rfl, ?_⟩
    show ledger.launches ≤ spent control.recovery + ledger.interrupted +
      slack { control with run := { active := false, failure := some failure } }
    have hslack := slack_le_failed control failure
    omega

/-- The next life pays for a counted launch, unless a crash interrupted the
launch of the target. -/
theorem Flying.slack_eq_one {world : World} (h : Flying world) (hcounted : world.2.counted = true)
    {run : RunState} (hrun : (run.active || run.failure.isSome) = true)
    (hrestoring : restoring world.1 = true → run.failure.isSome = true) :
    slack { world.1 with run } = 1 := by
  unfold slack
  split
  · rfl
  · cases hretry : world.1.recovery.retry with
    | some retry => simp [h.started hcounted retry hretry]
    | none =>
      cases htarget : world.1.recovery.target with
      | none => simp
      | some target =>
        cases hphase : target.phase with
        | preparing => exact absurd hphase (h.prepared hcounted target htarget)
        | starting =>
          have hfailure := hrestoring (by simp [restoring, htarget, hphase])
          simp [hphase, hfailure]
        | ready => simp [hphase]
        | failed => simp [hphase]

/-- The end of a life whose launch is counted. -/
theorem Flying.finish {world : World} (h : Flying world) (hcounted : world.2.counted = true)
    (ending : Ending) : Idle (ending.finish world) := by
  obtain ⟨control, ledger⟩ := world
  have hlaunched : ledger.launched = true := h.launched
  have hactive : control.run.active = true := h.active hcounted
  have hbound : ledger.launches ≤ spent control.recovery + ledger.interrupted + 1 :=
    h.bound hcounted
  cases ending with
  | crash =>
    refine ⟨h.consistent, rfl, ?_⟩
    -- a crash during the launch of a target pays for it, any other one is
    -- seen by the next life
    by_cases hrestoring : restoring control = true
    · simp only [Ending.finish, Ledger.endLife, hlaunched, hrestoring, Bool.and_self, if_true]
      omega
    · have hslack : slack control = 1 :=
        h.slack_eq_one hcounted (by rw [hactive]; rfl) fun hstarting => absurd hstarting hrestoring
      simp only [Ending.finish, Ledger.endLife, hlaunched, hrestoring, Bool.true_and,
        Bool.false_eq_true, if_false]
      omega
  | recordStop =>
    have hfinish : Ending.recordStop.finish (control, ledger) = ({ control with run := {} },
        { ledger with launches := ledger.launches - 1 }.endLife) := by
      simp only [Ending.finish, hlaunched, if_true]
      rw [if_pos hcounted]
    rw [hfinish]
    refine ⟨h.consistent, rfl, ?_⟩
    show ledger.launches - 1 ≤ spent control.recovery + ledger.interrupted + _
    omega
  | persistFailure failure =>
    refine ⟨h.consistent, rfl, ?_⟩
    show ledger.launches ≤ spent control.recovery + ledger.interrupted +
      slack { control with run := { active := false, failure := some failure } }
    have hslack :
        slack { control with run := { active := false, failure := some failure } } = 1 :=
      h.slack_eq_one hcounted rfl fun _ => rfl
    omega

/-- After a reset nothing is left to pay for. -/
theorem idle_of_no_launches {world : World} (hconsistent : Consistent world.1.recovery)
    (h : world.2.launches = 0) (ending : Ending) : Idle (ending.finish world) := by
  obtain ⟨control, ledger⟩ := world
  have hzero : ledger.launches = 0 := h
  cases ending with
  | crash =>
    refine ⟨hconsistent, rfl, ?_⟩
    show ledger.launches ≤ _
    omega
  | recordStop =>
    by_cases hlaunched : ledger.launched = true
    · have hfinish : Ending.recordStop.finish (control, ledger) =
          ({ control with run := {} }, { ledger with launches := 0 }.endLife) := by
        simp [Ending.finish, hlaunched, hzero]
      rw [hfinish]
      exact ⟨hconsistent, rfl, Nat.zero_le _⟩
    · have hfinish : Ending.recordStop.finish (control, ledger) = (control, ledger.endLife) := by
        simp [Ending.finish, hlaunched]
      rw [hfinish]
      refine ⟨hconsistent, rfl, ?_⟩
      show ledger.launches ≤ _
      omega
  | persistFailure failure =>
    refine ⟨hconsistent, rfl, ?_⟩
    show ledger.launches ≤ _
    omega

/-- Every ending of a life leaves all launches paid for, up to the slack of
the run marker. -/
theorem Safe.finish {world : World} (h : Safe world) (ending : Ending) :
    Idle (ending.finish world) := by
  rcases h with h | h
  · exact h.finish ending
  · by_cases hcounted : world.2.counted = true
    · exact h.finish hcounted ending
    · exact idle_of_no_launches h.consistent
        (h.uncounted (Bool.eq_false_of_not_eq_true hcounted)) ending

theorem during_safe {world : World} (h : Idle world) (inputs : Inputs) (cut : Nat) :
    Safe (during world inputs cut) :=
  (life_safe inputs h).safe_take cut

theorem Idle.play {world : World} (h : Idle world) (episode : Episode) :
    Idle (Agent.play world episode) := by
  cases episode with
  | explicitStart alwaysOpen =>
    unfold Agent.play
    dsimp only
    split
    · rename_i recovery hok
      rcases resets_explicitStart alwaysOpen _ _ _ hok with ⟨hreset, _⟩ | ⟨_, opening, rfl⟩
      · cases hreset
      · exact h.reset opening
    · rename_i recovery hok
      rcases resets_explicitStart alwaysOpen _ _ _ hok with ⟨_, rfl⟩ | ⟨hreset, _⟩
      · exact h
      · cases hreset
    · exact h
  | life inputs cut ending => exact (during_safe h inputs cut).finish ending

/-- Between two lives everything is paid for, up to the slack. -/
theorem idle_history (episodes : List Episode) : Idle (history episodes) := by
  unfold history
  induction episodes using List.reverseRecOn with
  | nil => exact ⟨consistent_default, rfl, Nat.zero_le _⟩
  | append_singleton episodes episode ih =>
    rw [List.foldl_concat]
    exact ih.play episode

/-! ## Crashes during the launch of the target -/

def sampleLaunch : Launch where
  closing := false
  running := false
  openAfterDelay := true
  required := sampleRequired
  catalogs := some sampleCatalogs
  nowMs := 0
  topology := sampleRequired
  applied := true
  closed := false
  beginMs := 0
  started := true

def sampleInputs : Inputs where
  boot :=
    { scheduleOpen := true, manual := false, opening := none, policyFailed := false,
      maintained := true, required := sampleRequired, catalogs := some sampleCatalogs,
      nowMs := 0, launch := sampleLaunch }
  ticks := []

/-- Three load failures lead to the rollback, and two crashes interrupt it
right after its launch, before it is marked ready. -/
def sampleEpisodes : List Episode :=
  [.life sampleInputs 8 (.persistFailure sampleFailure),
    .life sampleInputs 8 (.persistFailure sampleFailure),
    .life sampleInputs 8 (.persistFailure sampleFailure),
    .life sampleInputs 5 .crash, .life sampleInputs 5 .crash]

/-- An interrupted rollback is launched again after every crash, so the
launches alone are not bounded by the budget. -/
theorem launches_exceed_budget :
    (history sampleEpisodes).2.launches = 5 ∧
      1 + currentRestarts + 1 < (history sampleEpisodes).2.launches := by
  decide +kernel

/-! ## The bound -/

/-- At every point of every run of lives: the launches since the last reset
of the recovery budget that no recorded clean stop ended are at most the
initial one, the restarts of the current saves, the rollback target, and one
for every crash that interrupted the launch of the target before it was
marked ready. -/
theorem launch_bound (episodes : List Episode) (inputs : Inputs) (cut : Nat) :
    let now := during (history episodes) inputs cut
    now.2.launches ≤ 1 + currentRestarts + 1 + now.2.interrupted :=
  (during_safe (idle_history episodes) inputs cut).bound

end DstServer.Agent
