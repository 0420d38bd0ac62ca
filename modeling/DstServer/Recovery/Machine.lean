import DstServer.Recovery.Steps

/-!
# The recovery machine and its invariant

`Op` lists the operations that the Agent calls on the recovery state,
`call` runs one of them on a saved state and `Op.change` is the same
operation without the validation of the saved state and of the new one.

`Consistent` is the invariant.  It says what `validate` checks and, beyond
that, that a pending retry excludes an unfinished target and a closed
recovery.  Every operation keeps it (`consistent_call`), and in a
consistent state the two validations of `update` pass, so that an operation
fails only for a reason of its own (`call_eq_change`).
-/

namespace DstServer.Recovery

open Lib Lib.Outcome

/-! ## Operations -/

inductive Op where
  | onFailure (failure : Failure) (required : OrderedSet String) (catalogs : Catalogs)
      (nowMs : Nat)
  | resumePending (required : OrderedSet String) (catalogs : Catalogs) (nowMs : Nat)
  | beginCurrentRetry (nowMs : Nat)
  | markPrepared
  | markReady
  | resetAfterStable (continuousReady : Nat)
  | resetForOpenWindow (windowStartMs : Nat)
  | explicitStart (alwaysOpen : Bool)

/-- What an operation returns: the decision that it took, and whether it
reset the recovery. -/
structure Report where
  decision : Option Decision := none
  reset : Bool := false
  deriving DecidableEq

/-- The result of an operation as a report. -/
def report {α : Type} (f : α → Report) (result : Outcome String (α × RecoveryState)) :
    Outcome String (Report × RecoveryState) :=
  result.map (Prod.map f id)

/-- One operation on a saved state. -/
def call : Op → RecoveryState → Outcome String (Report × RecoveryState)
  | .onFailure failure required catalogs nowMs, state =>
    report (fun decision => { decision := some decision })
      (onFailure failure required catalogs nowMs state)
  | .resumePending required catalogs nowMs, state =>
    report (fun decision => { decision }) (resumePending required catalogs nowMs state)
  | .beginCurrentRetry nowMs, state => report (fun _ => {}) (beginCurrentRetry nowMs state)
  | .markPrepared, state => report (fun _ => {}) (markPrepared state)
  | .markReady, state => report (fun _ => {}) (markReady state)
  | .resetAfterStable continuousReady, state =>
    report (fun reset => { reset }) (resetAfterStable continuousReady state)
  | .resetForOpenWindow windowStartMs, state =>
    report (fun reset => { reset }) (resetForOpenWindow windowStartMs state)
  | .explicitStart alwaysOpen, state =>
    report (fun reset => { reset }) (explicitStart alwaysOpen state)

/-- One operation without the validation before and after it. -/
def Op.change : Op → RecoveryState → Outcome String (Report × RecoveryState)
  | .onFailure failure required catalogs nowMs, state =>
    report (fun decision => { decision := some decision })
      (state.decide failure required catalogs nowMs)
  | .resumePending required catalogs nowMs, state =>
    report (fun decision => { decision }) (state.resumePending required catalogs nowMs)
  | .beginCurrentRetry nowMs, state => report (fun _ => {}) (state.beginCurrentRetry nowMs)
  | .markPrepared, state => report (fun _ => {}) state.markPrepared
  | .markReady, state => report (fun _ => {}) state.markReady
  | .resetAfterStable continuousReady, state =>
    report (fun reset => { reset })
      (if continuousReady < stableReset then .ok (false, state) else state.resetAfterStable)
  | .resetForOpenWindow windowStartMs, state =>
    report (fun reset => { reset }) (state.resetForOpenWindow windowStartMs)
  | .explicitStart alwaysOpen, state =>
    report (fun reset => { reset }) (state.explicitStart alwaysOpen)

/-- A sequence of operations, some of which may fail, on a saved state. -/
abbrev History (events : List (Event RecoveryState Op Report String)) (state : RecoveryState) :
    Prop :=
  Run (Fires call) {} events state

/-! ## What one operation can change -/

/-- The ways in which an operation can succeed. -/
inductive Change (state : RecoveryState) : Report → RecoveryState → Prop
  /-- Nothing happens. -/
  | idle : Change state {} state
  | decided (decision : Decision) (after : RecoveryState) (h : Decided state decision after) :
      Change state { decision := some decision } after
  | resumed (decision : Option Decision) (after : RecoveryState)
      (h : Resumed state decision after) : Change state { decision } after
  /-- A reserved retry is started. -/
  | begun (retry : CurrentRetry) (hretry : state.retry = some retry)
      (hstarted : retry.started = false) (hclosed : state.closed = none) :
      Change state {} { state with retry := some { retry with started := true } }
  /-- The files of a target are in place. -/
  | prepared (target : FixedTarget) (hclosed : state.closed = none)
      (htarget : state.target = some target) (hphase : target.phase = .preparing) :
      Change state {} { state with target := some { target with phase := .starting } }
  /-- The room is ready. -/
  | ready (hclosed : state.closed = none)
      (hretry : ∀ retry ∈ state.retry, retry.started = true)
      (htarget : ∀ target ∈ state.target, target.phase = .starting ∨ target.phase = .ready) :
      Change state {} { state with
        target := state.target.map fun target => { target with phase := .ready }
        retry := none }
  /-- The recovery is reset, with a new opening or for the last one. -/
  | reset (lastOpenWindowMs : Option Nat) :
      Change state { reset := true }
        { state with lastOpenWindowMs := lastOpenWindowMs }.reset

theorem report_eq_ok {α : Type} {f : α → Report} {result : Outcome String (α × RecoveryState)}
    {r : Report} {after : RecoveryState} :
    report f result = .ok (r, after) ↔ ∃ a, result = .ok (a, after) ∧ f a = r := by
  unfold report
  cases result with
  | error fault => simp [Except.map]
  | ok value =>
    simp only [Except.map, Except.ok.injEq, Prod.map, Prod.mk.injEq, id]
    constructor
    · rintro ⟨rfl, rfl⟩
      exact ⟨_, rfl, rfl⟩
    · rintro ⟨_, rfl, rfl⟩
      exact ⟨rfl, rfl⟩

theorem beginCurrentRetry_cases {state after : RecoveryState} {nowMs : Nat} {u : Unit}
    (h : state.beginCurrentRetry nowMs = .ok (u, after)) :
    ∃ retry, state.retry = some retry ∧ retry.started = false ∧ state.closed = none ∧
      retry.notBeforeMs ≤ nowMs ∧
      after = { state with retry := some { retry with started := true } } := by
  unfold RecoveryState.beginCurrentRetry at h
  rw [bind_eq_ok] at h
  obtain ⟨retry, hretry, h⟩ := h
  rw [bind_eq_ok] at h
  obtain ⟨_, hready, h⟩ := h
  rw [ensure_eq_ok] at hready
  cases h
  exact ⟨retry, orError_eq_ok.1 hretry, hready.1, hready.2.2, hready.2.1, rfl⟩

theorem markPrepared_cases {state after : RecoveryState} {u : Unit}
    (h : state.markPrepared = .ok (u, after)) :
    ∃ target, state.closed = none ∧ state.target = some target ∧ target.phase = .preparing ∧
      after = { state with target := some { target with phase := .starting } } := by
  unfold RecoveryState.markPrepared at h
  rw [bind_eq_ok] at h
  obtain ⟨_, hclosed, h⟩ := h
  rw [bind_eq_ok] at h
  obtain ⟨target, htarget, h⟩ := h
  rw [bind_eq_ok] at h
  obtain ⟨_, hphase, h⟩ := h
  cases h
  exact ⟨target, ensure_eq_ok.1 hclosed, orError_eq_ok.1 htarget, ensure_eq_ok.1 hphase, rfl⟩

theorem markReady_cases {state after : RecoveryState} {u : Unit}
    (h : state.markReady = .ok (u, after)) :
    state.closed = none ∧ (∀ retry ∈ state.retry, retry.started = true) ∧
      (∀ target ∈ state.target, target.phase = .starting ∨ target.phase = .ready) ∧
      after = { state with
        target := state.target.map fun target => { target with phase := .ready }
        retry := none } := by
  unfold RecoveryState.markReady at h
  rw [bind_eq_ok] at h
  obtain ⟨_, hclosed, h⟩ := h
  rw [bind_eq_ok] at h
  obtain ⟨_, hretry, h⟩ := h
  rw [bind_eq_ok] at h
  obtain ⟨_, htarget, h⟩ := h
  cases h
  exact ⟨ensure_eq_ok.1 hclosed, ensure_eq_ok.1 hretry, ensure_eq_ok.1 htarget, rfl⟩

theorem resetAfterStable_cases {state after : RecoveryState} {reset : Bool}
    (h : state.resetAfterStable = .ok (reset, after)) :
    state.closed = none ∧ state.retry = none ∧
      (∀ target ∈ state.target, target.phase = .ready) ∧ reset = true ∧ after = state.reset := by
  unfold RecoveryState.resetAfterStable at h
  rw [bind_eq_ok] at h
  obtain ⟨_, hclosed, h⟩ := h
  rw [bind_eq_ok] at h
  obtain ⟨_, htarget, h⟩ := h
  cases h
  rw [ensure_eq_ok] at hclosed
  exact ⟨hclosed.1, hclosed.2, ensure_eq_ok.1 htarget, rfl, rfl⟩

/-- The inversion of an operation on a state that was validated already. -/
theorem Op.change_cases {op : Op} {state after : RecoveryState} {r : Report}
    (h : op.change state = .ok (r, after)) : Change state r after := by
  cases op with
  | onFailure failure required catalogs nowMs =>
    obtain ⟨decision, hop, rfl⟩ := report_eq_ok.1 h
    exact .decided decision after (decide_cases hop).1
  | resumePending required catalogs nowMs =>
    obtain ⟨decision, hop, rfl⟩ := report_eq_ok.1 h
    exact .resumed decision after (resumePending_cases hop)
  | beginCurrentRetry nowMs =>
    obtain ⟨_, hop, rfl⟩ := report_eq_ok.1 h
    obtain ⟨retry, hretry, hstarted, hclosed, _, rfl⟩ := beginCurrentRetry_cases hop
    exact .begun retry hretry hstarted hclosed
  | markPrepared =>
    obtain ⟨_, hop, rfl⟩ := report_eq_ok.1 h
    obtain ⟨target, hclosed, htarget, hphase, rfl⟩ := markPrepared_cases hop
    exact .prepared target hclosed htarget hphase
  | markReady =>
    obtain ⟨_, hop, rfl⟩ := report_eq_ok.1 h
    obtain ⟨hclosed, hretry, htarget, rfl⟩ := markReady_cases hop
    exact .ready hclosed hretry htarget
  | resetAfterStable continuousReady =>
    obtain ⟨reset, hop, rfl⟩ := report_eq_ok.1 h
    split at hop
    · cases hop
      exact .idle
    · obtain ⟨_, _, _, rfl, rfl⟩ := resetAfterStable_cases hop
      exact .reset state.lastOpenWindowMs
  | resetForOpenWindow windowStartMs =>
    obtain ⟨reset, hop, rfl⟩ := report_eq_ok.1 h
    unfold RecoveryState.resetForOpenWindow at hop
    split at hop
    · cases hop
      exact .idle
    · cases hop
      exact .reset (some windowStartMs)
  | explicitStart alwaysOpen =>
    obtain ⟨reset, hop, rfl⟩ := report_eq_ok.1 h
    unfold RecoveryState.explicitStart at hop
    split at hop
    · cases hop
      exact .idle
    · cases hop
      exact .reset state.lastOpenWindowMs

/-! ## The invariant -/

/-- What holds of the saved state between two operations. -/
structure Consistent (state : RecoveryState) : Prop where
  budget : state.restartsUsed ≤ currentRestarts
  retryCounted : ∀ retry ∈ state.retry, 0 < state.restartsUsed
  retryRoom : ∀ retry ∈ state.retry, VerifiedRoom retry.shards
  retryOpen : ∀ retry ∈ state.retry, state.closed = none
  retryTarget : ∀ retry ∈ state.retry, state.hasUnfinishedTarget = false
  target : ∀ target ∈ state.target, VerifiedTarget target

theorem consistent_default : Consistent {} := by
  refine ⟨Nat.zero_le _, ?_, ?_, ?_, ?_, ?_⟩ <;> simp

section Consistent

variable {state after : RecoveryState}

/-- The phase of a target is not part of its verification. -/
theorem VerifiedTarget.setPhase {target : FixedTarget} (h : VerifiedTarget target)
    (phase : TargetPhase) : VerifiedTarget { target with phase } :=
  ⟨h.room, h.snapshotId⟩

/-- A state without a pending retry is consistent when its budget and its
target are. -/
theorem consistent_of_no_retry (hbudget : state.restartsUsed ≤ currentRestarts)
    (hretry : state.retry = none) (htarget : ∀ target ∈ state.target, VerifiedTarget target) :
    Consistent state := by
  refine ⟨hbudget, ?_, ?_, ?_, ?_, htarget⟩ <;> simp [hretry]

theorem Consistent.close (h : Consistent state) (reason : ClosedReason) :
    Consistent (state.close reason).2 := by
  refine consistent_of_no_retry h.budget rfl ?_
  intro target htarget
  rw [close_target, Option.mem_def, Option.map_eq_some_iff] at htarget
  obtain ⟨previous, hprevious, rfl⟩ := htarget
  have hverified := h.target previous hprevious
  split
  · exact hverified.setPhase _
  · exact hverified

theorem Consistent.reset (h : Consistent state) (lastOpenWindowMs : Option Nat) :
    Consistent { state with lastOpenWindowMs := lastOpenWindowMs }.reset := by
  refine consistent_of_no_retry (Nat.zero_le _) rfl ?_
  intro target htarget
  rw [reset_target] at htarget
  cases hprevious : state.target with
  | none => simp [hprevious] at htarget
  | some previous =>
    simp only [hprevious] at htarget
    split at htarget
    · cases htarget
    · cases htarget
      exact (h.target previous hprevious).setPhase _

/-- A retry and an unfinished target exclude each other. -/
theorem Consistent.retry_eq_none (h : Consistent state) {target : FixedTarget}
    (htarget : state.target = some target) (hphase : target.phase.unfinished = true) :
    state.retry = none := by
  cases hretry : state.retry with
  | none => rfl
  | some retry =>
    have hnone := hasUnfinishedTarget_eq_false.1 (h.retryTarget retry hretry) target htarget
    rw [hphase] at hnone
    cases hnone

theorem Consistent.decided (h : Consistent state) {decision : Decision}
    (hdecided : Decided state decision after) : Consistent after := by
  cases hdecided with
  | stayClosed => exact h
  | close reason => exact h.close reason
  | retry notBeforeMs latest hclosed htarget hbudget hroom =>
    exact {
      budget := hbudget
      retryCounted := fun _ _ => Nat.succ_pos _
      retryRoom := fun retry hretry => by
        cases hretry
        exact hroom
      retryOpen := fun _ _ => hclosed
      retryTarget := fun _ _ => htarget
      target := h.target }
  | fix target hclosed hbudget hnone hphase htarget =>
    refine consistent_of_no_retry h.budget rfl ?_
    intro fixed hfixed
    cases hfixed
    exact htarget

theorem Consistent.resumed (h : Consistent state) {decision : Option Decision}
    (hresumed : Resumed state decision after) : Consistent after := by
  cases hresumed with
  | nothing => exact h
  | replay target hclosed htarget hphase =>
    have hretry := h.retry_eq_none htarget hphase
    refine consistent_of_no_retry h.budget hretry ?_
    intro prepared hprepared
    cases hprepared
    exact (h.target target htarget).setPhase _
  | pending => exact h
  | closed _ _ hdecided => exact h.decided hdecided
  | failed _ _ _ hdecided => exact h.decided hdecided

/-- Every operation keeps the invariant. -/
theorem Consistent.change (h : Consistent state) {r : Report} (hchange : Change state r after) :
    Consistent after := by
  cases hchange with
  | idle => exact h
  | decided _ _ hdecided => exact h.decided hdecided
  | resumed _ _ hresumed => exact h.resumed hresumed
  | begun retry hretry =>
    exact {
      budget := h.budget
      retryCounted := fun _ _ => h.retryCounted retry hretry
      retryRoom := fun begun hbegun => by
        cases hbegun
        exact h.retryRoom retry hretry
      retryOpen := fun _ _ => h.retryOpen retry hretry
      retryTarget := fun _ _ => h.retryTarget retry hretry
      target := h.target }
  | prepared target hclosed htarget hphase =>
    have hretry := h.retry_eq_none htarget (by rw [hphase]; rfl)
    refine consistent_of_no_retry h.budget hretry ?_
    intro starting hstarting
    cases hstarting
    exact (h.target target htarget).setPhase _
  | ready =>
    refine consistent_of_no_retry h.budget rfl ?_
    intro target htarget
    rw [Option.mem_def, Option.map_eq_some_iff] at htarget
    obtain ⟨previous, hprevious, rfl⟩ := htarget
    exact (h.target previous hprevious).setPhase _
  | reset lastOpenWindowMs => exact h.reset lastOpenWindowMs

/-! ## Validation -/

theorem validateTarget_of_verified (h : ∀ target ∈ state.target, VerifiedTarget target) :
    state.validateTarget = .ok () := by
  unfold RecoveryState.validateTarget
  cases htarget : state.target with
  | none => rfl
  | some target =>
    have hverified := h target htarget
    show (ensure _ _ >>= fun _ => target.shards.values.forM _) = .ok ()
    rw [ensure_of hverified.room.nonempty, ok_bind, forM_eq_ok]
    intro shard hshard
    rw [hverified.room.verified shard hshard, ok_bind]
    exact ensure_of (hverified.snapshotId shard hshard) _

/-- A consistent state passes its own validation. -/
theorem Consistent.validate (h : Consistent state) : state.validate = .ok () := by
  have hretry : state.validateRetry = .ok () := by
    unfold RecoveryState.validateRetry
    cases hretry : state.retry with
    | none => rfl
    | some retry =>
      have hroom := h.retryRoom retry hretry
      show (ensure _ _ >>= fun _ => retry.shards.values.forM verifySaved) = .ok ()
      rw [ensure_of ⟨h.retryCounted retry hretry, hroom.nonempty, h.retryOpen retry hretry⟩,
        ok_bind, forM_eq_ok]
      exact hroom.verified
  unfold RecoveryState.validate
  rw [ensure_of h.budget, ok_bind, hretry, ok_bind, validateTarget_of_verified h.target]

/-- On a consistent state, and when the change leaves one, `update` is the
change itself. -/
theorem update_eq {α : Type} {change : RecoveryState → Outcome String (α × RecoveryState)}
    (h : Consistent state)
    (hchange : ∀ a after, change state = .ok (a, after) → Consistent after) :
    update change state = change state := by
  unfold update
  rw [h.validate, ok_bind]
  cases hresult : change state with
  | error fault => rfl
  | ok value =>
    obtain ⟨a, after⟩ := value
    show (after.validate >>= fun _ => pure (a, after)) = .ok (a, after)
    rw [(hchange a after hresult).validate]
    rfl

/-- No operation on a consistent state fails because of a validation. -/
theorem call_eq_change (h : Consistent state) (op : Op) : call op state = op.change state := by
  have hkeep : ∀ (op : Op) r after, op.change state = .ok (r, after) → Consistent after :=
    fun op r after hok => h.change (Op.change_cases hok)
  cases op with
  | onFailure failure required catalogs nowMs =>
    refine congrArg (report _) (update_eq h ?_)
    intro decision after hok
    exact h.decided (decide_cases hok).1
  | resumePending required catalogs nowMs =>
    refine congrArg (report _) (update_eq h ?_)
    intro decision after hok
    exact h.resumed (resumePending_cases hok)
  | beginCurrentRetry nowMs =>
    refine congrArg (report _) (update_eq h ?_)
    intro u after hok
    exact hkeep (.beginCurrentRetry nowMs) {} after (report_eq_ok.2 ⟨u, hok, rfl⟩)
  | markPrepared =>
    refine congrArg (report _) (update_eq h ?_)
    intro u after hok
    exact hkeep .markPrepared {} after (report_eq_ok.2 ⟨u, hok, rfl⟩)
  | markReady =>
    refine congrArg (report _) (update_eq h ?_)
    intro u after hok
    exact hkeep .markReady {} after (report_eq_ok.2 ⟨u, hok, rfl⟩)
  | resetAfterStable continuousReady =>
    refine congrArg (report _) ?_
    unfold resetAfterStable
    split
    · rfl
    · refine update_eq h ?_
      intro reset after hok
      obtain ⟨_, _, _, _, rfl⟩ := resetAfterStable_cases hok
      exact h.reset state.lastOpenWindowMs
  | resetForOpenWindow windowStartMs =>
    refine congrArg (report _) (update_eq h ?_)
    intro reset after hok
    exact hkeep (.resetForOpenWindow windowStartMs) { reset } after
      (report_eq_ok.2 ⟨reset, hok, rfl⟩)
  | explicitStart alwaysOpen =>
    refine congrArg (report _) (update_eq h ?_)
    intro reset after hok
    exact hkeep (.explicitStart alwaysOpen) { reset } after (report_eq_ok.2 ⟨reset, hok, rfl⟩)

/-- The inversion of an operation on a consistent state. -/
theorem call_cases (h : Consistent state) {op : Op} {r : Report}
    (hcall : call op state = .ok (r, after)) : Change state r after := by
  rw [call_eq_change h] at hcall
  exact Op.change_cases hcall

end Consistent

/-- Every reachable state is consistent. -/
theorem History.consistent {events : List (Event RecoveryState Op Report String)}
    {state : RecoveryState} (h : History events state) : Consistent state := by
  refine Run.invariant ?_ h consistent_default
  intro before event after hbefore hfires
  refine hfires.invariant ?_ hbefore
  intro op before r after hbefore hcall
  exact hbefore.change (call_cases hbefore hcall)

end DstServer.Recovery
