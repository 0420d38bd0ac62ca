import DstServer.Recovery.Machine

/-!
# The fixed rollback target and the numbering of the restarts

Two facts about whole histories of the recovery machine, each from one step
lemma and one induction.

* A fresh `Restore` fixes a target.  Its identity and its shards stay, and
  no other target is fixed, until a reset finds it ready
  (`Change.keeps_target`, `held_of_run`).
* Between two resets the restarts of the current saves are numbered from
  one.  A reservation that was not started yet is handed out again with
  the same decision, so the numbering is about the decisions without
  immediate repetitions (`Numbered.change`, `numbered_of_run`).
-/

namespace DstServer.Recovery

open Lib

/-- One call of the recovery machine. -/
abbrev Call : Type := Event RecoveryState Op Report String

namespace Call

/-- The call returned this decision. -/
def decides (event : Call) (decision : Decision) : Prop :=
  ∃ reset, event.result = .ok ⟨some decision, reset⟩

/-- The call returned a fresh `Restore` of the target. -/
def fixes (event : Call) (target : FixedTarget) : Prop :=
  event.decides (.restore target false)

/-- The call reset the recovery. -/
def resets (event : Call) : Prop :=
  ∃ decision, event.result = .ok ⟨decision, true⟩

/-- The call reset the recovery while its target was ready. -/
def releases (event : Call) : Prop :=
  event.resets ∧ ∃ target ∈ event.before.target, target.phase = .ready

end Call

/-! ## The target -/

/-- Two phases of one target. -/
structure SameTarget (target fixed : FixedTarget) : Prop where
  snapshotId : target.snapshotId = fixed.snapshotId
  shards : target.shards = fixed.shards

theorem SameTarget.refl (target : FixedTarget) : SameTarget target target := ⟨rfl, rfl⟩

theorem SameTarget.setPhase {target fixed : FixedTarget} (h : SameTarget target fixed)
    (phase : TargetPhase) : SameTarget { target with phase } fixed :=
  ⟨h.snapshotId, h.shards⟩

/-- The state holds the fixed target, and every `Restore` among the
decisions is a repetition of it. -/
structure Held (fixed : FixedTarget) (state : RecoveryState) : Prop where
  target : ∃ target ∈ state.target, SameTarget target fixed

/-- The decision does not fix a target, and what it replays is this one. -/
def Replays (fixed : FixedTarget) (decision : Decision) : Prop :=
  ∀ target resumed, decision = .restore target resumed →
    resumed = true ∧ SameTarget target fixed

theorem Decided.keeps_target {fixed : FixedTarget} {state after : RecoveryState}
    {decision : Decision} (hheld : Held fixed state) (h : Decided state decision after) :
    Held fixed after ∧ Replays fixed decision := by
  obtain ⟨target, htarget, hsame⟩ := hheld.target
  cases h with
  | stayClosed => exact ⟨hheld, by simp [Replays]⟩
  | close reason =>
    refine ⟨⟨?_⟩, by simp [Replays]⟩
    rw [close_target, Option.mem_def.1 htarget, Option.map_some]
    split
    · exact ⟨_, rfl, hsame.setPhase _⟩
    · exact ⟨_, rfl, hsame⟩
  | retry => exact ⟨⟨target, htarget, hsame⟩, by simp [Replays]⟩
  | fix _ _ _ hnone =>
    rw [Option.mem_def, hnone] at htarget
    cases htarget

theorem Resumed.keeps_target {fixed : FixedTarget} {state after : RecoveryState}
    {decision : Option Decision} (hheld : Held fixed state) (h : Resumed state decision after) :
    Held fixed after ∧ ∀ d ∈ decision, Replays fixed d := by
  cases h with
  | nothing => exact ⟨hheld, by simp⟩
  | replay target _ htarget =>
    obtain ⟨current, hcurrent, hsame⟩ := hheld.target
    rw [Option.mem_def, htarget] at hcurrent
    cases hcurrent
    refine ⟨⟨_, rfl, hsame.setPhase _⟩, ?_⟩
    rintro _ ⟨⟩ _ _ ⟨⟩
    exact ⟨rfl, hsame.setPhase _⟩
  | pending => exact ⟨hheld, by simp [Replays]⟩
  | closed _ _ hdecided =>
    obtain ⟨hafter, hreplays⟩ := hdecided.keeps_target hheld
    refine ⟨hafter, ?_⟩
    rintro _ ⟨⟩
    exact hreplays
  | failed _ _ _ hdecided =>
    obtain ⟨hafter, hreplays⟩ := hdecided.keeps_target hheld
    refine ⟨hafter, ?_⟩
    rintro _ ⟨⟩
    exact hreplays

/-- No operation except the reset of a ready target changes the target. -/
theorem Change.keeps_target {fixed : FixedTarget} {state after : RecoveryState} {r : Report}
    (hheld : Held fixed state) (h : Change state r after)
    (hrelease : ¬(r.reset = true ∧ ∃ target ∈ state.target, target.phase = .ready)) :
    Held fixed after ∧ ∀ decision ∈ r.decision, Replays fixed decision := by
  obtain ⟨target, htarget, hsame⟩ := hheld.target
  cases h with
  | idle => exact ⟨hheld, by simp⟩
  | decided decision after hdecided =>
    obtain ⟨hafter, hreplays⟩ := hdecided.keeps_target hheld
    refine ⟨hafter, ?_⟩
    rintro _ ⟨⟩
    exact hreplays
  | resumed decision after hresumed => exact hresumed.keeps_target hheld
  | begun => exact ⟨⟨target, htarget, hsame⟩, by simp⟩
  | prepared current _ hcurrent =>
    rw [Option.mem_def, hcurrent] at htarget
    cases htarget
    exact ⟨⟨_, rfl, hsame.setPhase _⟩, by simp⟩
  | ready =>
    refine ⟨⟨?_⟩, by simp⟩
    rw [Option.mem_def.1 htarget, Option.map_some]
    exact ⟨_, rfl, hsame.setPhase _⟩
  | reset lastOpenWindowMs =>
    have hphase : target.phase ≠ .ready := fun hready => hrelease ⟨rfl, target, htarget, hready⟩
    refine ⟨⟨?_⟩, by simp⟩
    rw [reset_target, Option.mem_def.1 htarget]
    show ∃ t ∈ (if target.phase = .ready then none else _), _
    rw [if_neg hphase]
    exact ⟨_, rfl, hsame.setPhase _⟩

/-- A call on a state that holds the target, unless it releases it. -/
theorem Held.fires {fixed : FixedTarget} {state after : RecoveryState} {event : Call}
    (hconsistent : Consistent state) (hheld : Held fixed state)
    (h : Fires call state event after) (hrelease : ¬event.releases) :
    Held fixed after ∧ ∀ decision, event.decides decision → Replays fixed decision := by
  have hbefore : event.before = state := h.1
  rcases h.cases with ⟨r, hok, hresult⟩ | ⟨fault, _, hresult, rfl⟩
  · have hkeep := (call_cases hconsistent hok).keeps_target hheld (by
      rintro ⟨hreset, hready⟩
      refine hrelease ⟨⟨r.decision, ?_⟩, ?_⟩
      · rw [hresult, ← hreset]
      · rw [hbefore]
        exact hready)
    refine ⟨hkeep.1, ?_⟩
    rintro decision ⟨reset, hdecides⟩
    rw [hresult] at hdecides
    cases hdecides
    exact hkeep.2 decision rfl
  · refine ⟨hheld, ?_⟩
    rintro decision ⟨reset, hdecides⟩
    rw [hresult] at hdecides
    cases hdecides

/-- The target stays through a run in which it is not released. -/
theorem held_of_run {fixed : FixedTarget} {state after : RecoveryState} {events : List Call}
    (hconsistent : Consistent state) (hheld : Held fixed state)
    (h : Run (Fires call) state events after) (hrelease : ∀ event ∈ events, ¬event.releases) :
    (Held fixed after ∧ Consistent after) ∧
      ∀ event ∈ events, ∀ decision, event.decides decision → Replays fixed decision := by
  induction h with
  | nil => exact ⟨⟨hheld, hconsistent⟩, by simp⟩
  | @snoc events middle after event _ hlast ih =>
    obtain ⟨⟨hmiddle, hcons⟩, hdecisions⟩ :=
      ih fun e he => hrelease e (List.mem_append_left _ he)
    obtain ⟨hafter, hlastDecision⟩ :=
      hmiddle.fires hcons hlast (hrelease event (List.mem_append_right _ List.mem_cons_self))
    refine ⟨⟨hafter, ?_⟩, ?_⟩
    · refine hlast.invariant ?_ hcons
      intro op s r t hs hok
      exact hs.change (call_cases hs hok)
    · intro e he decision hdecision
      rcases List.mem_append.1 he with he | he
      · exact hdecisions e he decision hdecision
      · rw [List.mem_singleton] at he
        subst he
        exact hlastDecision decision hdecision

/-- A call that fixes a target leaves a state that holds it. -/
theorem held_of_fixes {state after : RecoveryState} {event : Call} {target : FixedTarget}
    (hconsistent : Consistent state) (h : Fires call state event after)
    (hfixes : event.fixes target) : Held target after := by
  obtain ⟨reset, hfixes⟩ := hfixes
  rcases h.cases with ⟨r, hok, hresult⟩ | ⟨fault, _, hresult, rfl⟩
  · rw [hresult] at hfixes
    cases hfixes
    have hheld : ∀ {after : RecoveryState},
        Decided state (.restore target false) after → Held target after := by
      intro after hdecided
      cases hdecided
      exact ⟨target, rfl, .refl target⟩
    cases call_cases hconsistent hok with
    | decided _ _ hdecided => exact hheld hdecided
    | resumed _ _ hresumed =>
      cases hresumed with
      | failed _ _ _ hdecided => exact hheld hdecided
  · rw [hresult] at hfixes
    cases hfixes

/-! ## The restarts of the current saves -/

/-- The number of a restart. -/
def Decision.attempt? : Decision → Option Nat
  | .retryCurrent attempt _ _ => some attempt
  | .restore _ _ | .stayClosed _ => none

/-- The restart that a call handed out. -/
def Call.retry? (event : Call) : Option Decision :=
  match event.result with
  | .ok r => r.decision.filter fun decision => decision.attempt?.isSome
  | .error _ => none

/-- The restarts that a list of calls handed out. -/
def retries (events : List Call) : List Decision :=
  events.filterMap Call.retry?

/-- The restarts handed out since the last reset, and the state after them:
the distinct ones are numbered up to the used budget, and a reservation that
is not started is the last one that was handed out. -/
structure Numbered (decisions : List Decision) (state : RecoveryState) : Prop where
  numbers : (decisions.destutter (· ≠ ·)).filterMap Decision.attempt? =
    List.range' 1 state.restartsUsed
  last : ∀ decision ∈ decisions.getLast?, decision.attempt? = some state.restartsUsed
  reserved : ∀ retry ∈ state.retry, retry.started = false →
    decisions.getLast? =
      some (.retryCurrent state.restartsUsed retry.notBeforeMs retry.shards)

/-- After a reset the numbering starts anew. -/
theorem numbered_nil {state : RecoveryState} (hbudget : state.restartsUsed = 0)
    (hretry : state.retry = none) : Numbered [] state := by
  refine ⟨?_, ?_, ?_⟩
  · rw [hbudget]
    rfl
  · simp
  · simp [hretry]

section Numbered

variable {decisions : List Decision} {state after : RecoveryState}

/-- The numbering does not see changes that keep the budget and reserve
nothing. -/
theorem Numbered.congr (h : Numbered decisions state)
    (hbudget : after.restartsUsed = state.restartsUsed)
    (hretry : ∀ retry ∈ after.retry, retry.started = false → retry ∈ state.retry) :
    Numbered decisions after := by
  refine ⟨?_, ?_, ?_⟩
  · rw [hbudget]
    exact h.numbers
  · rw [hbudget]
    exact h.last
  · intro retry hmem hstarted
    rw [hbudget]
    exact h.reserved retry (hretry retry hmem hstarted) hstarted

/-- A new reservation gets the next number. -/
theorem Numbered.reserve (h : Numbered decisions state) (notBeforeMs : Nat)
    (latest : SavedRoom) (hbudget : after.restartsUsed = state.restartsUsed + 1)
    (hretry : after.retry = some ⟨notBeforeMs, false, latest⟩) :
    Numbered (decisions ++ [.retryCurrent (state.restartsUsed + 1) notBeforeMs latest]) after := by
  have hnew : decisions.getLast? ≠
      some (.retryCurrent (state.restartsUsed + 1) notBeforeMs latest) := by
    intro hlast
    have hattempt := h.last _ hlast
    simp [Decision.attempt?] at hattempt
  refine ⟨?_, ?_, ?_⟩
  · rw [destutter_ne_concat, if_neg hnew, List.filterMap_append, h.numbers, hbudget,
      List.range'_1_concat]
    simp [Decision.attempt?, Nat.add_comm]
  · intro decision hdecision
    rw [List.getLast?_concat, Option.mem_def, Option.some.injEq] at hdecision
    rw [← hdecision, hbudget]
    rfl
  · intro retry hmem _
    rw [hretry, Option.mem_def, Option.some.injEq] at hmem
    rw [← hmem, hbudget, List.getLast?_concat]

/-- A reservation that is handed out again repeats the last decision. -/
theorem Numbered.repeat (h : Numbered decisions state) {retry : CurrentRetry}
    (hretry : state.retry = some retry) (hstarted : retry.started = false) :
    Numbered (decisions ++ [.retryCurrent state.restartsUsed retry.notBeforeMs retry.shards])
      state := by
  have hlast := h.reserved retry hretry hstarted
  refine ⟨?_, ?_, ?_⟩
  · rw [destutter_ne_concat, if_pos hlast]
    exact h.numbers
  · intro decision hdecision
    rw [List.getLast?_concat, Option.mem_def, Option.some.injEq] at hdecision
    rw [← hdecision]
    rfl
  · intro other hother hfresh
    rw [List.getLast?_concat, ← hlast]
    exact h.reserved other hother hfresh

/-- The restart among the decisions of a report. -/
def Report.retry? (r : Report) : Option Decision :=
  r.decision.filter fun decision => decision.attempt?.isSome

theorem Numbered.decided (h : Numbered decisions state) {decision : Decision}
    (hdecided : Decided state decision after) :
    Numbered (decisions ++ (Report.retry? ⟨some decision, false⟩).toList) after := by
  cases hdecided with
  | stayClosed =>
    rw [show Report.retry? _ = none from rfl, Option.toList_none, List.append_nil]
    exact h
  | close reason =>
    rw [show Report.retry? _ = none from rfl, Option.toList_none, List.append_nil]
    exact h.congr rfl (by simp)
  | retry notBeforeMs latest =>
    exact h.reserve notBeforeMs latest rfl rfl
  | fix target =>
    rw [show Report.retry? _ = none from rfl, Option.toList_none, List.append_nil]
    exact h.congr rfl (by simp)

theorem Numbered.resumed (h : Numbered decisions state) {decision : Option Decision}
    (hresumed : Resumed state decision after) :
    Numbered (decisions ++ (Report.retry? ⟨decision, false⟩).toList) after := by
  cases hresumed with
  | nothing =>
    rw [show Report.retry? _ = none from rfl, Option.toList_none, List.append_nil]
    exact h
  | replay target =>
    rw [show Report.retry? _ = none from rfl, Option.toList_none, List.append_nil]
    exact h.congr rfl (by intro _ hmem _; exact hmem)
  | pending retry _ _ hretry hstarted => exact h.repeat hretry hstarted
  | closed _ _ hdecided => exact h.decided hdecided
  | failed _ _ _ hdecided => exact h.decided hdecided

/-- Every operation except a reset keeps the numbering. -/
theorem Numbered.change (h : Numbered decisions state) {r : Report}
    (hchange : Change state r after) (hreset : r.reset = false) :
    Numbered (decisions ++ r.retry?.toList) after := by
  cases hchange with
  | idle =>
    rw [show Report.retry? _ = none from rfl, Option.toList_none, List.append_nil]
    exact h
  | decided _ _ hdecided => exact h.decided hdecided
  | resumed _ _ hresumed => exact h.resumed hresumed
  | begun retry =>
    rw [show Report.retry? _ = none from rfl, Option.toList_none, List.append_nil]
    refine h.congr rfl ?_
    rintro _ ⟨⟩ hstarted
    cases hstarted
  | prepared target =>
    rw [show Report.retry? _ = none from rfl, Option.toList_none, List.append_nil]
    exact h.congr rfl (by intro _ hmem _; exact hmem)
  | ready =>
    rw [show Report.retry? _ = none from rfl, Option.toList_none, List.append_nil]
    exact h.congr rfl (by simp)
  | reset => cases hreset

end Numbered

/-- The numbering holds after every run without a reset. -/
theorem numbered_of_run {decisions : List Decision} {state after : RecoveryState}
    {events : List Call} (hconsistent : Consistent state) (hnumbered : Numbered decisions state)
    (h : Run (Fires call) state events after) (hreset : ∀ event ∈ events, ¬event.resets) :
    Numbered (decisions ++ retries events) after ∧ Consistent after := by
  induction h with
  | nil =>
    rw [show retries [] = [] from rfl, List.append_nil]
    exact ⟨hnumbered, hconsistent⟩
  | @snoc events middle after event _ hlast ih =>
    obtain ⟨hmiddle, hcons⟩ := ih fun e he => hreset e (List.mem_append_left _ he)
    have hkeep : ¬event.resets :=
      hreset event (List.mem_append_right _ List.mem_cons_self)
    have hretries : retries (events ++ [event]) = retries events ++ event.retry?.toList := by
      rw [retries, List.filterMap_append]
      cases hretry : event.retry? <;> simp [retries, hretry]
    rw [hretries, ← List.append_assoc]
    rcases hlast.cases with ⟨r, hok, hresult⟩ | ⟨fault, _, hresult, rfl⟩
    · have hchange := call_cases hcons hok
      have hretry : event.retry? = r.retry? := by
        unfold Call.retry?
        rw [hresult]
        rfl
      rw [hretry]
      refine ⟨hmiddle.change hchange ?_, hcons.change hchange⟩
      by_contra hr
      rw [Bool.not_eq_false] at hr
      exact hkeep ⟨r.decision, by rw [hresult, ← hr]⟩
    · have hretry : event.retry? = none := by
        unfold Call.retry?
        rw [hresult]
      rw [hretry, Option.toList_none, List.append_nil]
      exact ⟨hmiddle, hcons⟩

/-- A call that resets leaves an unused budget. -/
theorem numbered_of_resets {state after : RecoveryState} {event : Call}
    (hconsistent : Consistent state) (h : Fires call state event after)
    (hresets : event.resets) : Numbered [] after := by
  obtain ⟨decision, hresets⟩ := hresets
  rcases h.cases with ⟨r, hok, hresult⟩ | ⟨fault, _, hresult, rfl⟩
  · rw [hresult] at hresets
    cases hresets
    cases call_cases hconsistent hok with
    | reset => exact numbered_nil rfl rfl
  · rw [hresult] at hresets
    cases hresets

/-! ## A history that reaches a rollback -/

/-- A room with one shard and two complete snapshots. -/
def sampleCatalogs : Catalogs :=
  ⟨[("Master", ⟨"session", "save/4", [⟨4, some "save/4"⟩, ⟨3, some "save/3"⟩]⟩)],
    by decide⟩

def sampleRequired : OrderedSet String := ⟨[("Master", ())], by decide⟩

/-- The latest save of the shard failed to load. -/
def sampleFailure : Failure := .loadFailure ⟨[("Master", ⟨"session", "save/4"⟩)], by decide⟩

def sampleLatest : SavedRoom := ⟨[("Master", ⟨"session", 4, "save/4"⟩)], by decide⟩

def sampleTarget : FixedTarget :=
  ⟨3, ⟨[("Master", ⟨"session", 3, "save/3"⟩)], by decide⟩, .preparing⟩

/-- The state after the restart with this number was reserved at time zero. -/
def sampleReserved (attempt : Nat) : RecoveryState :=
  { restartsUsed := attempt, retry := some ⟨30000, false, sampleLatest⟩ }

def sampleRestored : RecoveryState := { restartsUsed := 2, target := some sampleTarget }

def sampleOp : Op := .onFailure sampleFailure sampleRequired sampleCatalogs 0

/-- Three load failures in a row: two restarts of the current saves and the
rollback. -/
def sampleEvents : List Call :=
  [⟨{}, sampleOp, .ok ⟨some (.retryCurrent 1 30000 sampleLatest), false⟩⟩,
    ⟨sampleReserved 1, sampleOp, .ok ⟨some (.retryCurrent 2 30000 sampleLatest), false⟩⟩,
    ⟨sampleReserved 2, sampleOp, .ok ⟨some (.restore sampleTarget false), false⟩⟩]

theorem sampleHistory : History sampleEvents sampleRestored := by
  have h₁ : call sampleOp {} =
      .ok (⟨some (.retryCurrent 1 30000 sampleLatest), false⟩, sampleReserved 1) := by
    decide +kernel
  have h₂ : call sampleOp (sampleReserved 1) =
      .ok (⟨some (.retryCurrent 2 30000 sampleLatest), false⟩, sampleReserved 2) := by
    decide +kernel
  have h₃ : call sampleOp (sampleReserved 2) =
      .ok (⟨some (.restore sampleTarget false), false⟩, sampleRestored) := by
    decide +kernel
  exact ((Run.nil.snoc (Fires.of_ok h₁)).snoc (Fires.of_ok h₂)).snoc (Fires.of_ok h₃)

/-! ## The invariant of whole histories -/

/-- In every history of the recovery machine: a fixed target stays the same
and is the only one until a reset finds it ready; the restarts since the
start or since a reset are numbered from one within the budget; a pending
retry excludes an unfinished target and a closed recovery; and no operation
on the reached state fails because of a validation. -/
theorem fixed_target_invariant (events : List Call) (state : RecoveryState)
    (hhistory : History events state) :
    (∀ earlier event later target, events = earlier ++ event :: later →
      event.fixes target → (∀ e ∈ later, ¬e.releases) →
      (∃ current ∈ state.target,
        current.snapshotId = target.snapshotId ∧ current.shards = target.shards) ∧
      (∀ e ∈ later, ∀ other, ¬e.fixes other) ∧
      ∀ e ∈ later, ∀ other, e.decides (.restore other true) →
        other.snapshotId = target.snapshotId ∧ other.shards = target.shards) ∧
    (∀ earlier later, events = earlier ++ later →
      (earlier = [] ∨ ∃ before event, earlier = before ++ [event] ∧ event.resets) →
      (∀ e ∈ later, ¬e.resets) →
      ((retries later).destutter (· ≠ ·)).filterMap Decision.attempt? =
        List.range' 1 state.restartsUsed ∧
      state.restartsUsed ≤ currentRestarts) ∧
    (∀ retry ∈ state.retry, state.hasUnfinishedTarget = false ∧ state.closed = none) ∧
    state.validate = .ok () ∧ ∀ op : Op, call op state = op.change state := by
  have hconsistent := hhistory.consistent
  refine ⟨?_, ?_, ?_, hconsistent.validate, call_eq_change hconsistent⟩
  · rintro earlier event later target rfl hfixes hrelease
    rw [show earlier ++ event :: later = earlier ++ [event] ++ later by simp] at hhistory
    obtain ⟨middle, hbefore, hafter⟩ := Run.split hhistory
    obtain ⟨start, hstart, hfire⟩ := Run.concat_iff.1 hbefore
    have hheld := held_of_fixes (History.consistent hstart) hfire hfixes
    obtain ⟨⟨⟨current, hcurrent, hsame⟩, _⟩, hdecisions⟩ :=
      held_of_run (History.consistent hbefore) hheld hafter hrelease
    refine ⟨⟨current, hcurrent, hsame.snapshotId, hsame.shards⟩, ?_, ?_⟩
    · intro e he other hother
      have hresumed := (hdecisions e he _ hother other false rfl).1
      cases hresumed
    · intro e he other hother
      have hreplay := (hdecisions e he _ hother other true rfl).2
      exact ⟨hreplay.snapshotId, hreplay.shards⟩
  · rintro earlier later rfl hearlier hreset
    obtain ⟨middle, hbefore, hafter⟩ := Run.split hhistory
    have hnumbered : Numbered [] middle := by
      rcases hearlier with rfl | ⟨before, event, rfl, hresets⟩
      · rw [Run.nil_iff] at hbefore
        subst hbefore
        exact numbered_nil rfl rfl
      · obtain ⟨start, hstart, hfire⟩ := Run.concat_iff.1 hbefore
        exact numbered_of_resets (History.consistent hstart) hfire hresets
    obtain ⟨hend, _⟩ := numbered_of_run (History.consistent hbefore) hnumbered hafter hreset
    exact ⟨hend.numbers, hconsistent.budget⟩
  · intro retry hretry
    exact ⟨hconsistent.retryTarget retry hretry, hconsistent.retryOpen retry hretry⟩

/-- In the sample history the two restarts are numbered and the rollback
holds its target. -/
theorem fixed_target_invariant_sample :
    (∃ current ∈ sampleRestored.target,
      current.snapshotId = 3 ∧ current.shards = sampleTarget.shards) ∧
    ((retries sampleEvents).destutter (· ≠ ·)).filterMap Decision.attempt? = [1, 2] :=
  have h := fixed_target_invariant sampleEvents sampleRestored sampleHistory
  ⟨(h.1 (sampleEvents.take 2) _ [] sampleTarget rfl ⟨false, rfl⟩ (by simp)).1,
    (h.2.1 [] sampleEvents rfl (.inl rfl) (by simp [sampleEvents, Call.resets])).1⟩

end DstServer.Recovery
