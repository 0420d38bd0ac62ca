import DstServer.Lib.Run
import DstServer.Policy.Plan

/-!
# What a tick can do

Every fact about runs of the policy is derived from this module.  For each
part of `plan` there is a relation that lists what it can do to the mod
maintenance or to the recorded activity, with the guards that were checked
on the way, and `plan_cases` composes them:

* `Shifted`, `Reopened`, `Noticed` and `Maintained` for the phase and the
  attempts of the mod maintenance,
* `Observed` and `Renewed` for the recorded activity.

`PolicyOp` lists the operations on the saved state and `PolicyOp.call` runs
one of them.
-/

namespace DstServer

open Lib Lib.Outcome

/-! ## Time arithmetic -/

theorem addDelta_eq_ok {instant delta sum : Int} (h : addDelta instant delta = .ok sum) :
    sum = instant + delta := by
  unfold addDelta checkedAdd at h
  split at h
  · rename_i hsum
    rw [Option.ite_none_right_eq_some] at hsum
    cases h
    exact (Option.some.inj hsum.2).symm
  · cases h

theorem minusDelta_eq_ok {instant delta difference : Int}
    (h : minusDelta instant delta = .ok difference) : difference = instant - delta := by
  unfold minusDelta checkedAdd at h
  split at h
  · rename_i hdifference
    rw [Option.ite_none_right_eq_some] at hdifference
    cases h
    have heq := Option.some.inj hdifference.2
    omega
  · cases h

theorem checkedAdd_eq_some {instant delta sum : Int} (h : checkedAdd instant delta = some sum) :
    sum = instant + delta := by
  unfold checkedAdd at h
  rw [Option.ite_none_right_eq_some] at h
  exact (Option.some.inj h.2).symm

theorem fromStd_eq_some {duration : Nat} {delta : Int} (h : fromStd duration = some delta) :
    delta = duration := by
  unfold fromStd at h
  rw [Option.ite_none_right_eq_some] at h
  exact (Option.some.inj h.2).symm

/-! ## The clock -/

/-- A clock change moves the times of a phase. -/
inductive Shifted (changed : Bool) : ModPhase → ModPhase → Prop
  | same (phase : ModPhase) : Shifted changed phase phase
  | announcing (deadline nextNotice skew : Int) (h : changed = true) :
      Shifted changed (.announcing deadline nextNotice)
        (.announcing (deadline + skew) (nextNotice + skew))
  | retry (notBefore skew : Int) (h : changed = true) :
      Shifted changed (.retry notBefore) (.retry (notBefore + skew))

namespace PolicyState

theorem shiftPhase_eq_ok {skew : Int} {phase phase' : ModPhase}
    (h : shiftPhase skew phase = .ok phase') : Shifted true phase phase' := by
  cases phase with
  | announcing deadline nextNotice =>
    unfold shiftPhase at h
    rw [bind_eq_ok] at h
    obtain ⟨deadline', hdeadline, h⟩ := h
    rw [bind_eq_ok] at h
    obtain ⟨nextNotice', hnotice, h⟩ := h
    cases h
    rw [checkedAdd_eq_some (orError_eq_ok.1 hdeadline),
      checkedAdd_eq_some (orError_eq_ok.1 hnotice)]
    exact .announcing deadline nextNotice skew rfl
  | retry notBefore =>
    unfold shiftPhase at h
    rw [bind_eq_ok] at h
    obtain ⟨notBefore', hnotBefore, h⟩ := h
    cases h
    rw [checkedAdd_eq_some (orError_eq_ok.1 hnotBefore)]
    exact .retry notBefore skew rfl
  | _ =>
    cases h
    exact .same _

/-- The clock moves only the times of the phase. -/
theorem clockChanged_cases {state state' : PolicyState} {now : Int} {monotonic : Option Nat}
    {changed : Bool} (h : state.clockChanged now monotonic = .ok (changed, state')) :
    ∃ phase, Shifted changed state.mods.phase phase ∧
      state' = { state with
        mods := { state.mods with phase }, lastWall := some now, lastMonotonic := monotonic } := by
  unfold clockChanged at h
  rw [bind_eq_ok] at h
  obtain ⟨⟨backwards, skew⟩, _, h⟩ := h
  simp only at h
  generalize hchanged :
    (backwards || decide (skew < -seconds checkInterval) ||
      decide (seconds checkInterval < skew)) = moved at h
  cases moved with
  | true =>
    rw [if_pos rfl, bind_eq_ok] at h
    obtain ⟨phase, hphase, h⟩ := h
    cases h
    exact ⟨phase, shiftPhase_eq_ok hphase, rfl⟩
  | false =>
    rw [if_neg (by simp)] at h
    cases h
    exact ⟨state.mods.phase, .same _, rfl⟩

end PolicyState

/-! ## Openings and requests -/

/-- A new opening gives a failed maintenance a new budget. -/
inductive Reopened (newOpening : Option Int) : ModPhase → Nat → ModPhase → Nat → Prop
  | same (phase : ModPhase) (attempts : Nat) (h : newOpening = none ∨ phase ≠ .failed) :
      Reopened newOpening phase attempts phase attempts
  | requested (attempts : Nat) (h : newOpening ≠ none) :
      Reopened newOpening .failed attempts .pending 0

/-- Outdated mods are pending, and a maintenance that is not wanted is
dropped. -/
inductive Noticed (attempts : Nat) : ModPhase → ModPhase → Prop
  | same (phase : ModPhase) : Noticed attempts phase phase
  | outdated : Noticed attempts .idle .pending
  | dropped (phase : ModPhase) (h : attempts = 0) : Noticed attempts phase .idle

namespace PolicyState

theorem enterOpening_cases {state state' : PolicyState} {schedule : ScheduleState}
    {clockChanged : Bool} {newOpening : Option Int}
    (h : state.enterOpening schedule clockChanged = .ok (newOpening, state')) :
    Reopened newOpening state.mods.phase state.mods.attempts state'.mods.phase
        state'.mods.attempts ∧
      state'.activity = state.activity ∧ state'.version = state.version := by
  unfold enterOpening at h
  simp only at h
  split at h
  · cases h
    exact ⟨.same _ _ (.inl rfl), rfl, rfl⟩
  · split at h
    · rename_i hfailed
      rw [bind_eq_ok] at h
      obtain ⟨mods, hmods, h⟩ := h
      unfold ModMaintenance.request at hmods
      rw [bind_eq_ok] at hmods
      obtain ⟨_, _, hmods⟩ := hmods
      cases hmods
      cases h
      rw [hfailed]
      exact ⟨.requested _ (by simp), rfl, rfl⟩
    · rename_i hphase
      cases h
      exact ⟨.same _ _ (.inr hphase), rfl, rfl⟩

theorem observeOutdated_cases (state : PolicyState) (modAutoUpdate modsOutdated : Bool) :
    Noticed state.mods.attempts state.mods.phase
        (state.observeOutdated modAutoUpdate modsOutdated).mods.phase ∧
      (state.observeOutdated modAutoUpdate modsOutdated).mods.attempts = state.mods.attempts ∧
      (state.observeOutdated modAutoUpdate modsOutdated).activity = state.activity ∧
      (state.observeOutdated modAutoUpdate modsOutdated).version = state.version := by
  unfold observeOutdated
  simp only
  by_cases hdrop : modAutoUpdate = false ∧ state.mods.manual = false ∧ state.mods.attempts = 0
  · have hauto : ¬(modAutoUpdate = true ∧ modsOutdated = true ∧
        state.mods.observedOutdated = false ∧ state.mods.phase = .idle) := by
      rw [hdrop.1]
      simp
    rw [if_neg hauto, if_pos hdrop]
    exact ⟨.dropped _ hdrop.2.2, hdrop.2.2.symm, rfl, rfl⟩
  · by_cases hauto : modAutoUpdate = true ∧ modsOutdated = true ∧
        state.mods.observedOutdated = false ∧ state.mods.phase = .idle
    · rw [if_pos hauto, if_neg hdrop]
      refine ⟨?_, rfl, rfl, rfl⟩
      rw [hauto.2.2.2]
      exact .outdated
    · rw [if_neg hauto, if_neg hdrop]
      exact ⟨.same _, rfl, rfl, rfl⟩

end PolicyState

/-! ## Actions of the maintenance -/

/-- What a tick does to the mod maintenance: the action that is returned,
and the phase and the attempts after it. -/
inductive Maintained (now : Int) (inputs : Inputs) (attempts : Nat) :
    ModPhase → Option Action → ModPhase → Nat → Prop
  /-- Nothing happens.  A notice that is returned is one of the closing. -/
  | kept (phase : ModPhase) (action : Option Action)
      (hupdate : ∀ attempt, action ≠ some (.updateMods attempt))
      (hstop : ∀ message, action ≠ some (.stop .modUpdate message))
      (hnotice : ∀ message deadline nextNotice, action = some (.announce message) →
        phase ≠ .announcing deadline nextNotice) :
      Maintained now inputs attempts phase action phase attempts
  /-- A countdown gives way to the closing. -/
  | suspended (phase : ModPhase) (action : Option Action)
      (hphase : phase.isAnnouncing = true ∨ phase = .stopping)
      (hupdate : ∀ attempt, action ≠ some (.updateMods attempt))
      (hstop : ∀ message, action ≠ some (.stop .modUpdate message)) :
      Maintained now inputs attempts phase action .pending attempts
  /-- The countdown begins. -/
  | opened (phase : ModPhase)
      (hphase : phase = .pending ∨ ∃ notBefore, phase = .retry notBefore ∧ notBefore ≤ now) :
      Maintained now inputs attempts phase (some (.announce (modMessage 60)))
        (.announcing (now + seconds 60) (now + seconds 30)) attempts
  /-- One more notice. -/
  | notified (deadline nextNotice : Int) (hbefore : now < deadline) (hdue : nextNotice ≤ now) :
      Maintained now inputs attempts (.announcing deadline nextNotice)
        (some (.announce (modMessage (ModMaintenance.noticeSeconds deadline now))))
        (.announcing deadline (deadline -
          seconds ((Int.tdiv (ModMaintenance.noticeSeconds deadline now + 29) 30 - 1) * 30)))
        attempts
  /-- The countdown is over. -/
  | stopped (deadline nextNotice : Int) (hover : deadline ≤ now)
      (hrunning : inputs.gameRunning = true) :
      Maintained now inputs attempts (.announcing deadline nextNotice)
        (some (.stop .modUpdate (some (modMessage 0)))) .stopping attempts
  /-- The game is still running after the countdown. -/
  | stopping (hrunning : inputs.gameRunning = true) :
      Maintained now inputs attempts .stopping (some (.stop .modUpdate none)) .stopping attempts
  /-- An attempt is reserved. -/
  | reserved (phase : ModPhase) (hbudget : attempts < modAttempts)
      (hphase : phase ≠ .failed ∧ phase ≠ .updating ∧
        ∀ notBefore, phase = .retry notBefore → notBefore ≤ now) :
      Maintained now inputs attempts phase (some (.updateMods (attempts + 1))) .updating
        (attempts + 1)

namespace ModMaintenance

theorem advance_cases {mods mods' : ModMaintenance} {now : Int} {inputs : Inputs}
    {action : Option Action} (h : mods.advance now inputs = .ok (action, mods'))
    (hphase : mods.phase ≠ .failed ∧ mods.phase ≠ .updating ∧
      ∀ notBefore, mods.phase = .retry notBefore → notBefore ≤ now)
    (hrunning : inputs.gameRunning = true →
      mods.phase = .pending ∨ ∃ notBefore, mods.phase = .retry notBefore ∧ notBefore ≤ now) :
    Maintained now inputs mods.attempts mods.phase action mods'.phase mods'.attempts ∧
      ∀ sessions, action ≠ some (.regenerate sessions) := by
  unfold advance at h
  split at h
  · rename_i hgame
    split at h
    · cases h
      exact ⟨.kept _ _ (by simp) (by simp) (by simp), by simp⟩
    · rw [bind_eq_ok] at h
      obtain ⟨deadline, hdeadline, h⟩ := h
      rw [bind_eq_ok] at h
      obtain ⟨nextNotice, hnotice, h⟩ := h
      cases h
      rw [addDelta_eq_ok hdeadline, addDelta_eq_ok hnotice]
      exact ⟨.opened _ (hrunning hgame), by simp⟩
  · rw [bind_eq_ok] at h
    obtain ⟨_, hbudget, h⟩ := h
    cases h
    exact ⟨.reserved _ (ensure_eq_ok.1 hbudget) hphase, by simp⟩

theorem action_cases {mods mods' : ModMaintenance} {now : Int} {inputs : Inputs}
    {action : Option Action} (h : mods.action now inputs = .ok (action, mods')) :
    Maintained now inputs mods.attempts mods.phase action mods'.phase mods'.attempts ∧
      ∀ sessions, action ≠ some (.regenerate sessions) := by
  have hkept : action = none → mods' = mods →
      Maintained now inputs mods.attempts mods.phase action mods'.phase mods'.attempts ∧
        ∀ sessions, action ≠ some (.regenerate sessions) := by
    rintro rfl rfl
    exact ⟨.kept _ _ (by simp) (by simp) (by simp), by simp⟩
  unfold ModMaintenance.action at h
  split at h
  · cases h
    exact hkept rfl rfl
  · cases h
    exact hkept rfl rfl
  · cases h
    exact hkept rfl rfl
  · rename_i notBefore hphase
    split at h
    · cases h
      exact hkept rfl rfl
    · rename_i hdue
      refine advance_cases h ?_ fun _ => .inr ⟨notBefore, hphase, not_lt.1 hdue⟩
      rw [hphase]
      refine ⟨by simp, by simp, ?_⟩
      intro other hother
      cases hother
      exact not_lt.1 hdue
  · rename_i deadline nextNotice hphase
    split at h
    · rename_i hrunning
      split at h
      · rename_i hover
        cases h
        rw [hphase]
        exact ⟨.stopped deadline nextNotice hover hrunning, by simp⟩
      · rename_i hbefore
        split at h
        · rename_i hdue
          rw [bind_eq_ok] at h
          obtain ⟨later, hlater, h⟩ := h
          cases h
          rw [hphase, minusDelta_eq_ok hlater]
          exact ⟨.notified deadline nextNotice (not_le.1 hbefore) hdue, by simp⟩
        · cases h
          exact hkept rfl rfl
    · rename_i hrunning
      refine advance_cases h ?_ fun hgame => absurd hgame hrunning
      rw [hphase]
      simp
  · rename_i hphase
    split at h
    · rename_i hrunning
      cases h
      rw [hphase]
      exact ⟨.stopping hrunning, by simp⟩
    · rename_i hrunning
      refine advance_cases h ?_ fun hgame => absurd hgame hrunning
      rw [hphase]
      simp
  · rename_i hphase
    refine advance_cases h ?_ fun _ => .inl hphase
    rw [hphase]
    simp

end ModMaintenance

/-! ## Activity -/

/-- What the reports of a reliable observation say about the last
activity. -/
structure Reports (now : Int) (presences : List Presence) (lastActiveAt : Int) : Prop where
  upper : lastActiveAt ≤ now
  connected : ∀ presence ∈ presences, ¬presence.Empty → lastActiveAt = now
  reported : ∀ presence ∈ presences, presence.Empty →
    F64.lt presence.idleSeconds presence.observedSeconds = true →
    ∃ idle, tryFromSecs presence.idleSeconds = some idle ∧ now - idle ≤ lastActiveAt

theorem Presence.observe_cases {now before after : Int} {presence : Presence}
    (h : presence.observe now before = .ok after) (hbefore : before ≤ now) :
    before ≤ after ∧ Reports now [presence] after := by
  unfold Presence.observe at h
  by_cases hempty : presence.Empty
  · rw [if_neg (not_not.2 hempty)] at h
    by_cases hidle : F64.lt presence.idleSeconds presence.observedSeconds = true
    · rw [if_pos hidle, bind_eq_ok] at h
      obtain ⟨duration, hduration, h⟩ := h
      rw [bind_eq_ok] at h
      obtain ⟨idle, hstd, h⟩ := h
      rw [bind_eq_ok] at h
      obtain ⟨observed, hobserved, h⟩ := h
      cases h
      have hsum := checkedAdd_eq_some (orError_eq_ok.1 hobserved)
      have hnat := fromStd_eq_some (orError_eq_ok.1 hstd)
      refine ⟨le_max_left _ _, ⟨by omega, ?_, ?_⟩⟩
      · intro other hother hconnected
        rw [List.mem_singleton.1 hother] at hconnected
        exact absurd hempty hconnected
      · intro other hother _ _
        rw [List.mem_singleton.1 hother]
        exact ⟨duration, orError_eq_ok.1 hduration, by omega⟩
    · rw [if_neg hidle] at h
      cases h
      refine ⟨le_rfl, ⟨hbefore, ?_, ?_⟩⟩
      · intro other hother hconnected
        rw [List.mem_singleton.1 hother] at hconnected
        exact absurd hempty hconnected
      · intro other hother _ hreported
        rw [List.mem_singleton.1 hother] at hreported
        exact absurd hreported hidle
  · rw [if_pos hempty] at h
    cases h
    refine ⟨hbefore, ⟨le_rfl, fun _ _ _ => rfl, ?_⟩⟩
    intro other hother hother_empty
    rw [List.mem_singleton.1 hother] at hother_empty
    exact absurd hother_empty hempty

/-- The reports of all shards, one after the other. -/
theorem foldlM_observe_cases {now before after : Int} {presences : List Presence}
    (h : presences.foldlM (Presence.observe now) before = .ok after) (hbefore : before ≤ now) :
    before ≤ after ∧ Reports now presences after := by
  induction presences generalizing before with
  | nil =>
    cases h
    exact ⟨le_rfl, ⟨hbefore, by simp, by simp⟩⟩
  | cons presence rest ih =>
    rw [List.foldlM_cons, bind_eq_ok] at h
    obtain ⟨middle, hmiddle, h⟩ := h
    obtain ⟨hle, hfirst⟩ := Presence.observe_cases hmiddle hbefore
    obtain ⟨hle', hrest⟩ := ih h hfirst.upper
    refine ⟨hle.trans hle', ⟨hrest.upper, ?_, ?_⟩⟩
    · intro other hother hconnected
      rcases List.mem_cons.1 hother with rfl | hother
      · have hnow := hfirst.connected other (List.mem_singleton_self _) hconnected
        have hupper := hrest.upper
        omega
      · exact hrest.connected other hother hconnected
    · intro other hother hempty hidle
      rcases List.mem_cons.1 hother with rfl | hother
      · obtain ⟨idle, hidle, hreported⟩ :=
          hfirst.reported other (List.mem_singleton_self _) hempty hidle
        exact ⟨idle, hidle, hreported.trans hle'⟩
      · exact hrest.reported other hother hempty hidle

/-- What a tick does to the recorded activity before it chooses an action. -/
inductive Observed (now : Int) (inputs : Inputs) (clockChanged : Bool) :
    Option Activity → Option Activity → Prop
  | absent (h : ¬inputs.Reliable) : Observed now inputs clockChanged none none
  /-- A lost observation during or after a clean stop. -/
  | kept (activity : Activity) (h : ¬inputs.Reliable) (hclock : clockChanged = false)
      (hclean : activity.cleanShutdown = true ∨ inputs.cleanStopInProgress = true) :
      Observed now inputs clockChanged (some activity) (some activity)
  /-- A lost observation at any other time. -/
  | interrupted (activity : Activity) (cleanShutdown : Bool) (h : ¬inputs.Reliable)
      (hclean : cleanShutdown = true → activity.cleanShutdown = true) :
      Observed now inputs clockChanged (some activity)
        (some { activity with interrupted := true, cleanShutdown })
  /-- A reliable observation that continues the previous one. -/
  | continued (activity : Activity) (lastActiveAt : Int) (h : inputs.Reliable)
      (hclock : clockChanged = false) (hinterrupted : activity.interrupted = false)
      (hsessions : activity.sessions = inputs.sessions)
      (hlast : min activity.lastActiveAt now ≤ lastActiveAt)
      (hreports : Reports now inputs.presence.values lastActiveAt) :
      Observed now inputs clockChanged (some activity) (some (inputs.activity lastActiveAt))
  /-- A reliable observation that does not. -/
  | restarted (activity : Option Activity) (h : inputs.Reliable) :
      Observed now inputs clockChanged activity (some (inputs.activity now))

namespace PolicyState

theorem observeActivity_cases {state state' : PolicyState} {now : Int} {inputs : Inputs}
    {clockChanged : Bool} (h : state.observeActivity now inputs clockChanged = .ok state') :
    Observed now inputs clockChanged state.activity state'.activity ∧
      state'.mods = state.mods ∧ state'.version = state.version := by
  unfold observeActivity at h
  by_cases hreliable : inputs.Reliable
  · simp only [not_not.2 hreliable, if_false] at h
    rw [bind_eq_ok] at h
    obtain ⟨lastActiveAt, hfold, h⟩ := h
    cases h
    refine ⟨?_, rfl, rfl⟩
    have hrestarted : lastActiveAt = now → Observed now inputs clockChanged state.activity
        (some (inputs.activity lastActiveAt)) := by
      rintro rfl
      exact .restarted _ hreliable
    unfold interruptActivity at hfold
    simp only [if_pos hreliable] at hfold
    cases hactivity : state.activity with
    | none =>
      rw [hactivity] at hrestarted hfold
      simp only [Option.map_none, ite_self] at hfold
      obtain ⟨hle, hreports⟩ := foldlM_observe_cases hfold le_rfl
      exact hrestarted (le_antisymm hreports.upper hle)
    | some activity =>
      rw [hactivity] at hrestarted hfold
      cases clockChanged with
      | true =>
        have hbroken : ¬Activity.Continues
            { activity with interrupted := true, cleanShutdown := false } inputs := by
          rintro ⟨hinterrupted, _⟩
          cases hinterrupted
        simp only [if_true, Option.map_some, if_neg hbroken] at hfold
        obtain ⟨hle, hreports⟩ := foldlM_observe_cases hfold le_rfl
        exact hrestarted (le_antisymm hreports.upper hle)
      | false =>
        by_cases hcontinues : activity.Continues inputs
        · simp only [Bool.false_eq_true, if_false, if_pos hcontinues] at hfold
          obtain ⟨hle, hreports⟩ := foldlM_observe_cases hfold (min_le_right _ _)
          exact .continued activity lastActiveAt hreliable rfl hcontinues.1 hcontinues.2.1 hle
            hreports
        · simp only [Bool.false_eq_true, if_false, if_neg hcontinues] at hfold
          obtain ⟨hle, hreports⟩ := foldlM_observe_cases hfold le_rfl
          exact hrestarted (le_antisymm hreports.upper hle)
  · simp only [hreliable, not_false_eq_true, if_true] at h
    cases h
    refine ⟨?_, rfl, rfl⟩
    unfold interruptActivity
    simp only [if_neg hreliable]
    cases state.activity with
    | none =>
      simp only [Option.map_none, ite_self]
      exact .absent hreliable
    | some activity =>
      cases clockChanged with
      | true =>
        by_cases hstop : inputs.cleanStopInProgress = false
        · simp only [if_true, Option.map_some, hstop, and_self]
          exact .interrupted activity false hreliable (by simp)
        · simp only [if_true, Option.map_some, hstop]
          exact .interrupted activity false hreliable (by simp)
      | false =>
        simp only [Bool.false_eq_true, if_false, Option.map_some]
        by_cases hlost : activity.cleanShutdown = false ∧ inputs.cleanStopInProgress = false
        · rw [if_pos hlost]
          exact .interrupted activity activity.cleanShutdown hreliable id
        · rw [if_neg hlost]
          refine .kept activity hreliable rfl ?_
          rw [not_and_or, Bool.not_eq_false, Bool.not_eq_false] at hlost
          exact hlost

end PolicyState

/-! ## The chosen action -/

/-- Only a regeneration changes the recorded activity, and it renews the
idle period. -/
inductive Renewed (now : Int) (inputs : Inputs) :
    Option Activity → Option Action → Option Activity → Prop
  | same (activity : Option Activity) (action : Option Action)
      (h : ∀ sessions, action ≠ some (.regenerate sessions)) :
      Renewed now inputs activity action activity
  | regenerated (activity : Activity) (day : Nat) (hday : inputs.masterDay = some day)
      (hinterrupted : activity.interrupted = false) (hempty : inputs.ReliableEmpty)
      (hidle : retention day < now - activity.lastActiveAt) :
      Renewed now inputs (some activity) (some (.regenerate activity.sessions))
        (some { activity with lastActiveAt := now })

namespace Policy

variable {policy : Policy} {zones : Zones} {state state' : PolicyState} {now : Int}
  {inputs : Inputs} {schedule : ScheduleState} {action : Option Action}

/-- An action that is none of a mod update and no regeneration. -/
def Plain (action : Option Action) : Prop :=
  (∀ attempt, action ≠ some (.updateMods attempt)) ∧
    (∀ message, action ≠ some (.stop .modUpdate message)) ∧
    ∀ sessions, action ≠ some (.regenerate sessions)

theorem plain_none : Plain none := by simp [Plain]

theorem plain_ite {condition : Prop} [Decidable condition] {a : Action} (h : Plain (some a)) :
    Plain (if condition then some a else none) := by
  split
  · exact h
  · exact plain_none

/-- The closing notice is remembered and nothing else changes. -/
theorem closingNotice_cases
    (h : policy.closingNotice zones state now inputs schedule = .ok (action, state')) :
    Plain action ∧ state'.mods = state.mods ∧ state'.activity = state.activity ∧
      state'.version = state.version := by
  unfold closingNotice at h
  split at h
  · cases h
    exact ⟨plain_none, rfl, rfl, rfl⟩
  · simp only at h
    split at h
    · cases h
      exact ⟨plain_none, rfl, rfl, rfl⟩
    · split at h
      · cases h
        exact ⟨plain_none, rfl, rfl, rfl⟩
      · rw [bind_eq_ok] at h
        obtain ⟨next, _, h⟩ := h
        rw [bind_eq_ok] at h
        obtain ⟨zone, _, h⟩ := h
        cases h
        exact ⟨by simp [Plain], rfl, rfl, rfl⟩

theorem regenerable_eq_some {activity : Activity}
    (h : policy.regenerable state now inputs = some activity) :
    state.activity = some activity ∧ ∃ day, inputs.masterDay = some day ∧
      activity.interrupted = false ∧ inputs.ReliableEmpty ∧
      retention day < now - activity.lastActiveAt := by
  unfold regenerable at h
  split at h
  · rename_i day recorded hday hrecorded
    rw [Option.ite_none_right_eq_some] at h
    obtain ⟨⟨_, _, hinterrupted, hempty, hidle⟩, heq⟩ := h
    cases heq
    exact ⟨hrecorded, day, hday, hinterrupted, hempty, hidle⟩
  · cases h

/-- A plain action in a tick that leaves the maintenance and the activity
alone. -/
theorem Plain.kept (h : Plain action) (hmods : state'.mods = state.mods)
    (hactivity : state'.activity = state.activity)
    (hnotice : state.mods.phase.isAnnouncing = false ∨
      ∀ message, action ≠ some (.announce message)) :
    Maintained now inputs state.mods.attempts state.mods.phase action state'.mods.phase
        state'.mods.attempts ∧
      Renewed now inputs state.activity action state'.activity := by
  rw [hmods, hactivity]
  refine ⟨.kept _ _ h.1 h.2.1 ?_, .same _ _ h.2.2⟩
  intro message deadline nextNotice haction hphase
  rcases hnotice with hquiet | hnone
  · rw [hphase] at hquiet
    cases hquiet
  · exact hnone message haction

/-- A plain action in a tick that may suspend a countdown. -/
theorem Plain.suspendIf (h : Plain action) {condition : Bool}
    (hmods : state'.mods = (state.suspendIf condition).mods)
    (hactivity : state'.activity = state.activity)
    (hcountdown : condition = true → state.mods.phase.isAnnouncing = true ∨
      state.mods.phase = .stopping)
    (hnotice : condition = false → state.mods.phase.isAnnouncing = false ∨
      ∀ message, action ≠ some (.announce message)) :
    Maintained now inputs state.mods.attempts state.mods.phase action state'.mods.phase
        state'.mods.attempts ∧
      Renewed now inputs state.activity action state'.activity := by
  cases condition with
  | true =>
    rw [hmods, hactivity]
    exact ⟨.suspended _ _ (hcountdown rfl) h.1 h.2.1, .same _ _ h.2.2⟩
  | false => exact h.kept hmods hactivity (hnotice rfl)

theorem selectAction_cases
    (h : policy.selectAction zones state now inputs schedule = .ok (action, state')) :
    (Maintained now inputs state.mods.attempts state.mods.phase action state'.mods.phase
        state'.mods.attempts ∧
      Renewed now inputs state.activity action state'.activity) ∧
      state'.version = state.version := by
  unfold selectAction at h
  by_cases hopen : schedule.isOpen = false
  · -- a countdown waits for the next opening
    rw [if_pos hopen] at h
    cases h
    exact ⟨(plain_ite (by simp [Plain])).suspendIf rfl rfl (by simp)
      fun _ => .inr (by intro message; split <;> simp), rfl⟩
  rw [if_neg hopen] at h
  by_cases hwrites : inputs.writesInProgress = true ∨ inputs.faulted = true
  · rw [if_pos hwrites] at h
    cases h
    exact ⟨plain_none.kept rfl rfl (.inr (by simp)), rfl⟩
  rw [if_neg hwrites] at h
  by_cases hfailed : state.mods.phase = .failed
  · rw [if_pos hfailed] at h
    cases h
    exact ⟨(plain_ite (by simp [Plain])).kept rfl rfl
      (.inr (by intro message; split <;> simp)), rfl⟩
  rw [if_neg hfailed] at h
  by_cases hphase : state.mods.phase ≠ .idle
  · rw [if_pos hphase] at h
    by_cases hsoon : closingSoon schedule now = true
    · -- a countdown gives way to the closing
      rw [if_pos hsoon] at h
      by_cases hbusy : inputs.busy = true
      · simp only [if_pos hbusy] at h
        cases h
        exact ⟨plain_none.suspendIf rfl rfl .inl fun _ => .inr (by simp), rfl⟩
      · simp only [if_neg hbusy] at h
        obtain ⟨hplain, hmods, hactivity, hversion⟩ := closingNotice_cases h
        exact ⟨hplain.suspendIf hmods hactivity .inl .inl, hversion⟩
    rw [if_neg hsoon] at h
    by_cases hbusy : inputs.busy = true
    · rw [if_pos hbusy] at h
      cases h
      exact ⟨plain_none.kept rfl rfl (.inr (by simp)), rfl⟩
    rw [if_neg hbusy, bind_eq_ok] at h
    obtain ⟨⟨acted, mods⟩, haction, h⟩ := h
    cases h
    obtain ⟨hmaintained, hregenerate⟩ := ModMaintenance.action_cases haction
    exact ⟨⟨hmaintained, .same _ _ hregenerate⟩, rfl⟩
  rw [if_neg hphase] at h
  rw [not_not] at hphase
  have hquiet : state.mods.phase.isAnnouncing = false := by rw [hphase]; rfl
  by_cases hbusy : inputs.busy = true
  · rw [if_pos hbusy] at h
    cases h
    exact ⟨plain_none.kept rfl rfl (.inl hquiet), rfl⟩
  rw [if_neg hbusy] at h
  by_cases hrunning : inputs.gameRunning = false
  · rw [if_pos hrunning] at h
    cases h
    exact ⟨Plain.kept (by simp [Plain]) rfl rfl (.inl hquiet), rfl⟩
  rw [if_neg hrunning] at h
  cases hregenerable : policy.regenerable state now inputs with
  | some activity =>
    rw [hregenerable] at h
    cases h
    obtain ⟨hactivity, day, hday, hinterrupted, hempty, hidle⟩ := regenerable_eq_some hregenerable
    refine ⟨⟨.kept _ _ (by simp) (by simp) (by simp), ?_⟩, rfl⟩
    rw [hactivity]
    exact .regenerated activity day hday hinterrupted hempty hidle
  | none =>
    rw [hregenerable] at h
    obtain ⟨hplain, hmods, hactivity, hversion⟩ := closingNotice_cases h
    exact ⟨hplain.kept hmods hactivity (.inl hquiet), hversion⟩

end Policy

/-! ## A tick -/

/-- A successful tick with what its parts did, in their order. -/
structure Ticked (policy : Policy) (zones : Zones) (state : PolicyState) (now : Int)
    (inputs : Inputs) (plan : Plan) (state' : PolicyState) (clockChanged : Bool)
    (shifted reopened noticed : ModPhase) (attempts : Nat) (observed : Option Activity) : Prop where
  valid : state.validate = .ok ()
  inputsValid : inputs.validate = .ok ()
  schedule : policy.scheduleAt zones now = .ok plan.schedule
  clock : ∃ clocked, state.clockChanged now inputs.monotonic = .ok (clockChanged, clocked)
  shift : Shifted clockChanged state.mods.phase shifted
  reopen : Reopened plan.newOpening shifted state.mods.attempts reopened attempts
  notice : Noticed attempts reopened noticed
  observe : Observed now inputs clockChanged state.activity observed
  maintain : Maintained now inputs attempts noticed plan.action state'.mods.phase
    state'.mods.attempts
  renew : Renewed now inputs observed plan.action state'.activity
  version : state'.version = state.version

theorem plan_cases {policy : Policy} {zones : Zones} {state state' : PolicyState} {now : Int}
    {inputs : Inputs} {plan : Plan} (h : policy.plan zones state now inputs = .ok (plan, state')) :
    ∃ clockChanged shifted reopened noticed attempts observed,
      Ticked policy zones state now inputs plan state' clockChanged shifted reopened noticed
        attempts observed := by
  unfold Policy.plan at h
  rw [bind_eq_ok] at h
  obtain ⟨_, hvalid, h⟩ := h
  rw [bind_eq_ok] at h
  obtain ⟨_, hinputs, h⟩ := h
  rw [bind_eq_ok] at h
  obtain ⟨schedule, hschedule, h⟩ := h
  rw [bind_eq_ok] at h
  obtain ⟨⟨clockChanged, clocked⟩, hclock, h⟩ := h
  rw [bind_eq_ok] at h
  obtain ⟨⟨newOpening, opened⟩, hopened, h⟩ := h
  rw [bind_eq_ok] at h
  obtain ⟨observed, hobserved, h⟩ := h
  rw [bind_eq_ok] at h
  obtain ⟨⟨action, selected⟩, hselected, h⟩ := h
  cases h
  obtain ⟨phase, hshift, rfl⟩ := PolicyState.clockChanged_cases hclock
  obtain ⟨hreopen, hopenedActivity, hopenedVersion⟩ := PolicyState.enterOpening_cases hopened
  obtain ⟨hnotice, hattempts, hnoticedActivity, hnoticedVersion⟩ :=
    opened.observeOutdated_cases policy.modAutoUpdate inputs.modsOutdated
  obtain ⟨hobserve, hmods, hversion⟩ := PolicyState.observeActivity_cases hobserved
  obtain ⟨⟨hmaintain, hrenew⟩, hselectedVersion⟩ := Policy.selectAction_cases hselected
  rw [hnoticedActivity, hopenedActivity] at hobserve
  rw [hmods, hattempts] at hmaintain
  refine ⟨clockChanged, phase, opened.mods.phase, _, opened.mods.attempts, observed.activity,
    ⟨hvalid, hinputs, hschedule, ⟨_, hclock⟩, hshift, hreopen, hnotice, hobserve, hmaintain,
      hrenew, ?_⟩⟩
  rw [hselectedVersion, hversion, hnoticedVersion, hopenedVersion]

/-! ## The other operations -/

/-- The phase and the attempts after a mod update, by its success. -/
inductive Finished (now : Int) (attempts : Nat) : Bool → ModPhase → Nat → Prop
  | updated : Finished now attempts true .idle 0
  | failed (h : modAttempts ≤ attempts) : Finished now attempts false .failed attempts
  | retry (h : attempts < modAttempts) :
      Finished now attempts false (.retry (now + seconds modRetryDelay)) attempts

/-- Whether an update reports a success. -/
def succeeded : Except String Unit → Bool
  | .ok _ => true
  | .error _ => false

namespace PolicyState

theorem finishModUpdate_cases {state state' : PolicyState} {now : Int}
    {outcome : Except String Unit}
    (h : saved (state.finishModUpdate now outcome) = .ok state') :
    state.mods.phase = .updating ∧
      Finished now state.mods.attempts (succeeded outcome) state'.mods.phase
        state'.mods.attempts ∧
      state'.activity = state.activity ∧ state'.version = state.version := by
  unfold finishModUpdate at h
  by_cases hphase : state.mods.phase ≠ .updating
  · rw [if_pos hphase] at h
    cases h
  rw [if_neg hphase] at h
  rw [not_not] at hphase
  refine ⟨hphase, ?_⟩
  cases outcome with
  | ok _ =>
    cases h
    exact ⟨.updated, rfl, rfl⟩
  | error error =>
    simp only at h
    by_cases hbudget : modAttempts ≤ state.mods.attempts
    · rw [if_pos hbudget] at h
      cases h
      exact ⟨.failed hbudget, rfl, rfl⟩
    · rw [if_neg hbudget] at h
      cases hdelay : addDelta now (seconds modRetryDelay) with
      | ok notBefore =>
        rw [hdelay] at h
        cases h
        simp only [addDelta_eq_ok hdelay]
        exact ⟨.retry (not_le.1 hbudget), trivial, trivial⟩
      | error fault =>
        rw [hdelay] at h
        cases h

/-- A refused report leaves the state as it was. -/
theorem finishModUpdate_error {state : PolicyState} {now : Int} {outcome : Except String Unit}
    {error : String} (h : (state.finishModUpdate now outcome).1 = .error (.error error)) :
    (state.finishModUpdate now outcome).2 = state := by
  unfold finishModUpdate at h ⊢
  by_cases hphase : state.mods.phase ≠ .updating
  · rw [if_pos hphase]
  · exfalso
    rw [if_neg hphase] at h
    cases outcome with
    | ok _ => cases h
    | error _ =>
      simp only at h
      split at h
      · cases h
      · unfold addDelta panics at h
        split at h
        · cases h
        · rename_i hfault
          split at hfault
          · cases hfault
          · cases hfault
            cases h

theorem queueModUpdate_cases {state state' : PolicyState} {resumeGame : Bool}
    (h : saved (state.queueModUpdate resumeGame) = .ok state') :
    state.mods.phase ≠ .updating ∧ state'.mods.phase = .pending ∧ state'.mods.attempts = 0 ∧
      state'.activity = state.activity ∧ state'.version = state.version := by
  unfold queueModUpdate ModMaintenance.request at h
  by_cases hphase : state.mods.phase ≠ .updating
  · rw [ensure_of hphase, ok_bind] at h
    cases h
    exact ⟨hphase, rfl, rfl, rfl, rfl⟩
  · unfold ensure at h
    rw [if_neg hphase] at h
    cases h

/-- A refused request leaves the state as it was. -/
theorem queueModUpdate_error {state : PolicyState} {resumeGame : Bool} {fault : Fault String}
    (h : (state.queueModUpdate resumeGame).1 = .error fault) :
    (state.queueModUpdate resumeGame).2 = state := by
  unfold queueModUpdate at h ⊢
  cases hrequest : state.mods.request with
  | ok mods =>
    rw [hrequest] at h
    cases h
  | error _ => rfl

/-- The activity after a restart. -/
def resumedActivity (activity : Activity) : Activity :=
  if activity.cleanShutdown = false then { activity with interrupted := true } else activity

theorem resumeAfterRestart_cases {state state' : PolicyState} {now : Int}
    (h : state.resumeAfterRestart now = .ok state') :
    (state.mods.phase = .updating ∧
        Finished now state.mods.attempts false state'.mods.phase state'.mods.attempts ∨
      state.mods.phase ≠ .updating ∧ state'.mods = state.mods) ∧
      state'.activity = state.activity.map resumedActivity ∧
      state'.version = state.version := by
  unfold resumeAfterRestart at h
  simp only at h
  by_cases hphase : state.mods.phase = .updating
  · rw [if_pos hphase, bind_eq_ok] at h
    obtain ⟨finished, hfinished, h⟩ := h
    cases h
    obtain ⟨_, hfinish, hactivity, hversion⟩ := finishModUpdate_cases hfinished
    refine ⟨.inl ⟨hphase, hfinish⟩, ?_, hversion⟩
    simp only [hactivity]
    rfl
  · rw [if_neg hphase] at h
    cases h
    exact ⟨.inr ⟨hphase, rfl⟩, rfl, rfl⟩

end PolicyState

/-! ## The machine -/

inductive PolicyOp where
  | plan (policy : Policy) (zones : Zones) (now : Int) (inputs : Inputs)
  | finishModUpdate (now : Int) (outcome : Except String Unit)
  | queueModUpdate (resumeGame : Bool)
  | recordCleanShutdown
  | resumeAfterRestart (now : Int)

namespace PolicyOp

/-- The time given to an operation. -/
def time : PolicyOp → Option Int
  | .plan _ _ now _ => some now
  | .finishModUpdate now _ => some now
  | .queueModUpdate _ => none
  | .recordCleanShutdown => none
  | .resumeAfterRestart now => some now

/-- One operation on the saved state, and the plan that a tick returns. -/
def call : PolicyOp → PolicyState → Outcome String (Option Plan × PolicyState)
  | .plan policy zones now inputs, state =>
    (policy.plan zones state now inputs).map (Prod.map some id)
  | .finishModUpdate now outcome, state =>
    (PolicyState.saved (state.finishModUpdate now outcome)).map (none, ·)
  | .queueModUpdate resumeGame, state =>
    (PolicyState.saved (state.queueModUpdate resumeGame)).map (none, ·)
  | .recordCleanShutdown, state => .ok (none, state.recordCleanShutdown)
  | .resumeAfterRestart now, state => (state.resumeAfterRestart now).map (none, ·)

end PolicyOp

/-- One call of an operation. -/
abbrev PolicyEvent : Type := Event PolicyState PolicyOp (Option Plan) String

/-- A sequence of operations from the default state, some of which may
fail. -/
abbrev PolicyRun (events : List PolicyEvent) (state : PolicyState) : Prop :=
  Run (Fires PolicyOp.call) {} events state

/-- What an event of a run is: one operation that succeeded, or a refusal
that changes nothing. -/
inductive Stepped (state : PolicyState) : PolicyEvent → PolicyState → Prop
  | ticked (policy : Policy) (zones : Zones) (now : Int) (inputs : Inputs) (plan : Plan)
      (after : PolicyState) (h : policy.plan zones state now inputs = .ok (plan, after)) :
      Stepped state ⟨state, .plan policy zones now inputs, .ok (some plan)⟩ after
  | finished (now : Int) (outcome : Except String Unit) (after : PolicyState)
      (h : PolicyState.saved (state.finishModUpdate now outcome) = .ok after) :
      Stepped state ⟨state, .finishModUpdate now outcome, .ok none⟩ after
  | queued (resumeGame : Bool) (after : PolicyState)
      (h : PolicyState.saved (state.queueModUpdate resumeGame) = .ok after) :
      Stepped state ⟨state, .queueModUpdate resumeGame, .ok none⟩ after
  | recorded : Stepped state ⟨state, .recordCleanShutdown, .ok none⟩ state.recordCleanShutdown
  | resumed (now : Int) (after : PolicyState) (h : state.resumeAfterRestart now = .ok after) :
      Stepped state ⟨state, .resumeAfterRestart now, .ok none⟩ after
  | refused (op : PolicyOp) (fault : Fault String) (h : op.call state = .error fault) :
      Stepped state ⟨state, op, .error fault⟩ state

theorem stepped_of_fires {state after : PolicyState} {e : PolicyEvent}
    (h : Fires PolicyOp.call state e after) : Stepped state e after := by
  obtain ⟨before, op, result⟩ := e
  have hbefore : before = state := h.1
  subst hbefore
  rcases h.cases with ⟨returned, hcall, hresult⟩ | ⟨fault, hcall, hresult, hafter⟩
  · simp only at hcall hresult
    subst hresult
    cases op with
    | plan policy zones now inputs =>
      obtain ⟨⟨plan, next⟩, hplan, heq⟩ := map_eq_ok.1 hcall
      cases heq
      exact .ticked policy zones now inputs plan _ hplan
    | finishModUpdate now outcome =>
      obtain ⟨next, hfinish, heq⟩ := map_eq_ok.1 hcall
      cases heq
      exact .finished now outcome _ hfinish
    | queueModUpdate resumeGame =>
      obtain ⟨next, hqueue, heq⟩ := map_eq_ok.1 hcall
      cases heq
      exact .queued resumeGame _ hqueue
    | recordCleanShutdown =>
      cases hcall
      exact .recorded
    | resumeAfterRestart now =>
      obtain ⟨next, hresume, heq⟩ := map_eq_ok.1 hcall
      cases heq
      exact .resumed now _ hresume
  · simp only at hcall hresult
    subst hresult hafter
    exact .refused op fault hcall

end DstServer
