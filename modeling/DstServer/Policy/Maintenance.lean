import DstServer.Policy.Steps

/-!
# The mod maintenance over whole runs

The invariant of the maintenance and what follows from it for every run of
the policy.  `ModPhase.Sound` ties the phase to the attempts: an attempt is
reserved before the update runs, and the last one leaves the maintenance
running or failed.

* `policyRun_valid`: every state of a run passes its validation.
* `attempts_eq`: the attempts that were issued since the last reset are
  `1, 2, ..` up to the counter.
* `avoids_exhausted`: the budget is never found exhausted.
* `maintenance_invariant`: all of it for one run.
-/

namespace DstServer

open Lib Lib.Outcome

/-! ## The invariant -/

/-- The attempts that go with a phase. -/
def ModPhase.Sound : ModPhase → Nat → Prop
  | .idle, attempts => attempts = 0
  | .pending, attempts => attempts < modAttempts
  | .announcing deadline nextNotice, attempts => attempts < modAttempts ∧ nextNotice ≤ deadline
  | .stopping, attempts => attempts < modAttempts
  | .updating, attempts => 0 < attempts ∧ attempts ≤ modAttempts
  | .retry _, attempts => 0 < attempts ∧ attempts < modAttempts
  | .failed, attempts => attempts = modAttempts

theorem noticeSeconds_pos (deadline now : Int) :
    1 ≤ ModMaintenance.noticeSeconds deadline now := le_max_right _ _

namespace ModPhase

variable {phase phase' : ModPhase} {attempts attempts' : Nat}

theorem Sound.attempts_le (h : phase.Sound attempts) : attempts ≤ modAttempts := by
  unfold Sound at h
  cases phase with
  | idle =>
    simp only at h
    omega
  | pending => exact le_of_lt h
  | announcing _ _ => exact le_of_lt h.1
  | stopping => exact le_of_lt h
  | updating => exact h.2
  | retry _ => exact le_of_lt h.2
  | failed => exact le_of_eq h

theorem Sound.eq_updating_or_failed (h : phase.Sound attempts) (hmax : attempts = modAttempts) :
    phase = .updating ∨ phase = .failed := by
  have hpos : 0 < modAttempts := by decide
  cases phase with
  | updating => exact .inl rfl
  | failed => exact .inr rfl
  | idle =>
    simp only [Sound] at h
    omega
  | announcing _ _ => exact absurd hmax (ne_of_lt h.1)
  | retry _ => exact absurd hmax (ne_of_lt h.2)
  | pending => exact absurd hmax (ne_of_lt h)
  | stopping => exact absurd hmax (ne_of_lt h)

theorem Sound.validate {mods : ModMaintenance} (h : mods.phase.Sound mods.attempts) :
    mods.validate = .ok () := by
  unfold ModMaintenance.validate
  rw [ensure_of h.attempts_le, ok_bind]
  unfold ModPhase.check
  cases hphase : mods.phase with
  | pending => rfl
  | stopping => rfl
  | announcing deadline nextNotice =>
    rw [hphase] at h
    exact ensure_eq_ok.2 h.2
  | updating =>
    rw [hphase] at h
    exact ensure_eq_ok.2 h.1
  | _ =>
    rw [hphase] at h
    exact ensure_eq_ok.2 h

theorem Sound.lt_of_countdown (h : phase.Sound attempts)
    (hphase : phase.isAnnouncing = true ∨ phase = .stopping) : attempts < modAttempts := by
  rcases hphase with hannouncing | rfl
  · cases phase with
    | announcing _ _ => exact h.1
    | _ => cases hannouncing
  · exact h

/-! ### What one operation keeps -/

theorem Sound.shifted {changed : Bool} (h : phase.Sound attempts)
    (hshift : Shifted changed phase phase') : phase'.Sound attempts := by
  cases hshift with
  | same => exact h
  | announcing deadline nextNotice skew _ =>
    refine ⟨h.1, ?_⟩
    have hordered := h.2
    omega
  | retry => exact h

theorem Sound.reopened {newOpening : Option Int} (h : phase.Sound attempts)
    (hreopen : Reopened newOpening phase attempts phase' attempts') : phase'.Sound attempts' := by
  cases hreopen with
  | same => exact h
  | requested => exact (by decide : 0 < modAttempts)

theorem Sound.noticed (h : phase.Sound attempts) (hnotice : Noticed attempts phase phase') :
    phase'.Sound attempts := by
  cases hnotice with
  | same => exact h
  | outdated =>
    have hzero : attempts = 0 := h
    rw [hzero]
    exact (by decide : 0 < modAttempts)
  | dropped _ hzero => exact hzero

theorem Sound.finished {now : Int} {success : Bool} (h : phase.Sound attempts)
    (hphase : phase = .updating) (hfinish : Finished now attempts success phase' attempts') :
    phase'.Sound attempts' := by
  rw [hphase] at h
  cases hfinish with
  | updated => rfl
  | failed hspent => exact le_antisymm h.2 hspent
  | retry hleft => exact ⟨h.1, hleft⟩

theorem Sound.maintained {now : Int} {inputs : Inputs} {action : Option Action}
    (h : phase.Sound attempts)
    (hmaintain : Maintained now inputs attempts phase action phase' attempts') :
    phase'.Sound attempts' := by
  cases hmaintain with
  | kept => exact h
  | suspended _ _ hphase => exact h.lt_of_countdown hphase
  | opened _ hphase =>
    refine ⟨?_, by unfold seconds; omega⟩
    rcases hphase with rfl | ⟨notBefore, rfl, _⟩
    · exact h
    · exact h.2
  | notified deadline nextNotice hbefore hdue =>
    refine ⟨h.1, ?_⟩
    have hpos := noticeSeconds_pos deadline now
    have hceil : 1 ≤ Int.tdiv (ModMaintenance.noticeSeconds deadline now + 29) 30 := by
      rw [Int.tdiv_eq_ediv_of_nonneg (by omega)]
      omega
    unfold seconds
    omega
  | stopped => exact h.1
  | stopping => exact h
  | reserved _ hbudget => exact ⟨Nat.succ_pos _, hbudget⟩

end ModPhase

/-! ## Valid states -/

/-- The state that a run keeps: every part passes its validation. -/
structure PolicyState.Sound (state : PolicyState) : Prop where
  version : state.version = 1
  mods : state.mods.phase.Sound state.mods.attempts
  activity : ∀ activity ∈ state.activity, activity.validate = .ok ()

theorem PolicyState.Sound.validate {state : PolicyState} (h : state.Sound) :
    state.validate = .ok () := by
  unfold PolicyState.validate
  rw [ensure_of h.version, ok_bind, h.mods.validate, ok_bind]
  cases hactivity : state.activity with
  | none => rfl
  | some activity => exact h.activity activity hactivity

theorem PolicyState.sound_default : ({} : PolicyState).Sound := ⟨rfl, rfl, by simp⟩

/-- The record of a reliable observation is valid. -/
theorem Inputs.validate_activity {inputs : Inputs} (hvalid : inputs.validate = .ok ())
    (hreliable : inputs.Reliable) (lastActiveAt : Int) :
    (inputs.activity lastActiveAt).validate = .ok () := by
  unfold Inputs.validate at hvalid
  simp only [bind_eq_ok, ensure_eq_ok, forM_eq_ok] at hvalid
  obtain ⟨_, _, _, _, _, _, hpresence⟩ := hvalid
  have hidentity : ∀ presence ∈ inputs.presence.values,
      presence.sessionId ≠ "" ∧ presence.observation ≠ "" ∧
        presence.observedSeconds.isFinite = true ∧
        F64.le (.finite 0) presence.observedSeconds = true := by
    intro presence hmem
    have hchecked := hpresence presence hmem
    unfold Presence.validate at hchecked
    rw [bind_eq_ok] at hchecked
    obtain ⟨_, hnames, htimes⟩ := hchecked
    rw [ensure_eq_ok] at hnames htimes
    obtain ⟨hfinite, hnonneg, _⟩ := htimes presence.observedSeconds (by simp)
    exact ⟨hnames.1, hnames.2, hfinite, hnonneg⟩
  have hvalues : ∀ {α : Type} (f : Presence → α) (value : α),
      value ∈ (inputs.presence.map fun _ presence => f presence).values →
        ∃ presence ∈ inputs.presence.values, f presence = value := by
    intro α f value hvalue
    rw [OrderedMap.mem_values_iff] at hvalue
    obtain ⟨name, hname⟩ := hvalue
    rw [OrderedMap.get?_map, Option.map_eq_some_iff] at hname
    obtain ⟨presence, hpresence, rfl⟩ := hname
    exact ⟨presence, OrderedMap.mem_values_iff.2 ⟨name, hpresence⟩, rfl⟩
  have hnonempty : inputs.sessions.isEmpty = false := by
    rw [← Bool.not_eq_true, OrderedMap.isEmpty_iff, Inputs.sessions, OrderedMap.keys_map]
    intro hnil
    have hlength := hreliable.2.2.1
    rw [hnil, List.length_nil] at hlength
    exact hreliable.2.1 (List.length_eq_zero_iff.1 hlength.symm)
  unfold Activity.validate
  rw [ensure_of, ok_bind, ensure_of, ok_bind, ensure_of]
  · intro value hvalue
    obtain ⟨presence, hmem, rfl⟩ := hvalues Presence.observedSeconds value hvalue
    exact (hidentity presence hmem).2.2
  · intro value hvalue
    rw [List.mem_append] at hvalue
    rcases hvalue with hvalue | hvalue
    · obtain ⟨presence, hmem, rfl⟩ := hvalues Presence.sessionId value hvalue
      exact (hidentity presence hmem).1
    · obtain ⟨presence, hmem, rfl⟩ := hvalues Presence.observation value hvalue
      exact (hidentity presence hmem).2.1
  · refine ⟨hnonempty, ?_, ?_⟩
    · simp only [Inputs.activity, Inputs.sessions, OrderedMap.keys_map]
    · simp only [Inputs.activity, Inputs.sessions, OrderedMap.keys_map]

/-- A tick keeps the recorded activity valid. -/
theorem Observed.valid {now : Int} {inputs : Inputs} {clockChanged : Bool}
    {before after : Option Activity} (h : Observed now inputs clockChanged before after)
    (hinputs : inputs.validate = .ok ()) (hbefore : ∀ activity ∈ before, activity.validate = .ok ()) :
    ∀ activity ∈ after, activity.validate = .ok () := by
  intro activity hactivity
  cases h with
  | absent => cases hactivity
  | kept _ => exact hbefore activity hactivity
  | interrupted interrupted =>
    cases hactivity
    exact hbefore interrupted rfl
  | continued _ lastActiveAt hreliable =>
    cases hactivity
    exact inputs.validate_activity hinputs hreliable lastActiveAt
  | restarted _ hreliable =>
    cases hactivity
    exact inputs.validate_activity hinputs hreliable now

theorem Renewed.valid {now : Int} {inputs : Inputs} {action : Option Action}
    {before after : Option Activity} (h : Renewed now inputs before action after)
    (hbefore : ∀ activity ∈ before, activity.validate = .ok ()) :
    ∀ activity ∈ after, activity.validate = .ok () := by
  intro activity hactivity
  cases h with
  | same => exact hbefore activity hactivity
  | regenerated regenerated =>
    cases hactivity
    exact hbefore regenerated rfl

section Sound

variable {state after : PolicyState}

/-- Every event of a run keeps the state valid. -/
theorem PolicyState.Sound.stepped {e : PolicyEvent} (h : state.Sound) (hstep : Stepped state e after) :
    after.Sound := by
  cases hstep with
  | ticked policy zones now inputs plan _ hplan =>
    obtain ⟨_, shifted, reopened, noticed, attempts, observed, hticked⟩ := plan_cases hplan
    refine ⟨hticked.version.trans h.version, ?_, ?_⟩
    · exact (((h.mods.shifted hticked.shift).reopened hticked.reopen).noticed
        hticked.notice).maintained hticked.maintain
    · exact hticked.renew.valid (hticked.observe.valid hticked.inputsValid h.activity)
  | finished now outcome _ hfinish =>
    obtain ⟨hphase, hfinished, hactivity, hversion⟩ := PolicyState.finishModUpdate_cases hfinish
    refine ⟨hversion.trans h.version, h.mods.finished hphase hfinished, ?_⟩
    rw [hactivity]
    exact h.activity
  | queued resumeGame _ hqueue =>
    obtain ⟨_, hphase, hattempts, hactivity, hversion⟩ := PolicyState.queueModUpdate_cases hqueue
    refine ⟨hversion.trans h.version, ?_, ?_⟩
    · rw [hphase, hattempts]
      exact (by decide : 0 < modAttempts)
    · rw [hactivity]
      exact h.activity
  | recorded =>
    refine ⟨h.version, h.mods, ?_⟩
    intro activity hactivity
    simp only [PolicyState.recordCleanShutdown, Option.mem_def, Option.map_eq_some_iff] at hactivity
    obtain ⟨before, hbefore, rfl⟩ := hactivity
    split
    · exact h.activity before hbefore
    · exact h.activity before hbefore
  | resumed now _ hresume =>
    obtain ⟨hmods, hactivity, hversion⟩ := PolicyState.resumeAfterRestart_cases hresume
    refine ⟨hversion.trans h.version, ?_, ?_⟩
    · rcases hmods with ⟨hphase, hfinished⟩ | ⟨_, hmods⟩
      · exact h.mods.finished hphase hfinished
      · rw [hmods]
        exact h.mods
    · intro activity hresumed
      rw [hactivity, Option.mem_def, Option.map_eq_some_iff] at hresumed
      obtain ⟨before, hbefore, rfl⟩ := hresumed
      unfold PolicyState.resumedActivity
      split
      · exact h.activity before hbefore
      · exact h.activity before hbefore
  | refused => exact h

theorem PolicyRun.sound {events : List PolicyEvent} (h : PolicyRun events state) : state.Sound :=
  Run.invariant (fun _ _ _ hsound hfires => hsound.stepped (stepped_of_fires hfires)) h
    PolicyState.sound_default

end Sound

/-! ## The attempts of one budget -/

/-- The attempt that an action starts. -/
def Action.attempt : Option Action → List Nat
  | some (.updateMods attempt) => [attempt]
  | _ => []

/-- The attempt that an event issued. -/
def issued (e : PolicyEvent) : List Nat :=
  match e.result with
  | .ok (some plan) => Action.attempt plan.action
  | _ => []

/-- The event gives the maintenance a new budget: a success, a request, or a
new opening after the last failure. -/
def resetsBudget (e : PolicyEvent) : Bool :=
  match e.result with
  | .error _ => false
  | .ok returned =>
    match e.op, returned with
    | .plan _ _ _ _, some plan =>
      plan.newOpening.isSome && decide (e.before.mods.phase = .failed)
    | .finishModUpdate _ outcome, _ => succeeded outcome
    | .queueModUpdate _, _ => true
    | _, _ => false

/-- The attempts that were issued since the budget was last reset. -/
def issuedSinceReset (events : List PolicyEvent) : List Nat :=
  events.foldl (fun attempts e => if resetsBudget e then issued e else attempts ++ issued e) []

theorem issuedSinceReset_concat (events : List PolicyEvent) (e : PolicyEvent) :
    issuedSinceReset (events ++ [e]) =
      (if resetsBudget e then [] else issuedSinceReset events) ++ issued e := by
  unfold issuedSinceReset
  rw [List.foldl_concat]
  split
  · rfl
  · rfl

/-- Only a reservation raises the counter. -/
theorem Maintained.attempts {now : Int} {inputs : Inputs} {before after : Nat}
    {phase phase' : ModPhase} {action : Option Action}
    (h : Maintained now inputs before phase action phase' after) :
    action = some (.updateMods (before + 1)) ∧ after = before + 1 ∨
      Action.attempt action = [] ∧ after = before := by
  have hplain : (∀ attempt, action ≠ some (.updateMods attempt)) → Action.attempt action = [] := by
    intro hupdate
    unfold Action.attempt
    split
    · rename_i attempt
      exact absurd rfl (hupdate attempt)
    · rfl
  cases h with
  | kept _ _ hupdate => exact .inr ⟨hplain hupdate, rfl⟩
  | suspended _ _ _ hupdate => exact .inr ⟨hplain hupdate, rfl⟩
  | reserved => exact .inl ⟨rfl, rfl⟩
  | opened => exact .inr ⟨rfl, rfl⟩
  | notified => exact .inr ⟨rfl, rfl⟩
  | stopped => exact .inr ⟨rfl, rfl⟩
  | stopping => exact .inr ⟨rfl, rfl⟩

/-- A failed update keeps its attempts. -/
theorem Finished.attempts {now : Int} {before after : Nat} {phase : ModPhase}
    (h : Finished now before false phase after) : after = before := by
  cases h with
  | failed => rfl
  | retry => rfl

theorem Shifted.eq_failed_iff {changed : Bool} {phase phase' : ModPhase}
    (h : Shifted changed phase phase') : phase' = .failed ↔ phase = .failed := by
  cases h with
  | same => rfl
  | announcing => simp
  | retry => simp

/-- One event extends the issued attempts by the reserved one. -/
theorem issuedSinceReset_stepped {events : List PolicyEvent} {e : PolicyEvent}
    {state after : PolicyState} (h : issuedSinceReset events = List.range' 1 state.mods.attempts)
    (hstep : Stepped state e after) :
    issuedSinceReset (events ++ [e]) = List.range' 1 after.mods.attempts := by
  rw [issuedSinceReset_concat, h]
  cases hstep with
  | ticked policy zones now inputs plan _ hplan =>
    obtain ⟨_, shifted, reopened, noticed, attempts, observed, hticked⟩ := plan_cases hplan
    -- the budget that the action finds
    have hbudget : (if (resetsBudget ⟨state, .plan policy zones now inputs, .ok (some plan)⟩) then []
        else List.range' 1 state.mods.attempts) = List.range' 1 attempts := by
      have hfailed := hticked.shift.eq_failed_iff
      have hreopen := hticked.reopen
      simp only [resetsBudget, Bool.and_eq_true, decide_eq_true_eq, ← hfailed]
      generalize state.mods.attempts = counter at hreopen ⊢
      cases hreopen with
      | same _ _ hsame =>
        rw [if_neg]
        rintro ⟨hopening, hphase⟩
        rcases hsame with hnone | hphase'
        · rw [hnone] at hopening
          cases hopening
        · exact hphase' hphase
      | requested _ hopening =>
        rw [if_pos ⟨Option.isSome_iff_ne_none.2 hopening, rfl⟩]
        rfl
    have hissued : issued ⟨state, .plan policy zones now inputs, .ok (some plan)⟩ =
        Action.attempt plan.action := rfl
    rw [hbudget, hissued]
    rcases hticked.maintain.attempts with ⟨haction, hafter⟩ | ⟨haction, hafter⟩
    · rw [hafter, haction, List.range'_1_concat, Nat.add_comm 1]
      rfl
    · rw [hafter, haction, List.append_nil]
  | finished now outcome _ hfinish =>
    obtain ⟨_, hfinished, _, _⟩ := PolicyState.finishModUpdate_cases hfinish
    have hissued : issued ⟨state, .finishModUpdate now outcome, .ok none⟩ = [] := rfl
    rw [hissued, List.append_nil]
    cases outcome with
    | ok _ =>
      have hzero : after.mods.attempts = 0 := by
        generalize after.mods.phase = phase at hfinished
        generalize after.mods.attempts = attempts at hfinished
        cases hfinished
        rfl
      rw [hzero]
      rfl
    | error error =>
      rw [hfinished.attempts]
      rfl
  | queued resumeGame _ hqueue =>
    obtain ⟨_, _, hattempts, _, _⟩ := PolicyState.queueModUpdate_cases hqueue
    rw [hattempts]
    rfl
  | recorded => exact List.append_nil _
  | resumed now _ hresume =>
    obtain ⟨hmods, _, _⟩ := PolicyState.resumeAfterRestart_cases hresume
    have hattempts : after.mods.attempts = state.mods.attempts := by
      rcases hmods with ⟨_, hfinished⟩ | ⟨_, hmods⟩
      · exact hfinished.attempts
      · rw [hmods]
    rw [hattempts]
    exact List.append_nil _
  | refused op fault _ =>
    exact List.append_nil _

theorem attempts_eq {events : List PolicyEvent} {state : PolicyState}
    (h : PolicyRun events state) : issuedSinceReset events = List.range' 1 state.mods.attempts := by
  induction h with
  | nil => rfl
  | snoc _ hfires ih => exact issuedSinceReset_stepped ih (stepped_of_fires hfires)

/-- A tick that issues no attempt does not raise the counter. -/
theorem attempts_le_of_tick {policy : Policy} {zones : Zones} {state after : PolicyState}
    {now : Int} {inputs : Inputs} {plan : Plan}
    (h : policy.plan zones state now inputs = .ok (plan, after))
    (hissued : Action.attempt plan.action = []) : after.mods.attempts ≤ state.mods.attempts := by
  obtain ⟨_, shifted, reopened, noticed, attempts, observed, hticked⟩ := plan_cases h
  have hopened : attempts ≤ state.mods.attempts := by
    have hreopen := hticked.reopen
    generalize state.mods.attempts = counter at hreopen ⊢
    cases hreopen with
    | same => exact le_rfl
    | requested => exact Nat.zero_le _
  rcases hticked.maintain.attempts with ⟨haction, _⟩ | ⟨_, hafter⟩
  · rw [haction] at hissued
    cases hissued
  · rw [hafter]
    exact hopened

/-! ## The budget is never exhausted -/

/-- The error of `action` when no attempt is left. -/
def exhausted : String := "mod update retry budget is exhausted"

section Exhausted

theorem avoids_zone (policy : Policy) (zones : Zones) : (policy.zone zones).Avoids exhausted := by
  unfold Policy.zone
  split
  · exact avoids_ok _
  · exact avoids_orError (by decide)

theorem avoids_resolveFrom (zone : Zone) (isEnd : Bool) (steps : Nat) (candidate : Int) :
    (resolveFrom zone isEnd steps candidate).Avoids exhausted := by
  induction steps generalizing candidate with
  | zero => exact avoids_fail (by decide)
  | succ steps ih =>
    unfold resolveFrom checkedLocal
    refine Avoids.bind (Avoids.bind (avoids_ensure (by decide)) fun _ _ => avoids_ok _) fun _ _ => ?_
    split
    · exact avoids_ok _
    · exact avoids_ok _
    · exact ih _

theorem avoids_checkedDate (date : Int) : (checkedDate date).Avoids exhausted :=
  Avoids.bind (avoids_ensure (by decide)) fun _ _ => avoids_ok _

theorem avoids_windowInterval (zone : Zone) (date : Int) (window : Nat × Nat) :
    (windowInterval zone date window).Avoids exhausted := by
  unfold windowInterval
  split
  · refine Avoids.bind (avoids_checkedDate _) fun _ _ => ?_
    refine Avoids.bind (avoids_resolveFrom _ _ _ _) fun _ _ => ?_
    exact Avoids.bind (avoids_resolveFrom _ _ _ _) fun _ _ => avoids_ok _
  · refine Avoids.bind (avoids_ok _) fun _ _ => ?_
    refine Avoids.bind (avoids_resolveFrom _ _ _ _) fun _ _ => ?_
    exact Avoids.bind (avoids_resolveFrom _ _ _ _) fun _ _ => avoids_ok _

theorem avoids_scheduleAt (policy : Policy) (zones : Zones) (now : Int) :
    (policy.scheduleAt zones now).Avoids exhausted := by
  unfold Policy.scheduleAt Policy.validate
  refine Avoids.bind ?_ fun _ _ => Avoids.bind (avoids_zone _ _) fun _ _ => ?_
  · refine Avoids.bind (avoids_zone _ _) fun _ _ => ?_
    refine Avoids.bind (avoids_ensure (by decide)) fun _ _ => avoids_forM fun window _ => ?_
    exact Avoids.bind (avoids_ensure (by decide)) fun _ _ => avoids_ensure (by decide)
  · unfold scheduleIn
    simp only
    split
    · exact avoids_ok _
    · refine Avoids.bind (avoids_mapM' fun offset _ => ?_) fun _ _ => ?_
      · unfold dayIntervals
        refine Avoids.bind (avoids_checkedDate _) fun _ _ => ?_
        exact Avoids.bind (avoids_mapM' fun window _ => avoids_windowInterval _ _ _) fun _ _ =>
          avoids_ok _
      · split
        · exact avoids_ok _
        · exact avoids_ok _
        · exact avoids_fail (by decide)

theorem avoids_clockChanged (state : PolicyState) (now : Int) (monotonic : Option Nat) :
    (state.clockChanged now monotonic).Avoids exhausted := by
  have hshift : ∀ skew phase, (PolicyState.shiftPhase skew phase).Avoids exhausted := by
    intro skew phase
    cases phase with
    | announcing deadline nextNotice =>
      refine Avoids.bind (avoids_orError (by decide)) fun _ _ => ?_
      exact Avoids.bind (avoids_orError (by decide)) fun _ _ => avoids_ok _
    | retry notBefore => exact Avoids.bind (avoids_orError (by decide)) fun _ _ => avoids_ok _
    | _ => exact avoids_ok _
  have hsub : ∀ a b, (subDelta a b).Avoids exhausted := by
    intro a b
    unfold subDelta
    split
    · exact avoids_ok _
    · exact avoids_panics _
  unfold PolicyState.clockChanged
  refine Avoids.bind ?_ fun skewed _ => ?_
  · unfold PolicyState.clockSkew
    split
    · exact avoids_ok _
    · simp only
      split
      · refine Avoids.bind (avoids_orError (by decide)) fun _ _ => ?_
        exact Avoids.bind (hsub _ _) fun _ _ => avoids_ok _
      · exact avoids_ok _
  · simp only
    split
    · exact Avoids.bind (hshift _ _) fun _ _ => avoids_ok _
    · exact avoids_ok _

theorem avoids_enterOpening (state : PolicyState) (schedule : ScheduleState) (clockChanged : Bool) :
    (state.enterOpening schedule clockChanged).Avoids exhausted := by
  unfold PolicyState.enterOpening
  simp only
  split
  · exact avoids_ok _
  · split
    · refine Avoids.bind ?_ fun _ _ => avoids_ok _
      exact Avoids.bind (avoids_ensure (by decide)) fun _ _ => avoids_ok _
    · exact avoids_ok _

theorem avoids_observeActivity (state : PolicyState) (now : Int) (inputs : Inputs)
    (clockChanged : Bool) :
    (state.observeActivity now inputs clockChanged).Avoids exhausted := by
  unfold PolicyState.observeActivity
  simp only
  split
  · exact avoids_ok _
  · refine Avoids.bind (avoids_foldlM (fun last presence _ => ?_) _) fun _ _ => avoids_ok _
    unfold Presence.observe
    split
    · exact avoids_ok _
    · split
      · refine Avoids.bind (avoids_orError (by decide)) fun _ _ => ?_
        refine Avoids.bind (avoids_orError (by decide)) fun _ _ => ?_
        exact Avoids.bind (avoids_orError (by decide)) fun _ _ => avoids_ok _
      · exact avoids_ok _

theorem avoids_closingNotice (policy : Policy) (zones : Zones) (state : PolicyState) (now : Int)
    (inputs : Inputs) (schedule : ScheduleState) :
    (policy.closingNotice zones state now inputs schedule).Avoids exhausted := by
  unfold Policy.closingNotice
  split
  · exact avoids_ok _
  · simp only
    split
    · exact avoids_ok _
    · split
      · exact avoids_ok _
      · refine Avoids.bind (avoids_scheduleAt _ _ _) fun _ _ => ?_
        exact Avoids.bind (avoids_zone _ _) fun _ _ => avoids_ok _

/-- With attempts left, the action finds them. -/
theorem avoids_advance {mods : ModMaintenance} (hleft : mods.attempts < modAttempts) (now : Int)
    (inputs : Inputs) : (mods.advance now inputs).Avoids exhausted := by
  have hadd : ∀ instant delta, (addDelta instant delta).Avoids exhausted := by
    intro instant delta
    unfold addDelta
    split
    · exact avoids_ok _
    · exact avoids_panics _
  unfold ModMaintenance.advance
  split
  · split
    · exact avoids_ok _
    · refine Avoids.bind (hadd _ _) fun _ _ => ?_
      exact Avoids.bind (hadd _ _) fun _ _ => avoids_ok _
  · rw [ensure_of hleft]
    exact avoids_ok _

/-- A sound maintenance that acts has attempts left. -/
theorem avoids_action {mods : ModMaintenance} (h : mods.phase.Sound mods.attempts) (now : Int)
    (inputs : Inputs) : (mods.action now inputs).Avoids exhausted := by
  unfold ModMaintenance.action
  split
  · exact avoids_ok _
  · exact avoids_ok _
  · exact avoids_ok _
  · rename_i hphase
    rw [hphase] at h
    split
    · exact avoids_ok _
    · exact avoids_advance h.2 now inputs
  · rename_i hphase
    rw [hphase] at h
    split
    · split
      · exact avoids_ok _
      · split
        · refine Avoids.bind ?_ fun _ _ => avoids_ok _
          unfold minusDelta
          split
          · exact avoids_ok _
          · exact avoids_panics _
        · exact avoids_ok _
    · exact avoids_advance h.1 now inputs
  · rename_i hphase
    rw [hphase] at h
    split
    · exact avoids_ok _
    · exact avoids_advance h now inputs
  · rename_i hphase
    rw [hphase] at h
    exact avoids_advance h now inputs

theorem avoids_selectAction {state : PolicyState} (h : state.mods.phase.Sound state.mods.attempts)
    (policy : Policy) (zones : Zones) (now : Int) (inputs : Inputs) (schedule : ScheduleState) :
    (policy.selectAction zones state now inputs schedule).Avoids exhausted := by
  unfold Policy.selectAction
  split
  · exact avoids_ok _
  split
  · exact avoids_ok _
  split
  · exact avoids_ok _
  split
  · split
    · simp only
      split
      · exact avoids_ok _
      · exact avoids_closingNotice _ _ _ _ _ _
    · split
      · exact avoids_ok _
      · exact Avoids.bind (avoids_action h now inputs) fun _ _ => avoids_ok _
  split
  · exact avoids_ok _
  split
  · exact avoids_ok _
  split
  · exact avoids_ok _
  · exact avoids_closingNotice _ _ _ _ _ _

theorem avoids_validate (state : PolicyState) : state.validate.Avoids exhausted := by
  unfold PolicyState.validate ModMaintenance.validate
  refine Avoids.bind (avoids_ensure (by decide)) fun _ _ => ?_
  refine Avoids.bind (Avoids.bind (avoids_ensure (by decide)) fun _ _ => ?_) fun _ _ => ?_
  · unfold ModPhase.check
    split
    · exact avoids_ensure (by decide)
    · exact avoids_ensure (by decide)
    · exact avoids_ensure (by decide)
    · exact avoids_ensure (by decide)
    · exact avoids_ensure (by decide)
    · exact avoids_ok _
    · exact avoids_ok _
  · split
    · refine Avoids.bind (avoids_ensure (by decide)) fun _ _ => ?_
      exact Avoids.bind (avoids_ensure (by decide)) fun _ _ => avoids_ensure (by decide)
    · exact avoids_ok _

theorem avoids_inputs (inputs : Inputs) : inputs.validate.Avoids exhausted := by
  unfold Inputs.validate
  refine Avoids.bind (avoids_ensure (by decide)) fun _ _ => ?_
  refine Avoids.bind (avoids_ensure (by decide)) fun _ _ => ?_
  refine Avoids.bind (avoids_ensure (by decide)) fun _ _ => avoids_forM fun presence _ => ?_
  exact Avoids.bind (avoids_ensure (by decide)) fun _ _ => avoids_ensure (by decide)

theorem avoids_plan {state : PolicyState} (h : state.mods.phase.Sound state.mods.attempts)
    (policy : Policy) (zones : Zones) (now : Int) (inputs : Inputs) :
    (policy.plan zones state now inputs).Avoids exhausted := by
  unfold Policy.plan
  refine Avoids.bind (avoids_validate _) fun _ _ => ?_
  refine Avoids.bind (avoids_inputs _) fun _ _ => ?_
  refine Avoids.bind (avoids_scheduleAt _ _ _) fun schedule _ => ?_
  refine Avoids.bind (avoids_clockChanged _ _ _) fun clocked hclock => ?_
  refine Avoids.bind (avoids_enterOpening _ _ _) fun opened hopened => ?_
  refine Avoids.bind (avoids_observeActivity _ _ _ _) fun observed hobserved => ?_
  refine Avoids.bind (avoids_selectAction ?_ _ _ _ _ _) fun _ _ => avoids_ok _
  -- the maintenance is still sound when the action is chosen
  obtain ⟨phase, hshift, hclocked⟩ := PolicyState.clockChanged_cases hclock
  obtain ⟨hreopen, _, _⟩ := PolicyState.enterOpening_cases hopened
  obtain ⟨hnotice, hattempts, _, _⟩ :=
    opened.2.observeOutdated_cases policy.modAutoUpdate inputs.modsOutdated
  obtain ⟨_, hmods, _⟩ := PolicyState.observeActivity_cases hobserved
  rw [hclocked] at hreopen
  rw [hmods, hattempts]
  exact ((h.shifted hshift).reopened hreopen).noticed hnotice

/-- No operation finds the retry budget exhausted. -/
theorem avoids_exhausted {state : PolicyState} (h : state.mods.phase.Sound state.mods.attempts)
    (op : PolicyOp) : (op.call state).Avoids exhausted := by
  have hsaved : ∀ result : Outcome String Unit × PolicyState, result.1.Avoids exhausted →
      (PolicyState.saved result).Avoids exhausted := fun _ h => Avoids.map h
  have hfinish : ∀ (state : PolicyState) now outcome,
      (state.finishModUpdate now outcome).1.Avoids exhausted := by
    intro state now outcome
    unfold PolicyState.finishModUpdate
    split
    · exact avoids_fail (by decide)
    · cases outcome with
      | ok _ => exact avoids_ok _
      | error error =>
        simp only
        split
        · exact avoids_ok _
        · unfold addDelta
          split
          · exact avoids_ok _
          · rename_i hfault
            split at hfault
            · cases hfault
            · cases hfault
              exact avoids_panics _
  cases op with
  | plan policy zones now inputs => exact Avoids.map (avoids_plan h policy zones now inputs)
  | finishModUpdate now outcome => exact Avoids.map (hsaved _ (hfinish state now outcome))
  | queueModUpdate resumeGame =>
    refine Avoids.map (hsaved _ ?_)
    unfold PolicyState.queueModUpdate ModMaintenance.request ensure
    split
    · exact avoids_ok _
    · rename_i hfault
      split at hfault
      · cases hfault
      · cases hfault
        exact avoids_fail (by decide)
  | recordCleanShutdown => exact avoids_ok _
  | resumeAfterRestart now =>
    refine Avoids.map ?_
    unfold PolicyState.resumeAfterRestart
    simp only
    split
    · exact Avoids.bind (hsaved _ (hfinish _ now _)) fun _ _ => avoids_ok _
    · exact avoids_ok _

end Exhausted

/-! ## The result -/

/-- The event is a tick. -/
def PolicyOp.isPlan : PolicyOp → Bool
  | .plan _ _ _ _ => true
  | _ => false

/-- In every run of the policy the state stays valid, the last attempt
leaves the maintenance running or failed, so that the budget is never found
exhausted, the attempts of one budget are `1, 2, 3` in order, only a reservation raises
the counter, and an operation that is refused changes nothing. -/
theorem maintenance_invariant {events : List PolicyEvent} {state : PolicyState}
    (h : PolicyRun events state) :
    state.validate = .ok () ∧
      (state.mods.attempts = modAttempts →
        state.mods.phase = .updating ∨ state.mods.phase = .failed) ∧
      (∀ op : PolicyOp, op.call state ≠ .error (.error exhausted)) ∧
      issuedSinceReset events <+: [1, 2, 3] ∧
      (∀ e after, Fires PolicyOp.call state e after → e.op.isPlan = true → issued e = [] →
        after.mods.attempts ≤ state.mods.attempts) ∧
      (∀ now outcome error, (state.finishModUpdate now outcome).1 = .error (.error error) →
        (state.finishModUpdate now outcome).2 = state) ∧
      ∀ resumeGame fault, (state.queueModUpdate resumeGame).1 = .error fault →
        (state.queueModUpdate resumeGame).2 = state := by
  have hsound := h.sound
  refine ⟨hsound.validate, hsound.mods.eq_updating_or_failed, avoids_exhausted hsound.mods, ?_, ?_,
    fun _ _ _ => PolicyState.finishModUpdate_error, fun _ _ => PolicyState.queueModUpdate_error⟩
  · have hle : state.mods.attempts ≤ 3 := hsound.mods.attempts_le
    rw [attempts_eq h]
    refine ⟨List.range' (1 + state.mods.attempts) (3 - state.mods.attempts), ?_⟩
    rw [List.range'_append_1, Nat.add_sub_cancel' hle]
    rfl
  · intro e after hfires hplan hissued
    cases stepped_of_fires hfires with
    | ticked policy zones now inputs plan _ hticked => exact attempts_le_of_tick hticked hissued
    | refused => exact le_rfl
    | finished => cases hplan
    | queued => cases hplan
    | recorded => cases hplan
    | resumed => cases hplan

/-! ## A run with a retry -/

/-- The zone without an offset. -/
def sampleZones : Zones := ⟨⟨fun _ => 0, fun minute => .single (minute * minuteNs)⟩, fun _ => none⟩

/-- The tick of a room without a game. -/
def sampleTick (now : Int) : PolicyOp := .plan {} sampleZones now {}

/-- The plan of a room that is always open. -/
def samplePlan (action : Option Action) : Plan := ⟨⟨true, none, none⟩, none, action, none⟩

/-- A requested maintenance after some attempts. -/
def sampleState (phase : ModPhase) (attempts : Nat) (error : Option String)
    (lastWall : Option Int) : PolicyState :=
  { mods := { phase, attempts, manual := true, error }, lastWall }

def sampleError : Option String := some "download failed"

def sampleFinish : PolicyOp := .finishModUpdate 0 (.error "download failed")

def sampleRetry : PolicyState := sampleState (.retry (seconds 300)) 1 sampleError (some 0)

def sampleUpdating : PolicyState := sampleState .updating 2 sampleError (some (seconds 300))

/-- A request, an update that fails and the retry. -/
def sampleUpdates : List PolicyEvent :=
  [⟨{}, .queueModUpdate true, .ok none⟩,
    ⟨sampleState .pending 0 none none, sampleTick 0,
      .ok (some (samplePlan (some (.updateMods 1))))⟩,
    ⟨sampleState .updating 1 none (some 0), sampleFinish, .ok none⟩,
    ⟨sampleRetry, sampleTick (seconds 300), .ok (some (samplePlan (some (.updateMods 2))))⟩]

theorem sampleUpdates_run : PolicyRun sampleUpdates sampleUpdating := by
  have h₁ : PolicyOp.call (.queueModUpdate true) {} =
      .ok (none, sampleState .pending 0 none none) := by
    decide +kernel
  have h₂ : PolicyOp.call (sampleTick 0) (sampleState .pending 0 none none) =
      .ok (some (samplePlan (some (.updateMods 1))), sampleState .updating 1 none (some 0)) := by
    decide +kernel
  have h₃ : PolicyOp.call sampleFinish (sampleState .updating 1 none (some 0)) =
      .ok (none, sampleRetry) := by
    decide +kernel
  have h₄ : PolicyOp.call (sampleTick (seconds 300)) sampleRetry =
      .ok (some (samplePlan (some (.updateMods 2))), sampleUpdating) := by
    decide +kernel
  exact (((Run.nil.snoc (Fires.of_ok h₁)).snoc (Fires.of_ok h₂)).snoc (Fires.of_ok h₃)).snoc
    (Fires.of_ok h₄)

/-- The two attempts of the sample run are numbered. -/
theorem maintenance_invariant_sample :
    sampleUpdating.validate = .ok () ∧ issuedSinceReset sampleUpdates = [1, 2] ∧
      issuedSinceReset sampleUpdates <+: [1, 2, 3] :=
  have h := maintenance_invariant sampleUpdates_run
  ⟨h.1, by decide, h.2.2.2.1⟩

end DstServer
