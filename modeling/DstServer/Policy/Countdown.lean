import DstServer.Policy.Maintenance

/-!
# Retry delays and notices

What a run without a clock change promises about time: a failed update is
not retried before the retry delay, a running game is stopped for an update
only when the whole notice is over, and the notices of one countdown
announce less and less time.

`Delayed` is the invariant of the first promise and `Counting` the one of
the others.  Both are about the events since the one that fixed the time,
so they hold through restarts of the Agent and through ticks that do
nothing.
-/

namespace DstServer

open Lib Lib.Outcome

/-! ## Runs without a clock change -/

/-- The event is a tick that detects a clock change. -/
def detectsClockChange (e : PolicyEvent) : Bool :=
  match e.op with
  | .plan _ _ now inputs =>
    match e.before.clockChanged now inputs.monotonic with
    | .ok (changed, _) => changed
    | .error _ => false
  | _ => false

/-- The time given to the operation of an event. -/
def timeOf (e : PolicyEvent) : Option Int := e.op.time

/-- The times given to the operations do not decrease. -/
def Chronological (events : List PolicyEvent) : Prop :=
  (events.filterMap timeOf).Pairwise (· ≤ ·)

instance (events : List PolicyEvent) : Decidable (Chronological events) :=
  inferInstanceAs (Decidable (List.Pairwise _ _))

/-- The time given to `plan`, at an event that calls it. -/
def planTime (e : PolicyEvent) : Option Int :=
  match e.op with
  | .plan _ _ now _ => some now
  | _ => none

/-- The times given to `plan` do not decrease.  The other operations may be
given any times. -/
def PlansInOrder (events : List PolicyEvent) : Prop :=
  (events.filterMap planTime).Pairwise (· ≤ ·)

instance (events : List PolicyEvent) : Decidable (PlansInOrder events) :=
  inferInstanceAs (Decidable (List.Pairwise _ _))

/-- An earlier event with a time comes before a later one. -/
theorem le_of_filterMap {time : PolicyEvent → Option Int} {earlier later : List PolicyEvent}
    {first last : PolicyEvent} {t now : Int}
    (h : ((earlier ++ last :: later).filterMap time).Pairwise (· ≤ ·)) (hfirst : first ∈ earlier)
    (ht : time first = some t) (hnow : time last = some now) : t ≤ now := by
  rw [List.filterMap_append, List.filterMap_cons_some hnow, List.pairwise_append] at h
  exact h.2.2 t (List.mem_filterMap.2 ⟨first, hfirst, ht⟩) now List.mem_cons_self

theorem Chronological.le {earlier later : List PolicyEvent} {first last : PolicyEvent} {t now : Int}
    (h : Chronological (earlier ++ last :: later)) (hfirst : first ∈ earlier)
    (ht : timeOf first = some t) (hnow : timeOf last = some now) : t ≤ now :=
  le_of_filterMap h hfirst ht hnow

theorem PlansInOrder.le {earlier later : List PolicyEvent} {first last : PolicyEvent} {t now : Int}
    (h : PlansInOrder (earlier ++ last :: later)) (hfirst : first ∈ earlier)
    (ht : planTime first = some t) (hnow : planTime last = some now) : t ≤ now :=
  le_of_filterMap h hfirst ht hnow

/-- The phase in which a steady tick chooses its action. -/
theorem Ticked.steady {policy : Policy} {zones : Zones} {state after : PolicyState} {now : Int}
    {inputs : Inputs} {plan : Plan} {shifted reopened noticed : ModPhase} {attempts : Nat}
    {observed : Option Activity}
    (h : Ticked policy zones state now inputs plan after false shifted reopened noticed attempts
      observed) :
    noticed = state.mods.phase ∨
      noticed = .idle ∧ (state.mods.attempts = 0 ∨ plan.newOpening ≠ none) ∨
      noticed = .pending ∧
        (state.mods.phase = .idle ∨ state.mods.phase = .failed ∧ plan.newOpening ≠ none) := by
  have hshift : shifted = state.mods.phase := by
    have hshift := h.shift
    generalize state.mods.phase = before at hshift ⊢
    cases hshift with
    | same => rfl
    | announcing _ _ _ hchanged => cases hchanged
    | retry _ _ hchanged => cases hchanged
  have hreopen := h.reopen
  have hnotice := h.notice
  rw [hshift] at hreopen
  generalize state.mods.phase = before at hreopen ⊢
  generalize state.mods.attempts = counter at hreopen ⊢
  cases hreopen with
  | same _ _ hsame =>
    cases hnotice with
    | same => exact .inl rfl
    | outdated => exact .inr (.inr ⟨rfl, .inl rfl⟩)
    | dropped _ hzero => exact .inr (.inl ⟨rfl, .inl hzero⟩)
  | requested _ hopening =>
    cases hnotice with
    | same => exact .inr (.inr ⟨rfl, .inr ⟨rfl, hopening⟩⟩)
    | dropped => exact .inr (.inl ⟨rfl, .inr hopening⟩)

/-- A successful tick of a run without a clock change. -/
theorem steady_plan_cases {policy : Policy} {zones : Zones} {state after : PolicyState} {now : Int}
    {inputs : Inputs} {plan : Plan} {result : Outcome String (Option Plan)}
    (hsteady : detectsClockChange ⟨state, .plan policy zones now inputs, result⟩ = false)
    (h : policy.plan zones state now inputs = .ok (plan, after)) :
    ∃ noticed attempts,
      (noticed = state.mods.phase ∨
        noticed = .idle ∧ (state.mods.attempts = 0 ∨ plan.newOpening ≠ none) ∨
        noticed = .pending ∧
          (state.mods.phase = .idle ∨ state.mods.phase = .failed ∧ plan.newOpening ≠ none)) ∧
      Maintained now inputs attempts noticed plan.action after.mods.phase after.mods.attempts := by
  obtain ⟨changed, shifted, reopened, noticed, attempts, observed, hticked⟩ := plan_cases h
  obtain ⟨clocked, hclock⟩ := hticked.clock
  have hchanged : changed = false := by
    unfold detectsClockChange at hsteady
    simp only [hclock] at hsteady
    exact hsteady
  subst hchanged
  exact ⟨noticed, attempts, hticked.steady, hticked.maintain⟩

/-! ## Where a tick can lead -/

section Maintained

variable {now : Int} {inputs : Inputs} {attempts attempts' : Nat} {phase phase' : ModPhase}
  {action : Option Action}

theorem Maintained.of_failed (h : Maintained now inputs attempts .failed action phase' attempts') :
    phase' = .failed := by
  cases h with
  | kept => rfl
  | suspended _ _ hphase => simp [ModPhase.isAnnouncing] at hphase
  | opened _ hphase => simp at hphase
  | reserved _ _ hphase => exact absurd rfl hphase.1

theorem Maintained.of_retry {notBefore : Int}
    (h : Maintained now inputs attempts (.retry notBefore) action phase' attempts') :
    phase' = .retry notBefore ∨ notBefore ≤ now := by
  cases h with
  | kept => exact .inl rfl
  | suspended _ _ hphase => simp [ModPhase.isAnnouncing] at hphase
  | opened _ hphase =>
    rcases hphase with hpending | ⟨_, hsame, hle⟩
    · cases hpending
    · cases hsame
      exact .inr hle
  | reserved _ _ hphase => exact .inr (hphase.2.2 notBefore rfl)

/-- A countdown goes on without a notice, begins, or gives a notice. -/
theorem Maintained.to_announcing {deadline nextNotice : Int}
    (h : Maintained now inputs attempts phase action (.announcing deadline nextNotice) attempts') :
    (phase = .announcing deadline nextNotice ∧ ∀ message, action ≠ some (.announce message)) ∨
      (action = some (.announce (modMessage 60)) ∧ deadline = now + seconds 60 ∧
        nextNotice = now + seconds 30 ∧ (phase = .pending ∨ ∃ notBefore, phase = .retry notBefore)) ∨
      ∃ due, phase = .announcing deadline due ∧ now < deadline ∧ due ≤ now ∧
        action = some (.announce (modMessage (ModMaintenance.noticeSeconds deadline now))) ∧
        nextNotice = deadline -
          seconds ((Int.tdiv (ModMaintenance.noticeSeconds deadline now + 29) 30 - 1) * 30) := by
  cases h with
  | kept _ _ _ _ hnotice =>
    exact .inl ⟨rfl, fun message haction => hnotice message _ _ haction rfl⟩
  | opened _ hphase =>
    refine .inr (.inl ⟨rfl, rfl, rfl, ?_⟩)
    rcases hphase with hpending | ⟨notBefore, hretry, _⟩
    · exact .inl hpending
    · exact .inr ⟨notBefore, hretry⟩
  | notified _ due hbefore hdue => exact .inr (.inr ⟨due, rfl, hbefore, hdue, rfl, rfl⟩)

theorem Maintained.to_stopping
    (h : Maintained now inputs attempts phase action .stopping attempts') :
    phase = .stopping ∨ ∃ deadline nextNotice,
      phase = .announcing deadline nextNotice ∧ deadline ≤ now := by
  cases h with
  | kept => exact .inl rfl
  | stopped deadline nextNotice hover => exact .inr ⟨deadline, nextNotice, rfl, hover⟩
  | stopping => exact .inl rfl

/-- A running game is stopped only after a countdown. -/
theorem Maintained.of_stop {message : Option String}
    (h : Maintained now inputs attempts phase (some (.stop .modUpdate message)) phase' attempts') :
    inputs.gameRunning = true ∧
      (phase = .stopping ∨ ∃ deadline nextNotice,
        phase = .announcing deadline nextNotice ∧ deadline ≤ now) := by
  cases h with
  | kept _ _ _ hstop => exact absurd rfl (hstop message)
  | suspended _ _ _ _ hstop => exact absurd rfl (hstop message)
  | stopped deadline nextNotice hover hrunning =>
    exact ⟨hrunning, .inr ⟨deadline, nextNotice, rfl, hover⟩⟩
  | stopping hrunning => exact ⟨hrunning, .inl rfl⟩

theorem Maintained.of_update {attempt : Nat}
    (h : Maintained now inputs attempts phase (some (.updateMods attempt)) phase' attempts') :
    phase' = .updating := by
  cases h with
  | kept _ _ hupdate => exact absurd rfl (hupdate attempt)
  | suspended _ _ _ hupdate => exact absurd rfl (hupdate attempt)
  | reserved => rfl

end Maintained

/-! ## The retry delay -/

/-- The time at which an event records a failed update. -/
def recordsFailure (e : PolicyEvent) : Option Int :=
  match e.result with
  | .error _ => none
  | .ok _ =>
    match e.op with
    | .finishModUpdate now (.error _) => some now
    | .resumeAfterRestart now => if e.before.mods.phase = .updating then some now else none
    | _ => none

/-- A manual request or a new opening. -/
def intervenes (e : PolicyEvent) : Bool :=
  match e.result with
  | .error _ => false
  | .ok returned =>
    match e.op, returned with
    | .plan _ _ _ _, some plan => plan.newOpening.isSome
    | .queueModUpdate _, _ => true
    | _, _ => false

/-- No update begins before `due`: the maintenance has failed, it waits, or
that time has come. -/
def Delayed (due : Int) (events : List PolicyEvent) (phase : ModPhase) : Prop :=
  phase = .failed ∨ (∃ notBefore, phase = .retry notBefore ∧ due ≤ notBefore) ∨
    ∃ e ∈ events, ∃ now, planTime e = some now ∧ due ≤ now

section Delayed

variable {due : Int} {events : List PolicyEvent} {state after : PolicyState} {e : PolicyEvent}

theorem Delayed.of_time {phase : ModPhase} {now : Int} (hmem : e ∈ events)
    (hnow : planTime e = some now) (hdue : due ≤ now) : Delayed due events phase :=
  .inr (.inr ⟨e, hmem, now, hnow, hdue⟩)

/-- More events only make it later. -/
theorem Delayed.append {phase : ModPhase} (h : Delayed due events phase)
    (later : List PolicyEvent) : Delayed due (events ++ later) phase := by
  rcases h with hfailed | hretry | ⟨e, hmem, now, hnow, hdue⟩
  · exact .inl hfailed
  · exact .inr (.inl hretry)
  · exact .of_time (List.mem_append_left later hmem) hnow hdue

/-- One event keeps the delay, unless it intervenes. -/
theorem Delayed.stepped (h : Delayed due events state.mods.phase) (hsound : state.Sound)
    (hsteady : detectsClockChange e = false) (hquiet : intervenes e = false) (hstep : Stepped state e after) :
    Delayed due (events ++ [e]) after.mods.phase := by
  cases hstep with
  | ticked policy zones now inputs plan _ hplan =>
    obtain ⟨noticed, attempts, hnoticed, hmaintain⟩ := steady_plan_cases hsteady hplan
    have hopening : plan.newOpening = none := 
      Option.isNone_iff_eq_none.1 (Option.isSome_eq_false_iff.1 hquiet)
    have hnow : due ≤ now → ∀ phase, Delayed due
        (events ++ [⟨state, .plan policy zones now inputs, .ok (some plan)⟩]) phase := by
      intro hdue phase
      exact .of_time (List.mem_append_right events (List.mem_singleton_self _)) rfl hdue
    have hmods := hsound.mods
    rcases h with hfailed | ⟨notBefore, hretry, hdue⟩ | ⟨earlier, hmem, t, ht, hdue⟩
    · -- a failed maintenance stays failed
      rw [hfailed] at hnoticed hmods
      rcases hnoticed with rfl | ⟨_, hzero | hopened⟩ | ⟨_, hidle | ⟨_, hopened⟩⟩
      · exact .inl hmaintain.of_failed
      · rw [hzero] at hmods
        cases hmods
      · exact absurd hopening hopened
      · cases hidle
      · exact absurd hopening hopened
    · -- a retry waits for its time
      rw [hretry] at hnoticed hmods
      rcases hnoticed with rfl | ⟨_, hzero | hopened⟩ | ⟨_, hidle | ⟨hfailed, _⟩⟩
      · rcases hmaintain.of_retry with hsame | hle
        · exact .inr (.inl ⟨notBefore, hsame, hdue⟩)
        · exact hnow (hdue.trans hle) _
      · rw [hzero] at hmods
        exact absurd hmods.1 (lt_irrefl 0)
      · exact absurd hopening hopened
      · cases hidle
      · cases hfailed
    · exact .of_time (List.mem_append_left _ hmem) ht hdue
  | finished now outcome _ hfinish =>
    obtain ⟨hphase, _⟩ := PolicyState.finishModUpdate_cases hfinish
    rw [hphase] at h
    rcases h with hfailed | ⟨_, hretry, _⟩ | ⟨earlier, hmem, t, ht, hdue⟩
    · cases hfailed
    · cases hretry
    · exact .of_time (List.mem_append_left _ hmem) ht hdue
  | queued => cases hquiet
  | recorded => exact h.append _
  | resumed now _ hresume =>
    obtain ⟨⟨hphase, _⟩ | ⟨_, hmods⟩, _⟩ := PolicyState.resumeAfterRestart_cases hresume
    · rw [hphase] at h
      rcases h with hfailed | ⟨_, hretry, _⟩ | ⟨earlier, hmem, t, ht, hdue⟩
      · cases hfailed
      · cases hretry
      · exact .of_time (List.mem_append_left _ hmem) ht hdue
    · rw [hmods]
      exact h.append _
  | refused => exact h.append _

/-- The event that records a failure begins the delay. -/
theorem delayed_of_recordsFailure {t : Int} (hfailure : recordsFailure e = some t)
    (hstep : Stepped state e after) :
    Delayed (t + seconds modRetryDelay) [] after.mods.phase := by
  have hfinished : ∀ {attempts : Nat}, Finished t attempts false after.mods.phase
      after.mods.attempts → Delayed (t + seconds modRetryDelay) [] after.mods.phase := by
    intro attempts hfinish
    generalize after.mods.phase = phase at hfinish ⊢
    generalize after.mods.attempts = counter at hfinish
    cases hfinish with
    | failed => exact .inl rfl
    | retry => exact .inr (.inl ⟨_, rfl, le_rfl⟩)
  cases hstep with
  | finished now outcome _ hfinish =>
    obtain ⟨_, hfinish, _⟩ := PolicyState.finishModUpdate_cases hfinish
    cases outcome with
    | ok _ => cases hfailure
    | error _ =>
      cases hfailure
      exact hfinished hfinish
  | resumed now _ hresume =>
    simp only [recordsFailure, Option.ite_none_right_eq_some] at hfailure
    obtain ⟨hphase, hnow⟩ := hfailure
    cases hnow
    obtain ⟨⟨_, hfinish⟩ | ⟨hother, _⟩, _⟩ := PolicyState.resumeAfterRestart_cases hresume
    · exact hfinished hfinish
    · exact absurd hphase hother
  | ticked => cases hfailure
  | queued => cases hfailure
  | recorded => cases hfailure
  | refused => cases hfailure

/-- The delay lasts through every run without an intervention. -/
theorem delayed_of_run (hrun : Run (Fires PolicyOp.call) state events after)
    (hsound : state.Sound) (hbegin : Delayed due [] state.mods.phase)
    (hsteady : ∀ e ∈ events, detectsClockChange e = false) (hquiet : ∀ e ∈ events, intervenes e = false) :
    Delayed due events after.mods.phase := by
  induction hrun with
  | nil => exact hbegin
  | snoc hrun hfires ih =>
    have hmiddle := ih (fun e he => hsteady e (List.mem_append_left _ he))
      fun e he => hquiet e (List.mem_append_left _ he)
    have hmiddleSound := hrun.invariant
      (fun _ _ _ h hfires => h.stepped (stepped_of_fires hfires)) hsound
    exact hmiddle.stepped hmiddleSound (hsteady _ (by simp)) (hquiet _ (by simp))
      (stepped_of_fires hfires)

theorem updating_of_issued (hissued : issued e ≠ []) (hstep : Stepped state e after) :
    after.mods.phase = .updating := by
  cases hstep with
  | ticked policy zones now inputs plan _ hplan =>
    obtain ⟨_, _, _, _, _, _, hticked⟩ := plan_cases hplan
    have hmaintain := hticked.maintain
    have haction : Action.attempt plan.action ≠ [] := hissued
    unfold Action.attempt at haction
    split at haction
    · rename_i attempt hupdate
      rw [hupdate] at hmaintain
      exact hmaintain.of_update
    · exact absurd rfl haction
  | finished => exact absurd rfl hissued
  | queued => exact absurd rfl hissued
  | recorded => exact absurd rfl hissued
  | resumed => exact absurd rfl hissued
  | refused => exact absurd rfl hissued

/-- No update begins before the retry delay is over. -/
theorem retry_delay {earlier between later : List PolicyEvent} {failure update : PolicyEvent}
    {t now : Int} (hrun : PolicyRun (earlier ++ failure :: (between ++ update :: later)) state)
    (hsteady : ∀ e ∈ between ++ [update], detectsClockChange e = false)
    (htimes : PlansInOrder (earlier ++ failure :: (between ++ update :: later)))
    (hfailure : recordsFailure failure = some t)
    (hquiet : ∀ e ∈ between ++ [update], intervenes e = false) (hissued : issued update ≠ [])
    (hnow : planTime update = some now) : t + seconds modRetryDelay ≤ now := by
  have hsplit : earlier ++ failure :: (between ++ update :: later) =
      (earlier ++ [failure]) ++ ((between ++ [update]) ++ later) := by simp
  rw [hsplit] at hrun
  obtain ⟨failed, hfailed, hrest⟩ := hrun.split
  obtain ⟨updated, hupdated, _⟩ := hrest.split
  obtain ⟨before, hbefore, hfires⟩ := Run.concat_iff.1 hfailed
  have hdelayed := delayed_of_run hupdated (PolicyRun.sound hfailed)
    (delayed_of_recordsFailure hfailure (stepped_of_fires hfires)) hsteady hquiet
  obtain ⟨_, _, hlast⟩ := Run.concat_iff.1 hupdated
  rw [updating_of_issued hissued (stepped_of_fires hlast)] at hdelayed
  rcases hdelayed with hphase | ⟨_, hphase, _⟩ | ⟨e, hmem, due, hdue, hle⟩
  · cases hphase
  · cases hphase
  · rcases List.mem_append.1 hmem with hmem | hmem
    · have hbetween : earlier ++ failure :: (between ++ update :: later) =
          (earlier ++ failure :: between) ++ update :: later := by simp
      rw [hbetween] at htimes
      exact hle.trans (htimes.le (by simp [hmem]) hdue hnow)
    · rw [List.mem_singleton.1 hmem, hnow, Option.some.injEq] at hdue
      rw [hdue]
      exact hle

end Delayed

/-! ## The countdown -/

/-- The message that an action announces. -/
def Action.notice : Option Action → Option String
  | some (.announce message) => some message
  | _ => none

/-- The message that an event announces. -/
def announcement (e : PolicyEvent) : Option String :=
  match e.result with
  | .ok (some plan) => Action.notice plan.action
  | _ => none

theorem Action.notice_eq_none {action : Option Action}
    (h : ∀ message, action ≠ some (.announce message)) : Action.notice action = none := by
  unfold Action.notice
  split
  · rename_i message
    exact absurd rfl (h message)
  · rfl

/-- The tick that gives the first notice, a full minute before the
deadline. -/
def Opens (e : PolicyEvent) (deadline : Int) : Prop :=
  e.before.mods.phase.isAnnouncing = false ∧ announcement e = some (modMessage 60) ∧
    ∃ now, planTime e = some now ∧ deadline = now + seconds 60

/-- The maintenance counts down to the deadline. -/
def CountsTo (deadline : Int) (e : PolicyEvent) : Prop :=
  ∃ nextNotice, e.before.mods.phase = .announcing deadline nextNotice

/-- The notices that were given when the next one is due. -/
inductive Notices (deadline : Int) : Int → List Int → Prop
  | first : Notices deadline (deadline - seconds 30) [60]
  | second (remaining : Int) (hpos : 1 ≤ remaining) (hless : remaining ≤ 30) :
      Notices deadline deadline [60, remaining]

/-- What a phase remembers of the countdown. -/
inductive Counting (events : List PolicyEvent) : ModPhase → Prop
  | announcing {earlier : List PolicyEvent} {first : PolicyEvent} {rest : List PolicyEvent}
      {deadline nextNotice : Int} {remaining : List Int}
      (hevents : events = earlier ++ first :: rest) (hopens : Opens first deadline)
      (hrest : ∀ e ∈ rest, CountsTo deadline e)
      (hnotices : (first :: rest).filterMap announcement = remaining.map modMessage)
      (hremaining : Notices deadline nextNotice remaining) :
      Counting events (.announcing deadline nextNotice)
  | stopping {earlier : List PolicyEvent} {first : PolicyEvent} {rest : List PolicyEvent}
      {deadline : Int}
      (hevents : events = earlier ++ first :: rest) (hopens : Opens first deadline)
      (hrest : ∀ e ∈ rest, CountsTo deadline e ∨ e.before.mods.phase = .stopping)
      (hover : ∃ e ∈ rest, ∃ now, planTime e = some now ∧ deadline ≤ now) :
      Counting events .stopping
  | other (phase : ModPhase) (hannouncing : phase.isAnnouncing = false)
      (hstopping : phase ≠ .stopping) : Counting events phase

/-- The seconds of a notice, when the deadline is near. -/
theorem noticeSeconds_le {deadline now : Int} (hbefore : now < deadline)
    (hnear : deadline ≤ now + seconds 30) :
    ModMaintenance.noticeSeconds deadline now ≤ 30 := by
  unfold ModMaintenance.noticeSeconds
  unfold seconds at hnear
  have hmillis : Int.tdiv (deadline - now) 1000000 = (deadline - now) / 1000000 :=
    Int.tdiv_eq_ediv_of_nonneg (by omega)
  rw [hmillis, Int.tdiv_eq_ediv_of_nonneg (by omega)]
  omega

section Counting

variable {events : List PolicyEvent} {e : PolicyEvent} {state after : PolicyState}

/-- An event that continues the countdown. -/
theorem Counting.extend {earlier rest : List PolicyEvent} {first : PolicyEvent}
    {deadline nextNotice : Int} {remaining added : List Int}
    (hevents : events = earlier ++ first :: rest) (hopens : Opens first deadline)
    (hrest : ∀ e ∈ rest, CountsTo deadline e)
    (hnotices : (first :: rest).filterMap announcement = remaining.map modMessage)
    (hcounts : CountsTo deadline e)
    (hadded : [e].filterMap announcement = added.map modMessage)
    (hremaining : Notices deadline nextNotice (remaining ++ added)) :
    Counting (events ++ [e]) (.announcing deadline nextNotice) := by
  have hextended : events ++ [e] = earlier ++ first :: (rest ++ [e]) := by
    rw [hevents, List.append_assoc, List.cons_append]
  refine .announcing hextended hopens ?_ ?_ hremaining
  · intro other hother
    rcases List.mem_append.1 hother with hmem | hmem
    · exact hrest other hmem
    · rw [List.mem_singleton.1 hmem]
      exact hcounts
  · rw [← List.cons_append, List.filterMap_append, hnotices, hadded, List.map_append]

/-- An event that the maintenance spends between the end of a countdown and
the stop. -/
theorem Counting.stop {earlier rest : List PolicyEvent} {first : PolicyEvent} {deadline : Int}
    (hevents : events = earlier ++ first :: rest) (hopens : Opens first deadline)
    (hrest : ∀ e ∈ rest, CountsTo deadline e ∨ e.before.mods.phase = .stopping)
    (hlast : CountsTo deadline e ∨ e.before.mods.phase = .stopping)
    (hover : ∃ last ∈ rest ++ [e], ∃ now, planTime last = some now ∧ deadline ≤ now) :
    Counting (events ++ [e]) .stopping := by
  have hextended : events ++ [e] = earlier ++ first :: (rest ++ [e]) := by
    rw [hevents, List.append_assoc, List.cons_append]
  refine .stopping hextended hopens ?_ hover
  intro other hother
  rcases List.mem_append.1 hother with hmem | hmem
  · exact hrest other hmem
  · rw [List.mem_singleton.1 hmem]
    exact hlast

/-- An event without an announcement that leaves the phase as it was. -/
theorem Counting.same {phase : ModPhase} (h : Counting events phase)
    (hphase : e.before.mods.phase = phase) (hsilent : announcement e = none) :
    Counting (events ++ [e]) phase := by
  have hnone : [e].filterMap announcement = ([] : List Int).map modMessage :=
    List.filterMap_cons_none hsilent
  cases h with
  | @announcing _ _ _ deadline nextNotice remaining hevents hopens hrest hnotices hremaining =>
    rw [← List.append_nil remaining] at hremaining
    exact .extend hevents hopens hrest hnotices ⟨nextNotice, hphase⟩ hnone hremaining
  | stopping hevents hopens hrest hover =>
    obtain ⟨last, hmem, now, hnow, hle⟩ := hover
    exact .stop hevents hopens hrest (.inr hphase)
      ⟨last, List.mem_append_left _ hmem, now, hnow, hle⟩
  | other _ hannouncing hstopping => exact .other phase hannouncing hstopping

/-- One tick. -/
theorem Counting.ticked {policy : Policy} {zones : Zones} {now : Int} {inputs : Inputs}
    {plan : Plan} (h : Counting events state.mods.phase)
    (hsteady : detectsClockChange ⟨state, .plan policy zones now inputs, .ok (some plan)⟩ = false)
    (hplan : policy.plan zones state now inputs = .ok (plan, after)) :
    Counting (events ++ [⟨state, .plan policy zones now inputs, .ok (some plan)⟩])
      after.mods.phase := by
  obtain ⟨noticed, attempts, hnoticed, hmaintain⟩ := steady_plan_cases hsteady hplan
  generalize he : (⟨state, .plan policy zones now inputs, .ok (some plan)⟩ : PolicyEvent) = e
  have hstate : e.before = state := by rw [← he]
  have htime : planTime e = some now := by rw [← he]; rfl
  have hannounced : announcement e = Action.notice plan.action := by rw [← he]; rfl
  -- a countdown or a stop is the phase from before the tick
  have hbefore : noticed ≠ .idle → noticed ≠ .pending → e.before.mods.phase = noticed := by
    intro hidle hpending
    rw [hstate]
    rcases hnoticed with hsame | ⟨heq, _⟩ | ⟨heq, _⟩
    · exact hsame.symm
    · exact absurd heq hidle
    · exact absurd heq hpending
  cases hafter : after.mods.phase with
  | announcing deadline nextNotice =>
    rw [hafter] at hmaintain
    rcases hmaintain.to_announcing with ⟨rfl, hsilent⟩ | ⟨haction, hdeadline, hnext, hphase⟩ |
      ⟨due, rfl, hlt, hdue, haction, hnext⟩
    · have hphase := hbefore (by simp) (by simp)
      rw [← hstate, hphase] at h
      exact h.same hphase (hannounced.trans (Action.notice_eq_none hsilent))
    · have hquiet : e.before.mods.phase.isAnnouncing = false := by
        rw [hstate]
        rcases hnoticed with rfl | ⟨heq, _⟩ | ⟨_, hidle | ⟨hfailed, _⟩⟩
        · rcases hphase with hpending | ⟨_, hretry⟩
          · rw [hpending]
            rfl
          · rw [hretry]
            rfl
        · rw [heq] at hphase
          simp at hphase
        · rw [hidle]
          rfl
        · rw [hfailed]
          rfl
      have hfirst : announcement e = some (modMessage 60) := by
        rw [hannounced, haction]
        rfl
      have hopens : Opens e deadline := ⟨hquiet, hfirst, now, htime, hdeadline⟩
      have hnotices : [e].filterMap announcement = [60].map modMessage :=
        List.filterMap_cons_some hfirst
      have hdue : nextNotice = deadline - seconds 30 := by
        unfold seconds at *
        omega
      rw [hdue]
      exact .announcing rfl hopens (by simp) hnotices .first
    · have hphase := hbefore (by simp) (by simp)
      rw [← hstate, hphase] at h
      cases h with
      | announcing hevents hopens hrest hnotices hremaining =>
        cases hremaining with
        | first =>
          have hpos := noticeSeconds_pos deadline now
          have hless := noticeSeconds_le hlt (by unfold seconds at *; omega)
          have hceil : Int.tdiv (ModMaintenance.noticeSeconds deadline now + 29) 30 = 1 := by
            rw [Int.tdiv_eq_ediv_of_nonneg (by omega)]
            omega
          rw [hnext, hceil, sub_self, zero_mul, show seconds 0 = 0 from rfl, sub_zero]
          have hsecond : [e].filterMap announcement =
              [ModMaintenance.noticeSeconds deadline now].map modMessage := by
            rw [List.filterMap_cons_some (hannounced.trans (by rw [haction]; rfl))]
            rfl
          exact .extend hevents hopens hrest hnotices ⟨_, hphase⟩ hsecond
            (.second _ hpos hless)
        | second => exact absurd (hdue.trans_lt hlt) (lt_irrefl _)
      | other _ hannouncing => cases hannouncing
  | stopping =>
    rw [hafter] at hmaintain
    rcases hmaintain.to_stopping with rfl | ⟨deadline, nextNotice, rfl, hover⟩
    · have hphase := hbefore (by simp) (by simp)
      rw [← hstate, hphase] at h
      cases h with
      | stopping hevents hopens hrest hlast =>
        obtain ⟨last, hmem, t, ht, hle⟩ := hlast
        exact .stop hevents hopens hrest (.inr hphase)
          ⟨last, List.mem_append_left _ hmem, t, ht, hle⟩
      | other _ _ hstopping => exact absurd rfl hstopping
    · have hphase := hbefore (by simp) (by simp)
      rw [← hstate, hphase] at h
      cases h with
      | announcing hevents hopens hrest =>
        exact .stop hevents hopens (fun e he => .inl (hrest e he)) (.inl ⟨nextNotice, hphase⟩)
          ⟨e, by simp, now, htime, hover⟩
      | other _ hannouncing => cases hannouncing
  | _ => exact .other _ rfl (by simp)

theorem Counting.stepped (h : Counting events state.mods.phase) (hsteady : detectsClockChange e = false)
    (hstep : Stepped state e after) : Counting (events ++ [e]) after.mods.phase := by
  cases hstep with
  | ticked policy zones now inputs plan _ hplan => exact h.ticked hsteady hplan
  | finished now outcome _ hfinish =>
    obtain ⟨_, hfinished, _⟩ := PolicyState.finishModUpdate_cases hfinish
    generalize after.mods.phase = phase at hfinished ⊢
    generalize after.mods.attempts = attempts at hfinished
    generalize succeeded outcome = success at hfinished
    cases hfinished with
    | _ => exact .other _ rfl (by simp)
  | queued resumeGame _ hqueue =>
    obtain ⟨_, hphase, _⟩ := PolicyState.queueModUpdate_cases hqueue
    rw [hphase]
    exact .other _ rfl (by simp)
  | recorded => exact h.same rfl rfl
  | resumed now _ hresume =>
    obtain ⟨⟨_, hfinished⟩ | ⟨_, hmods⟩, _⟩ := PolicyState.resumeAfterRestart_cases hresume
    · generalize after.mods.phase = phase at hfinished ⊢
      generalize after.mods.attempts = attempts at hfinished
      cases hfinished with
      | _ => exact .other _ rfl (by simp)
    · rw [hmods]
      exact h.same rfl rfl
  | refused => exact h.same rfl rfl

/-- Every run remembers its countdown. -/
theorem PolicyRun.counting (hrun : PolicyRun events state)
    (hsteady : ∀ e ∈ events, detectsClockChange e = false) : Counting events state.mods.phase := by
  induction hrun with
  | nil => exact .other _ rfl (by simp)
  | snoc _ hfires ih =>
    exact (ih fun e he => hsteady e (List.mem_append_left _ he)).stepped (hsteady _ (by simp))
      (stepped_of_fires hfires)

/-- The event stops a running game for an update. -/
def StopsForUpdate (e : PolicyEvent) : Prop :=
  ∃ plan message, e.result = .ok (some plan) ∧ plan.action = some (.stop .modUpdate message)

/-- A game is stopped for an update after the whole countdown. -/
theorem stop_after_notice {earlier : List PolicyEvent} {now : Int} (hrun : PolicyRun earlier state)
    (hsteady : ∀ other ∈ earlier ++ [e], detectsClockChange other = false) (htimes : PlansInOrder (earlier ++ [e]))
    (hstep : Stepped state e after) (hstop : StopsForUpdate e) (hnow : planTime e = some now) :
    ∃ before first rest deadline, earlier = before ++ first :: rest ∧ Opens first deadline ∧
      (∀ other ∈ rest ++ [e], CountsTo deadline other ∨ other.before.mods.phase = .stopping) ∧
      deadline ≤ now := by
  have hcounting := hrun.counting fun other hmem => hsteady other (List.mem_append_left _ hmem)
  obtain ⟨stopPlan, message, hresult, haction⟩ := hstop
  cases hstep with
  | ticked policy zones t inputs plan _ hplan =>
    cases hresult
    cases hnow
    obtain ⟨noticed, attempts, hnoticed, hmaintain⟩ :=
      steady_plan_cases (hsteady _ (List.mem_append_right _ (List.mem_singleton_self _))) hplan
    rw [haction] at hmaintain
    have hphase : noticed = .stopping ∨ ∃ deadline nextNotice,
        noticed = .announcing deadline nextNotice ∧ deadline ≤ now := hmaintain.of_stop.2
    have hbefore : state.mods.phase = noticed := by
      rcases hnoticed with hsame | ⟨heq, _⟩ | ⟨heq, _⟩
      · exact hsame.symm
      · rw [heq] at hphase
        simp at hphase
      · rw [heq] at hphase
        simp at hphase
    rw [hbefore] at hcounting
    rcases hphase with rfl | ⟨deadline, nextNotice, rfl, hover⟩
    · cases hcounting with
      | @stopping before first rest deadline hevents hopens hrest hover =>
        refine ⟨before, first, rest, deadline, hevents, hopens, ?_, ?_⟩
        · intro other hother
          rcases List.mem_append.1 hother with hmem | hmem
          · exact hrest other hmem
          · rw [List.mem_singleton.1 hmem]
            exact .inr hbefore
        · obtain ⟨last, hmem, due, hdue, hle⟩ := hover
          exact hle.trans (htimes.le (by rw [hevents]; simp [hmem]) hdue rfl)
      | other _ _ hstopping => exact absurd rfl hstopping
    · cases hcounting with
      | @announcing before first rest _ _ _ hevents hopens hrest =>
        refine ⟨before, first, rest, deadline, hevents, hopens, ?_, hover⟩
        intro other hother
        rcases List.mem_append.1 hother with hmem | hmem
        · exact .inl (hrest other hmem)
        · rw [List.mem_singleton.1 hmem]
          exact .inl ⟨nextNotice, hbefore⟩
      | other _ hannouncing => cases hannouncing
  | finished => cases hresult
  | queued => cases hresult
  | recorded => cases hresult
  | resumed => cases hresult
  | refused => cases hresult

end Counting

/-! ## The result -/

/-- In every run without a clock change in which the times given to `plan` do
not decrease: a failed update is retried only after the retry delay, unless
there is a request or a new opening; a running game is stopped for an update
only at the deadline of a countdown that began with its first notice a full minute
before and was not given up since; and within one countdown the announced
times decrease and the next notice is not after the deadline. -/
theorem notice_guarantee {events : List PolicyEvent} {state : PolicyState}
    (hrun : PolicyRun events state) (hsteady : ∀ e ∈ events, detectsClockChange e = false)
    (htimes : PlansInOrder events) :
    (∀ earlier failure between update later t now,
      events = earlier ++ failure :: (between ++ update :: later) →
      recordsFailure failure = some t → (∀ e ∈ between ++ [update], intervenes e = false) →
      issued update ≠ [] → planTime update = some now → t + seconds modRetryDelay ≤ now) ∧
    (∀ earlier stop later now, events = earlier ++ stop :: later → StopsForUpdate stop →
      planTime stop = some now →
      ∃ before first rest deadline, earlier = before ++ first :: rest ∧ Opens first deadline ∧
        (∀ e ∈ rest ++ [stop], CountsTo deadline e ∨ e.before.mods.phase = .stopping) ∧
        deadline ≤ now) ∧
    ∀ deadline nextNotice, state.mods.phase = .announcing deadline nextNotice →
      nextNotice ≤ deadline ∧ ∃ earlier first rest, ∃ remaining : List Int,
        events = earlier ++ first :: rest ∧ Opens first deadline ∧
        (∀ e ∈ rest, CountsTo deadline e) ∧
        (first :: rest).filterMap announcement = remaining.map modMessage ∧
        (∀ time ∈ remaining, 1 ≤ time ∧ time ≤ 60) ∧ remaining.Pairwise (· > ·) := by
  refine ⟨?_, ?_, ?_⟩
  · rintro earlier failure between update later t now rfl hfailure hquiet hissued hnow
    refine retry_delay hrun (fun e he => hsteady e ?_) htimes hfailure hquiet hissued hnow
    simp only [List.mem_append, List.mem_cons, List.not_mem_nil, or_false] at he ⊢
    rcases he with he | he
    · exact .inr (.inr (.inl he))
    · exact .inr (.inr (.inr (.inl he)))
  · rintro earlier stop later now rfl hstop hnow
    have hsplit : earlier ++ stop :: later = earlier ++ [stop] ++ later := by simp
    rw [hsplit] at hrun hsteady htimes
    obtain ⟨_, hstopped, _⟩ := hrun.split
    obtain ⟨middle, hmiddle, hfires⟩ := Run.concat_iff.1 hstopped
    refine stop_after_notice hmiddle (fun e he => hsteady e (List.mem_append_left _ he)) ?_
      (stepped_of_fires hfires) hstop hnow
    unfold PlansInOrder at htimes
    rw [List.filterMap_append] at htimes
    exact (List.pairwise_append.1 htimes).1
  · intro deadline nextNotice hphase
    have hsound := hrun.sound.mods
    have hcounting := hrun.counting hsteady
    rw [hphase] at hsound hcounting
    refine ⟨hsound.2, ?_⟩
    cases hcounting with
    | announcing hevents hopens hrest hnotices hremaining =>
      refine ⟨_, _, _, _, hevents, hopens, hrest, hnotices, ?_, ?_⟩
      · cases hremaining with
        | first => simp
        | second remaining hpos hless =>
          simp
          omega
      · cases hremaining with
        | first => simp
        | second remaining hpos hless =>
          simp
          omega
    | other _ hannouncing => cases hannouncing

/-! ## A countdown -/

/-- The tick of a room that is ready. -/
def sampleReady (now : Int) : PolicyOp :=
  .plan {} sampleZones now { gameRunning := true, allReady := true }

/-- A request while the game is running, two notices and the stop. -/
def sampleCountdown : List PolicyEvent :=
  [⟨{}, .queueModUpdate true, .ok none⟩,
    ⟨sampleState .pending 0 none none, sampleReady 0,
      .ok (some (samplePlan (some (.announce (modMessage 60)))))⟩,
    ⟨sampleState (.announcing (seconds 60) (seconds 30)) 0 none (some 0),
      sampleReady (seconds 30), .ok (some (samplePlan (some (.announce (modMessage 30)))))⟩,
    ⟨sampleState (.announcing (seconds 60) (seconds 60)) 0 none (some (seconds 30)),
      sampleReady (seconds 60),
      .ok (some (samplePlan (some (.stop .modUpdate (some (modMessage 0))))))⟩]

def sampleStopping : PolicyState := sampleState .stopping 0 none (some (seconds 60))

theorem sampleCountdown_run : PolicyRun sampleCountdown sampleStopping := by
  have h₁ : PolicyOp.call (.queueModUpdate true) {} =
      .ok (none, sampleState .pending 0 none none) := by
    decide +kernel
  have h₂ : PolicyOp.call (sampleReady 0) (sampleState .pending 0 none none) =
      .ok (some (samplePlan (some (.announce (modMessage 60)))),
        sampleState (.announcing (seconds 60) (seconds 30)) 0 none (some 0)) := by
    decide +kernel
  have h₃ : PolicyOp.call (sampleReady (seconds 30))
      (sampleState (.announcing (seconds 60) (seconds 30)) 0 none (some 0)) =
      .ok (some (samplePlan (some (.announce (modMessage 30)))),
        sampleState (.announcing (seconds 60) (seconds 60)) 0 none (some (seconds 30))) := by
    decide +kernel
  have h₄ : PolicyOp.call (sampleReady (seconds 60))
      (sampleState (.announcing (seconds 60) (seconds 60)) 0 none (some (seconds 30))) =
      .ok (some (samplePlan (some (.stop .modUpdate (some (modMessage 0))))), sampleStopping) := by
    decide +kernel
  exact (((Run.nil.snoc (Fires.of_ok h₁)).snoc (Fires.of_ok h₂)).snoc (Fires.of_ok h₃)).snoc
    (Fires.of_ok h₄)

/-- The stop of the sample run comes a minute after the first notice. -/
theorem notice_guarantee_sample :
    ∃ before first rest deadline, sampleCountdown.take 3 = before ++ first :: rest ∧
      Opens first deadline ∧ deadline ≤ seconds 60 := by
  obtain ⟨before, first, rest, deadline, hevents, hopens, _, hle⟩ :=
    (notice_guarantee sampleCountdown_run (by decide) (by decide)).2.1
      (sampleCountdown.take 3) _ [] (seconds 60) rfl ⟨_, _, rfl, rfl⟩ rfl
  exact ⟨before, first, rest, deadline, hevents, hopens, hle⟩

end DstServer
