import DstServer.Policy.Countdown

/-!
# Idle regeneration over whole runs

When `plan` regenerates a world, the world was idle for the whole retention
period: `Idle` is what the recorded activity says about every tick after its
`last_active_at`, and `idle_regeneration` reads it off at the tick that
regenerates.

The second part is about lives of the game that end by a crash.  A restart
interrupts the idle period unless the recorded activity carries the mark of
a clean shutdown; `unclean_end_clears_credit` is the guarantee for the runs
in which no such mark is left over, and
`stale_mark_carries_credit` is a run in which one is.
-/

namespace DstServer

open Lib Lib.Outcome

/-! ## Ticks -/

/-- A successful tick with its time and its observations. -/
def Tick (e : PolicyEvent) (t : Int) (inputs : Inputs) : Prop :=
  ∃ policy zones plan, e.op = .plan policy zones t inputs ∧ e.result = .ok (some plan)

/-- A successful tick with reliable observations. -/
def ReliableTick (e : PolicyEvent) : Prop := ∃ t inputs, Tick e t inputs ∧ inputs.Reliable

/-- The tick regenerates the worlds of these sessions at this age. -/
def Regenerates (e : PolicyEvent) (now : Int) (day : Nat) (sessions : OrderedMap String String) :
    Prop :=
  ∃ policy zones inputs plan, e.op = .plan policy zones now inputs ∧
    e.result = .ok (some plan) ∧ plan.action = some (.regenerate sessions) ∧
    inputs.masterDay = some day

/-- A clean shutdown was recorded and no reliable observation was made
since. -/
def CleanlyStopped (events : List PolicyEvent) : Prop :=
  ∃ earlier record later, events = earlier ++ record :: later ∧
    record.op = .recordCleanShutdown ∧ ∀ e ∈ later, ¬ReliableTick e

/-- What a shard reports about players: nobody is connected, and the last
activity is not after an instant. -/
def Presence.QuietSince (presence : Presence) (t lastActiveAt : Int) : Prop :=
  presence.Empty ∧ (F64.lt presence.idleSeconds presence.observedSeconds = true →
    ∃ idle, tryFromSecs presence.idleSeconds = some idle ∧ t - idle ≤ lastActiveAt)

/-- A tick that does not end the idle period since `lastActiveAt`, after the
events before it. -/
structure Calm (sessions : OrderedMap String String) (lastActiveAt : Int)
    (before : List PolicyEvent) (e : PolicyEvent) (t : Int) (inputs : Inputs) : Prop where
  clock : detectsClockChange e = false
  sessions : inputs.Reliable → inputs.sessions = sessions
  quiet : inputs.Reliable → ∀ presence ∈ inputs.presence.values, presence.QuietSince t lastActiveAt
  observed : ¬inputs.Reliable → inputs.cleanStopInProgress = true ∨ CleanlyStopped before

/-! ## What the recorded activity says -/

/-- Every tick after the last activity was calm, a mark was left by a clean
shutdown, and the last activity is past. -/
structure Idle (events : List PolicyEvent) (activity : Activity) : Prop where
  calm : activity.interrupted = false → ∀ before e after, events = before ++ e :: after →
    ∀ t inputs, Tick e t inputs → activity.lastActiveAt < t →
      Calm activity.sessions activity.lastActiveAt before e t inputs
  marked : activity.cleanShutdown = true → CleanlyStopped events
  past : ∃ e ∈ events, ∃ t, timeOf e = some t ∧ activity.lastActiveAt ≤ t

theorem concat_eq_append_cons {α : Type} {l before after : List α} {a x : α}
    (h : l ++ [a] = before ++ x :: after) :
    (before = l ∧ x = a) ∨ ∃ rest, after = rest ++ [a] ∧ l = before ++ x :: rest := by
  rcases List.eq_nil_or_concat after with rfl | ⟨rest, last, rfl⟩
  · obtain ⟨hl, ha⟩ := List.append_inj' h rfl
    cases ha
    exact .inl ⟨hl.symm, rfl⟩
  · rw [List.concat_eq_append, ← List.cons_append, ← List.append_assoc] at h
    obtain ⟨hl, ha⟩ := List.append_inj' h rfl
    cases ha
    exact .inr ⟨rest, List.concat_eq_append, hl⟩

section Idle

variable {events : List PolicyEvent} {e : PolicyEvent} {activity : Activity}

theorem CleanlyStopped.append (h : CleanlyStopped events) (he : ¬ReliableTick e) :
    CleanlyStopped (events ++ [e]) := by
  obtain ⟨earlier, record, later, rfl, hrecord, hlater⟩ := h
  refine ⟨earlier, record, later ++ [e], by simp, hrecord, ?_⟩
  intro other hother
  rcases List.mem_append.1 hother with hmem | hmem
  · exact hlater other hmem
  · rw [List.mem_singleton.1 hmem]
    exact he

/-- An event that is no reliable tick, and calm if it is a tick. -/
theorem Idle.append (h : Idle events activity) (he : ¬ReliableTick e)
    (hcalm : activity.interrupted = false → ∀ t inputs, Tick e t inputs →
      Calm activity.sessions activity.lastActiveAt events e t inputs) :
    Idle (events ++ [e]) activity := by
  refine ⟨?_, fun hmark => (h.marked hmark).append he, ?_⟩
  · intro hinterrupted before other after heq t inputs htick hlt
    rcases concat_eq_append_cons heq with ⟨rfl, rfl⟩ | ⟨rest, _, hevents⟩
    · exact hcalm hinterrupted t inputs htick
    · exact h.calm hinterrupted before other rest hevents t inputs htick hlt
  · obtain ⟨last, hmem, t, ht, hle⟩ := h.past
    exact ⟨last, List.mem_append_left _ hmem, t, ht, hle⟩

theorem Tick.time {t : Int} {inputs : Inputs} (h : Tick e t inputs) : timeOf e = some t := by
  obtain ⟨policy, zones, plan, hop, _⟩ := h
  unfold timeOf
  rw [hop]
  rfl

/-- No tick is later than the last event. -/
theorem Tick.le {now t : Int} {inputs : Inputs} {before after : List PolicyEvent}
    {other : PolicyEvent} (h : Tick other t inputs) (htimes : Chronological (events ++ [e]))
    (hnow : timeOf e = some now) (heq : events ++ [e] = before ++ other :: after) : t ≤ now := by
  have hmem : other ∈ events ++ [e] := by
    rw [heq]
    simp
  rcases List.mem_append.1 hmem with hmem | hmem
  · exact htimes.le hmem h.time hnow
  · have htime := h.time
    rw [List.mem_singleton.1 hmem, hnow, Option.some.injEq] at htime
    exact le_of_eq htime.symm

/-- The record of a reliable tick that begins a new idle period. -/
theorem idle_restarted {now : Int} {inputs : Inputs} (htimes : Chronological (events ++ [e]))
    (hnow : timeOf e = some now) : Idle (events ++ [e]) (inputs.activity now) := by
  refine ⟨?_, by simp [Inputs.activity], ⟨e, by simp, now, hnow, le_rfl⟩⟩
  intro _ before other after heq t _ htick hlt
  exact absurd (hlt.trans_le (htick.le htimes hnow heq)) (lt_irrefl _)

/-- The record of a reliable tick that continues an idle period. -/
theorem Idle.continued (h : Idle events activity) {now lastActiveAt : Int} {inputs : Inputs}
    (htimes : Chronological (events ++ [e])) (hnow : timeOf e = some now)
    (hinputs : ∀ t other, Tick e t other → t = now ∧ other = inputs)
    (hclock : detectsClockChange e = false) (hreliable : inputs.Reliable)
    (hinterrupted : activity.interrupted = false) (hsessions : activity.sessions = inputs.sessions)
    (hlast : min activity.lastActiveAt now ≤ lastActiveAt)
    (hreports : Reports now inputs.presence.values lastActiveAt) :
    Idle (events ++ [e]) (inputs.activity lastActiveAt) := by
  obtain ⟨past, hmem, s, hs, hles⟩ := h.past
  have hle : activity.lastActiveAt ≤ lastActiveAt := by
    rw [min_eq_left (hles.trans (htimes.le hmem hs hnow))] at hlast
    exact hlast
  refine ⟨?_, by simp [Inputs.activity], ⟨e, by simp, now, hnow, hreports.upper⟩⟩
  intro _ before other after heq t observed htick hlt
  rcases concat_eq_append_cons heq with ⟨rfl, rfl⟩ | ⟨rest, _, hevents⟩
  · obtain ⟨rfl, rfl⟩ := hinputs t observed htick
    refine ⟨hclock, fun _ => rfl, fun _ => ?_, fun hlost => absurd hreliable hlost⟩
    intro presence hpresence
    have hempty : presence.Empty := by
      by_contra hconnected
      have hactive := hreports.connected presence hpresence hconnected
      exact absurd hlt (by show ¬lastActiveAt < t; omega)
    exact ⟨hempty, hreports.reported presence hpresence hempty⟩
  · -- what was calm since an earlier activity is calm since a later one
    have hcalm := h.calm hinterrupted before other rest hevents t observed htick
      (hle.trans_lt hlt)
    refine ⟨hcalm.clock, fun hr => (hcalm.sessions hr).trans hsessions, ?_, hcalm.observed⟩
    intro hr presence hpresence
    obtain ⟨hempty, hreported⟩ := hcalm.quiet hr presence hpresence
    refine ⟨hempty, fun hidle => ?_⟩
    obtain ⟨idle, hidle, hle'⟩ := hreported hidle
    exact ⟨idle, hidle, hle'.trans hle⟩

/-- A tick, up to the choice of its action. -/
theorem Idle.observed {state : PolicyState} {policy : Policy} {zones : Zones} {now : Int}
    {inputs : Inputs} {plan : Plan} {changed : Bool} {clocked : PolicyState}
    {observed : Option Activity}
    (h : ∀ activity ∈ state.activity, Idle events activity)
    (htimes : Chronological
      (events ++ [⟨state, .plan policy zones now inputs, .ok (some plan)⟩]))
    (hclock : state.clockChanged now inputs.monotonic = .ok (changed, clocked))
    (hobserve : Observed now inputs changed state.activity observed) :
    ∀ activity ∈ observed,
      Idle (events ++ [⟨state, .plan policy zones now inputs, .ok (some plan)⟩]) activity := by
  generalize he : (⟨state, .plan policy zones now inputs, .ok (some plan)⟩ : PolicyEvent) = e
    at htimes ⊢
  have hnow : timeOf e = some now := by rw [← he]; rfl
  have hinputs : ∀ t other, Tick e t other → t = now ∧ other = inputs := by
    rintro t other ⟨policy', zones', plan', hop, _⟩
    rw [← he] at hop
    cases hop
    exact ⟨rfl, rfl⟩
  have hlost : ¬inputs.Reliable → ¬ReliableTick e := by
    rintro hlost ⟨t, other, htick, hreliable⟩
    rw [(hinputs t other htick).2] at hreliable
    exact hlost hreliable
  have hsteady : changed = false → detectsClockChange e = false := by
    rintro rfl
    rw [← he]
    unfold detectsClockChange
    simp only [hclock]
  generalize state.activity = recorded at h hobserve
  intro activity hactivity
  cases hobserve with
  | absent => cases hactivity
  | kept _ hunreliable hunchanged hclean =>
    cases hactivity
    have hidle := h activity rfl
    refine hidle.append (hlost hunreliable) ?_
    intro _ t other htick
    obtain ⟨rfl, rfl⟩ := hinputs t other htick
    refine ⟨hsteady hunchanged, fun hr => absurd hr hunreliable,
      fun hr => absurd hr hunreliable, fun _ => ?_⟩
    rcases hclean with hmark | hstop
    · exact .inr (hidle.marked hmark)
    · exact .inl hstop
  | interrupted before cleanShutdown hunreliable hclean =>
    cases hactivity
    have hidle := h before rfl
    refine ⟨by simp, ?_, ?_⟩
    · intro hmark
      exact (hidle.marked (hclean hmark)).append (hlost hunreliable)
    · obtain ⟨last, hmem, t, ht, hle⟩ := hidle.past
      exact ⟨last, List.mem_append_left _ hmem, t, ht, hle⟩
  | continued before lastActiveAt hreliable hunchanged hinterrupted hsessions hlast hreports =>
    cases hactivity
    exact (h before rfl).continued htimes hnow hinputs (hsteady hunchanged) hreliable hinterrupted
      hsessions hlast hreports
  | restarted =>
    cases hactivity
    exact idle_restarted htimes hnow

/-- A regeneration renews the idle period. -/
theorem Idle.renewed {now : Int} {inputs : Inputs} {action : Option Action}
    {before after : Option Activity} (h : ∀ activity ∈ before, Idle (events ++ [e]) activity)
    (htimes : Chronological (events ++ [e])) (hnow : timeOf e = some now)
    (hrenew : Renewed now inputs before action after) :
    ∀ activity ∈ after, Idle (events ++ [e]) activity := by
  intro activity hactivity
  cases hrenew with
  | same => exact h activity hactivity
  | regenerated recorded =>
    cases hactivity
    have hidle := h recorded rfl
    refine ⟨?_, hidle.marked, ⟨e, by simp, now, hnow, le_rfl⟩⟩
    intro hinterrupted before other after heq t observed htick hlt
    exact absurd (hlt.trans_le (htick.le htimes hnow heq)) (lt_irrefl _)

/-- The other operations on the recorded activity. -/
theorem Idle.recorded (h : Idle events activity) (hrecord : e.op = .recordCleanShutdown) :
    Idle (events ++ [e]) { activity with cleanShutdown := true } := by
  have hnone : ∀ t inputs, ¬Tick e t inputs := by
    rintro t inputs ⟨_, _, _, hop, _⟩
    rw [hrecord] at hop
    cases hop
  refine ⟨?_, fun _ => ⟨events, e, [], rfl, hrecord, by simp⟩, ?_⟩
  · intro hinterrupted before other after heq t inputs htick hlt
    rcases concat_eq_append_cons heq with ⟨_, rfl⟩ | ⟨rest, _, hevents⟩
    · exact absurd htick (hnone t inputs)
    · exact h.calm hinterrupted before other rest hevents t inputs htick hlt
  · obtain ⟨last, hmem, t, ht, hle⟩ := h.past
    exact ⟨last, List.mem_append_left _ hmem, t, ht, hle⟩

/-- An event that is no tick. -/
theorem Idle.still (h : Idle events activity) (hnone : ∀ t inputs, ¬Tick e t inputs) :
    Idle (events ++ [e]) activity :=
  h.append (fun ⟨t, inputs, htick, _⟩ => hnone t inputs htick)
    fun _ t inputs htick => absurd htick (hnone t inputs)

/-- Every run keeps the record truthful. -/
theorem Idle.stepped {state after : PolicyState}
    (h : ∀ activity ∈ state.activity, Idle events activity)
    (htimes : Chronological (events ++ [e])) (hstep : Stepped state e after) :
    ∀ activity ∈ after.activity, Idle (events ++ [e]) activity := by
  cases hstep with
  | ticked policy zones now inputs plan _ hplan =>
    obtain ⟨changed, _, _, _, _, observed, hticked⟩ := plan_cases hplan
    obtain ⟨clocked, hclock⟩ := hticked.clock
    exact Idle.renewed (Idle.observed h htimes hclock hticked.observe) htimes rfl hticked.renew
  | finished now outcome _ hfinish =>
    obtain ⟨_, _, hactivity, _⟩ := PolicyState.finishModUpdate_cases hfinish
    rw [hactivity]
    intro activity hmem
    exact (h activity hmem).still (by rintro t inputs ⟨_, _, _, hop, _⟩; cases hop)
  | queued resumeGame _ hqueue =>
    obtain ⟨_, _, _, hactivity, _⟩ := PolicyState.queueModUpdate_cases hqueue
    rw [hactivity]
    intro activity hmem
    exact (h activity hmem).still (by rintro t inputs ⟨_, _, _, hop, _⟩; cases hop)
  | recorded =>
    intro activity hmem
    rw [PolicyState.recordCleanShutdown, Option.mem_def, Option.map_eq_some_iff] at hmem
    obtain ⟨before, hbefore, rfl⟩ := hmem
    split
    · exact (h before hbefore).recorded rfl
    · exact (h before hbefore).still (by rintro t inputs ⟨_, _, _, hop, _⟩; cases hop)
  | resumed now _ hresume =>
    obtain ⟨_, hactivity, _⟩ := PolicyState.resumeAfterRestart_cases hresume
    rw [hactivity]
    intro activity hmem
    rw [Option.mem_def, Option.map_eq_some_iff] at hmem
    obtain ⟨before, hbefore, rfl⟩ := hmem
    have hstill := (h before hbefore).still
      (e := ⟨state, .resumeAfterRestart now, .ok none⟩)
      (by rintro t inputs ⟨_, _, _, hop, _⟩; cases hop)
    unfold PolicyState.resumedActivity
    split
    · exact ⟨by simp, hstill.marked, hstill.past⟩
    · exact hstill
  | refused op fault =>
    intro activity hmem
    exact (h activity hmem).still (by rintro t inputs ⟨_, _, _, _, hresult⟩; cases hresult)

theorem PolicyRun.idle {state : PolicyState} (h : PolicyRun events state)
    (htimes : Chronological events) : ∀ activity ∈ state.activity, Idle events activity := by
  induction h with
  | nil => simp
  | snoc _ hfires ih =>
    have hearlier := htimes
    unfold Chronological at hearlier
    rw [List.filterMap_append, List.pairwise_append] at hearlier
    exact Idle.stepped (ih hearlier.1) htimes (stepped_of_fires hfires)

end Idle

/-! ## Regeneration -/

/-- A tick that regenerates finds an activity that was calm for the whole
retention period. -/
theorem regenerates_cases {events : List PolicyEvent} {state after : PolicyState} {e : PolicyEvent}
    {now : Int} {day : Nat} {sessions : OrderedMap String String} (hrun : PolicyRun events state)
    (htimes : Chronological (events ++ [e])) (hstep : Stepped state e after)
    (h : Regenerates e now day sessions) :
    ∃ activity, Idle (events ++ [e]) activity ∧ activity.interrupted = false ∧
      activity.sessions = sessions ∧ retention day < now - activity.lastActiveAt := by
  have hearlier := htimes
  unfold Chronological at hearlier
  rw [List.filterMap_append, List.pairwise_append] at hearlier
  have hidle := hrun.idle hearlier.1
  obtain ⟨_, _, _, found, hop, hresult, haction, hday⟩ := h
  cases hstep with
  | ticked policy zones t inputs plan _ hplan =>
    cases hop
    cases hresult
    obtain ⟨changed, _, _, _, _, observed, hticked⟩ := plan_cases hplan
    obtain ⟨clocked, hclock⟩ := hticked.clock
    have hobserved := Idle.observed hidle htimes hclock hticked.observe
    have hrenew := hticked.renew
    rw [haction] at hrenew
    generalize after.activity = renewed at hrenew
    cases hrenew with
    | same _ _ hsame => exact absurd rfl (hsame sessions)
    | regenerated activity age hage hinterrupted _ hretention =>
      rw [hday, Option.some.injEq] at hage
      rw [← hage] at hretention
      exact ⟨activity, hobserved activity rfl, hinterrupted, rfl, hretention⟩
  | finished => cases hresult
  | queued => cases hresult
  | recorded => cases hresult
  | resumed => cases hresult
  | refused => cases hresult

/-- A world is regenerated only after it was idle for the whole retention
period: every successful tick in it with reliable observations saw nobody
connected, the same sessions and no activity within the period, no tick
detected a clock change, and an observation was lost only during a clean stop
or between a clean shutdown and the next reliable observation. -/
theorem idle_regeneration {events : List PolicyEvent} {state : PolicyState}
    (hrun : PolicyRun events state) (htimes : Chronological events)
    (earlier later : List PolicyEvent) (last : PolicyEvent) (now : Int) (day : Nat)
    (sessions : OrderedMap String String) (hevents : events = earlier ++ last :: later)
    (hregenerates : Regenerates last now day sessions)
    (before after : List PolicyEvent) (e : PolicyEvent) (t : Int) (inputs : Inputs)
    (hsplit : earlier ++ [last] = before ++ e :: after) (htick : Tick e t inputs)
    (hwithin : now - retention day ≤ t) :
    detectsClockChange e = false ∧
      (inputs.Reliable → inputs.sessions = sessions ∧
        ∀ presence ∈ inputs.presence.values, presence.Empty ∧
          (F64.lt presence.idleSeconds presence.observedSeconds = true →
            ∃ idle, tryFromSecs presence.idleSeconds = some idle ∧
              t - idle < now - retention day)) ∧
      (¬inputs.Reliable → inputs.cleanStopInProgress = true ∨ CleanlyStopped before) := by
  have hcut : events = (earlier ++ [last]) ++ later := by rw [hevents]; simp
  rw [hcut] at hrun htimes
  obtain ⟨_, hlast, _⟩ := hrun.split
  obtain ⟨_, hearlier, hfires⟩ := Run.concat_iff.1 hlast
  unfold Chronological at htimes
  rw [List.filterMap_append, List.pairwise_append] at htimes
  obtain ⟨activity, hidle, hinterrupted, rfl, hretention⟩ :=
    regenerates_cases hearlier htimes.1 (stepped_of_fires hfires) hregenerates
  have hcalm := hidle.calm hinterrupted before e after hsplit t inputs htick (by omega)
  refine ⟨hcalm.clock, fun hreliable => ⟨hcalm.sessions hreliable, ?_⟩, hcalm.observed⟩
  intro presence hpresence
  obtain ⟨hempty, hreported⟩ := hcalm.quiet hreliable presence hpresence
  refine ⟨hempty, fun hless => ?_⟩
  obtain ⟨idle, hidle, hle⟩ := hreported hless
  exact ⟨idle, hidle, by omega⟩

/-! ## A report of earlier activity -/

def hours (n : Int) : Int := seconds (3600 * n)

/-- One empty shard that reports its last activity. -/
def sampleInputs (observation : String) (idleSeconds observedSeconds : Rat) : Inputs where
  gameRunning := true
  allReady := true
  expectedShards := ["Master"]
  presence := ⟨[("Master", ⟨"session", observation, true, 0, 0, .finite idleSeconds,
    .finite observedSeconds⟩)], List.pairwise_singleton _ _⟩
  masterDay := some 1

/-- A tick of a room that regenerates its idle worlds. -/
def sampleIdleTick (now : Int) (inputs : Inputs) : PolicyOp :=
  .plan { idleRegeneration := true } sampleZones now inputs

def sampleSessions : OrderedMap String String := ⟨[("Master", "session")], by decide⟩

/-- The state with this record of activity. -/
def sampleActive (observation : String) (observedSeconds : Rat) (lastActiveAt : Int)
    (lastWall : Option Int) (cleanShutdown : Bool) : PolicyState where
  activity := some ⟨sampleSessions, ⟨[("Master", observation)], List.pairwise_singleton _ _⟩,
    ⟨[("Master", .finite observedSeconds)], List.pairwise_singleton _ _⟩, lastActiveAt,
    cleanShutdown, false⟩
  lastWall := lastWall

/-- The world was last active two hours after the first tick and eight hours
before the second one. -/
def sampleIdle : List PolicyEvent :=
  [⟨{}, sampleIdleTick 0 (sampleInputs "first" 0 0), .ok (some (samplePlan none))⟩,
    ⟨sampleActive "first" 0 0 (some 0) false,
      sampleIdleTick (hours 10) (sampleInputs "first" 28800 36000),
      .ok (some (samplePlan (some (.regenerate sampleSessions))))⟩]

theorem sampleIdle_run :
    PolicyRun sampleIdle (sampleActive "first" 36000 (hours 10) (some (hours 10)) false) := by
  have h₁ : PolicyOp.call (sampleIdleTick 0 (sampleInputs "first" 0 0)) {} =
      .ok (some (samplePlan none), sampleActive "first" 0 0 (some 0) false) := by
    decide +kernel
  have h₂ : PolicyOp.call (sampleIdleTick (hours 10) (sampleInputs "first" 28800 36000))
      (sampleActive "first" 0 0 (some 0) false) =
      .ok (some (samplePlan (some (.regenerate sampleSessions))),
        sampleActive "first" 36000 (hours 10) (some (hours 10)) false) := by
    decide +kernel
  exact (Run.nil.snoc (Fires.of_ok h₁)).snoc (Fires.of_ok h₂)

/-- In the sample run the tick that regenerates is the last one, and the
first one is before the retention period. -/
theorem idle_regeneration_sample :
    (sampleInputs "first" 28800 36000).sessions = sampleSessions ∧
      ∀ presence ∈ (sampleInputs "first" 28800 36000).presence.values, presence.Empty ∧
        (F64.lt presence.idleSeconds presence.observedSeconds = true →
          ∃ idle, tryFromSecs presence.idleSeconds = some idle ∧
            hours 10 - idle < hours 10 - retention 1) :=
  (idle_regeneration sampleIdle_run (by decide) (sampleIdle.take 1) [] _ (hours 10) 1
    sampleSessions rfl ⟨_, _, _, _, rfl, rfl, rfl, rfl⟩ (sampleIdle.take 1) [] _ (hours 10) _ rfl
    ⟨_, _, _, rfl, rfl⟩ (by decide)).2.1 (by decide)

/-- A tick that regenerates can itself report activity since the shard is
observed, when that activity is older than the retention period. -/
theorem regenerates_after_reported_activity :
    ¬∀ events state, PolicyRun events state → Chronological events →
      ∀ earlier last later now day sessions, events = earlier ++ last :: later →
        Regenerates last now day sessions →
        ∀ e ∈ earlier ++ [last], ∀ t inputs, Tick e t inputs → now - retention day ≤ t →
          inputs.Reliable → ∀ presence ∈ inputs.presence.values,
            F64.lt presence.idleSeconds presence.observedSeconds = false := by
  intro h
  have hquiet := h sampleIdle _ sampleIdle_run (by decide) (sampleIdle.take 1) _ [] (hours 10) 1
    sampleSessions rfl ⟨_, _, _, _, rfl, rfl, rfl, rfl⟩ _
    (List.mem_append_right _ (List.mem_singleton_self _)) (hours 10)
    (sampleInputs "first" 28800 36000) ⟨_, _, _, rfl, rfl⟩ (by decide) (by decide)
  revert hquiet
  decide +kernel

/-! ## Lives that end by a crash -/

/-- The restart after a life of the game: the operation that the Agent
begins with. -/
def ResumesAt (e : PolicyEvent) (now : Int) : Prop :=
  e.op = .resumeAfterRestart now ∧ e.result = .ok none

/-- The events end in a life that a tick saw running and that no clean
shutdown ended. -/
def EndsUnclean (events : List PolicyEvent) : Prop :=
  ∃ earlier running later t inputs, events = earlier ++ running :: later ∧
    Tick running t inputs ∧ inputs.gameRunning = true ∧
    ∀ e ∈ later, e.op ≠ .recordCleanShutdown ∧ ∀ now, ¬ResumesAt e now

/-- The recorded activity carries the mark of a clean shutdown. -/
def PolicyState.Marked (state : PolicyState) : Prop :=
  ∃ activity ∈ state.activity, activity.cleanShutdown = true

/-- No idle time from before an instant is credited. -/
def Cleared (since : Int) (recorded : Option Activity) : Prop :=
  ∀ activity ∈ recorded, activity.interrupted = true ∨ since ≤ activity.lastActiveAt

section Cleared

variable {since now : Int} {inputs : Inputs} {clockChanged : Bool} {before after : Option Activity}

theorem Cleared.observed (h : Cleared since before) (hsince : since ≤ now)
    (hobserve : Observed now inputs clockChanged before after) : Cleared since after := by
  intro activity hactivity
  cases hobserve with
  | absent => cases hactivity
  | kept => exact h activity hactivity
  | interrupted =>
    cases hactivity
    exact .inl rfl
  | continued recorded lastActiveAt _ _ hinterrupted _ hlast _ =>
    cases hactivity
    right
    rcases h recorded rfl with hbroken | hle
    · rw [hbroken] at hinterrupted
      cases hinterrupted
    · exact (le_min hle hsince).trans hlast
  | restarted =>
    cases hactivity
    exact .inr hsince

/-- A reliable tick records its own observations. -/
theorem Observed.record (hobserve : Observed now inputs clockChanged before after)
    (hreliable : inputs.Reliable) : ∃ lastActiveAt, after = some (inputs.activity lastActiveAt) := by
  cases hobserve with
  | absent hlost => exact absurd hreliable hlost
  | kept _ hlost => exact absurd hreliable hlost
  | interrupted _ _ hlost => exact absurd hreliable hlost
  | continued _ lastActiveAt => exact ⟨lastActiveAt, rfl⟩
  | restarted => exact ⟨now, rfl⟩

theorem Cleared.renewed {action : Option Action} (h : Cleared since before) (hsince : since ≤ now)
    (hrenew : Renewed now inputs before action after) : Cleared since after := by
  cases hrenew with
  | same => exact h
  | regenerated =>
    intro activity hactivity
    cases hactivity
    exact .inr hsince

/-- Every later event keeps the credit cleared. -/
theorem Cleared.stepped {state next : PolicyState} {e : PolicyEvent}
    (h : Cleared since state.activity) (hsince : ∀ t, timeOf e = some t → since ≤ t)
    (hstep : Stepped state e next) : Cleared since next.activity := by
  cases hstep with
  | ticked policy zones t inputs plan _ hplan =>
    obtain ⟨_, _, _, _, _, _, hticked⟩ := plan_cases hplan
    exact (h.observed (hsince t rfl) hticked.observe).renewed (hsince t rfl) hticked.renew
  | finished t outcome _ hfinish =>
    obtain ⟨_, _, hactivity, _⟩ := PolicyState.finishModUpdate_cases hfinish
    rw [hactivity]
    exact h
  | queued resumeGame _ hqueue =>
    obtain ⟨_, _, _, hactivity, _⟩ := PolicyState.queueModUpdate_cases hqueue
    rw [hactivity]
    exact h
  | recorded =>
    intro activity hactivity
    rw [PolicyState.recordCleanShutdown, Option.mem_def, Option.map_eq_some_iff] at hactivity
    obtain ⟨recorded, hrecorded, rfl⟩ := hactivity
    split
    · exact h recorded hrecorded
    · exact h recorded hrecorded
  | resumed t _ hresume =>
    obtain ⟨_, hactivity, _⟩ := PolicyState.resumeAfterRestart_cases hresume
    rw [hactivity]
    intro activity hmem
    rw [Option.mem_def, Option.map_eq_some_iff] at hmem
    obtain ⟨recorded, hrecorded, rfl⟩ := hmem
    unfold PolicyState.resumedActivity
    split
    · exact .inl rfl
    · exact h recorded hrecorded
  | refused => exact h

/-- A restart without a mark clears the credit. -/
theorem cleared_of_resumesAt {state next : PolicyState} {e : PolicyEvent} {t : Int}
    (hunmarked : ¬state.Marked) (hresumes : ResumesAt e t) (hstep : Stepped state e next) :
    Cleared since next.activity := by
  obtain ⟨hop, hresult⟩ := hresumes
  cases hstep with
  | resumed _ _ hresume =>
    obtain ⟨_, hactivity, _⟩ := PolicyState.resumeAfterRestart_cases hresume
    rw [hactivity]
    intro activity hmem
    rw [Option.mem_def, Option.map_eq_some_iff] at hmem
    obtain ⟨recorded, hrecorded, rfl⟩ := hmem
    have hclean : recorded.cleanShutdown = false := by
      by_contra hmark
      exact hunmarked ⟨recorded, hrecorded, by simpa using hmark⟩
    unfold PolicyState.resumedActivity
    rw [if_pos hclean]
    exact .inl rfl
  | ticked => cases hop
  | finished => cases hop
  | queued => cases hop
  | recorded => cases hop
  | refused => cases hresult

theorem cleared_of_run {state next : PolicyState} {events : List PolicyEvent}
    (hrun : Run (Fires PolicyOp.call) state events next) (h : Cleared since state.activity)
    (hsince : ∀ e ∈ events, ∀ t, timeOf e = some t → since ≤ t) : Cleared since next.activity := by
  induction hrun with
  | nil => exact h
  | snoc _ hfires ih =>
    exact (ih fun e he => hsince e (List.mem_append_left _ he)).stepped
      (hsince _ (List.mem_append_right _ (List.mem_singleton_self _))) (stepped_of_fires hfires)

/-- After a reliable tick the last activity is not before the credit was
cleared, and a regeneration waits for a whole retention period after it. -/
theorem Cleared.tick {state next : PolicyState} {e : PolicyEvent} {t : Int}
    (h : Cleared since state.activity) (hsince : since ≤ t) (hstep : Stepped state e next)
    {seen : Inputs} (htick : Tick e t seen) :
    (seen.Reliable → ∃ activity ∈ next.activity, since ≤ activity.lastActiveAt) ∧
      ∀ day sessions, Regenerates e t day sessions → retention day < t - since := by
  obtain ⟨_, _, returned, hop, hresult⟩ := htick
  cases hstep with
  | ticked policy zones _ inputs plan _ hplan =>
    cases hop
    cases hresult
    obtain ⟨changed, _, _, _, _, observed, hticked⟩ := plan_cases hplan
    have hcleared := h.observed hsince hticked.observe
    refine ⟨?_, ?_⟩
    · intro hreliable
      obtain ⟨lastActiveAt, hrecord⟩ := hticked.observe.record hreliable
      rw [hrecord] at hcleared
      have hlast : since ≤ lastActiveAt := by
        rcases hcleared _ rfl with hbroken | hle
        · cases hbroken
        · exact hle
      have hrenew := hticked.renew
      rw [hrecord] at hrenew
      generalize next.activity = renewed, returned.action = action at hrenew ⊢
      cases hrenew with
      | same => exact ⟨_, rfl, hlast⟩
      | regenerated => exact ⟨_, rfl, hsince⟩
    · rintro day sessions ⟨_, _, _, found, hop, hresult, haction, hday⟩
      cases hop
      cases hresult
      have hrenew := hticked.renew
      rw [haction] at hrenew
      generalize next.activity = renewed at hrenew
      cases hrenew with
      | same _ _ hsame => exact absurd rfl (hsame sessions)
      | regenerated activity age hage hinterrupted _ hretention =>
        rw [hday, Option.some.injEq] at hage
        rw [← hage] at hretention
        rcases hcleared activity rfl with hbroken | hle
        · rw [hbroken] at hinterrupted
          cases hinterrupted
        · omega
  | finished => cases hop
  | queued => cases hop
  | recorded => cases hop
  | resumed => cases hop
  | refused => cases hresult

end Cleared

/-- When no life that ended by a crash leaves a mark, its restart ends the
idle period: a reliable tick after the restart does not adopt an earlier
activity, and no tick regenerates before a whole retention period has
passed since the restart. -/
theorem unclean_end_clears_credit {events : List PolicyEvent} {state : PolicyState}
    (hrun : PolicyRun events state) (htimes : Chronological events)
    (hunmarked : ∀ before resume after now, events = before ++ resume :: after →
      ResumesAt resume now → EndsUnclean before → ¬resume.before.Marked)
    (before between : List PolicyEvent) (resume last : PolicyEvent) (restart now : Int)
    (inputs : Inputs) (hevents : events = before ++ resume :: (between ++ [last]))
    (hresumes : ResumesAt resume restart) (hunclean : EndsUnclean before)
    (htick : Tick last now inputs) :
    (inputs.Reliable → ∃ activity ∈ state.activity, restart ≤ activity.lastActiveAt) ∧
      ∀ day sessions, Regenerates last now day sessions → retention day < now - restart := by
  have hmark := hunmarked before resume _ restart hevents hresumes hunclean
  have hcut : events = before ++ [resume] ++ (between ++ [last]) := by rw [hevents]; simp
  have hlater : ∀ e ∈ between ++ [last], ∀ t, timeOf e = some t → restart ≤ t := by
    intro e he t ht
    have hresume : timeOf resume = some restart := by
      unfold timeOf
      rw [hresumes.1]
      rfl
    obtain ⟨middle, rest, hsplit⟩ := List.append_of_mem he
    rw [hcut, hsplit, ← List.append_assoc] at htimes
    exact htimes.le (by simp) hresume ht
  rw [hcut] at hrun
  obtain ⟨resumed, hresumed, hrest⟩ := hrun.split
  obtain ⟨stopped, _, hfires⟩ := Run.concat_iff.1 hresumed
  have hstopped : resume.before = stopped := hfires.1
  rw [hstopped] at hmark
  have hcleared : Cleared restart resumed.activity :=
    cleared_of_resumesAt hmark hresumes (stepped_of_fires hfires)
  obtain ⟨final, hfinal, hlast⟩ := Run.concat_iff.1 hrest
  have hbetween := cleared_of_run hfinal hcleared fun e he =>
    hlater e (List.mem_append_left _ he)
  exact hbetween.tick (hlater last (by simp) now htick.time) (stepped_of_fires hlast) htick

/-- The record of activity after a restart that interrupts it. -/
def sampleBroken : PolicyState where
  activity := some ⟨sampleSessions, ⟨[("Master", "first")], List.pairwise_singleton _ _⟩,
    ⟨[("Master", .finite 0)], List.pairwise_singleton _ _⟩, 0, false, true⟩

/-- A life that ends by a crash after a reliable tick, and the first tick of
the next one. -/
def sampleCrash : List PolicyEvent :=
  [⟨{}, sampleIdleTick 0 (sampleInputs "first" 0 0), .ok (some (samplePlan none))⟩,
    ⟨sampleActive "first" 0 0 (some 0) false, .resumeAfterRestart (hours 3), .ok none⟩,
    ⟨sampleBroken, sampleIdleTick (hours 4) (sampleInputs "second" 3600 3600),
      .ok (some (samplePlan none))⟩]

theorem sampleCrash_run :
    PolicyRun sampleCrash (sampleActive "second" 3600 (hours 4) (some (hours 4)) false) := by
  have h₁ : PolicyOp.call (sampleIdleTick 0 (sampleInputs "first" 0 0)) {} =
      .ok (some (samplePlan none), sampleActive "first" 0 0 (some 0) false) := by
    decide +kernel
  have h₂ : PolicyOp.call (.resumeAfterRestart (hours 3))
      (sampleActive "first" 0 0 (some 0) false) =
      .ok (none, sampleBroken) := by
    decide +kernel
  have h₃ : PolicyOp.call (sampleIdleTick (hours 4) (sampleInputs "second" 3600 3600)) sampleBroken =
      .ok (some (samplePlan none), sampleActive "second" 3600 (hours 4) (some (hours 4)) false) := by
    decide +kernel
  exact ((Run.nil.snoc (Fires.of_ok h₁)).snoc (Fires.of_ok h₂)).snoc (Fires.of_ok h₃)
/-- In the sample run no clean shutdown was recorded, so the restart at the
third hour bounds the activity adopted at the fourth. -/
theorem unclean_end_clears_credit_sample :
    ∃ activity ∈ (sampleActive "second" 3600 (hours 4) (some (hours 4)) false).activity,
      hours 3 ≤ activity.lastActiveAt := by
  refine (unclean_end_clears_credit sampleCrash_run (by decide) ?_ (sampleCrash.take 1) [] _ _
    (hours 3) (hours 4) (sampleInputs "second" 3600 3600) rfl ⟨rfl, rfl⟩
    ⟨[], _, [], 0, _, rfl, ⟨_, _, _, rfl, rfl⟩, rfl, by simp⟩ ⟨_, _, _, rfl, rfl⟩).1 (by decide)
  intro before resume after now hevents _ _ hmark
  have hunmarked : ∀ e ∈ sampleCrash, ∀ activity ∈ e.before.activity,
      activity.cleanShutdown = false := by
    decide
  obtain ⟨activity, hactivity, hclean⟩ := hmark
  have hmem : resume ∈ sampleCrash := by rw [hevents]; simp
  rw [hunmarked resume hmem activity hactivity] at hclean
  cases hclean

/-- A clean stop, a life that no tick observes reliably and that ends by a
crash, and the first reliable tick of the life after it. -/
def sampleStale : List PolicyEvent :=
  [⟨{}, sampleIdleTick 0 (sampleInputs "first" 0 0), .ok (some (samplePlan none))⟩,
    ⟨sampleActive "first" 0 0 (some 0) false, .recordCleanShutdown, .ok none⟩,
    ⟨sampleActive "first" 0 0 (some 0) true, .resumeAfterRestart (hours 1), .ok none⟩,
    ⟨sampleActive "first" 0 0 none true, sampleIdleTick (hours 2) { gameRunning := true },
      .ok (some (samplePlan none))⟩,
    ⟨sampleActive "first" 0 0 (some (hours 2)) true, .resumeAfterRestart (hours 3), .ok none⟩,
    ⟨sampleActive "first" 0 0 none true, sampleIdleTick (hours 4) (sampleInputs "second" 3600 3600),
      .ok (some (samplePlan none))⟩]

theorem sampleStale_run :
    PolicyRun sampleStale (sampleActive "second" 3600 0 (some (hours 4)) false) := by
  have h₁ : PolicyOp.call (sampleIdleTick 0 (sampleInputs "first" 0 0)) {} =
      .ok (some (samplePlan none), sampleActive "first" 0 0 (some 0) false) := by
    decide +kernel
  have h₂ : PolicyOp.call .recordCleanShutdown (sampleActive "first" 0 0 (some 0) false) =
      .ok (none, sampleActive "first" 0 0 (some 0) true) := by
    decide +kernel
  have h₃ : PolicyOp.call (.resumeAfterRestart (hours 1))
      (sampleActive "first" 0 0 (some 0) true) =
      .ok (none, sampleActive "first" 0 0 none true) := by
    decide +kernel
  have h₄ : PolicyOp.call (sampleIdleTick (hours 2) { gameRunning := true })
      (sampleActive "first" 0 0 none true) =
      .ok (some (samplePlan none), sampleActive "first" 0 0 (some (hours 2)) true) := by
    decide +kernel
  have h₅ : PolicyOp.call (.resumeAfterRestart (hours 3))
      (sampleActive "first" 0 0 (some (hours 2)) true) =
      .ok (none, sampleActive "first" 0 0 none true) := by
    decide +kernel
  have h₆ : PolicyOp.call (sampleIdleTick (hours 4) (sampleInputs "second" 3600 3600))
      (sampleActive "first" 0 0 none true) =
      .ok (some (samplePlan none), sampleActive "second" 3600 0 (some (hours 4)) false) := by
    decide +kernel
  have hlived := ((Run.nil.snoc (Fires.of_ok h₁)).snoc (Fires.of_ok h₂)).snoc (Fires.of_ok h₃)
  exact ((hlived.snoc (Fires.of_ok h₄)).snoc (Fires.of_ok h₅)).snoc (Fires.of_ok h₆)

/-- The mark of the first life vouches for the second one: its crash at the
third hour leaves the activity of the first tick. -/
theorem stale_mark_carries_credit :
    ¬∀ events state, PolicyRun events state → Chronological events →
      ∀ before between resume last restart now inputs,
        events = before ++ resume :: (between ++ [last]) → ResumesAt resume restart →
        EndsUnclean before → Tick last now inputs → inputs.Reliable →
        ∃ activity ∈ state.activity, restart ≤ activity.lastActiveAt := by
  intro h
  have hunclean : EndsUnclean (sampleStale.take 4) :=
    ⟨sampleStale.take 3, _, [], hours 2, _, rfl, ⟨_, _, _, rfl, rfl⟩, rfl, by simp⟩
  have hcleared := h sampleStale _ sampleStale_run (by decide) (sampleStale.take 4) [] _ _
    (hours 3) (hours 4) _ rfl ⟨rfl, rfl⟩ hunclean ⟨_, _, _, rfl, rfl⟩ (by decide)
  revert hcleared
  decide

end DstServer
