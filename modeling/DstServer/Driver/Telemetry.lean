import DstServer.Driver.System
import DstServer.Lib.Outcome

/-!
# The account of the telemetry

The model of `telemetry` in `driver.rs`: a frame of telemetry is published,
or counted as stale or as invalid, and the sequence numbers that were passed
over are counted as gaps.

The other frames that matter here are those that may begin a generation.
`Moves` is all that such a frame does to the position.
-/

namespace DstServer.Driver

open Lib Lib.Outcome

/-! ## The data -/

/-- `PositiveCounter` of `events/types.rs` -/
structure PositiveCounter where
  value : Nat
  positive : 1 ≤ value
  safe : value ≤ maxSafeInteger

/-- An event that `events::parse` has read. -/
structure GameEvent where
  nonce : String
  generation : Nat
  sequence : PositiveCounter
  value : Json

structure Telemetry where
  shared : Shared
  gaps : Nat := 0
  invalid : Nat := 0
  stale : Nat := 0
  published : List GameEvent := []

namespace Telemetry

def position (t : Telemetry) : Nat := t.shared.state.telemetrySequence

def generation (t : Telemetry) : Option Nat := t.shared.state.generation

def nonce (t : Telemetry) : String := t.shared.state.nonce

end Telemetry

/-- `+=` of a `u64` -/
def increase (counter by' : Nat) : Outcome Empty Nat :=
  if counter + by' < 2 ^ 64 then pure (counter + by') else panics "attempt to add with overflow"

/-! ## The frames -/

/-- `telemetry`, given what `events::parse` reads. -/
def Telemetry.telemetry (t : Telemetry) (record : Option GameEvent) : Outcome Empty Telemetry :=
  match record with
  | none => do
    let invalid ← increase t.invalid 1
    pure { t with invalid }
  | some record =>
    if record.nonce ≠ t.nonce then do
      let invalid ← increase t.invalid 1
      pure { t with invalid }
    else if some record.generation ≠ t.generation ∨ record.sequence.value ≤ t.position then do
      let stale ← increase t.stale 1
      pure { t with stale }
    else do
      let ahead ← checkedSub record.sequence.value t.position
      let gap ← checkedSub ahead 1
      let gaps ← increase t.gaps gap
      pure { t with
        gaps
        shared := { t.shared with state :=
          { t.shared.state with telemetrySequence := record.sequence.value } }
        published := t.published ++ [record] }

inductive TelemetryFrame where
  | telemetry (record : Option GameEvent)
  | bootstrap (value : Option Json)
  | control (value : Option Json)

def Telemetry.after (t : Telemetry) : TelemetryFrame → Outcome Empty Telemetry
  | .telemetry record => t.telemetry record
  | .bootstrap value => pure { t with shared := t.shared.handleRecord Shared.bootstrap value }
  | .control value => pure { t with shared := t.shared.handleRecord Shared.control value }

def Telemetry.run (t : Telemetry) (frames : List TelemetryFrame) : Outcome Empty Telemetry :=
  frames.foldlM Telemetry.after t

/-- The account of a driver that was just attached. -/
def opened (nonce : String) : Telemetry := { shared := attach nonce }

/-! ## The position -/

namespace Shared

/-- What decides whether an event is published. -/
def clock (shared : Shared) : String × Option Nat × Nat :=
  (shared.state.nonce, shared.state.generation, shared.state.telemetrySequence)

/-- The position stays, or it is the beginning of a later generation. -/
inductive Moves (before after : Shared) : Prop
  | stays : after.clock = before.clock → Moves before after
  | enters (generation : Nat) : (∀ current ∈ before.state.generation, current < generation) →
      after.clock = (before.state.nonce, some generation, 0) → Moves before after

variable {shared after : Shared}

theorem clock_fail (message : String) : (shared.fail message).clock = shared.clock := by
  unfold fail
  simp only
  split <;> rfl

theorem advanceGeneration_moves {generation : Nat}
    (h : shared.advanceGeneration generation = some after) : shared.Moves after := by
  unfold advanceGeneration at h
  split at h
  · cases h
  next hcurrent =>
  split at h
  · cases h
    exact .stays rfl
  next hother =>
  have hlater : ∀ current ∈ shared.state.generation, current < generation := by
    intro current hmem
    rw [Option.mem_def] at hmem
    rw [hmem, Option.any_some, decide_eq_true_eq, not_lt] at hcurrent
    refine lt_of_le_of_ne hcurrent fun heq => hother ?_
    rw [hmem, heq]
  have hnonce : ∀ (state other : DriverState), other.nonce = state.nonce →
      (if state.generation.isSome then other else state).nonce = state.nonce := by
    intro state other heq
    split
    · exact heq
    · rfl
  simp only at h
  refine .enters generation hlater ?_
  split at h
  · split at h
    · cases h
      exact congrArg (·, some generation, 0) (hnonce shared.state _ rfl)
    · cases h
      exact congrArg (·, some generation, 0) (hnonce shared.state _ rfl)
  · cases h
    exact congrArg (·, some generation, 0) (hnonce shared.state _ rfl)

theorem Moves.of_clock {middle : Shared} (h : shared.Moves middle)
    (heq : after.clock = middle.clock) : shared.Moves after := by
  cases h with
  | stays hclock => exact .stays (heq.trans hclock)
  | enters generation hlater hclock => exact .enters generation hlater (heq.trans hclock)

theorem bootstrap_moves {record : Json} (h : shared.bootstrap record = .ok after) :
    shared.Moves after := by
  unfold bootstrap at h
  split at h
  · split at h
    · split at h
      · cases h
        exact .stays rfl
      · cases h
    · cases h
  · simp only at h
    split at h
    · cases h
    · split at h
      · cases h
      · split at h
        · cases h
          exact .stays rfl
        · next advanced hadvance =>
          cases h
          exact (advanceGeneration_moves hadvance).of_clock rfl

theorem control_moves {record : Json} (h : shared.control record = .ok after) :
    shared.Moves after := by
  unfold control at h
  split at h
  · cases h
  · split at h
    · cases h
    · split at h
      · cases h
        exact .stays rfl
      · next advanced hadvance =>
        cases h
        exact (advanceGeneration_moves hadvance).of_clock rfl

theorem handleRecord_moves {handler : Shared → Json → Except String Shared}
    (hhandler : ∀ {record after}, handler shared record = .ok after → shared.Moves after)
    (value : Option Json) : shared.Moves (shared.handleRecord handler value) := by
  unfold handleRecord
  split
  · exact .stays (clock_fail _)
  · split
    · next hrecord => exact hhandler hrecord
    · exact .stays (clock_fail _)

end Shared

/-! ## One frame -/

theorem increase_eq_ok {counter by' result : Nat} :
    increase counter by' = .ok result ↔ counter + by' < 2 ^ 64 ∧ result = counter + by' := by
  unfold increase
  split_ifs with h
  · rw [pure_eq_ok, Except.ok.injEq]
    exact ⟨fun heq => ⟨h, heq.symm⟩, fun heq => heq.2.symm⟩
  · constructor
    · intro heq
      cases heq
    · exact fun heq => absurd heq.1 h

/-- The panic of a counter that has reached its bound. -/
def overflow : Fault Empty := .panic "attempt to add with overflow"

theorem increase_eq_error {counter by' : Nat} {fault : Fault Empty}
    (h : increase counter by' = .error fault) : fault = overflow ∧ 2 ^ 64 ≤ counter + by' := by
  unfold increase at h
  split_ifs at h with hlt
  · cases h
  · cases h
    exact ⟨rfl, not_lt.1 hlt⟩

/-- The event is one of this game, of the current generation, and new. -/
structure GameEvent.Timely (event : GameEvent) (t : Telemetry) : Prop where
  nonce : event.nonce = t.nonce
  generation : t.generation = some event.generation
  ahead : t.position < event.sequence.value

/-- A frame of telemetry is counted once. -/
inductive Counts (t : Telemetry) (record : Option GameEvent) (t' : Telemetry) : Prop
  | invalid : (∀ event ∈ record, event.nonce ≠ t.nonce) →
      t' = { t with invalid := t.invalid + 1 } → Counts t record t'
  | stale (event : GameEvent) : record = some event → event.nonce = t.nonce →
      ¬event.Timely t → t' = { t with stale := t.stale + 1 } → Counts t record t'
  | accepted (event : GameEvent) : record = some event → event.Timely t →
      t'.shared.clock = (t.nonce, t.generation, event.sequence.value) →
      t'.gaps = t.gaps + (event.sequence.value - t.position - 1) →
      t'.invalid = t.invalid → t'.stale = t.stale → t'.published = t.published ++ [event] →
      Counts t record t'

/-- The gap of a timely event can be computed. -/
theorem telemetry_of_timely {t : Telemetry} {event : GameEvent} (h : event.Timely t) :
    t.telemetry (some event) =
      increase t.gaps (event.sequence.value - t.position - 1) >>= fun gaps =>
        pure { t with
          gaps
          shared := { t.shared with state :=
            { t.shared.state with telemetrySequence := event.sequence.value } }
          published := t.published ++ [event] } := by
  have hahead := h.ahead
  have hfirst : (checkedSub event.sequence.value t.position : Outcome Empty Nat) =
      .ok (event.sequence.value - t.position) := checkedSub_eq_ok.2 ⟨le_of_lt hahead, rfl⟩
  have hsecond : (checkedSub (event.sequence.value - t.position) 1 : Outcome Empty Nat) =
      .ok (event.sequence.value - t.position - 1) := checkedSub_eq_ok.2 ⟨by omega, rfl⟩
  have hnew : ¬(some event.generation ≠ t.generation ∨ event.sequence.value ≤ t.position) := by
    rw [not_or, not_not, not_le]
    exact ⟨h.generation.symm, hahead⟩
  rw [Telemetry.telemetry, if_neg (not_not.2 h.nonce), if_neg hnew, hfirst, ok_bind, hsecond,
    ok_bind]

theorem not_timely {t : Telemetry} {event : GameEvent} (hnonce : event.nonce = t.nonce) :
    some event.generation ≠ t.generation ∨ event.sequence.value ≤ t.position ↔
      ¬event.Timely t := by
  constructor
  · rintro (hgeneration | hle) htimely
    · exact hgeneration htimely.generation.symm
    · exact absurd htimely.ahead (not_lt.2 hle)
  · intro htimely
    by_contra hnot
    rw [not_or, not_not, not_le] at hnot
    exact htimely ⟨hnonce, hnot.1.symm, hnot.2⟩

theorem telemetry_counts {t t' : Telemetry} {record : Option GameEvent}
    (h : t.telemetry record = .ok t') : Counts t record t' := by
  cases record with
  | none =>
    obtain ⟨_, hinvalid, h⟩ := bind_eq_ok.1 h
    cases h
    obtain ⟨_, rfl⟩ := increase_eq_ok.1 hinvalid
    exact .invalid (fun _ hmem => by cases hmem) rfl
  | some event =>
    by_cases hnonce : event.nonce = t.nonce
    · by_cases htimely : event.Timely t
      · rw [telemetry_of_timely htimely] at h
        obtain ⟨_, hgaps, h⟩ := bind_eq_ok.1 h
        cases h
        exact .accepted event rfl htimely rfl (increase_eq_ok.1 hgaps).2 rfl rfl rfl
      · rw [Telemetry.telemetry, if_neg (not_not.2 hnonce),
          if_pos ((not_timely hnonce).2 htimely)] at h
        obtain ⟨_, hstale, h⟩ := bind_eq_ok.1 h
        cases h
        obtain ⟨_, rfl⟩ := increase_eq_ok.1 hstale
        exact .stale event rfl hnonce htimely rfl
    · rw [Telemetry.telemetry, if_pos hnonce] at h
      obtain ⟨_, hinvalid, h⟩ := bind_eq_ok.1 h
      cases h
      obtain ⟨_, rfl⟩ := increase_eq_ok.1 hinvalid
      refine .invalid (fun other hother => ?_) rfl
      rw [← Option.mem_some.1 hother]
      exact hnonce

/-- A frame fails only when a counter has reached its bound. -/
structure Full (t : Telemetry) (fault : Fault Empty) : Prop where
  fault : fault = overflow
  counter : 2 ^ 64 ≤ t.invalid + 1 ∨ 2 ^ 64 ≤ t.stale + 1 ∨
    ∃ event : GameEvent, event.Timely t ∧ 2 ^ 64 ≤ t.gaps + (event.sequence.value - t.position - 1)

theorem telemetry_error {t : Telemetry} {record : Option GameEvent} {fault : Fault Empty}
    (h : t.telemetry record = .error fault) : Full t fault := by
  have hbind : ∀ {counter by' : Nat} {f : Nat → Telemetry},
      (increase counter by' >>= fun n => pure (f n)) = .error fault →
        fault = overflow ∧ 2 ^ 64 ≤ counter + by' := by
    intro counter by' f hbind
    cases hincrease : increase counter by' with
    | ok n =>
      rw [hincrease] at hbind
      cases hbind
    | error other =>
      rw [hincrease] at hbind
      cases hbind
      exact increase_eq_error hincrease
  cases record with
  | none =>
    obtain ⟨hfault, hfull⟩ := hbind h
    exact ⟨hfault, .inl hfull⟩
  | some event =>
    by_cases hnonce : event.nonce = t.nonce
    · by_cases htimely : event.Timely t
      · rw [telemetry_of_timely htimely] at h
        obtain ⟨hfault, hfull⟩ := hbind h
        exact ⟨hfault, .inr (.inr ⟨event, htimely, hfull⟩)⟩
      · rw [Telemetry.telemetry, if_neg (not_not.2 hnonce),
          if_pos ((not_timely hnonce).2 htimely)] at h
        obtain ⟨hfault, hfull⟩ := hbind h
        exact ⟨hfault, .inr (.inl hfull)⟩
    · rw [Telemetry.telemetry, if_pos hnonce] at h
      obtain ⟨hfault, hfull⟩ := hbind h
      exact ⟨hfault, .inl hfull⟩

/-! ## Runs -/

/-- A frame of telemetry, in contrast to one that may begin a generation. -/
def TelemetryFrame.isTelemetry : TelemetryFrame → Bool
  | .telemetry _ => true
  | _ => false

/-- The events of the current generation that were published. -/
def Telemetry.current (t : Telemetry) : List GameEvent :=
  t.published.filter fun event => some event.generation = t.generation

/-- The first event comes before the second one. -/
def GameEvent.Before (a b : GameEvent) : Prop :=
  a.generation < b.generation ∨
    a.generation = b.generation ∧ a.sequence.value < b.sequence.value

/-- The sums of the account after these frames. -/
structure Summed (nonce : String) (frames : List TelemetryFrame) (t : Telemetry) : Prop where
  /-- Since the generation was entered, each number was accepted or is a gap. -/
  position : ∃ earlier later s, frames = earlier ++ later ∧
    (opened nonce).run earlier = .ok s ∧ s.generation = t.generation ∧ s.position = 0 ∧
    s.current = [] ∧ s.gaps ≤ t.gaps ∧ t.position = t.current.length + (t.gaps - s.gaps)
  ordered : t.published.Pairwise GameEvent.Before
  /-- What is published was timely when its frame came. -/
  timely : ∀ event ∈ t.published, ∃ earlier later s,
    frames = earlier ++ .telemetry (some event) :: later ∧
    (opened nonce).run earlier = .ok s ∧ event.nonce = nonce ∧ event.Timely s
  counted : t.published.length + t.stale + t.invalid = frames.countP TelemetryFrame.isTelemetry

/-- The account is right after these frames. -/
structure Accounted (nonce : String) (frames : List TelemetryFrame) (t : Telemetry) : Prop
    extends Summed nonce frames t where
  /-- Each frame of telemetry was counted once, by what the frames before it had left. -/
  each : ∀ earlier record later, frames = earlier ++ .telemetry record :: later →
    ∃ before after, (opened nonce).run earlier = .ok before ∧
      (opened nonce).run (earlier ++ [.telemetry record]) = .ok after ∧
      Counts before record after

/-- What carries the account from frame to frame. -/
structure Keeps (nonce : String) (frames : List TelemetryFrame) (t : Telemetry) : Prop where
  summed : Summed nonce frames t
  nonce : t.nonce = nonce
  /-- The position is the last number of the current generation. -/
  last : ∀ event ∈ t.published, ∃ generation, t.generation = some generation ∧
    event.generation ≤ generation ∧
    (event.generation = generation → event.sequence.value ≤ t.position)
  safe : t.position ≤ maxSafeInteger
  bound : t.gaps ≤ (frames.countP fun frame => !frame.isTelemetry) * maxSafeInteger + t.position

variable {nonce : String} {frames : List TelemetryFrame} {t t' : Telemetry}

theorem run_concat (frames : List TelemetryFrame) (frame : TelemetryFrame) :
    t.run (frames ++ [frame]) = t.run frames >>= fun t => t.after frame := by
  rw [Telemetry.run, List.foldlM_append]
  simp only [List.foldlM_cons, List.foldlM_nil, bind_pure]
  rfl

theorem count_telemetry (frames : List TelemetryFrame) (record : Option GameEvent) :
    (frames ++ [TelemetryFrame.telemetry record]).countP TelemetryFrame.isTelemetry =
        frames.countP TelemetryFrame.isTelemetry + 1 ∧
      (frames ++ [TelemetryFrame.telemetry record]).countP (fun frame => !frame.isTelemetry) =
        frames.countP fun frame => !frame.isTelemetry := by
  rw [List.countP_append, List.countP_append]
  exact ⟨rfl, rfl⟩

theorem keeps_opened (nonce : String) : Keeps nonce [] (opened nonce) where
  summed :=
    ⟨⟨[], [], _, rfl, rfl, rfl, rfl, rfl, le_refl _, rfl⟩, .nil,
      fun _ hmem => absurd hmem List.not_mem_nil, rfl⟩
  nonce := rfl
  last := fun _ hmem => absurd hmem List.not_mem_nil
  safe := Nat.zero_le _
  bound := Nat.zero_le _

/-- What was found about a frame stays so when others follow. -/
theorem timely_concat {event : GameEvent} (frame : TelemetryFrame)
    (h : ∃ earlier later s, frames = earlier ++ .telemetry (some event) :: later ∧
      (opened nonce).run earlier = .ok s ∧ event.nonce = nonce ∧ event.Timely s) :
    ∃ earlier later s, frames ++ [frame] = earlier ++ .telemetry (some event) :: later ∧
      (opened nonce).run earlier = .ok s ∧ event.nonce = nonce ∧ event.Timely s := by
  obtain ⟨earlier, later, s, hframes, hrest⟩ := h
  refine ⟨earlier, later ++ [frame], s, ?_, hrest⟩
  rw [hframes, List.append_assoc, List.cons_append]

/-- A frame that is only counted keeps the account. -/
theorem Keeps.counted (h : Keeps nonce frames t) (record : Option GameEvent)
    (hclock : t'.shared.clock = t.shared.clock) (hgaps : t'.gaps = t.gaps)
    (hpublished : t'.published = t.published)
    (hcounts : t'.stale + t'.invalid = t.stale + t.invalid + 1) :
    Keeps nonce (frames ++ [.telemetry record]) t' := by
  obtain ⟨hnonce, hgeneration, hposition⟩ : t'.nonce = t.nonce ∧ t'.generation = t.generation ∧
      t'.position = t.position := by
    obtain ⟨hnonce, hrest⟩ := Prod.mk.inj hclock
    exact ⟨hnonce, Prod.mk.inj hrest⟩
  have hcurrent : t'.current = t.current := by
    rw [Telemetry.current, Telemetry.current, hpublished, hgeneration]
  obtain ⟨earlier, later, s, hframes, hrun, hsame, hzero, hnone, hle, heq⟩ := h.summed.position
  refine ⟨⟨⟨earlier, later ++ [.telemetry record], s, ?_, hrun, hsame.trans hgeneration.symm, hzero,
    hnone, by omega, by rw [hposition, hcurrent, hgaps, heq]⟩, ?_, ?_, ?_⟩, hnonce.trans h.nonce,
    ?_, by rw [hposition]; exact h.safe, ?_⟩
  · rw [hframes, List.append_assoc]
  · rw [hpublished]
    exact h.summed.ordered
  · intro event hevent
    rw [hpublished] at hevent
    exact timely_concat _ (h.summed.timely event hevent)
  · have hcounted := h.summed.counted
    rw [(count_telemetry frames record).1, hpublished]
    omega
  · rw [hpublished, hgeneration, hposition]
    exact h.last
  · have hbound := h.bound
    rw [(count_telemetry frames record).2, hgaps, hposition]
    exact hbound

theorem Keeps.accepted (h : Keeps nonce frames t) (hrun : (opened nonce).run frames = .ok t)
    {event : GameEvent} (htimely : event.Timely t)
    (hclock : t'.shared.clock = (t.nonce, t.generation, event.sequence.value))
    (hgaps : t'.gaps = t.gaps + (event.sequence.value - t.position - 1))
    (hcounts : t'.stale + t'.invalid = t.stale + t.invalid)
    (hpublished : t'.published = t.published ++ [event]) :
    Keeps nonce (frames ++ [.telemetry (some event)]) t' := by
  obtain ⟨hnonce, hgeneration, hposition⟩ : t'.nonce = t.nonce ∧ t'.generation = t.generation ∧
      t'.position = event.sequence.value := by
    obtain ⟨hnonce, hrest⟩ := Prod.mk.inj hclock
    exact ⟨hnonce, Prod.mk.inj hrest⟩
  have hahead := htimely.ahead
  have hcurrent : t'.current = t.current ++ [event] := by
    rw [Telemetry.current, Telemetry.current, hpublished, hgeneration, List.filter_append,
      List.filter_cons, if_pos (decide_eq_true htimely.generation.symm), List.filter_nil]
  obtain ⟨earlier, later, s, hframes, hearlier, hsame, hzero, hnone, hle, heq⟩ :=
    h.summed.position
  refine ⟨⟨⟨earlier, later ++ [.telemetry (some event)], s, ?_, hearlier,
    hsame.trans hgeneration.symm, hzero, hnone, by omega, ?_⟩, ?_, ?_, ?_⟩, hnonce.trans h.nonce,
    ?_, by rw [hposition]; exact event.sequence.safe, ?_⟩
  · rw [hframes, List.append_assoc]
  · rw [hposition, hcurrent, hgaps, List.length_append, List.length_singleton]
    omega
  · rw [hpublished, List.pairwise_append]
    refine ⟨h.summed.ordered, List.pairwise_singleton _ _, fun other hother new hnew => ?_⟩
    rw [List.mem_singleton.1 hnew]
    obtain ⟨generation, hcurrent, hle, hlast⟩ := h.last other hother
    rw [htimely.generation, Option.some.injEq] at hcurrent
    rw [← hcurrent] at hle hlast
    rcases Nat.lt_or_eq_of_le hle with hlt | heq
    · exact .inl hlt
    · exact .inr ⟨heq, lt_of_le_of_lt (hlast heq) hahead⟩
  · intro other hother
    rw [hpublished, List.mem_append, List.mem_singleton] at hother
    rcases hother with hother | rfl
    · exact timely_concat _ (h.summed.timely other hother)
    · exact ⟨frames, [], t, rfl, hrun, htimely.nonce.trans h.nonce, htimely⟩
  · have hcounted := h.summed.counted
    rw [(count_telemetry frames (some event)).1, hpublished, List.length_append,
      List.length_singleton]
    omega
  · intro other hother
    refine ⟨event.generation, hgeneration.trans htimely.generation, ?_⟩
    rw [hpublished, List.mem_append, List.mem_singleton] at hother
    rcases hother with hother | rfl
    · obtain ⟨generation, hcurrent, hle, hlast⟩ := h.last other hother
      rw [htimely.generation, Option.some.injEq] at hcurrent
      rw [hcurrent, hposition]
      exact ⟨hle, fun heq => le_of_lt (lt_of_le_of_lt (hlast heq) hahead)⟩
    · exact ⟨le_refl _, fun _ => le_of_eq hposition.symm⟩
  · have hbound := h.bound
    rw [(count_telemetry frames (some event)).2, hgaps, hposition]
    omega

/-- A frame of another kind keeps the account. -/
theorem Keeps.moved (h : Keeps nonce frames t) {frame : TelemetryFrame}
    (hframe : frame.isTelemetry = false) {shared : Shared} (hmoves : t.shared.Moves shared)
    (hrun : (opened nonce).run (frames ++ [frame]) = .ok { t with shared }) :
    Keeps nonce (frames ++ [frame]) { t with shared } := by
  have hcounted : (frames ++ [frame]).countP TelemetryFrame.isTelemetry =
      frames.countP TelemetryFrame.isTelemetry := by
    rw [List.countP_append, List.countP_singleton, if_neg (by rw [hframe]; decide), Nat.add_zero]
  have hboundaries : (frames ++ [frame]).countP (fun frame => !frame.isTelemetry) =
      frames.countP (fun frame => !frame.isTelemetry) + 1 := by
    rw [List.countP_append, List.countP_singleton, if_pos (by rw [hframe]; rfl)]
  have hbound := h.bound
  have hsafe := h.safe
  have htimely : ∀ event ∈ t.published, ∃ earlier later s,
      frames ++ [frame] = earlier ++ .telemetry (some event) :: later ∧
      (opened nonce).run earlier = .ok s ∧ event.nonce = nonce ∧ event.Timely s :=
    fun event hevent => timely_concat frame (h.summed.timely event hevent)
  cases hmoves with
  | stays hclock =>
    obtain ⟨hnonce, hrest⟩ := Prod.mk.inj hclock
    obtain ⟨hgeneration, hposition⟩ := Prod.mk.inj hrest
    have hgeneration : Telemetry.generation { t with shared } = t.generation := hgeneration
    have hposition : Telemetry.position { t with shared } = t.position := hposition
    have hcurrent : Telemetry.current { t with shared } = t.current := by
      rw [Telemetry.current, Telemetry.current, hgeneration]
    obtain ⟨earlier, later, s, hframes, hearlier, hsame, hzero, hnone, hle, heq⟩ :=
      h.summed.position
    refine ⟨⟨⟨earlier, later ++ [frame], s, ?_, hearlier, hsame.trans hgeneration.symm, hzero, hnone,
      hle, by rw [hposition, hcurrent]; exact heq⟩, h.summed.ordered, htimely,
      h.summed.counted.trans hcounted.symm⟩, hnonce.trans h.nonce, ?_, ?_, ?_⟩
    · rw [hframes, List.append_assoc]
    · rw [hgeneration, hposition]
      exact h.last
    · rw [hposition]
      exact hsafe
    · rw [hboundaries, hposition]
      refine hbound.trans (Nat.add_le_add_right (Nat.mul_le_mul_right _ (Nat.le_succ _)) _)
  | enters generation hlater hclock =>
    obtain ⟨hnonce, hrest⟩ := Prod.mk.inj hclock
    obtain ⟨hgeneration, hposition⟩ := Prod.mk.inj hrest
    have hgeneration : Telemetry.generation { t with shared } = some generation := hgeneration
    have hposition : Telemetry.position { t with shared } = 0 := hposition
    have holder : ∀ event ∈ t.published, event.generation < generation := by
      intro event hevent
      obtain ⟨current, hcurrent, hle, _⟩ := h.last event hevent
      exact lt_of_le_of_lt hle (hlater current hcurrent)
    have hcurrent : Telemetry.current { t with shared } = [] := by
      rw [Telemetry.current, hgeneration]
      refine List.filter_eq_nil_iff.2 fun event hevent hsame => ?_
      exact absurd (Option.some.inj (of_decide_eq_true hsame)) (ne_of_lt (holder event hevent))
    refine ⟨⟨⟨frames ++ [frame], [], _, (List.append_nil _).symm, hrun, rfl, hposition, hcurrent,
      le_refl _, ?_⟩, h.summed.ordered, htimely, h.summed.counted.trans hcounted.symm⟩,
      hnonce.trans h.nonce, ?_, ?_, ?_⟩
    · rw [hposition, hcurrent, Nat.sub_self]
      rfl
    · intro event hevent
      exact ⟨generation, hgeneration, le_of_lt (holder event hevent),
        fun heq => absurd heq (ne_of_lt (holder event hevent))⟩
    · rw [hposition]
      exact Nat.zero_le _
    · rw [hboundaries, Nat.succ_mul]
      show t.gaps ≤ _
      omega

theorem after_keeps {frame : TelemetryFrame} (h : Keeps nonce frames t)
    (hrun : (opened nonce).run frames = .ok t) (hafter : t.after frame = .ok t') :
    Keeps nonce (frames ++ [frame]) t' := by
  have hnext : (opened nonce).run (frames ++ [frame]) = .ok t' := by
    rw [run_concat, hrun]
    exact hafter
  cases frame with
  | telemetry record =>
    cases telemetry_counts hafter with
    | invalid _ heq =>
      subst heq
      exact h.counted record rfl rfl rfl rfl
    | stale event _ _ _ heq =>
      subst heq
      exact h.counted record rfl rfl rfl (Nat.add_right_comm _ _ _)
    | accepted event hrecord htimely hclock hgaps hinvalid hstale hpublished =>
      subst hrecord
      exact h.accepted hrun htimely hclock hgaps (by rw [hinvalid, hstale]) hpublished
  | bootstrap value =>
    cases hafter
    exact h.moved rfl (Shared.handleRecord_moves Shared.bootstrap_moves value) hnext
  | control value =>
    cases hafter
    exact h.moved rfl (Shared.handleRecord_moves Shared.control_moves value) hnext

theorem run_keeps (h : (opened nonce).run frames = .ok t) : Keeps nonce frames t := by
  induction frames using List.reverseRecOn generalizing t with
  | nil =>
    cases h
    exact keeps_opened nonce
  | append_singleton frames frame ih =>
    rw [run_concat] at h
    obtain ⟨before, hbefore, hafter⟩ := bind_eq_ok.1 h
    exact after_keeps (ih hbefore) hbefore hafter

theorem run_counts (h : (opened nonce).run frames = .ok t) {earlier later : List TelemetryFrame}
    {record : Option GameEvent} (hframes : frames = earlier ++ .telemetry record :: later) :
    ∃ before after, (opened nonce).run earlier = .ok before ∧
      (opened nonce).run (earlier ++ [.telemetry record]) = .ok after ∧
      Counts before record after := by
  rw [hframes, Telemetry.run, List.foldlM_append] at h
  obtain ⟨before, hearlier, h⟩ := bind_eq_ok.1 h
  rw [List.foldlM_cons] at h
  obtain ⟨after, hafter, _⟩ := bind_eq_ok.1 h
  have hrun : (opened nonce).run earlier = .ok before := hearlier
  refine ⟨before, after, hrun, ?_, telemetry_counts hafter⟩
  rw [run_concat, hrun]
  exact hafter

/-- It takes so many generations, or so many frames, to fill a counter. -/
def Endless (frames : List TelemetryFrame) : Prop :=
  2 ^ 11 ≤ (frames.countP fun frame => !frame.isTelemetry) ∨ 2 ^ 64 ≤ frames.length

theorem Endless.concat (h : Endless frames) (frame : TelemetryFrame) :
    Endless (frames ++ [frame]) := by
  unfold Endless at *
  rw [List.countP_append, List.length_append]
  omega

theorem Keeps.endless (h : Keeps nonce frames t) (record : Option GameEvent)
    {fault : Fault Empty} (hfull : Full t fault) :
    Endless (frames ++ [.telemetry record]) := by
  have hcounted := h.summed.counted
  have hle : frames.countP TelemetryFrame.isTelemetry ≤ frames.length := List.countP_le_length
  unfold Endless
  rw [(count_telemetry frames record).2, List.length_append, List.length_singleton]
  rcases hfull.counter with hinvalid | hstale | ⟨event, htimely, hgaps⟩
  · right
    omega
  · right
    omega
  · left
    have hbound := h.bound
    have hsafe := event.sequence.safe
    have hahead := htimely.ahead
    unfold maxSafeInteger at hbound hsafe
    omega

theorem run_error {fault : Fault Empty} (h : (opened nonce).run frames = .error fault) :
    fault = overflow ∧ Endless frames := by
  induction frames using List.reverseRecOn with
  | nil => cases h
  | append_singleton frames frame ih =>
    rw [run_concat] at h
    cases hbefore : (opened nonce).run frames with
    | error other =>
      rw [hbefore] at h
      cases h
      obtain ⟨hfault, hendless⟩ := ih hbefore
      exact ⟨hfault, hendless.concat frame⟩
    | ok before =>
      rw [hbefore, ok_bind] at h
      cases frame with
      | telemetry record =>
        have hfull := telemetry_error h
        exact ⟨hfull.fault, (run_keeps hbefore).endless record hfull⟩
      | bootstrap value => cases h
      | control value => cases h

/-- No frame is lost or counted twice, the position of a generation only
goes up, and no gap is computed below zero. -/
theorem telemetry_accounting (nonce : String) (frames : List TelemetryFrame) :
    (∀ fault, (opened nonce).run frames = .error fault → fault = overflow ∧ Endless frames) ∧
      ∀ t, (opened nonce).run frames = .ok t → Accounted nonce frames t :=
  ⟨fun _ h => run_error h, fun _ h => ⟨(run_keeps h).summed, fun _ _ _ => run_counts h⟩⟩

end DstServer.Driver
