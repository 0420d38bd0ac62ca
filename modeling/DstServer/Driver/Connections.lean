import DstServer.Lib.Json

/-!
# The presence observer

`connections.lua` inside the game: the two instants and the flag that the
listeners, the periodic snapshot and the presence query share, and the
number of the observation that they belong to.

A call of `GetTimeReal` has an instant, also when it fails: the call raises
then, or it does not return a number.  `Event.clocks` are the instants of
an event in the order of its calls, and `Chronological` is a run whose
instants do not go back.

`Observed` is the invariant.  While the observation is reliable, the last
activity is not before any event that saw someone, the observation does not
begin before its epoch, and no reading of an event inside the epoch failed.
`Observed.step` is the step lemma, and the theorems about an answer read the
invariant off the state before it.
-/

namespace DstServer.Connections

open Lib

/-! ## The data -/

/-- The rounding of the number type of Lua. -/
structure Rounding where
  round : ℚ → ℚ
  mono : Monotone round
  zero : round 0 = 0

namespace Rounding

/-- `millis / 1000`. -/
def seconds (r : Rounding) (millis : ℚ) : ℚ := r.round (millis / 1000)

/-- `later - earlier`. -/
def minus (r : Rounding) (later earlier : ℚ) : ℚ := r.round (later - earlier)

/-- The seconds between two instants, as Lua computes them. -/
def between (r : Rounding) (earlier later : ℚ) : ℚ := r.minus (r.seconds later) (r.seconds earlier)

/-- No rounding. -/
def exact : Rounding := ⟨id, monotone_id, rfl⟩

variable (r : Rounding)

theorem seconds_mono {a b : ℚ} (h : a ≤ b) : r.seconds a ≤ r.seconds b :=
  r.mono (div_le_div_of_nonneg_right h (by norm_num))

theorem minus_anti {a b : ℚ} (later : ℚ) (h : a ≤ b) : r.minus later b ≤ r.minus later a :=
  r.mono (sub_le_sub_left h later)

theorem minus_nonneg {earlier later : ℚ} (h : earlier ≤ later) : 0 ≤ r.minus later earlier := by
  have hle : r.round 0 ≤ r.round (later - earlier) := r.mono (sub_nonneg.2 h)
  rwa [r.zero] at hle

@[simp] theorem minus_self (a : ℚ) : r.minus a a = 0 := by
  rw [minus, sub_self, r.zero]

end Rounding

/-- A call of `GetTimeReal`: when it is made, and whether it fails. -/
structure Clock where
  instant : ℚ
  fails : Bool
  deriving DecidableEq, Repr

structure State where
  lastActive : Option ℚ := none
  observedSince : Option ℚ := none
  installed : Bool := false
  reliable : Bool := false
  observationEpoch : Nat := 0
  deriving DecidableEq, Repr

/-- An entry of `GetPlayerClientTable`.  No user id is one that is not a
string. -/
structure Client where
  userid : Option String

/-- An entry of `AllPlayers`. -/
structure Player where
  valid : Bool
  userid : Option String
  guid : Nat

/-- What the native calls of a snapshot return, or that one raises. -/
structure Sight where
  clients : Option (List Client)
  players : Option (List Player)
  maxPlayers : Option Nat
  health : Option Json

structure Snapshot where
  clients : List String
  players : List (String × Nat)
  maxPlayers : Nat
  health : Json

structure Presence where
  observationEpoch : Nat
  sessionId : String
  clientCount : Nat
  playerCount : Nat
  maxPlayers : Nat
  reliable : Bool
  idleSeconds : ℚ
  observedSeconds : ℚ
  outdatedMods : List String
  deriving DecidableEq

/-- What a presence query meets: its two calls of the clock, what its
snapshot sees, the session identifier, unless it cannot be read, and the
mods that are out of date. -/
structure Query where
  first : Clock
  second : Clock
  sight : Sight
  sessionId : Option String
  outdatedMods : List String

/-- The native events with a listener. -/
inductive Native where
  | playerJoined
  | playerLeft
  | authenticationComplete
  | disconnected
  deriving DecidableEq, Repr

inductive Event where
  | native (event : Native) (clock : Clock)
  | snapshot (clock : Clock) (sight : Sight)
  | presence (query : Query)

/-- How the installation goes: whether the two pause callbacks are there,
its call of the clock, and whether the listeners can be added. -/
structure Install where
  pauseHooks : Bool
  clock : Clock
  listeners : Bool

/-! ## The observer -/

section Observer

variable (r : Rounding)

def activity (clock : Clock) (s : State) : State :=
  if clock.fails then { s with reliable := false }
  else { s with lastActive := some (r.seconds clock.instant) }

def install (how : Install) (s : State) : State :=
  if how.pauseHooks then
    let s := activity r how.clock s
    let s := { s with observedSince := s.lastActive, reliable := true }
    if how.listeners then { s with installed := true } else s
  else s

/-- The user ids of the clients without repetitions. -/
def names (clients : List Client) : List String :=
  ((clients.filterMap Client.userid).filter (· ≠ "")).dedup

/-- The players that a snapshot lists. -/
def listed (players : List Player) : List (String × Nat) :=
  players.filterMap fun player =>
    (player.userid.filter fun userid => player.valid && userid != "").map fun userid =>
      (userid, player.guid)

/-- The snapshot with the number of native clients, unless a call raises. -/
def snapshot (clock : Clock) (sight : Sight) (s : State) : Option (Snapshot × Nat) × State :=
  match sight.clients, sight.players with
  | some native, some all =>
    let clients := (names native).mergeSort (· ≤ ·)
    let players := (listed all).mergeSort fun a b => a.2 ≤ b.2
    let s := if 0 < native.length ∨ 0 < players.length then activity r clock s else s
    match sight.maxPlayers, sight.health with
    | some maxPlayers, some health => (some (⟨clients, players, maxPlayers, health⟩, native.length), s)
    | _, _ => (none, s)
  | _, _ => (none, s)

/-- A presence query that finds the observation unreliable begins a new
one. -/
def reopen (now : ℚ) (s : State) : State :=
  if s.reliable then s
  else { s with
    observationEpoch := s.observationEpoch + 1
    observedSince := some now
    lastActive := some now
    reliable := true }

/-- What a presence query returns. -/
def State.answer (s : State) (now : ℚ) (q : Query) (session : String) (data : Snapshot)
    (count : Nat) : Presence where
  observationEpoch := s.observationEpoch
  sessionId := session
  clientCount := count
  playerCount := data.players.length
  maxPlayers := data.maxPlayers
  reliable := s.installed && s.reliable && s.observedSince.isSome
  idleSeconds := max 0 (r.minus now (s.lastActive.getD now))
  observedSeconds := max 0 (r.minus now (s.observedSince.getD now))
  outdatedMods := q.outdatedMods

/-- A presence query.  It has no answer when one of its calls raises. -/
def presence (q : Query) (s : State) : Option Presence × State :=
  match snapshot r q.first q.sight s with
  | (none, s) => (none, s)
  | (some (data, count), s) =>
    if q.second.fails then (none, s)
    else
      let now := r.seconds q.second.instant
      let s := reopen now s
      match q.sessionId with
      | none => (none, s)
      | some session => (some (s.answer r now q session data count), s)

/-- The listener of an event calls `activity` first, and what it reports
about the client changes nothing here.  The periodic task drops its
snapshot when a call raises. -/
def step (s : State) : Event → State
  | .native _ clock => activity r clock s
  | .snapshot clock sight => (snapshot r clock sight s).2
  | .presence query => (presence r query s).2

/-- The state after the installation and these events. -/
def after (how : Install) (events : List Event) : State :=
  events.foldl (step r) (install r how {})

end Observer

/-! ## Histories -/

/-- A snapshot that reads the clients and the players, and sees one. -/
def Sight.sees (sight : Sight) : Bool :=
  match sight.clients, sight.players with
  | some native, some all => decide (0 < native.length ∨ 0 < (listed all).length)
  | _, _ => false

/-- The reading by which an event records an activity. -/
def Event.seen : Event → Option Clock
  | .native _ clock => some clock
  | .snapshot clock sight => if sight.sees then some clock else none
  | .presence query => if query.sight.sees then some query.first else none

/-- The instants of the calls of the clock that an event makes. -/
def Event.clocks : Event → List ℚ
  | .native _ clock => [clock.instant]
  | .snapshot clock _ => [clock.instant]
  | .presence query => [query.first.instant, query.second.instant]

/-- The instants of a history. -/
def instants (how : Install) (events : List Event) : List ℚ :=
  how.clock.instant :: events.flatMap Event.clocks

/-- What the clock shows does not go back. -/
def Chronological (how : Install) (events : List Event) : Prop :=
  (instants how events).Pairwise (· ≤ ·)

/-- The observation epoch began at this instant: the first one when the
observer was installed, a later one in the query that made its number. -/
def Began (r : Rounding) (how : Install) (events : List Event) (epoch : Nat) (instant : ℚ) : Prop :=
  (epoch = 0 ∧ instant = how.clock.instant) ∨
    ∃ before query later, events = before ++ .presence query :: later ∧
      (after r how before).observationEpoch < epoch ∧
      (after r how (before ++ [.presence query])).observationEpoch = epoch ∧
      instant = query.second.instant

/-- No event that happened inside the epoch lost its activity to a failed
reading. -/
def NoneLost (r : Rounding) (how : Install) (events : List Event) (epoch : Nat) : Prop :=
  ∀ before event later, events = before ++ event :: later →
    (after r how before).observationEpoch = epoch →
    ∀ clock, event.seen = some clock → clock.fails = false

/-! ## What an event changes -/

section Steps

variable {r : Rounding} {how : Install} {events : List Event} {s : State}

@[simp] theorem after_nil : after r how [] = install r how {} := rfl

theorem after_concat (event : Event) :
    after r how (events ++ [event]) = step r (after r how events) event := by
  rw [after, List.foldl_append]
  rfl

@[simp] theorem activity_epoch (clock : Clock) :
    (activity r clock s).observationEpoch = s.observationEpoch := by
  unfold activity
  split <;> rfl

/-- A snapshot is an activity when it sees someone. -/
theorem snapshot_state (clock : Clock) (sight : Sight) :
    (snapshot r clock sight s).2 = if sight.sees then activity r clock s else s := by
  unfold snapshot Sight.sees
  cases sight.clients with
  | none => rfl
  | some native =>
    cases sight.players with
    | none => rfl
    | some all =>
      simp only [List.length_mergeSort, decide_eq_true_eq]
      cases sight.maxPlayers with
      | none => rfl
      | some maxPlayers => cases sight.health <;> rfl

/-- The state after the activity of an event. -/
def record (r : Rounding) (s : State) (event : Event) : State :=
  match event.seen with
  | some clock => activity r clock s
  | none => s

theorem record_epoch (event : Event) : (record r s event).observationEpoch = s.observationEpoch := by
  unfold record
  split
  · exact activity_epoch _
  · rfl

/-- The snapshot of a presence query. -/
theorem snapshot_query (q : Query) :
    (snapshot r q.first q.sight s).2 = record r s (.presence q) := by
  rw [snapshot_state, record, Event.seen]
  split <;> rfl

/-- An answer is made in the state that the query leaves. -/
theorem presence_some {q : Query} {answer : Presence} (h : (presence r q s).1 = some answer) :
    q.second.fails = false ∧
      step r s (.presence q) = reopen (r.seconds q.second.instant) (record r s (.presence q)) ∧
      ∃ session data count, answer =
        (step r s (.presence q)).answer r (r.seconds q.second.instant) q session data count := by
  have hrecord := snapshot_query (r := r) (s := s) q
  simp only [step]
  unfold presence at h ⊢
  split at h
  · cases h
  rename_i data count seen hsnapshot
  rw [hsnapshot] at hrecord
  simp only at hrecord h ⊢
  split at h
  · cases h
  rename_i hfine
  rw [if_neg hfine]
  cases hsession : q.sessionId with
  | none =>
    rw [hsession] at h
    cases h
  | some session =>
    rw [hsession] at h
    cases h
    refine ⟨Bool.eq_false_iff.2 hfine, ?_, session, data, count, rfl⟩
    rw [hrecord]

/-- An event records its activity; a presence query may begin a new
observation after that. -/
theorem step_cases (event : Event) :
    step r s event = record r s event ∨
      ∃ q, event = .presence q ∧ (record r s event).reliable = false ∧
        step r s event = reopen (r.seconds q.second.instant) (record r s event) := by
  cases event with
  | native event clock => exact .inl rfl
  | snapshot clock sight =>
    refine .inl ?_
    rw [step, snapshot_state, record, Event.seen]
    split <;> rfl
  | presence q =>
    have hrecord := snapshot_query (r := r) (s := s) q
    have hreopen : step r s (.presence q) = record r s (.presence q) ∨
        step r s (.presence q) =
          reopen (r.seconds q.second.instant) (record r s (.presence q)) := by
      rw [← hrecord, step]
      unfold presence
      split
      · rename_i hsnapshot
        rw [hsnapshot]
        exact .inl rfl
      rename_i hsnapshot
      rw [hsnapshot]
      split
      · exact .inl rfl
      cases q.sessionId with
      | none => exact .inr rfl
      | some session => exact .inr rfl
    rcases hreopen with hsame | hreopen
    · exact .inl hsame
    cases hreliable : (record r s (.presence q)).reliable with
    | true =>
      rw [reopen, if_pos hreliable] at hreopen
      exact .inl hreopen
    | false => exact .inr ⟨q, rfl, rfl, hreopen⟩

/-- The epochs are numbered upwards. -/
theorem step_epoch (event : Event) : s.observationEpoch ≤ (step r s event).observationEpoch := by
  rcases step_cases (r := r) (s := s) event with hstep | ⟨q, _, hreliable, hstep⟩
  · rw [hstep, record_epoch]
  · rw [hstep, reopen, hreliable, ← record_epoch (r := r) (s := s) event]
    exact Nat.le_succ _

theorem after_epoch (how : Install) (events later : List Event) :
    (after r how events).observationEpoch ≤ (after r how (events ++ later)).observationEpoch := by
  induction later using List.reverseRecOn with
  | nil => rw [List.append_nil]
  | append_singleton later event ih =>
    rw [← List.append_assoc, after_concat]
    exact ih.trans (step_epoch event)

/-! ## Histories that grow at the end -/

/-- The last event of a history is the one that a split of it ends with. -/
private theorem concat_split {event last : Event} {before later : List Event}
    (h : events ++ [last] = before ++ event :: later) :
    (later = [] ∧ before = events ∧ event = last) ∨
      ∃ rest, later = rest ++ [last] ∧ events = before ++ event :: rest := by
  rcases List.eq_nil_or_concat later with rfl | ⟨rest, x, rfl⟩
  · have hsame := List.append_inj' h rfl
    exact .inl ⟨rfl, hsame.1.symm, (List.cons.inj hsame.2).1.symm⟩
  · rw [List.concat_eq_append, ← List.cons_append, ← List.append_assoc] at h
    have hsame := List.append_inj' h rfl
    have hlast : last = x := (List.cons.inj hsame.2).1
    exact .inr ⟨rest, by rw [hlast, List.concat_eq_append], hsame.1⟩

/-- An event that begins no epoch leaves the beginning of the current one. -/
theorem Began.of_concat {event : Event} {epoch : Nat} {instant : ℚ}
    (h : Began r how (events ++ [event]) epoch instant)
    (hsame : (after r how (events ++ [event])).observationEpoch =
      (after r how events).observationEpoch) : Began r how events epoch instant := by
  rcases h with hfirst | ⟨before, query, later, hsplit, hbelow, hbegins, hinstant⟩
  · exact .inl hfirst
  rcases concat_split hsplit with ⟨rfl, rfl, rfl⟩ | ⟨rest, rfl, rfl⟩
  · omega
  · exact .inr ⟨before, query, rest, rfl, hbelow, hbegins, hinstant⟩

/-- A new epoch began in the query that made its number. -/
theorem Began.eq_of_new {q : Query} {instant : ℚ}
    (h : Began r how (events ++ [.presence q]) ((after r how events).observationEpoch + 1) instant) :
    instant = q.second.instant := by
  rcases h with ⟨hzero, _⟩ | ⟨before, query, later, hsplit, _, hbegins, hinstant⟩
  · omega
  rcases concat_split hsplit with ⟨_, _, hquery⟩ | ⟨rest, _, hevents⟩
  · cases hquery
    exact hinstant
  · have hle : (after r how (before ++ [.presence query])).observationEpoch ≤
        (after r how events).observationEpoch := by
      have := after_epoch (r := r) how (before ++ [.presence query]) rest
      rwa [List.append_assoc, List.singleton_append, ← hevents] at this
    omega

theorem began_exists (how : Install) (events : List Event) :
    ∃ instant, Began r how events (after r how events).observationEpoch instant := by
  induction events using List.reverseRecOn with
  | nil =>
    refine ⟨how.clock.instant, .inl ⟨?_, rfl⟩⟩
    rw [after_nil, install]
    split
    · split
      · exact activity_epoch _
      · exact activity_epoch _
    · rfl
  | append_singleton events event ih =>
    rcases step_cases (r := r) (s := after r how events) event with
      hstep | ⟨q, rfl, hreliable, hstep⟩
    · obtain ⟨instant, hbegan⟩ := ih
      rw [after_concat, hstep, record_epoch]
      refine ⟨instant, ?_⟩
      rcases hbegan with hfirst | ⟨before, query, later, rfl, hbelow, hbegins, hinstant⟩
      · exact .inl hfirst
      · exact .inr ⟨before, query, later ++ [event], by rw [List.append_assoc, List.cons_append],
          hbelow, hbegins, hinstant⟩
    · refine ⟨q.second.instant, .inr ⟨events, q, [], rfl, ?_, rfl, rfl⟩⟩
      rw [after_concat, hstep, reopen, hreliable, ← record_epoch (r := r) (.presence q)]
      exact Nat.lt_succ_self _

/-- A reading that goes through keeps the events of its epoch. -/
theorem NoneLost.concat {event : Event} {epoch : Nat} (h : NoneLost r how events epoch)
    (hevent : (after r how events).observationEpoch = epoch →
      ∀ clock, event.seen = some clock → clock.fails = false) :
    NoneLost r how (events ++ [event]) epoch := by
  intro before other later hsplit hepoch
  rcases concat_split hsplit with ⟨_, rfl, rfl⟩ | ⟨rest, _, hevents⟩
  · exact hevent hepoch
  · exact h before other rest hevents hepoch

/-- Nothing happened yet in an epoch that is still to come. -/
theorem noneLost_of_lt {epoch : Nat} (h : (after r how events).observationEpoch < epoch) :
    NoneLost r how events epoch := by
  intro before event later hevents hepoch
  have hle := after_epoch (r := r) how before (event :: later)
  rw [← hevents] at hle
  omega

/-- The instants of the last event are not before the others. -/
theorem Chronological.concat {event : Event} (h : Chronological how (events ++ [event])) :
    Chronological how events ∧
      (∀ earlier ∈ instants how events, ∀ instant ∈ event.clocks, earlier ≤ instant) ∧
      event.clocks.Pairwise (· ≤ ·) := by
  rw [Chronological, instants, List.flatMap_append, ← List.cons_append,
    List.pairwise_append] at h
  obtain ⟨hbefore, hevent, hacross⟩ := h
  rw [List.flatMap_cons, List.flatMap_nil, List.append_nil] at hevent hacross
  exact ⟨hbefore, hacross, hevent⟩

theorem mem_instants {event : Event} {instant : ℚ} (hevent : event ∈ events)
    (hinstant : instant ∈ event.clocks) : instant ∈ instants how events :=
  List.mem_cons_of_mem _ (List.mem_flatMap.2 ⟨event, hevent, hinstant⟩)

theorem seen_mem_clocks {event : Event} {clock : Clock} (h : event.seen = some clock) :
    clock.instant ∈ event.clocks := by
  cases event with
  | native event own =>
    cases h
    exact List.mem_singleton_self _
  | snapshot own sight =>
    rw [Event.seen] at h
    split at h
    · cases h
      exact List.mem_singleton_self _
    · cases h
  | presence q =>
    rw [Event.seen] at h
    split at h
    · cases h
      exact List.mem_cons_self
    · cases h

end Steps

/-! ## The invariant -/

/-- What the observer has established after a history. -/
structure Observed (r : Rounding) (how : Install) (events : List Event) (s : State) : Prop where
  past : ∀ value, s.lastActive = some value ∨ s.observedSince = some value →
    ∃ instant ∈ instants how events, value = r.seconds instant
  active : s.reliable = true → ∀ since, s.observedSince = some since →
    ∃ last, s.lastActive = some last ∧ since ≤ last ∧
      ∀ event ∈ events, ∀ clock, event.seen = some clock → r.seconds clock.instant ≤ last
  began : s.reliable = true → ∀ since, s.observedSince = some since →
    ∀ instant, Began r how events s.observationEpoch instant → r.seconds instant ≤ since
  kept : s.reliable = true → NoneLost r how events s.observationEpoch

section Invariant

variable {r : Rounding} {how : Install} {events : List Event}

theorem noneLost_nil (epoch : Nat) : NoneLost r how [] epoch := by
  intro before event later h
  simp at h

/-- An installation that reads the clock begins the first epoch; one that
does not has no beginning of the observation. -/
theorem observed_install : Observed r how [] (install r how {}) := by
  have hcases : install r how {} = {} ∨
      ((install r how {}).observationEpoch = 0 ∧
        (install r how {}).observedSince = (install r how {}).lastActive ∧
        ((install r how {}).lastActive = none ∨
          (install r how {}).lastActive = some (r.seconds how.clock.instant))) := by
    unfold install
    split
    · refine .inr ?_
      unfold activity
      split <;> split <;> simp
    · exact .inl rfl
  rcases hcases with hcase | ⟨_, hsince, hlast⟩
  · rw [hcase]
    refine ⟨fun value h => ?_, (nomatch ·), (nomatch ·), (nomatch ·)⟩
    rcases h with h | h <;> cases h
  have hread : ∀ value, (install r how {}).lastActive = some value →
      value = r.seconds how.clock.instant := by
    intro value hvalue
    rcases hlast with hnone | hsome
    · rw [hnone] at hvalue
      cases hvalue
    · rw [hsome] at hvalue
      exact (Option.some.inj hvalue).symm
  refine ⟨fun value h => ?_, fun _ since h => ?_, fun _ since h instant hbegan => ?_, fun _ => ?_⟩
  · rw [hsince, or_self] at h
    exact ⟨how.clock.instant, List.mem_cons_self, hread value h⟩
  · rw [hsince] at h
    exact ⟨since, h, le_refl _, by simp⟩
  · rw [hsince] at h
    rw [hread since h]
    rcases hbegan with ⟨_, rfl⟩ | ⟨before, query, later, hsplit, _⟩
    · exact le_refl _
    · simp at hsplit
  · exact noneLost_nil _

/-- An event records its activity. -/
theorem Observed.record {event : Event} (h : Observed r how events (after r how events))
    (hchron : Chronological how (events ++ [event]))
    (hsame : (after r how (events ++ [event])).observationEpoch =
      (after r how events).observationEpoch) :
    Observed r how (events ++ [event]) (record r (after r how events) event) := by
  obtain ⟨_, hlater, _⟩ := hchron.concat
  have hmem : ∀ instant ∈ instants how events, instant ∈ instants how (events ++ [event]) := by
    intro instant hinstant
    rw [instants, List.flatMap_append, ← List.cons_append]
    exact List.mem_append_left _ hinstant
  have hpast : ∀ value,
      (after r how events).lastActive = some value ∨
        (after r how events).observedSince = some value →
      ∃ instant ∈ instants how (events ++ [event]), value = r.seconds instant := by
    intro value hvalue
    obtain ⟨instant, hinstant, heq⟩ := h.past value hvalue
    exact ⟨instant, hmem instant hinstant, heq⟩
  have hbegan : ∀ since, (after r how events).reliable = true →
      (after r how events).observedSince = some since →
      ∀ instant, Began r how (events ++ [event]) (after r how events).observationEpoch instant →
        r.seconds instant ≤ since := by
    intro since hreliable hsince instant hbegan
    exact h.began hreliable since hsince instant (hbegan.of_concat hsame)
  unfold Connections.record
  cases hseen : event.seen with
  | none =>
    refine ⟨hpast, fun hreliable since hsince => ?_, fun hreliable since => hbegan since hreliable,
      fun hreliable => (h.kept hreliable).concat fun _ clock hclock => ?_⟩
    · obtain ⟨last, hlast, hle, hall⟩ := h.active hreliable since hsince
      refine ⟨last, hlast, hle, fun other hother clock hclock => ?_⟩
      rcases List.mem_append.1 hother with hother | hother
      · exact hall other hother clock hclock
      · rw [List.mem_singleton.1 hother, hseen] at hclock
        cases hclock
    · rw [hseen] at hclock
      cases hclock
  | some clock =>
    have hclock : clock.instant ∈ event.clocks := seen_mem_clocks hseen
    simp only [activity]
    split
    · exact ⟨hpast, (nomatch ·), (nomatch ·), (nomatch ·)⟩
    rename_i hfine
    refine ⟨fun value hvalue => ?_, fun hreliable since hsince => ?_,
      fun hreliable since => hbegan since hreliable,
      fun hreliable => (h.kept hreliable).concat fun _ other hother => ?_⟩
    · rcases hvalue with hvalue | hvalue
      · exact ⟨clock.instant, mem_instants (List.mem_append_right _ (List.mem_singleton_self _)) hclock,
          (Option.some.inj hvalue).symm⟩
      · exact hpast value (.inr hvalue)
    · obtain ⟨instant, hinstant, rfl⟩ := h.past since (.inr hsince)
      refine ⟨_, rfl, r.seconds_mono (hlater instant hinstant _ hclock), fun other hother c hc => ?_⟩
      rcases List.mem_append.1 hother with hother | hother
      · exact r.seconds_mono
          (hlater c.instant (mem_instants hother (seen_mem_clocks hc)) _ hclock)
      · rw [List.mem_singleton.1 hother, hseen] at hc
        cases hc
        exact le_refl _
    · rw [hseen] at hother
      cases hother
      exact Bool.eq_false_iff.2 hfine

/-- A query that begins a new epoch knows of no activity after its own
reading. -/
theorem observed_reopen {q : Query}
    (hchron : Chronological how (events ++ [.presence q]))
    (hunreliable : (Connections.record r (after r how events) (.presence q)).reliable = false) :
    Observed r how (events ++ [.presence q])
      (Connections.reopen (r.seconds q.second.instant)
        (Connections.record r (after r how events) (.presence q))) := by
  obtain ⟨_, hlater, hclocks⟩ := hchron.concat
  have hsecond : q.second.instant ∈ (Event.presence q).clocks :=
    List.mem_cons_of_mem _ (List.mem_singleton_self _)
  have hfirst : q.first.instant ≤ q.second.instant :=
    List.rel_of_pairwise_cons hclocks (List.mem_singleton_self _)
  have hepoch := record_epoch (r := r) (s := after r how events) (.presence q)
  rw [Connections.reopen, hunreliable]
  simp only [Bool.false_eq_true, if_false]
  refine ⟨fun value hvalue => ?_, fun _ since hsince => ?_, fun _ since hsince instant hbegan => ?_,
    fun _ => (noneLost_of_lt ?_).concat fun hsame => ?_⟩
  · rw [or_self] at hvalue
    exact ⟨q.second.instant,
      mem_instants (List.mem_append_right _ (List.mem_singleton_self _)) hsecond,
      (Option.some.inj hvalue).symm⟩
  · refine ⟨since, hsince, le_refl _, fun event hevent clock hclock => ?_⟩
    rw [← Option.some.inj hsince]
    rcases List.mem_append.1 hevent with hevent | hevent
    · exact r.seconds_mono
        (hlater clock.instant (mem_instants hevent (seen_mem_clocks hclock)) _ hsecond)
    · rw [List.mem_singleton.1 hevent, Event.seen] at hclock
      split at hclock
      · cases hclock
        exact r.seconds_mono hfirst
      · cases hclock
  · rw [← Option.some.inj hsince]
    rw [hepoch] at hbegan
    rw [hbegan.eq_of_new]
  · rw [hepoch]
    exact Nat.lt_succ_self _
  · rw [hepoch] at hsame
    exact absurd hsame (Nat.ne_of_lt (Nat.lt_succ_self _))

theorem Observed.step (h : Observed r how events (after r how events)) {event : Event}
    (hchron : Chronological how (events ++ [event])) :
    Observed r how (events ++ [event]) (after r how (events ++ [event])) := by
  rcases step_cases (r := r) (s := after r how events) event with
    hstep | ⟨q, rfl, hunreliable, hstep⟩
  · have hsame : (after r how (events ++ [event])).observationEpoch =
        (after r how events).observationEpoch := by
      rw [after_concat, hstep, record_epoch]
    have hrecord := h.record hchron hsame
    rwa [← hstep, ← after_concat] at hrecord
  · have hreopen := observed_reopen hchron hunreliable
    rwa [← hstep, ← after_concat] at hreopen

theorem observed_after (hchron : Chronological how events) :
    Observed r how events (after r how events) := by
  induction events using List.reverseRecOn with
  | nil => exact observed_install
  | append_singleton events event ih => exact (ih hchron.concat.1).step hchron

end Invariant

/-! ## Answers -/

section Answers

variable {r : Rounding} {how : Install} {events : List Event} {q : Query} {answer : Presence}

/-- What a reliable answer says of the activity and of its epoch. -/
structure Sound (r : Rounding) (how : Install) (events : List Event) (q : Query)
    (answer : Presence) : Prop where
  idle : ∀ event ∈ events ++ [.presence q], ∀ clock, event.seen = some clock →
    answer.idleSeconds ≤ r.between clock.instant q.second.instant
  observed : answer.idleSeconds ≤ answer.observedSeconds
  epoch : ∃ instant, Began r how (events ++ [.presence q]) answer.observationEpoch instant
  since : ∀ instant, Began r how (events ++ [.presence q]) answer.observationEpoch instant →
    answer.observedSeconds ≤ r.between instant q.second.instant
  kept : NoneLost r how (events ++ [.presence q]) answer.observationEpoch

/-- The epoch of an answer is the one that its query leaves. -/
theorem answer_epoch (h : (presence r q (after r how events)).1 = some answer) :
    answer.observationEpoch = (after r how (events ++ [.presence q])).observationEpoch := by
  obtain ⟨_, _, _, _, _, rfl⟩ := presence_some h
  rw [after_concat]
  rfl

theorem presence_sound (hchron : Chronological how (events ++ [.presence q]))
    (hanswer : (presence r q (after r how events)).1 = some answer)
    (hreliable : answer.reliable = true) : Sound r how events q answer := by
  have hinv : Observed r how (events ++ [.presence q]) (after r how (events ++ [.presence q])) :=
    observed_after hchron
  obtain ⟨_, hlater, hclocks⟩ := hchron.concat
  obtain ⟨_, _, session, data, count, rfl⟩ := presence_some hanswer
  rw [← after_concat] at hreliable ⊢
  generalize hstate : after r how (events ++ [.presence q]) = s at hinv hreliable ⊢
  simp only [State.answer, Bool.and_eq_true] at hreliable
  obtain ⟨⟨_, htrue⟩, hsome⟩ := hreliable
  obtain ⟨since, hsince⟩ := Option.isSome_iff_exists.1 hsome
  obtain ⟨last, hlast, hle, hall⟩ := hinv.active htrue since hsince
  have hsecond : q.second.instant ∈ (Event.presence q).clocks :=
    List.mem_cons_of_mem _ (List.mem_singleton_self _)
  have hlatest : ∀ instant ∈ instants how (events ++ [.presence q]), instant ≤ q.second.instant := by
    intro instant hinstant
    rw [instants, List.flatMap_append, ← List.cons_append] at hinstant
    rcases List.mem_append.1 hinstant with hinstant | hinstant
    · exact hlater instant hinstant _ hsecond
    · rw [List.flatMap_cons, List.flatMap_nil, List.append_nil] at hinstant
      rcases List.mem_cons.1 hinstant with rfl | hinstant
      · exact List.rel_of_pairwise_cons hclocks (List.mem_singleton_self _)
      · exact le_of_eq (List.mem_singleton.1 hinstant)
  have hidle : (s.answer r (r.seconds q.second.instant) q session data count).idleSeconds =
      max 0 (r.minus (r.seconds q.second.instant) last) := by
    simp only [State.answer, hlast, Option.getD_some]
  have hobserved :
      (s.answer r (r.seconds q.second.instant) q session data count).observedSeconds =
        max 0 (r.minus (r.seconds q.second.instant) since) := by
    simp only [State.answer, hsince, Option.getD_some]
  refine ⟨fun event hevent clock hclock => ?_, ?_, ?_, fun instant hbegan => ?_, hinv.kept htrue⟩
  · rw [hidle]
    refine max_le ?_ (r.minus_anti _ (hall event hevent clock hclock))
    exact r.minus_nonneg (r.seconds_mono
      (hlatest _ (mem_instants hevent (seen_mem_clocks hclock))))
  · rw [hidle, hobserved]
    exact max_le_max (le_refl 0) (r.minus_anti _ hle)
  · have hexists := began_exists (r := r) how (events ++ [.presence q])
    rwa [hstate] at hexists
  · rw [hobserved]
    have hstart : instant ∈ instants how (events ++ [.presence q]) := by
      rcases hbegan with ⟨_, rfl⟩ | ⟨before, query, later, hsplit, _, _, rfl⟩
      · exact List.mem_cons_self
      · have hquery : .presence query ∈ events ++ [.presence q] := by
          rw [hsplit]
          exact List.mem_append_right _ List.mem_cons_self
        exact mem_instants hquery (List.mem_cons_of_mem _ (List.mem_singleton_self _))
    refine max_le (r.minus_nonneg (r.seconds_mono (hlatest _ hstart))) ?_
    exact r.minus_anti _ (hinv.began htrue since hsince instant hbegan)

end Answers

end DstServer.Connections
