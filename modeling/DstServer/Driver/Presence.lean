import DstServer.Driver.Connections
import DstServer.Driver.Delivery
import DstServer.Driver.Observation

/-!
# The presence of a shard

`World` puts an observer of `connections.lua` behind the pipes of `System`.
Each launch of Lua is a new observer with a later generation; the lines of
the ones before may still be in the pipe.  A frame that queries the presence
is answered from the history of the running observer, and the answers come
out of the pipe in the order in which they were made.

A run tells what was answered, and what the driver made of the answers.
`Ordered` is the invariant of the pipe and of the histories: what was
answered in one generation comes from one history that grows.  `Identified`
is the invariant of the identities, which rests on the order of the pipe: an
epoch that the driver has left does not come back.
-/

namespace DstServer.Driver

open Lib
open DstServer.Connections (Presence Query Install Rounding presence after Chronological Sound)

/-! ## The game behind the pipes -/

/-- The table of a presence answer, given how Lua writes its seconds. -/
def fieldsOf (number : ℚ → Json) (answer : Presence) : List (String × Json) :=
  [("client_count", .ofNat answer.clientCount),
    ("idle_seconds", number answer.idleSeconds),
    ("max_players", .ofNat answer.maxPlayers),
    ("observation_epoch", .ofNat answer.observationEpoch),
    ("observed_seconds", number answer.observedSeconds),
    ("outdated_mods", .array (answer.outdatedMods.map .string)),
    ("player_count", .ofNat answer.playerCount),
    ("reliable", .bool answer.reliable),
    ("session_id", .string answer.sessionId)]

/-- The line by which Lua answers a presence request. -/
def presenceReply (number : ℚ → Json) (nonce id : String) (generation : Nat) (answer : Presence) :
    Json :=
  .object
    [("generation", .ofNat generation), ("id", .string id), ("nonce", .string nonce),
      ("result", .object [("data", .object (fieldsOf number answer)), ("ok", .bool true)]),
      ("v", .ofNat 1)]

/-- An answer, with the launch and the history that it was made from. -/
structure Answer where
  generation : Nat
  how : Install
  events : List Connections.Event
  query : Query
  answer : Presence

/-- The history with the query. -/
def Answer.history (a : Answer) : List Connections.Event := a.events ++ [.presence a.query]

def Answer.position (a : Answer) : ℕ ×ₗ ℕ := toLex (a.generation, a.answer.observationEpoch)

/-- What a run tells. -/
inductive Told where
  | answered (a : Answer)
  | mapped (m : Mapping)

structure World where
  system : System
  /-- The number of the running launch of Lua. -/
  generation : Nat
  how : Install
  events : List Connections.Event := []
  /-- The identities that `Ulid::generate` made for observations. -/
  drawn : List String := []

def start (nonce : String) (generation : Nat) (how : Install) : World where
  system := { shared := attach nonce }
  generation := generation
  how := how

/-- The answer of the running observer to a query. -/
def World.answer (r : Rounding) (w : World) (query : Query) : Option Presence :=
  (presence r query (after r w.how w.events)).1

inductive WorldStep (r : Rounding) (number : ℚ → Json) (nonce : String) :
    World → Option Told → World → Prop
  /-- A task of the driver goes on. -/
  | drives (w : World) (event : Event) (system : System) (hstep : Step w.system event system)
      (hother : (∀ frame reaction, event ≠ .consumes frame reaction) ∧ ∀ line, event ≠ .handles line) :
      WorldStep r number nonce w none { w with system := system }
  /-- The pump handles a line, and `Ulid::generate` makes no identity twice. -/
  | handles (w : World) (line : Line) (later : List Line) (fresh : String)
      (houtput : w.system.output = line :: later) (hpumping : w.system.pumping = true)
      (hfresh : fresh ∉ w.drawn) :
      WorldStep r number nonce w
        ((mapped w.system.shared (w.system.shared.handleLine fresh line.content) line.content).map
          .mapped)
        { w with
          system :=
            { w.system with
              shared := w.system.shared.handleLine fresh line.content
              output := later }
          drawn := fresh :: w.drawn }
  /-- Lua runs a presence query; a reply is its answer, or carries no epoch. -/
  | queries (w : World) (query : Query) (frame : Frame) (reaction : Reaction) (system : System)
      (hstep : Step w.system (.consumes frame reaction) system)
      (hreplies : ∀ reply ∈ reaction.replies, reported (.reply reply) = none ∨
        ∃ answer id, w.answer r query = some answer ∧
          reply = presenceReply number nonce id w.generation answer) :
      WorldStep r number nonce w
        ((w.answer r query).map fun answer =>
          .answered ⟨w.generation, w.how, w.events, query, answer⟩)
        { w with system := system, events := w.events ++ [.presence query] }
  /-- Lua runs another command; no other method names an epoch. -/
  | runs (w : World) (frame : Frame) (reaction : Reaction) (system : System)
      (hstep : Step w.system (.consumes frame reaction) system)
      (hsilent : ∀ reply ∈ reaction.replies, reported (.reply reply) = none) :
      WorldStep r number nonce w none { w with system := system }
  /-- Something happens in the game. -/
  | happens (w : World) (event : Connections.Event) (hevent : ∀ query, event ≠ .presence query) :
      WorldStep r number nonce w none { w with events := w.events ++ [event] }
  /-- Lua starts again. -/
  | launches (w : World) (generation : Nat) (how : Install) (hlater : w.generation < generation) :
      WorldStep r number nonce w none
        { w with generation := generation, how := how, events := [] }

/-- What a run of the world tells. -/
def WorldRun (r : Rounding) (number : ℚ → Json) (nonce : String) (w : World) :
    List (Option Told) → World → Prop :=
  Run (WorldStep r number nonce) w

/-- The driver and its pipes move by steps of the system, or not at all. -/
theorem WorldStep.system {r : Rounding} {number : ℚ → Json} {nonce : String} {w w' : World}
    {told : Option Told} (h : WorldStep r number nonce w told w') :
    w'.system = w.system ∨ ∃ event, Step w.system event w'.system := by
  cases h with
  | drives event system hstep => exact .inr ⟨event, hstep⟩
  | handles line later fresh houtput hpumping =>
    exact .inr ⟨.handles line, .handle _ _ later fresh houtput hpumping⟩
  | queries query frame reaction system hstep => exact .inr ⟨_, hstep⟩
  | runs frame reaction system hstep => exact .inr ⟨_, hstep⟩
  | happens => exact .inl rfl
  | launches => exact .inl rfl

/-! ## Steps of the driver -/

/-- A step that neither reads nor handles leaves the lines. -/
theorem Step.quiet {s t : System} {event : Event} (h : Step s event t)
    (hconsumes : ∀ frame reaction, event ≠ .consumes frame reaction)
    (hhandles : ∀ line, event ≠ .handles line) :
    t.output = s.output ∧ s.shared.Scope t.shared := by
  have hsame : s.shared.Scope s.shared := .same (.refl _)
  cases h with
  | dispatch record shared _ hdispatch => exact ⟨rfl, .same (Shared.dispatch_scope hdispatch)⟩
  | markWritten => exact ⟨rfl, .same Shared.markWritten_scope⟩
  | expire record message => exact ⟨rfl, .same (Shared.expire_scope _ _)⟩
  | requestStop => exact ⟨rfl, .same ⟨rfl, rfl⟩⟩
  | bootstrap value =>
    exact ⟨rfl, Shared.handleRecord_scope (fun _ _ => Shared.bootstrap_scope) value⟩
  | control value =>
    exact ⟨rfl, Shared.handleRecord_scope (fun _ _ => Shared.control_scope) value⟩
  | lifecycle text => exact ⟨rfl, .same (Shared.handleLifecycle_scope text)⟩
  | fault message => exact ⟨rfl, .same (Shared.fail_scope message)⟩
  | exit report => exact ⟨rfl, .same (Shared.exited_scope report)⟩
  | consume frame later reaction => exact absurd rfl (hconsumes frame reaction)
  | handle line => exact absurd rfl (hhandles line)
  | _ => exact ⟨rfl, hsame⟩

/-- The game appends the lines of its reaction. -/
theorem Step.consumed {s t : System} {frame : Frame} {reaction : Reaction}
    (h : Step s (.consumes frame reaction) t) :
    t.shared = s.shared ∧ t.output = s.output ++ reaction.lines frame := by
  cases h
  exact ⟨rfl, rfl⟩

/-! ## Lines with an epoch -/

theorem safeInteger_ofNat {n m : Nat} (h : safeInteger (.ofNat n) = some m) : m = n := by
  rw [safeInteger, Json.asU64?_ofNat] at h
  obtain ⟨hsome, _⟩ := Option.filter_eq_some_iff.1 h
  split at hsome
  · exact (Option.some.inj hsome).symm
  · cases hsome

theorem reported_presenceReply {number : ℚ → Json} {nonce id : String} {generation : Nat}
    {answer : Presence} {position : ℕ ×ₗ ℕ}
    (h : reported (.reply (presenceReply number nonce id generation answer)) = some position) :
    position = toLex (generation, answer.observationEpoch) := by
  unfold reported at h
  simp only at h
  split at h
  · rename_i read epoch hgeneration hepoch
    have hread : read = generation := safeInteger_ofNat hgeneration
    have hsame : epoch = answer.observationEpoch := safeInteger_ofNat hepoch
    rw [← Option.some.inj h, hread, hsame]
  · cases h

/-- A line of a reaction with an epoch is one of its replies. -/
theorem reply_of_reported {frame : Frame} {reaction : Reaction} {line : Line} {position : ℕ ×ₗ ℕ}
    (hline : line ∈ reaction.lines frame) (h : reported line.content = some position) :
    ∃ reply ∈ reaction.replies, line.content = .reply reply := by
  rcases List.mem_append.1 hline with hreply | hmarker
  · obtain ⟨reply, hmem, rfl⟩ := List.mem_map.1 hreply
    exact ⟨reply, hmem, rfl⟩
  · obtain ⟨marker, _, rfl⟩ := List.mem_map.1 hmarker
    cases h

/-! ## The pipe and the histories -/

section Invariants

variable {r : Rounding} {number : ℚ → Json} {nonce : String} {w : World} {told : List (Option Told)}

/-- Where the running observer is. -/
def World.position (r : Rounding) (w : World) : ℕ ×ₗ ℕ :=
  toLex (w.generation, (after r w.how w.events).observationEpoch)

/-- Two answers are of one launch, and one was made later in its history. -/
def Answer.SameLaunch (a b : Answer) : Prop :=
  a.how = b.how ∧ (a.history <+: b.history ∨ b.history <+: a.history)

structure Ordered (r : Rounding) (number : ℚ → Json) (nonce : String) (w : World)
    (told : List (Option Told)) : Prop where
  answered : ∀ a, some (.answered a) ∈ told →
    (presence r a.query (after r a.how a.events)).1 = some a.answer
  running : ∀ a, some (.answered a) ∈ told → a.generation ≤ w.generation ∧
    (a.generation = w.generation → a.how = w.how ∧ a.history <+: w.events)
  launch : ∀ a b, some (.answered a) ∈ told → some (.answered b) ∈ told →
    a.generation = b.generation → a.SameLaunch b
  sources : ∀ line ∈ w.system.output, ∀ position, reported line.content = some position →
    ∃ a id, some (.answered a) ∈ told ∧ position = a.position ∧
      line.content = .reply (presenceReply number nonce id a.generation a.answer)
  upTo : ∀ line ∈ w.system.output, ∀ position, reported line.content = some position →
    position ≤ w.position r
  sorted : (w.system.output.filterMap fun line => reported line.content).Pairwise (· ≤ ·)

theorem position_le {generation epoch epoch' : Nat} (h : epoch ≤ epoch') :
    toLex (generation, epoch) ≤ toLex (generation, epoch') :=
  Prod.Lex.toLex_le_toLex.2 (.inr ⟨rfl, h⟩)

/-- The epoch of an answer is the one at the end of its history. -/
theorem Ordered.epoch (h : Ordered r number nonce w told) {a : Answer}
    (ha : some (.answered a) ∈ told) :
    a.answer.observationEpoch = (after r a.how a.history).observationEpoch :=
  Connections.answer_epoch (h.answered a ha)

/-- What was answered is not after the running observer. -/
theorem Ordered.answered_le (h : Ordered r number nonce w told) {a : Answer}
    (ha : some (.answered a) ∈ told) : a.position ≤ w.position r := by
  obtain ⟨hle, hrunning⟩ := h.running a ha
  rcases Nat.lt_or_eq_of_le hle with hlt | heq
  · exact Prod.Lex.toLex_le_toLex.2 (.inl hlt)
  · obtain ⟨hhow, later, hevents⟩ := hrunning heq
    rw [Answer.position, World.position, heq, h.epoch ha, hhow, ← hevents]
    exact position_le (Connections.after_epoch _ _ later)

/-- A step without an answer that leaves the history or makes it longer. -/
theorem Ordered.keep (h : Ordered r number nonce w told) {w' : World} {step : Option Told}
    (hstep : ∀ a, step ≠ some (.answered a)) (hgeneration : w'.generation = w.generation)
    (hhow : w'.how = w.how) (hevents : w.events <+: w'.events)
    (houtput : w'.system.output.Sublist w.system.output) :
    Ordered r number nonce w' (told ++ [step]) := by
  have hmem : ∀ a, some (.answered a) ∈ told ++ [step] → some (.answered a) ∈ told := by
    intro a ha
    rcases List.mem_append.1 ha with ha | ha
    · exact ha
    · exact absurd (List.mem_singleton.1 ha).symm (hstep a)
  have hposition : w.position r ≤ w'.position r := by
    obtain ⟨later, hevents⟩ := hevents
    rw [World.position, World.position, hgeneration, hhow, ← hevents]
    exact position_le (Connections.after_epoch _ _ later)
  refine ⟨fun a ha => h.answered a (hmem a ha), fun a ha => ?_,
    fun a b ha hb => h.launch a b (hmem a ha) (hmem b hb), fun line hline position hreported => ?_,
    fun line hline position hreported =>
      (h.upTo line (houtput.subset hline) position hreported).trans hposition,
    h.sorted.sublist (houtput.filterMap _)⟩
  · obtain ⟨hle, hrunning⟩ := h.running a (hmem a ha)
    rw [hgeneration, hhow]
    refine ⟨hle, fun heq => ?_⟩
    obtain ⟨hsame, hprefix⟩ := hrunning heq
    exact ⟨hsame, hprefix.trans hevents⟩
  · obtain ⟨a, id, ha, hsource⟩ := h.sources line (houtput.subset hline) position hreported
    exact ⟨a, id, List.mem_append_left _ ha, hsource⟩

/-- Lua runs a command: the lines that join the pipe carry an epoch only
when it is a presence query, and then they are its answer. -/
theorem Ordered.consume (h : Ordered r number nonce w told) {frame : Frame} {reaction : Reaction}
    {system : System} {events : List Connections.Event} {step : Option Told}
    (hstep : Step w.system (.consumes frame reaction) system) (hevents : w.events <+: events)
    (hlabel : ∀ a, step = some (.answered a) → a.generation = w.generation ∧ a.how = w.how ∧
      a.history = events ∧ w.answer r a.query = some a.answer ∧ a.events = w.events)
    (hreplies : ∀ reply ∈ reaction.replies, reported (.reply reply) = none ∨
      ∃ a id, step = some (.answered a) ∧
        reply = presenceReply number nonce id a.generation a.answer) :
    Ordered r number nonce { w with system := system, events := events } (told ++ [step]) := by
  obtain ⟨_, houtput⟩ := hstep.consumed
  have hanswered : ∀ a, step = some (.answered a) →
      (presence r a.query (after r a.how a.events)).1 = some a.answer := by
    intro a ha
    obtain ⟨_, hhow, _, hanswer, hbefore⟩ := hlabel a ha
    rw [hhow, hbefore]
    exact hanswer
  have hnow : ∀ a, step = some (.answered a) →
      a.position = World.position r { w with system := system, events := events } := by
    intro a ha
    obtain ⟨hgeneration, hhow, hhistory, _⟩ := hlabel a ha
    rw [Answer.position, World.position, Connections.answer_epoch (hanswered a ha), hgeneration]
    show toLex (w.generation, (after r a.how a.history).observationEpoch) = _
    rw [hhow, hhistory]
  have hposition : w.position r ≤ World.position r { w with system := system, events := events } := by
    obtain ⟨later, rfl⟩ := hevents
    exact position_le (Connections.after_epoch _ _ later)
  have hlines : ∀ line ∈ reaction.lines frame, ∀ position, reported line.content = some position →
      ∃ a id, step = some (.answered a) ∧ position = a.position ∧
        line.content = .reply (presenceReply number nonce id a.generation a.answer) := by
    intro line hline position hreported
    obtain ⟨reply, hreply, hcontent⟩ := reply_of_reported hline hreported
    rcases hreplies reply hreply with hnone | ⟨a, id, ha, rfl⟩
    · rw [hcontent, hnone] at hreported
      cases hreported
    · rw [hcontent] at hreported
      exact ⟨a, id, ha, reported_presenceReply hreported, hcontent⟩
  have hmem : ∀ a, some (.answered a) ∈ told ++ [step] →
      some (.answered a) ∈ told ∨ step = some (.answered a) := by
    intro a ha
    rcases List.mem_append.1 ha with ha | ha
    · exact .inl ha
    · exact .inr (List.mem_singleton.1 ha).symm
  have hbefore : ∀ a b, some (.answered a) ∈ told → step = some (.answered b) →
      a.generation = b.generation → a.how = b.how ∧ a.history <+: b.history := by
    intro a b ha hb hsame
    obtain ⟨hgeneration, hhow, hhistory, _⟩ := hlabel b hb
    obtain ⟨hahow, hprefix⟩ := (h.running a ha).2 (hsame.trans hgeneration)
    exact ⟨hahow.trans hhow.symm, hhistory ▸ hprefix.trans hevents⟩
  refine ⟨fun a ha => ?_, fun a ha => ?_, fun a b ha hb hsame => ?_, ?_, ?_, ?_⟩
  · rcases hmem a ha with ha | ha
    · exact h.answered a ha
    · exact hanswered a ha
  · rcases hmem a ha with ha | ha
    · obtain ⟨hle, hrunning⟩ := h.running a ha
      exact ⟨hle, fun heq => ⟨(hrunning heq).1, (hrunning heq).2.trans hevents⟩⟩
    · obtain ⟨hgeneration, hhow, hhistory, _⟩ := hlabel a ha
      exact ⟨le_of_eq hgeneration, fun _ => ⟨hhow, hhistory ▸ List.prefix_refl _⟩⟩
  · rcases hmem a ha with ha | ha
    · rcases hmem b hb with hb | hb
      · exact h.launch a b ha hb hsame
      · obtain ⟨hhow, hprefix⟩ := hbefore a b ha hb hsame
        exact ⟨hhow, .inl hprefix⟩
    · rcases hmem b hb with hb | hb
      · obtain ⟨hhow, hprefix⟩ := hbefore b a hb ha hsame.symm
        exact ⟨hhow.symm, .inr hprefix⟩
      · cases ha.symm.trans hb
        exact ⟨rfl, .inl (List.prefix_refl _)⟩
  · intro line hline position hreported
    simp only [houtput] at hline
    rcases List.mem_append.1 hline with hline | hline
    · obtain ⟨a, id, ha, hsource⟩ := h.sources line hline position hreported
      exact ⟨a, id, List.mem_append_left _ ha, hsource⟩
    · obtain ⟨a, id, ha, hsource⟩ := hlines line hline position hreported
      exact ⟨a, id, List.mem_append_right _ (List.mem_singleton.2 ha.symm), hsource⟩
  · intro line hline position hreported
    simp only [houtput] at hline
    rcases List.mem_append.1 hline with hline | hline
    · exact (h.upTo line hline position hreported).trans hposition
    · obtain ⟨a, _, ha, rfl, _⟩ := hlines line hline position hreported
      exact le_of_eq (hnow a ha)
  · simp only [houtput]
    rw [List.filterMap_append, List.pairwise_append]
    have hnew : ∀ position ∈ (reaction.lines frame).filterMap fun line => reported line.content,
        position = World.position r { w with system := system, events := events } := by
      intro position hposition
      obtain ⟨line, hline, hreported⟩ := List.mem_filterMap.1 hposition
      obtain ⟨a, _, ha, rfl, _⟩ := hlines line hline position hreported
      exact hnow a ha
    refine ⟨h.sorted, ?_, fun earlier hearlier position hposition' => ?_⟩
    · rw [List.pairwise_iff_forall_sublist]
      intro a b hab
      rw [hnew a (hab.subset List.mem_cons_self),
        hnew b (hab.subset (List.mem_cons_of_mem _ (List.mem_singleton_self _)))]
    · obtain ⟨line, hline, hreported⟩ := List.mem_filterMap.1 hearlier
      rw [hnew position hposition']
      exact (h.upTo line hline earlier hreported).trans hposition

/-- A new launch is later than everything that was answered. -/
theorem Ordered.launches (h : Ordered r number nonce w told) {generation : Nat} (how : Install)
    (hlater : w.generation < generation) :
    Ordered r number nonce { w with generation := generation, how := how, events := [] }
      (told ++ [none]) := by
  have hmem : ∀ a, some (.answered a) ∈ told ++ [none] → some (.answered a) ∈ told := by
    intro a ha
    rcases List.mem_append.1 ha with ha | ha
    · exact ha
    · cases List.mem_singleton.1 ha
  refine ⟨fun a ha => h.answered a (hmem a ha), fun a ha => ?_,
    fun a b ha hb => h.launch a b (hmem a ha) (hmem b hb), fun line hline position hreported => ?_,
    fun line hline position hreported => (h.upTo line hline position hreported).trans ?_, h.sorted⟩
  · have hle := (h.running a (hmem a ha)).1
    exact ⟨hle.trans (le_of_lt hlater), fun heq => by
      have heq : a.generation = generation := heq
      omega⟩
  · obtain ⟨a, id, ha, hsource⟩ := h.sources line hline position hreported
    exact ⟨a, id, List.mem_append_left _ ha, hsource⟩
  · exact Prod.Lex.toLex_le_toLex.2 (.inl hlater)

/-! ## The identities -/

/-- The mapping hands on the data of this answer. -/
structure Mapping.From (number : ℚ → Json) (m : Mapping) (a : Answer) : Prop where
  generation : a.generation = m.generation
  epoch : a.answer.observationEpoch = m.epoch
  data : m.data = identified m.identity (fieldsOf number a.answer)

structure Identified (number : ℚ → Json) (w : World) (told : List (Option Told)) : Prop where
  sources : ∀ m, some (.mapped m) ∈ told → ∃ a, some (.answered a) ∈ told ∧ m.From number a
  drawn : ∀ m, some (.mapped m) ∈ told → m.identity ∈ w.drawn
  past : ∀ m, some (.mapped m) ∈ told →
    ∃ current, w.system.shared.state.generation = some current ∧ m.generation ≤ current
  observation : ∀ observation, w.system.shared.observation = some observation →
    ∃ m, some (.mapped m) ∈ told ∧ w.system.shared.state.generation = some m.generation ∧
      observation = (m.epoch, m.identity)
  current : ∀ m, some (.mapped m) ∈ told →
    w.system.shared.state.generation = some m.generation →
    ∃ observation, w.system.shared.observation = some observation ∧ m.epoch ≤ observation.1 ∧
      (m.epoch = observation.1 → m.identity = observation.2)
  ahead : ∀ observation generation, w.system.shared.observation = some observation →
    w.system.shared.state.generation = some generation →
    ∀ line ∈ w.system.output, ∀ epoch, reported line.content = some (toLex (generation, epoch)) →
      observation.1 ≤ epoch
  distinct : ∀ m m', some (.mapped m) ∈ told → some (.mapped m') ∈ told →
    (m.identity = m'.identity ↔ m.generation = m'.generation ∧ m.epoch = m'.epoch)

/-- A step that maps nothing.  The state of the driver may begin a later
generation; lines of an answer of now may join the pipe. -/
theorem Identified.keep (h : Identified number w told) (hordered : Ordered r number nonce w told)
    {w' : World} {step : Option Told} (hstep : ∀ m, step ≠ some (.mapped m))
    (hdrawn : w.drawn ⊆ w'.drawn) (hscope : w.system.shared.Scope w'.system.shared)
    (houtput : ∀ line ∈ w'.system.output, line ∈ w.system.output ∨
      ∀ position, reported line.content = some position → w.position r ≤ position) :
    Identified number w' (told ++ [step]) := by
  have hmem : ∀ m, some (.mapped m) ∈ told ++ [step] → some (.mapped m) ∈ told := by
    intro m hm
    rcases List.mem_append.1 hm with hm | hm
    · exact hm
    · exact absurd (List.mem_singleton.1 hm).symm (hstep m)
  have hsources : ∀ m, some (.mapped m) ∈ told ++ [step] →
      ∃ a, some (.answered a) ∈ told ++ [step] ∧ m.From number a := by
    intro m hm
    obtain ⟨a, ha, hfrom⟩ := h.sources m (hmem m hm)
    exact ⟨a, List.mem_append_left _ ha, hfrom⟩
  have hidentities : ∀ m, some (.mapped m) ∈ told ++ [step] → m.identity ∈ w'.drawn :=
    fun m hm => hdrawn (h.drawn m (hmem m hm))
  have hdistinct := fun m m' hm hm' => h.distinct m m' (hmem m hm) (hmem m' hm')
  cases hscope with
  | same hsame =>
    refine ⟨hsources, hidentities, fun m hm => ?_, fun observation hobservation => ?_,
      fun m hm hgeneration => ?_,
      fun observation generation hobservation hgeneration line hline epoch hreported => ?_,
      hdistinct⟩
    · rw [hsame.generation]
      exact h.past m (hmem m hm)
    · rw [hsame.observation] at hobservation
      rw [hsame.generation]
      obtain ⟨m, hm, hsource⟩ := h.observation observation hobservation
      exact ⟨m, List.mem_append_left _ hm, hsource⟩
    · rw [hsame.generation] at hgeneration
      rw [hsame.observation]
      exact h.current m (hmem m hm) hgeneration
    · rw [hsame.observation] at hobservation
      rw [hsame.generation] at hgeneration
      rcases houtput line hline with hold | hnew
      · exact h.ahead observation generation hobservation hgeneration line hold epoch hreported
      · obtain ⟨m, hm, hcurrent, rfl⟩ := h.observation observation hobservation
        obtain ⟨a, ha, hfrom⟩ := h.sources m hm
        have hle : a.position ≤ toLex (generation, epoch) :=
          (hordered.answered_le ha).trans (hnew _ hreported)
        rw [Answer.position, hfrom.generation, hfrom.epoch] at hle
        rw [hcurrent] at hgeneration
        cases hgeneration
        rcases Prod.Lex.toLex_le_toLex.1 hle with hlt | ⟨_, hle⟩
        · exact absurd hlt (lt_irrefl _)
        · exact hle
  | later generation hlater hgeneration hobservation =>
    have hnone : ∀ observation, w'.system.shared.observation ≠ some observation := by
      intro observation hsome
      rw [hobservation] at hsome
      cases hsome
    refine ⟨hsources, hidentities, fun m hm => ?_,
      fun observation hsome => absurd hsome (hnone observation), fun m hm hsame => ?_,
      fun observation _ hsome => absurd hsome (hnone observation), hdistinct⟩
    · obtain ⟨current, hcurrent, hle⟩ := h.past m (hmem m hm)
      exact ⟨generation, hgeneration, hle.trans (le_of_lt (hlater current hcurrent))⟩
    · obtain ⟨current, hcurrent, hle⟩ := h.past m (hmem m hm)
      have hlt := hlater current hcurrent
      rw [hgeneration] at hsame
      cases hsame
      exact absurd hle (Nat.not_le_of_lt hlt)

/-- The driver maps an answer: its epoch keeps the identity that it has, and
an epoch without one gets a new one. -/
theorem Identified.map (h : Identified number w told) (hordered : Ordered r number nonce w told)
    {line : Line} {later : List Line} {fresh : String} (houtput : w.system.output = line :: later)
    (hfresh : fresh ∉ w.drawn) {shared : Shared} {response : Json} (hline : line.content = .reply response)
    {m : Mapping} {fields : List (String × Json)}
    (hgeneration : w.system.shared.state.generation = some m.generation)
    (hafter : shared.state.generation = some m.generation)
    (hobservation : shared.observation = some (m.epoch, m.identity))
    (hidentity : w.system.shared.observation = some (m.epoch, m.identity) ∨
      m.identity = fresh ∧ ∀ other, w.system.shared.observation = some other → other.1 ≠ m.epoch)
    (hreported : reported (.reply response) = some (toLex (m.generation, m.epoch)))
    (hfields : (response.get "result").get "data" = .object fields)
    (hdata : m.data = identified m.identity fields) :
    Identified number
      { w with
        system := { w.system with shared := shared, output := later }
        drawn := fresh :: w.drawn }
      (told ++ [some (.mapped m)]) := by
  have hmem : ∀ other, some (.mapped other) ∈ told ++ [some (.mapped m)] →
      some (.mapped other) ∈ told ∨ other = m := by
    intro other hother
    rcases List.mem_append.1 hother with hother | hother
    · exact .inl hother
    · cases List.mem_singleton.1 hother
      exact .inr rfl
  have hlast : some (.mapped m) ∈ told ++ [some (.mapped m)] :=
    List.mem_append_right _ (List.mem_singleton_self _)
  have hposition : reported line.content = some (toLex (m.generation, m.epoch)) := by
    rw [hline, hreported]
  have hhead : line ∈ w.system.output := houtput ▸ List.mem_cons_self
  -- an identity that is mapped in this generation is of an epoch up to this one
  have hbelow : ∀ other, some (.mapped other) ∈ told → other.generation = m.generation →
      other.epoch ≤ m.epoch ∧ (other.epoch = m.epoch ↔ other.identity = m.identity) := by
    intro other hother hsame
    obtain ⟨observation, hsome, hle, hepoch⟩ :=
      h.current other hother (hgeneration.trans (congrArg some hsame.symm))
    have hahead := h.ahead observation m.generation hsome hgeneration line hhead m.epoch hposition
    refine ⟨hle.trans hahead, ?_⟩
    rcases hidentity with hknown | ⟨hnew, hother'⟩
    · rw [hknown] at hsome
      cases hsome
      obtain ⟨known, hmapped, _, hpair⟩ := h.observation _ hknown
      have hdistinct := h.distinct other known hother hmapped
      rw [Prod.mk.injEq] at hpair
      obtain ⟨hke, hki⟩ := hpair
      refine ⟨hepoch, fun heq => ?_⟩
      exact (hdistinct.1 (heq.trans hki)).2.trans hke.symm
    · have hne := hother' observation hsome
      refine ⟨fun heq => absurd ?_ hne, fun heq => ?_⟩
      · omega
      · rw [hnew] at heq
        exact absurd (heq ▸ h.drawn other hother) hfresh
  have hnewIdentity : ∀ other, some (.mapped other) ∈ told →
      (other.identity = m.identity ↔ other.generation = m.generation ∧ other.epoch = m.epoch) := by
    intro other hother
    refine ⟨fun heq => ?_, fun ⟨hsame, hepoch⟩ => ((hbelow other hother hsame).2).1 hepoch⟩
    rcases hidentity with hknown | ⟨hnew, _⟩
    · obtain ⟨known, hmapped, hcurrent, hpair⟩ := h.observation _ hknown
      rw [Prod.mk.injEq] at hpair
      obtain ⟨hke, hki⟩ := hpair
      rw [hgeneration] at hcurrent
      obtain ⟨hsame, hepoch⟩ := (h.distinct other known hother hmapped).1 (heq.trans hki)
      exact ⟨hsame.trans (Option.some.inj hcurrent).symm, hepoch.trans hke.symm⟩
    · rw [hnew] at heq
      exact absurd (heq ▸ h.drawn other hother) hfresh
  refine ⟨fun other hother => ?_, fun other hother => ?_, fun other hother => ?_,
    fun observation hsome => ?_, fun other hother hsame => ?_,
    fun observation generation hsome hcurrent next hnext epoch hnextReported => ?_,
    fun a b ha hb => ?_⟩
  · rcases hmem other hother with hother | rfl
    · obtain ⟨a, ha, hfrom⟩ := h.sources other hother
      exact ⟨a, List.mem_append_left _ ha, hfrom⟩
    · obtain ⟨a, id, ha, hpair, hcontent⟩ := hordered.sources line hhead _ hposition
      have hpair : (other.generation, other.epoch) = (a.generation, a.answer.observationEpoch) := hpair
      rw [Prod.mk.injEq] at hpair
      rw [hline] at hcontent
      cases hcontent
      have hobject : Json.object (fieldsOf number a.answer) = .object fields := hfields
      cases hobject
      exact ⟨a, List.mem_append_left _ ha, hpair.1.symm, hpair.2.symm, hdata⟩
  · rcases hmem other hother with hother | rfl
    · exact List.mem_cons_of_mem _ (h.drawn other hother)
    · rcases hidentity with hknown | ⟨hnew, _⟩
      · obtain ⟨known, hmapped, _, hpair⟩ := h.observation _ hknown
        rw [Prod.mk.injEq] at hpair
        rw [hpair.2]
        exact List.mem_cons_of_mem _ (h.drawn known hmapped)
      · rw [hnew]
        exact List.mem_cons_self
  · refine ⟨m.generation, hafter, ?_⟩
    rcases hmem other hother with hother | rfl
    · obtain ⟨current, hcurrent, hle⟩ := h.past other hother
      rw [hgeneration] at hcurrent
      cases hcurrent
      exact hle
    · exact le_refl _
  · rw [hobservation] at hsome
    exact ⟨m, hlast, hafter, (Option.some.inj hsome).symm⟩
  · refine ⟨(m.epoch, m.identity), hobservation, ?_⟩
    rcases hmem other hother with hother | rfl
    · rw [hafter, Option.some.injEq] at hsame
      obtain ⟨hle, hiff⟩ := hbelow other hother hsame.symm
      exact ⟨hle, hiff.1⟩
    · exact ⟨le_refl _, fun _ => rfl⟩
  · rw [hobservation] at hsome
    cases hsome
    rw [hafter] at hcurrent
    cases hcurrent
    have hsorted := hordered.sorted
    rw [houtput, List.filterMap_cons, hposition] at hsorted
    have hle : toLex (m.generation, m.epoch) ≤ toLex (m.generation, epoch) :=
      List.rel_of_pairwise_cons hsorted (List.mem_filterMap.2 ⟨next, hnext, hnextReported⟩)
    rcases Prod.Lex.toLex_le_toLex.1 hle with hlt | ⟨_, hle⟩
    · exact absurd hlt (lt_irrefl _)
    · exact hle
  · rcases hmem a ha with hold | rfl
    · rcases hmem b hb with hold' | rfl
      · exact h.distinct a b hold hold'
      · exact hnewIdentity a hold
    · rcases hmem b hb with hold' | rfl
      · rw [eq_comm, hnewIdentity b hold', eq_comm, @eq_comm _ b.epoch]
      · exact ⟨fun _ => ⟨rfl, rfl⟩, fun _ => rfl⟩

/-! ## Runs -/

/-- A line of the pipe is handled: the pipe is shorter, and the answer that
it may be is mapped. -/
theorem Identified.handle (h : Identified number w told) (hordered : Ordered r number nonce w told)
    {line : Line} {later : List Line} {fresh : String} (houtput : w.system.output = line :: later)
    (hfresh : fresh ∉ w.drawn) :
    Identified number
      { w with
        system :=
          { w.system with
            shared := w.system.shared.handleLine fresh line.content
            output := later }
        drawn := fresh :: w.drawn }
      (told ++ [(mapped w.system.shared (w.system.shared.handleLine fresh line.content)
        line.content).map .mapped]) := by
  have hquiet : ∀ {shared : Shared} {step : Option Told}, (∀ m, step ≠ some (.mapped m)) →
      w.system.shared.Scope shared →
      Identified number
        { w with
          system := { w.system with shared := shared, output := later }
          drawn := fresh :: w.drawn }
        (told ++ [step]) := by
    intro shared step hstep hscope
    refine h.keep hordered hstep (List.subset_cons_self _ _) hscope fun other hother => .inl ?_
    rw [houtput]
    exact List.mem_cons_of_mem _ hother
  cases hcontent : line.content with
  | marker marker =>
    exact hquiet (fun m hm => nomatch hm) (.same (Shared.nativeBarrier_scope marker))
  | reply response =>
    simp only [Shared.handleLine]
    cases w.system.shared.handleReply_observes fresh response with
    | nothing hsame hunmapped =>
      rw [hunmapped.mapped]
      exact hquiet (fun m hm => nomatch hm) (.same hsame)
    | answer generation epoch identity fields _ hgeneration hafter hobservation hidentity
        hreported hfields hmapped =>
      rw [hmapped]
      exact h.map hordered houtput hfresh hcontent hgeneration hafter hobservation hidentity
        hreported hfields rfl

theorem Ordered.step {w' : World} {step : Option Told} (h : Ordered r number nonce w told)
    (hstep : WorldStep r number nonce w step w') : Ordered r number nonce w' (told ++ [step]) := by
  cases hstep with
  | drives event system hstep hother =>
    obtain ⟨houtput, _⟩ := hstep.quiet hother.1 hother.2
    exact h.keep (fun a ha => nomatch ha) rfl rfl (List.prefix_refl _) (houtput ▸ List.Sublist.refl _)
  | handles line later fresh houtput =>
    refine h.keep (fun a ha => ?_) rfl rfl (List.prefix_refl _) ?_
    · obtain ⟨_, _, ha⟩ := Option.map_eq_some_iff.1 ha
      cases ha
    · rw [houtput]
      exact List.sublist_cons_self _ _
  | queries query frame reaction system hstep hreplies =>
    refine h.consume hstep (List.prefix_append _ _) (fun a ha => ?_) fun reply hreply => ?_
    · obtain ⟨answer, hanswer, ha⟩ := Option.map_eq_some_iff.1 ha
      cases ha
      exact ⟨rfl, rfl, rfl, hanswer, rfl⟩
    · rcases hreplies reply hreply with hnone | ⟨answer, id, hanswer, hsame⟩
      · exact .inl hnone
      · exact .inr ⟨⟨w.generation, w.how, w.events, query, answer⟩, id, by rw [hanswer]; rfl, hsame⟩
  | runs frame reaction system hstep hsilent =>
    exact h.consume hstep (List.prefix_refl _) (fun a ha => nomatch ha) fun reply hreply =>
      .inl (hsilent reply hreply)
  | happens event =>
    exact h.keep (fun a ha => nomatch ha) rfl rfl (List.prefix_append _ _) (List.Sublist.refl _)
  | launches generation how hlater => exact h.launches how hlater

/-- The lines that Lua writes for a query are not before its observer. -/
theorem Identified.step {w' : World} {step : Option Told} (h : Identified number w told)
    (hordered : Ordered r number nonce w told) (hstep : WorldStep r number nonce w step w') :
    Identified number w' (told ++ [step]) := by
  have hsame : ∀ line ∈ w.system.output, line ∈ w.system.output ∨
      ∀ position, reported line.content = some position → w.position r ≤ position :=
    fun line hline => .inl hline
  cases hstep with
  | drives event system hstep hother =>
    obtain ⟨houtput, hscope⟩ := hstep.quiet hother.1 hother.2
    refine h.keep hordered (fun m hm => nomatch hm) (List.Subset.refl _) hscope ?_
    simp only [houtput]
    exact hsame
  | handles line later fresh houtput _ hfresh => exact h.handle hordered houtput hfresh
  | queries query frame reaction system hstep hreplies =>
    obtain ⟨hshared, houtput⟩ := hstep.consumed
    refine h.keep hordered (fun m hm => ?_) (List.Subset.refl _)
      (.same (hshared ▸ Shared.SameScope.refl _)) fun line hline => ?_
    · obtain ⟨_, _, hm⟩ := Option.map_eq_some_iff.1 hm
      cases hm
    · simp only [houtput] at hline
      rcases List.mem_append.1 hline with hline | hline
      · exact .inl hline
      refine .inr fun position hreported => ?_
      obtain ⟨reply, hreply, hcontent⟩ := reply_of_reported hline hreported
      rcases hreplies reply hreply with hnone | ⟨answer, id, hanswer, rfl⟩
      · rw [hcontent, hnone] at hreported
        cases hreported
      · rw [hcontent] at hreported
        rw [reported_presenceReply hreported, Connections.answer_epoch hanswer]
        exact position_le (Connections.after_epoch _ _ _)
  | runs frame reaction system hstep hsilent =>
    obtain ⟨hshared, houtput⟩ := hstep.consumed
    refine h.keep hordered (fun m hm => nomatch hm) (List.Subset.refl _)
      (.same (hshared ▸ Shared.SameScope.refl _)) fun line hline => ?_
    simp only [houtput] at hline
    rcases List.mem_append.1 hline with hline | hline
    · exact .inl hline
    refine .inr fun position hreported => ?_
    obtain ⟨reply, hreply, hcontent⟩ := reply_of_reported hline hreported
    rw [hcontent, hsilent reply hreply] at hreported
    cases hreported
  | happens event =>
    exact h.keep hordered (fun m hm => nomatch hm) (List.Subset.refl _) (.same (.refl _)) hsame
  | launches generation how =>
    exact h.keep hordered (fun m hm => nomatch hm) (List.Subset.refl _) (.same (.refl _)) hsame

theorem WorldRun.invariants {generation : Nat} {how : Install}
    (h : WorldRun r number nonce (start nonce generation how) told w) :
    Ordered r number nonce w told ∧ Identified number w told := by
  induction h with
  | nil =>
    refine ⟨⟨?_, ?_, ?_, ?_, ?_, List.Pairwise.nil⟩, ⟨?_, ?_, ?_, ?_, ?_, ?_, ?_⟩⟩
    all_goals simp [start, attach]
  | snoc _ hstep ih =>
    obtain ⟨hordered, hidentified⟩ := ih
    exact ⟨hordered.step hstep, hidentified.step hordered hstep⟩

/-! ## Main results -/

/-- Two answers of one launch with the same epoch, the later one reliable:
no activity between them was lost to a failed reading. -/
theorem Ordered.kept_between (h : Ordered r number nonce w told) {a b : Answer}
    (ha : some (.answered a) ∈ told) (hb : some (.answered b) ∈ told) (hhow : a.how = b.how)
    (hepoch : a.answer.observationEpoch = b.answer.observationEpoch)
    (hchron : Chronological b.how b.history) (hreliable : b.answer.reliable = true)
    {later : List Connections.Event} (hlater : b.history = a.history ++ later) :
    ∀ event ∈ later, ∀ clock, event.seen = some clock → clock.fails = false := by
  intro event hevent clock hclock
  obtain ⟨before, rest, rfl⟩ := List.append_of_mem hevent
  have hsound := Connections.presence_sound hchron (h.answered b hb) hreliable
  refine hsound.kept (a.history ++ before) event rest ?_ ?_ clock hclock
  · rw [← Answer.history, hlater, List.append_assoc]
  · have hstart := Connections.after_epoch (r := r) b.how a.history before
    have hend := Connections.after_epoch (r := r) b.how (a.history ++ before) (event :: rest)
    rw [List.append_assoc, ← hlater, ← h.epoch hb] at hend
    rw [← hhow, ← h.epoch ha, hhow, hepoch] at hstart
    exact le_antisymm hend hstart

end Invariants

/-- What the presence answers say, and what the driver makes of them in a
run: a reliable answer is sound, and two mapped answers have one identity
exactly when they have one epoch of one generation, without an activity that
was lost between them. -/
theorem presence_observed {r : Rounding} {number : ℚ → Json} {nonce : String} {generation : Nat}
    {how : Install} {told : List (Option Told)} {w : World}
    (hrun : WorldRun r number nonce (start nonce generation how) told w) :
    (∀ how events query answer, Chronological how (events ++ [.presence query]) →
      (presence r query (after r how events)).1 = some answer → answer.reliable = true →
      Sound r how events query answer) ∧
    (∀ a, some (.answered a) ∈ told →
      (presence r a.query (after r a.how a.events)).1 = some a.answer) ∧
    (∀ m, some (.mapped m) ∈ told → ∃ a, some (.answered a) ∈ told ∧ m.From number a) ∧
    (∀ m m', some (.mapped m) ∈ told → some (.mapped m') ∈ told →
      (m.identity = m'.identity ↔ m.generation = m'.generation ∧ m.epoch = m'.epoch)) ∧
    ∀ m m', some (.mapped m) ∈ told → some (.mapped m') ∈ told → m.identity = m'.identity →
      ∀ a b, some (.answered a) ∈ told → some (.answered b) ∈ told → m.From number a →
        m'.From number b → a.SameLaunch b ∧
          ∀ later, b.history = a.history ++ later → Chronological b.how b.history →
            b.answer.reliable = true →
            ∀ event ∈ later, ∀ clock, event.seen = some clock → clock.fails = false := by
  obtain ⟨hordered, hidentified⟩ := hrun.invariants
  refine ⟨fun how events query answer => Connections.presence_sound, hordered.answered,
    hidentified.sources, hidentified.distinct, fun m m' hm hm' hidentity a b ha hb hfrom hfrom' => ?_⟩
  obtain ⟨hgeneration, hepoch⟩ := (hidentified.distinct m m' hm hm').1 hidentity
  have hlaunch : a.SameLaunch b := hordered.launch a b ha hb
    (hfrom.generation.trans (hgeneration.trans hfrom'.generation.symm))
  refine ⟨hlaunch, fun later hlater hchron hreliable => ?_⟩
  exact hordered.kept_between ha hb hlaunch.1
    (hfrom.epoch.trans (hepoch.trans hfrom'.epoch.symm)) hchron hreliable hlater

/-! ## A presence request that is answered -/

/-- The answer of an observer that was just installed and sees nobody. -/
def sampleAnswer : Answer where
  generation := 1
  how := { pauseHooks := true, clock := ⟨0, false⟩, listeners := true }
  events := []
  query :=
    { first := ⟨0, false⟩
      second := ⟨0, false⟩
      sight := { clients := some [], players := some [], maxPlayers := some 6, health := some .null }
      sessionId := some "SESSION"
      outdatedMods := [] }
  answer :=
    { observationEpoch := 0
      sessionId := "SESSION"
      clientCount := 0
      playerCount := 0
      maxPlayers := 6
      reliable := true
      idleSeconds := 0
      observedSeconds := 0
      outdatedMods := [] }

/-- The text of a number that is an integer. -/
def sampleNumber (value : ℚ) : Json := .number (toString value.num)

def samplePresenceReply : Json :=
  presenceReply sampleNumber "nonce" "request" 1 sampleAnswer.answer

def sampleMapping : Mapping where
  generation := 1
  epoch := 0
  identity := "observation"
  data := identified "observation" (fieldsOf sampleNumber sampleAnswer.answer)

def sampleTold : List (Option Told) :=
  [none, none, none, none, none, none, some (.answered sampleAnswer),
    some (.mapped sampleMapping)]

theorem sample_answer (w : World) (hhow : w.how = sampleAnswer.how) (hevents : w.events = []) :
    w.answer .exact sampleAnswer.query = some sampleAnswer.answer := by
  rw [World.answer, hhow, hevents, Connections.after_nil]
  simp [sampleAnswer, Connections.install, Connections.activity, presence, Connections.snapshot,
    Connections.reopen, Connections.State.answer, Connections.names, Connections.listed]

/-- The run of the sample, over the states that its changes lead to. -/
theorem sample_worldRun {native ready dispatched heard : Shared}
    (hnative : native = (attach "nonce").handleLifecycle "DST_Master_Ready")
    (hready : ready = native.handleRecord Shared.bootstrap (some (sampleHealth "1")))
    (hdispatched : ready.dispatch sampleRecord = .ok dispatched)
    (hheard : heard = dispatched.handleReply "observation" samplePresenceReply)
    (hmapped : mapped dispatched heard (.reply samplePresenceReply) = some sampleMapping) :
    ∃ w, WorldRun .exact sampleNumber "nonce" (start "nonce" 1 sampleAnswer.how) sampleTold w := by
  have hquiet : (∀ frame reaction, Event.internal ≠ .consumes frame reaction) ∧
      ∀ line, Event.internal ≠ .handles line := ⟨nofun, nofun⟩
  have hdrives : ∀ {labels : List (Option Told)} {s t : System} {event : Event},
      (∀ frame reaction, event ≠ .consumes frame reaction) ∧ (∀ line, event ≠ .handles line) →
      WorldRun .exact sampleNumber "nonce" (start "nonce" 1 sampleAnswer.how) labels
        { start "nonce" 1 sampleAnswer.how with system := s } → Step s event t →
      WorldRun .exact sampleNumber "nonce" (start "nonce" 1 sampleAnswer.how) (labels ++ [none])
        { start "nonce" 1 sampleAnswer.how with system := t } :=
    fun hother hrun hstep => hrun.snoc (.drives _ _ _ hstep hother)
  have h₁ : Step { shared := attach "nonce" } .internal { shared := native } := by
    rw [hnative]
    exact .lifecycle _ _ rfl
  have h₂ : Step { shared := native } .internal { shared := ready } := by
    rw [hready]
    exact .bootstrap _ _ rfl
  have h₃ : Step { shared := ready } .internal
      { shared := ready, waiting := [sampleRecord], ids := ["request"] } :=
    .submit _ "request" "presence" 1 (by simp)
  have h₄ : Step { shared := ready, waiting := [sampleRecord], ids := ["request"] } .internal
      (sampleWorking ready .looping [] [] 0) :=
    .acquire _ sampleRecord [] [] rfl rfl (by simp)
  have h₅ : Step (sampleWorking ready .looping [] [] 0) .internal
      (sampleWorking dispatched .sending [] [] 0) :=
    .dispatch _ sampleRecord dispatched rfl hdispatched
  have h₆ : Step (sampleWorking dispatched .sending [] [] 0) (.writes sampleFrame)
      (sampleWorking dispatched .written [sampleFrame] [] 1) :=
    .write _ sampleRecord rfl rfl
  have hwritten := hdrives ⟨by simp, by simp⟩ (hdrives hquiet (hdrives hquiet (hdrives hquiet
    (hdrives hquiet (hdrives hquiet Run.nil h₁) h₂) h₃) h₄) h₅) h₆
  have hanswer := sample_answer
    { start "nonce" 1 sampleAnswer.how with
      system := sampleWorking dispatched .written [sampleFrame] [] 1 } rfl rfl
  have h₇ : Step (sampleWorking dispatched .written [sampleFrame] [] 1)
      (.consumes sampleFrame { ran := true, replies := [samplePresenceReply], marker := none })
      (sampleWorking dispatched .written [] [⟨sampleFrame, .reply samplePresenceReply⟩] 1) := by
    refine .consume _ sampleFrame [] _ rfl ⟨fun reply hreply => ?_, nofun, nofun⟩
    rw [List.mem_singleton.1 hreply]
    exact ⟨"request", rfl, rfl⟩
  have hqueries := WorldStep.queries _ sampleAnswer.query sampleFrame _ _ h₇ fun reply hreply =>
    .inr ⟨sampleAnswer.answer, "request", hanswer, List.mem_singleton.1 hreply⟩
  rw [hanswer] at hqueries
  have hhandles := @WorldStep.handles .exact sampleNumber "nonce"
    { start "nonce" 1 sampleAnswer.how with
      system := sampleWorking dispatched .written [] [⟨sampleFrame, .reply samplePresenceReply⟩] 1
      events := [.presence sampleAnswer.query] }
    ⟨sampleFrame, .reply samplePresenceReply⟩ [] "observation" rfl rfl (by simp [start])
  have hlabel : mapped dispatched (dispatched.handleLine "observation" (.reply samplePresenceReply))
      (.reply samplePresenceReply) = some sampleMapping := by
    rw [hheard] at hmapped
    exact hmapped
  exact ⟨_, (hwritten.snoc hqueries).snoc (by
    have hstep := hhandles
    simp only [sampleWorking] at hstep
    rw [hlabel] at hstep
    exact hstep)⟩

/-- The sample answer is sound, and the driver maps it. -/
theorem presence_observed_sample :
    Sound .exact sampleAnswer.how [] sampleAnswer.query sampleAnswer.answer ∧
      ∃ a, some (.answered a) ∈ sampleTold ∧ sampleMapping.From sampleNumber a := by
  have hdispatched : sampleReady.dispatch sampleRecord = .ok sampleDispatched := rfl
  obtain ⟨w, hrun⟩ := sample_worldRun (Eq.refl sampleNative) (Eq.refl sampleReady) hdispatched
    rfl rfl
  obtain ⟨hsound, hanswered, hsources, _⟩ := presence_observed hrun
  refine ⟨hsound _ [] _ _ ?_ (hanswered sampleAnswer (by simp [sampleTold])) rfl,
    hsources sampleMapping (by simp [sampleTold])⟩
  simp [Chronological, Connections.instants, Connections.Event.clocks, sampleAnswer]

end DstServer.Driver
