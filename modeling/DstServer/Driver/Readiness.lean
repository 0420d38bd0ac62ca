import DstServer.Driver.Steps

/-!
# Readiness

A shard is reported ready by one flag of its state, which the handlers of
five kinds of frames, the failure of the control, the request to stop and
the end of the output all write.  A `Change` is one of these calls, and a
run is any list of them: no order is assumed.

Most changes leave the fields that readiness depends on.  `Readiness` is
their record, and `Persists` says what every change keeps of it: a failure,
a stop request and an exit are for good, the generation does not go back,
and what is ready stands on all its conditions (`Coherent`).
-/

namespace DstServer.Driver

open Lib

/-! ## The changes -/

/-- A call that changes the state of the driver. -/
inductive Change where
  | dispatch (record : RequestRecord)
  | markWritten
  | expire (id message : String)
  | requestStop
  | exited (report : Except String ExitReport)
  /-- A reply or a marker. -/
  | line (fresh : String) (content : Content)
  | bootstrap (value : Option Json)
  | control (value : Option Json)
  | lifecycle (text : String)
  | telemetry (generation sequence : Nat)
  | fault (message : String)

/-- `telemetry`, for a record that was read: one of the current generation
with a new sequence number is accepted. -/
def Shared.telemetry (shared : Shared) (generation sequence : Nat) : Shared :=
  if some generation ≠ shared.state.generation ∨ sequence ≤ shared.state.telemetrySequence then
    shared
  else { shared with state := { shared.state with telemetrySequence := sequence } }

/-- The state after a change. -/
def Shared.after (shared : Shared) : Change → Shared
  | .dispatch record =>
    match shared.dispatch record with
    | .ok shared => shared
    | .error _ => shared
  | .markWritten => shared.markWritten
  | .expire id message => (shared.expire id message).2
  | .requestStop => shared.requestStop
  | .exited report => shared.exited report
  | .line fresh content => shared.handleLine fresh content
  | .bootstrap value => shared.handleRecord Shared.bootstrap value
  | .control value => shared.handleRecord Shared.control value
  | .lifecycle text => shared.handleLifecycle text
  | .telemetry generation sequence => shared.telemetry generation sequence
  | .fault message => shared.fail message

def Shared.run (shared : Shared) (changes : List Change) : Shared :=
  changes.foldl Shared.after shared

/-- The lines by which the game reports that it is ready: its own one and the
one that names the session. -/
def isReadyLine (text : String) : Bool :=
  Shared.isLine "DST_Master_Ready" text || "DST_SessionId|".toList.isPrefixOf text.toList

/-- The change is a line by which the game reports that it is ready. -/
def Change.ReportsReady (change : Change) : Prop :=
  ∃ text, change = .lifecycle text ∧ isReadyLine text = true

/-! ## What readiness depends on -/

structure Readiness where
  generation : Option Nat
  nativeReady : Bool
  ready : Bool
  running : Bool
  stopping : Bool
  stopRequested : Bool
  health : Option Json
  failure : Option String

namespace Readiness

/-- The last health record is one of the current generation, in the supported
protocol, of a game whose players are active. -/
def Healthy (r : Readiness) : Prop :=
  ∃ health generation, r.health = some health ∧ r.generation = some generation ∧
    safeInteger (health.get "generation") = some generation ∧
    (health.get "protocol").isInt 3 = true ∧
    ((health.get "capabilities").get "players").isStr "active" = true

/-- All that a shard which is ready stands on. -/
structure Grounded (r : Readiness) : Prop where
  running : r.running = true
  stopRequested : r.stopRequested = false
  stopping : r.stopping = false
  failure : r.failure = none
  nativeReady : r.nativeReady = true
  healthy : r.Healthy

structure Coherent (r : Readiness) : Prop where
  ready : r.ready = true → r.Grounded
  stopping : r.stopRequested = true → r.stopping = true
  /-- A health record is kept in its generation only. -/
  health : r.health.isSome = true → r.generation.isSome = true

/-- What a change keeps; only one that reports readiness sets its flag. -/
structure Persists (reports : Prop) (before after : Readiness) : Prop where
  generation : ∀ current, before.generation = some current →
    ∃ next, after.generation = some next ∧ current ≤ next
  failed : before.failure.isSome = true → after.failure.isSome = true
  stopped : before.stopRequested = true → after.stopRequested = true
  exited : before.running = false → after.running = false
  reported : after.nativeReady = true → before.nativeReady = true ∨ reports
  coherent : before.Coherent → after.Coherent

variable {reports : Prop} {a b c : Readiness}

theorem Persists.refl (reports : Prop) (r : Readiness) : r.Persists reports r :=
  ⟨fun current h => ⟨current, h, le_refl _⟩, id, id, id, .inl, id⟩

theorem Persists.of_eq (h : b = a) : a.Persists reports b := h ▸ .refl reports _

theorem Persists.trans (h : a.Persists reports b) (h' : b.Persists reports c) :
    a.Persists reports c where
  generation current hcurrent := by
    obtain ⟨middle, hmiddle, hle⟩ := h.generation current hcurrent
    obtain ⟨next, hnext, hle'⟩ := h'.generation middle hmiddle
    exact ⟨next, hnext, hle.trans hle'⟩
  failed := h'.failed ∘ h.failed
  stopped := h'.stopped ∘ h.stopped
  exited := h'.exited ∘ h.exited
  reported hnative := (h'.reported hnative).elim h.reported .inr
  coherent := h'.coherent ∘ h.coherent

theorem Persists.mono {reports' : Prop} (h : a.Persists reports b) (himp : reports → reports') :
    a.Persists reports' b :=
  { h with reported := fun hnative => (h.reported hnative).imp_right himp }

/-- A change after which nothing is ready. -/
theorem Persists.unready
    (hgeneration : ∀ current, a.generation = some current →
      ∃ next, b.generation = some next ∧ current ≤ next)
    (hfailed : a.failure.isSome = true → b.failure.isSome = true)
    (hstopped : a.stopRequested = true → b.stopRequested = true)
    (hexited : a.running = false → b.running = false) (hnative : b.nativeReady = a.nativeReady)
    (hready : b.ready = false)
    (hstopping : (a.stopRequested = true → a.stopping = true) →
      b.stopRequested = true → b.stopping = true)
    (hhealth : (a.health.isSome = true → a.generation.isSome = true) →
      b.health.isSome = true → b.generation.isSome = true) :
    a.Persists reports b where
  generation := hgeneration
  failed := hfailed
  stopped := hstopped
  exited := hexited
  reported h := .inl (hnative ▸ h)
  coherent h := {
    ready := fun h => by rw [hready] at h; cases h
    stopping := hstopping h.stopping
    health := hhealth h.health }

end Readiness

/-- What the readiness of the shard depends on. -/
def Shared.readiness (shared : Shared) : Readiness where
  generation := shared.state.generation
  nativeReady := shared.state.nativeReady
  ready := shared.state.ready
  running := shared.state.running
  stopping := shared.state.stopping
  stopRequested := shared.stopRequested
  health := shared.state.health
  failure := shared.state.failure

/-! ## Each change persists -/

namespace Shared

open Readiness

variable {shared after : Shared} {reports : Prop}

/-- `recompute_ready`, after a change of fields that keeps the others. -/
theorem persists_recompute {state : DriverState}
    (hgeneration : state.generation = shared.state.generation)
    (hfailure : state.failure = shared.state.failure)
    (hrunning : state.running = shared.state.running)
    (hstopping : state.stopping = shared.state.stopping)
    (hnative : state.nativeReady = true → shared.state.nativeReady = true ∨ reports)
    (hhealth : (shared.state.health.isSome = true → shared.state.generation.isSome = true) →
      state.health.isSome = true → shared.state.generation.isSome = true) :
    shared.readiness.Persists reports
      { shared with state := recomputeReady state }.readiness where
  generation current h := ⟨current, hgeneration.trans h, le_refl _⟩
  failed h := by
    show state.failure.isSome = true
    rw [hfailure]
    exact h
  stopped := id
  exited := hrunning.trans
  reported := hnative
  coherent h := by
    have hknown : state.health.isSome = true → state.generation.isSome = true := by
      rw [hgeneration]
      exact hhealth h.health
    have hstop : shared.stopRequested = true → state.stopping = true :=
      fun hrequested => hstopping.trans (h.stopping hrequested)
    refine ⟨fun hready => ?_, hstop, hknown⟩
    have hready : (recomputeReady state).ready = true := hready
    simp only [recomputeReady, healthReady, Bool.and_eq_true, Bool.not_eq_true',
      Option.isNone_iff_eq_none, Option.any_eq_true, decide_eq_true_eq] at hready
    obtain ⟨⟨⟨⟨hruns, hgoes⟩, hfine⟩, hnative⟩, health, hlast, ⟨hcurrent, hprotocol⟩, hplayers⟩ :=
      hready
    obtain ⟨generation, hsome⟩ := Option.isSome_iff_exists.1 (hknown (by rw [hlast]; rfl))
    refine ⟨hruns, ?_, hgoes, hfine, hnative,
      health, generation, hlast, hsome, hcurrent.trans hsome, hprotocol, hplayers⟩
    refine Bool.eq_false_iff.2 fun hrequested => ?_
    rw [hstop hrequested] at hgoes
    cases hgoes

theorem readiness_deliver (active : Pending) (result : DriverResult) :
    (shared.deliver active result).readiness = shared.readiness := rfl

theorem fail_persists (message : String) :
    shared.readiness.Persists reports (shared.fail message).readiness := by
  have hfailed : shared.readiness.Persists reports
      { shared with state :=
        { shared.state with
          failure := some (shared.state.failure.getD message)
          ready := false } }.readiness :=
    .unready (fun current h => ⟨current, h, le_refl _⟩) (fun _ => rfl) id id rfl rfl id id
  unfold fail
  simp only
  split
  · rw [readiness_deliver]
    exact hfailed
  · exact hfailed

theorem requestStop_persists : shared.readiness.Persists reports shared.requestStop.readiness :=
  .unready (fun current h => ⟨current, h, le_refl _⟩) id (fun _ => rfl) id rfl rfl
    (fun _ _ => rfl) id

/-- A generation that begins has no health record yet; one that is over
changes nothing. -/
theorem advanceGeneration_persists (reports : Prop) {generation : Nat}
    (h : shared.advanceGeneration generation = some after) :
    shared.readiness.Persists reports after.readiness ∧
      after.state.generation = some generation := by
  unfold advanceGeneration at h
  split at h
  · cases h
  rename_i hover
  split at h
  · rename_i hsame
    cases h
    exact ⟨.refl _ _, hsame⟩
  · simp only at h
    generalize hadvanced : ({ shared with observation := _, state := _ } : Shared) = advanced at h
    have hpersists : shared.readiness.Persists reports advanced.readiness ∧
        advanced.state.generation = some generation := by
      subst hadvanced
      refine ⟨.unready ?_ ?_ id ?_ ?_ rfl (fun _ => id) (fun _ h => nomatch h), rfl⟩
      · intro current hcurrent
        have hcurrent : shared.state.generation = some current := hcurrent
        rw [hcurrent] at hover
        exact ⟨generation, rfl, by simpa using hover⟩
      · intro hfailed
        show (DriverState.failure (if _ then _ else _)).isSome = true
        split
        · exact hfailed
        · exact hfailed
      · intro hexited
        show DriverState.running (if _ then _ else _) = false
        split
        · exact hexited
        · exact hexited
      · show DriverState.nativeReady (if _ then _ else _) = _
        split
        · rfl
        · rfl
    split at h
    · split at h
      · cases h
        rw [readiness_deliver]
        exact hpersists
      · cases h
        exact hpersists
    · cases h
      exact hpersists

theorem bootstrap_persists {record : Json} (h : shared.bootstrap record = .ok after) :
    shared.readiness.Persists reports after.readiness := by
  unfold bootstrap at h
  split at h
  · split at h
    · split at h
      · cases h
        exact .refl _ _
      · cases h
    · cases h
  · simp only at h
    split at h
    · cases h
    rename_i generation _
    split at h
    · cases h
    split at h
    · cases h
      exact .refl _ _
    · rename_i advanced hadvance
      cases h
      have hadvanced := advanceGeneration_persists reports hadvance
      refine hadvanced.1.trans (persists_recompute rfl rfl rfl rfl .inl fun _ _ => ?_)
      rw [hadvanced.2]
      rfl

theorem control_persists {record : Json} (h : shared.control record = .ok after) :
    shared.readiness.Persists reports after.readiness := by
  unfold control at h
  split at h
  · cases h
  split at h
  · cases h
  split at h
  · cases h
    exact .refl _ _
  · rename_i advanced hadvance
    cases h
    exact (advanceGeneration_persists reports hadvance).1.trans (.of_eq rfl)

/-- Only the lines of the game that say so set its flag. -/
theorem lifecycle_persists {text : String} (h : shared.lifecycle text = .ok after) :
    shared.readiness.Persists (isReadyLine text = true) after.readiness := by
  unfold lifecycle at h
  split at h
  · cases h
    exact .refl _ _
  split at h
  · rename_i hline
    cases h
    refine persists_recompute rfl rfl rfl rfl (fun _ => .inr ?_) id
    rw [isReadyLine, hline, Bool.true_or]
  split at h
  · rename_i hline
    simp only at h
    split at h
    · cases h
    · cases h
      refine persists_recompute rfl rfl rfl rfl (fun _ => .inr ?_) id
      rw [isReadyLine, hline, Bool.or_true]
  split at h
  · cases h
    exact .of_eq rfl
  split at h
  · cases h
    exact .unready (fun current h => ⟨current, h, le_refl _⟩) id id id rfl rfl
      (fun _ _ => rfl) id
  · cases h
    exact .of_eq rfl

theorem exited_persists (report : Except String ExitReport) :
    shared.readiness.Persists reports (shared.exited report).readiness := by
  have hended : shared.readiness.Persists reports
      { shared with state := ended shared.state report }.readiness := by
    cases report with
    | error message =>
      exact .unready (fun current h => ⟨current, h, le_refl _⟩) (fun _ => rfl) id (fun _ => rfl)
        rfl rfl id id
    | ok report =>
      refine .unready (fun current h => ⟨current, h, le_refl _⟩) (fun hfailed => ?_) id
        (fun _ => rfl) rfl rfl id id
      obtain ⟨failure, hfailure⟩ := Option.isSome_iff_exists.1 hfailed
      have hfailure : shared.state.failure = some failure := hfailure
      show (DriverState.failure (ended shared.state (.ok report))).isSome = true
      simp only [ended, hfailure, Option.some_or]
      split
      · rfl
      · rfl
  unfold exited
  simp only
  split
  · exact hended.trans (.of_eq rfl)
  · exact hended

/-- The state learns of a health record in its own generation only. -/
theorem learn_persists {method : String} {data : Json} {generation : Nat}
    (hcurrent : shared.state.generation = some generation) :
    shared.readiness.Persists reports
      { shared with state := learn shared.state method data }.readiness := by
  unfold learn
  split
  · exact .of_eq rfl
  split
  · refine persists_recompute rfl rfl rfl rfl .inl fun _ _ => ?_
    rw [hcurrent]
    rfl
  · exact .refl _ _

theorem rpc_persists {fresh : String} {response : Json} {outcome : Except String Unit}
    (h : shared.rpc fresh response = (outcome, after)) :
    shared.readiness.Persists reports after.readiness := by
  unfold rpc at h
  split at h
  · cases h
    exact .refl _ _
  split at h
  · cases h
    exact .of_eq rfl
  simp only at h
  split at h
  · cases h
    exact .refl _ _
  split at h
  · unfold rpcResult at h
    split at h
    · cases h
      exact .of_eq rfl
    split at h
    · unfold rpcData at h
      simp only at h
      split at h
      · split at h
        · cases h
          exact .of_eq rfl
        · cases h
          exact .of_eq rfl
      · cases h
        split
        · rename_i hcurrent
          exact (learn_persists hcurrent).trans (.of_eq rfl)
        · exact .of_eq rfl
    split at h
    · unfold rpcError at h
      split at h
      · cases h
        exact .of_eq rfl
      simp only at h
      split at h
      · cases h
        exact .of_eq rfl
      · cases h
        exact .of_eq rfl
    · cases h
      exact .of_eq rfl
  split at h
  · cases h
    exact .of_eq rfl
  · cases h
    exact .of_eq rfl

theorem handleReply_persists (fresh : String) (value : Json) :
    shared.readiness.Persists reports (shared.handleReply fresh value).readiness := by
  unfold handleReply
  split
  · exact fail_persists _
  split
  · rename_i hrpc
    exact rpc_persists hrpc
  · rename_i hrpc
    exact (rpc_persists hrpc).trans (fail_persists _)

theorem readiness_nativeBarrier (marker : Marker) :
    (shared.nativeBarrier marker).readiness = shared.readiness := by
  unfold nativeBarrier
  split
  · rfl
  split
  · rfl
  cases marker with
  | busy =>
    simp only
    split
    · rfl
    · rfl
  | done => rfl

theorem handleRecord_persists {handler : Shared → Json → Except String Shared}
    (hhandler : ∀ record after, handler shared record = .ok after →
      shared.readiness.Persists reports after.readiness) (value : Option Json) :
    shared.readiness.Persists reports (shared.handleRecord handler value).readiness := by
  unfold handleRecord
  split
  · exact fail_persists _
  split
  · rename_i hrecord
    exact hhandler _ _ hrecord
  · exact fail_persists _

theorem handleLifecycle_persists (text : String) :
    shared.readiness.Persists (isReadyLine text = true) (shared.handleLifecycle text).readiness := by
  unfold handleLifecycle
  split
  · rename_i hrecord
    exact lifecycle_persists hrecord
  · exact fail_persists _

theorem readiness_dispatch {record : RequestRecord} (h : shared.dispatch record = .ok after) :
    after.readiness = shared.readiness := by
  unfold dispatch at h
  split at h
  · cases h
  split at h
  · cases h
  · cases h
    rfl

theorem readiness_markWritten : shared.markWritten.readiness = shared.readiness := by
  unfold markWritten
  split
  · rfl
  · rfl

theorem readiness_expire (id message : String) :
    (shared.expire id message).2.readiness = shared.readiness := by
  unfold expire
  split
  · rfl
  · rfl

theorem readiness_telemetry (generation sequence : Nat) :
    (shared.telemetry generation sequence).readiness = shared.readiness := by
  unfold telemetry
  split
  · rfl
  · rfl

/-- What every change of the state keeps. -/
theorem after_persists (change : Change) :
    shared.readiness.Persists (change.ReportsReady) (shared.after change).readiness := by
  cases change with
  | dispatch record =>
    simp only [Shared.after]
    split
    · rename_i hdispatch
      exact .of_eq (readiness_dispatch hdispatch)
    · exact .refl _ _
  | markWritten => exact .of_eq readiness_markWritten
  | expire id message => exact .of_eq (readiness_expire id message)
  | requestStop => exact requestStop_persists
  | exited report => exact exited_persists report
  | line fresh content =>
    cases content with
    | reply value => exact handleReply_persists fresh value
    | marker marker => exact .of_eq (readiness_nativeBarrier marker)
  | bootstrap value => exact handleRecord_persists (fun _ _ => bootstrap_persists) value
  | control value => exact handleRecord_persists (fun _ _ => control_persists) value
  | lifecycle text =>
    exact (handleLifecycle_persists text).mono fun hline => ⟨text, rfl, hline⟩
  | telemetry generation sequence => exact .of_eq (readiness_telemetry generation sequence)
  | fault message => exact fail_persists message

/-! ## Runs -/

theorem run_cons (change : Change) (later : List Change) :
    shared.run (change :: later) = (shared.after change).run later := rfl

theorem run_append (earlier later : List Change) :
    shared.run (earlier ++ later) = (shared.run earlier).run later := List.foldl_append

theorem run_persists (changes : List Change) :
    shared.readiness.Persists (∃ change ∈ changes, change.ReportsReady)
      (shared.run changes).readiness := by
  induction changes generalizing shared with
  | nil => exact .refl _ _
  | cons change later ih =>
    rw [run_cons]
    refine ((after_persists change).mono ?_).trans (ih.mono ?_)
    · intro hreports
      exact ⟨change, List.mem_cons_self, hreports⟩
    · rintro ⟨other, hmem, hreports⟩
      exact ⟨other, List.mem_cons_of_mem _ hmem, hreports⟩

/-- What holds after a change and persists holds at the end of a run with
that change. -/
theorem run_of_mem {p : Shared → Prop} (hkept : ∀ shared change, p shared → p (shared.after change))
    {change : Change} (hset : ∀ shared, p (Shared.after shared change)) {changes : List Change}
    (hmem : change ∈ changes) : p (shared.run changes) := by
  obtain ⟨earlier, later, rfl⟩ := List.append_of_mem hmem
  rw [run_append, run_cons]
  have hstart := hset (shared.run earlier)
  generalize (shared.run earlier).after change = start at hstart
  clear hmem
  induction later generalizing start with
  | nil => exact hstart
  | cons next later ih => exact ih (start.after next) (hkept start next hstart)

theorem stopRequested_of_mem {changes : List Change} (hmem : .requestStop ∈ changes) :
    (shared.run changes).stopRequested = true :=
  run_of_mem (p := fun shared => shared.stopRequested = true)
    (fun _ change h => (after_persists change).stopped h) (fun _ => rfl) hmem

theorem not_running_of_mem {report : Except String ExitReport} {changes : List Change}
    (hmem : .exited report ∈ changes) : (shared.run changes).state.running = false := by
  refine run_of_mem (p := fun shared => shared.state.running = false)
    (fun _ change h => (after_persists change).exited h) (fun shared => ?_) hmem
  simp only [Shared.after, exited]
  split
  · exact (ended_closed _ report).1
  · exact (ended_closed _ report).1

theorem failed_of_mem {message : String} {changes : List Change}
    (hmem : .fault message ∈ changes) : (shared.run changes).state.failure.isSome = true := by
  refine run_of_mem (p := fun shared => shared.state.failure.isSome = true)
    (fun _ change h => (after_persists change).failed h) (fun shared => ?_) hmem
  simp only [Shared.after, fail]
  split
  · rfl
  · rfl

end Shared

/-- The driver and the game change the state by these calls only. -/
theorem Step.after {s t : System} {event : Event} (h : Step s event t) :
    t.shared = s.shared ∨ ∃ change, t.shared = s.shared.after change := by
  cases h with
  | dispatch record shared _ hdispatch =>
    refine .inr ⟨.dispatch record, ?_⟩
    simp only [Shared.after, hdispatch]
  | markWritten => exact .inr ⟨.markWritten, rfl⟩
  | expire record message => exact .inr ⟨.expire record.id message, rfl⟩
  | requestStop => exact .inr ⟨.requestStop, rfl⟩
  | handle line later fresh => exact .inr ⟨.line fresh line.content, rfl⟩
  | bootstrap value => exact .inr ⟨.bootstrap value, rfl⟩
  | control value => exact .inr ⟨.control value, rfl⟩
  | lifecycle text => exact .inr ⟨.lifecycle text, rfl⟩
  | fault message => exact .inr ⟨.fault message, rfl⟩
  | exit report => exact .inr ⟨.exited report, rfl⟩
  | _ => exact .inl rfl

/-- Every run of the driver and the game is a list of changes of the state. -/
theorem DriverRun.changes {nonce : String} {events : List Event} {s : System}
    (h : DriverRun nonce events s) : ∃ changes, s.shared = (attach nonce).run changes := by
  induction h with
  | nil => exact ⟨[], rfl⟩
  | snoc _ hstep ih =>
    obtain ⟨changes, hchanges⟩ := ih
    rcases hstep.after with hsame | ⟨change, hchange⟩
    · exact ⟨changes, hsame.trans hchanges⟩
    · refine ⟨changes ++ [change], ?_⟩
      rw [hchange, hchanges, Shared.run_append]
      rfl

/-! ## Main results -/

theorem attach_coherent (nonce : String) : (attach nonce).readiness.Coherent where
  ready h := nomatch h
  stopping h := nomatch h
  health h := nomatch h

/-- What a shard that is reported ready stands on: in its state, and in the
changes that led there. -/
structure ReadyShard (changes : List Change) (shared : Shared) : Prop where
  grounded : shared.readiness.Grounded
  notStopped : .requestStop ∉ changes
  running : ∀ report, .exited report ∉ changes
  notFailed : ∀ message, .fault message ∉ changes
  reported : ∃ change ∈ changes, change.ReportsReady

theorem ready_grounded (nonce : String) (earlier later : List Change) :
    let before := (attach nonce).run earlier
    let now := before.run later
    (now.state.ready = true → ReadyShard (earlier ++ later) now) ∧
      (∀ current, before.state.generation = some current →
        ∃ next, now.state.generation = some next ∧ current ≤ next) ∧
      (before.stopRequested = true ∨ before.state.failure.isSome = true →
        now.state.ready = false) := by
  intro before now
  have hpersists := before.run_persists later
  have hwhole : now = (attach nonce).run (earlier ++ later) := (Shared.run_append _ _).symm
  have hrun := (attach nonce).run_persists (earlier ++ later)
  rw [← hwhole] at hrun
  have hcoherent : now.readiness.Coherent := hrun.coherent (attach_coherent nonce)
  refine ⟨fun hready => ?_, hpersists.generation, fun hover => ?_⟩
  · have hgrounded := hcoherent.ready hready
    refine ⟨hgrounded, fun hmem => ?_, fun report hmem => ?_, fun message hmem => ?_, ?_⟩
    · have hstopped : ((attach nonce).run (earlier ++ later)).stopRequested = true :=
        Shared.stopRequested_of_mem hmem
      rw [← hwhole] at hstopped
      exact absurd hgrounded.stopRequested (ne_false_of_eq_true hstopped)
    · have hexited : ((attach nonce).run (earlier ++ later)).state.running = false :=
        Shared.not_running_of_mem hmem
      rw [← hwhole] at hexited
      exact absurd hgrounded.running (ne_true_of_eq_false hexited)
    · have hfailed : ((attach nonce).run (earlier ++ later)).state.failure.isSome = true :=
        Shared.failed_of_mem hmem
      rw [← hwhole] at hfailed
      have hfailure : now.state.failure = none := hgrounded.failure
      rw [hfailure] at hfailed
      cases hfailed
    · rcases hrun.reported hgrounded.nativeReady with hattached | hreports
      · cases hattached
      · exact hreports
  · refine Bool.eq_false_iff.2 fun hready => ?_
    have hgrounded := hcoherent.ready hready
    rcases hover with hstopped | hfailed
    · exact absurd hgrounded.stopRequested (ne_false_of_eq_true (hpersists.stopped hstopped))
    · have hfailed := hpersists.failed hfailed
      rw [hgrounded.failure] at hfailed
      cases hfailed

end DstServer.Driver
