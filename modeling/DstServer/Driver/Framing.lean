import DstServer.Driver.Steps

/-!
# What is in flight between the driver and the game

The invariants of a run, one layer after the other.

* `Piped`: the pipes are first in, first out; a line follows the lines of the
  earlier frames, and nothing of its frame follows a marker.
* `Named`: a request has its own identifier.
* `Stopping`: the shutdown command is the last frame.
-/

namespace DstServer.Driver

open Lib

/-! ## The frames of a run -/

def writtenFrame : Event → Option Frame
  | .writes frame => some frame
  | _ => none

def consumedFrame : Event → Option Frame
  | .consumes frame _ => some frame
  | _ => none

/-- The frames that were written, in order. -/
def written (events : List Event) : List Frame := events.filterMap writtenFrame

/-- The frames that the game consumed, in order. -/
def consumed (events : List Event) : List Frame := events.filterMap consumedFrame

/-- The native side refused the frame without running it. -/
def Rejected (events : List Event) (frame : Frame) : Prop :=
  ∃ reaction, Event.consumes frame reaction ∈ events ∧ reaction.marker = some .busy

/-- The frames of the lines that were not handled and of the requests that
were not consumed. -/
def System.inFlight (s : System) : List Frame := s.output.map Line.frame ++ s.stdin

/-- The first line can come before the second one. -/
def Line.Precedes (first second : Line) : Prop :=
  first.frame.serial < second.frame.serial ∨
    first.frame = second.frame ∧ ∃ reply, first.content = .reply reply

section Events

variable {events : List Event} {e : Event} {frame : Frame}

theorem written_append (events later : List Event) :
    written (events ++ later) = written events ++ written later :=
  List.filterMap_append

theorem consumed_append (events later : List Event) :
    consumed (events ++ later) = consumed events ++ consumed later :=
  List.filterMap_append

theorem mem_consumed : frame ∈ consumed events ↔ ∃ reaction, Event.consumes frame reaction ∈ events := by
  unfold consumed
  rw [List.mem_filterMap]
  constructor
  · rintro ⟨e, he, heq⟩
    cases e with
    | consumes _ reaction =>
      cases heq
      exact ⟨reaction, he⟩
    | _ => cases heq
  · rintro ⟨reaction, h⟩
    exact ⟨_, h, rfl⟩

theorem Rejected.append (h : Rejected events frame) (later : List Event) :
    Rejected (events ++ later) frame := by
  obtain ⟨reaction, hmem, hmarker⟩ := h
  exact ⟨reaction, List.mem_append_left _ hmem, hmarker⟩

/-- An event that neither writes nor consumes a frame. -/
structure Silent (e : Event) : Prop where
  written : writtenFrame e = none
  consumed : consumedFrame e = none

theorem Silent.internal : Silent .internal := ⟨rfl, rfl⟩

theorem Silent.returns (record : RequestRecord) (result : DriverResult) :
    Silent (.returns record result) := ⟨rfl, rfl⟩

theorem Silent.handles (line : Line) : Silent (.handles line) := ⟨rfl, rfl⟩

theorem Silent.written_append (h : Silent e) : Driver.written (events ++ [e]) = Driver.written events := by
  rw [Driver.written_append]
  unfold Driver.written
  rw [List.filterMap_cons_none h.written]
  simp

theorem Silent.consumed_append (h : Silent e) :
    Driver.consumed (events ++ [e]) = Driver.consumed events := by
  rw [Driver.consumed_append]
  unfold Driver.consumed
  rw [List.filterMap_cons_none h.consumed]
  simp

theorem Silent.mem_consumes (h : Silent e) {reaction : Reaction}
    (hmem : Event.consumes frame reaction ∈ events ++ [e]) :
    Event.consumes frame reaction ∈ events := by
  rcases List.mem_append.1 hmem with hmem | hmem
  · exact hmem
  · rw [← List.mem_singleton.1 hmem] at h
    cases h.consumed

end Events

/-! ## The pipes -/

/-- The pipes to the game and back. -/
structure Piped (events : List Event) (s : System) : Prop where
  fifo : consumed events ++ s.stdin = written events
  numbered : (written events).map Frame.serial = List.range s.frames
  emitted : ∀ line ∈ s.output, ∃ reaction, Event.consumes line.frame reaction ∈ events ∧
    line ∈ reaction.lines line.frame
  fits : ∀ frame reaction, Event.consumes frame reaction ∈ events → reaction.Fits frame
  order : s.output.Pairwise Line.Precedes

namespace Piped

variable {events : List Event} {s t : System} {e : Event} {frame other : Frame} {line : Line}

theorem pairwise (h : Piped events s) :
    (written events).Pairwise fun first second => first.serial < second.serial := by
  rw [← List.pairwise_map (f := Frame.serial) (R := (· < ·)), h.numbered]
  exact List.pairwise_lt_range

theorem nodup (h : Piped events s) : (written events).Nodup :=
  h.pairwise.imp fun hlt heq => by rw [heq] at hlt; exact lt_irrefl _ hlt

theorem serial_lt (h : Piped events s) (hframe : frame ∈ written events) :
    frame.serial < s.frames := by
  have hmem := List.mem_map_of_mem (f := Frame.serial) hframe
  rw [h.numbered, List.mem_range] at hmem
  exact hmem

/-- A frame is determined by its number. -/
theorem eq_of_serial (h : Piped events s) (hframe : frame ∈ written events)
    (hother : other ∈ written events) (hserial : frame.serial = other.serial) : frame = other := by
  have hnodup : ((written events).map Frame.serial).Nodup := by
    rw [h.numbered]
    exact List.nodup_range
  exact List.inj_on_of_nodup_map hnodup hframe hother hserial

theorem mem_of_consumed (h : Piped events s) (hframe : frame ∈ consumed events) :
    frame ∈ written events := by
  rw [← h.fifo]
  exact List.mem_append_left _ hframe

theorem mem_of_stdin (h : Piped events s) (hframe : frame ∈ s.stdin) :
    frame ∈ written events := by
  rw [← h.fifo]
  exact List.mem_append_right _ hframe

theorem consumed_of_output (h : Piped events s) (hline : line ∈ s.output) :
    line.frame ∈ consumed events := by
  obtain ⟨reaction, hmem, _⟩ := h.emitted line hline
  exact mem_consumed.2 ⟨reaction, hmem⟩

theorem mem_of_inFlight (h : Piped events s) (hframe : frame ∈ s.inFlight) :
    frame ∈ written events := by
  rcases List.mem_append.1 hframe with hout | hin
  · obtain ⟨line, hline, rfl⟩ := List.mem_map.1 hout
    exact h.mem_of_consumed (h.consumed_of_output hline)
  · exact h.mem_of_stdin hin

/-- The consumed frames come before the others. -/
theorem consumed_lt (h : Piped events s) (hframe : frame ∈ consumed events)
    (hother : other ∈ s.stdin) : frame.serial < other.serial := by
  have hpairwise := h.pairwise
  rw [← h.fifo, List.pairwise_append] at hpairwise
  exact hpairwise.2.2 frame hframe other hother

theorem stdin_not_consumed (h : Piped events s) (hframe : frame ∈ s.stdin) :
    frame ∉ consumed events := fun hconsumed => lt_irrefl _ (h.consumed_lt hconsumed hframe)

/-- A step that leaves the pipes alone. -/
theorem silent (h : Piped events s) (he : Silent e) (hstdin : t.stdin = s.stdin)
    (houtput : t.output.Sublist s.output) (hframes : t.frames = s.frames) :
    Piped (events ++ [e]) t := by
  refine ⟨?_, ?_, ?_, ?_, h.order.sublist houtput⟩
  · rw [he.consumed_append, he.written_append, hstdin]
    exact h.fifo
  · rw [he.written_append, hframes]
    exact h.numbered
  · intro line hline
    obtain ⟨reaction, hmem, hlines⟩ := h.emitted line (houtput.subset hline)
    exact ⟨reaction, List.mem_append_left _ hmem, hlines⟩
  · intro frame reaction hmem
    exact h.fits frame reaction (he.mem_consumes hmem)

theorem write (h : Piped events s) {request : Option String} (hstdin : s.stdin = [])
    (hnew : t.stdin = [⟨s.frames, request⟩]) (houtput : t.output = s.output)
    (hframes : t.frames = s.frames + 1) : Piped (events ++ [.writes ⟨s.frames, request⟩]) t := by
  have hwritten : written (events ++ [.writes ⟨s.frames, request⟩]) =
      written events ++ [⟨s.frames, request⟩] := written_append _ _
  have hconsumed : consumed (events ++ [.writes ⟨s.frames, request⟩]) = consumed events := by
    rw [consumed_append]
    exact List.append_nil _
  have hfifo := h.fifo
  rw [hstdin, List.append_nil] at hfifo
  refine ⟨?_, ?_, ?_, ?_, houtput ▸ h.order⟩
  · rw [hconsumed, hwritten, hnew, hfifo]
  · rw [hwritten, List.map_append, h.numbered, hframes, List.range_succ]
    rfl
  · intro line hline
    rw [houtput] at hline
    obtain ⟨reaction, hmem, hlines⟩ := h.emitted line hline
    exact ⟨reaction, List.mem_append_left _ hmem, hlines⟩
  · intro frame reaction hmem
    refine h.fits frame reaction ?_
    simpa using hmem

theorem lines_pairwise (reaction : Reaction) (frame : Frame) :
    (reaction.lines frame).Pairwise Line.Precedes := by
  unfold Reaction.lines
  rw [List.pairwise_append]
  refine ⟨?_, ?_, ?_⟩
  · rw [List.pairwise_map]
    exact List.pairwise_of_forall fun reply _ => .inr ⟨rfl, reply, rfl⟩
  · cases reaction.marker with
    | none => exact List.Pairwise.nil
    | some marker => exact List.pairwise_singleton _ _
  · intro first hfirst second hsecond
    obtain ⟨reply, _, rfl⟩ := List.mem_map.1 hfirst
    obtain ⟨marker, _, rfl⟩ := List.mem_map.1 hsecond
    exact .inr ⟨rfl, reply, rfl⟩

theorem frame_of_mem_lines {reaction : Reaction} (hline : line ∈ reaction.lines frame) :
    line.frame = frame := by
  rcases List.mem_append.1 hline with hreply | hmarker
  · obtain ⟨_, _, rfl⟩ := List.mem_map.1 hreply
    rfl
  · obtain ⟨_, _, rfl⟩ := List.mem_map.1 hmarker
    rfl

theorem consume (h : Piped events s) {later : List Frame} {reaction : Reaction}
    (hstdin : s.stdin = frame :: later) (hfits : reaction.Fits frame) :
    Piped (events ++ [.consumes frame reaction])
      { s with stdin := later, output := s.output ++ reaction.lines frame } := by
  have hwritten : written (events ++ [.consumes frame reaction]) = written events := by
    rw [written_append]
    exact List.append_nil _
  have hconsumed : consumed (events ++ [.consumes frame reaction]) = consumed events ++ [frame] :=
    consumed_append _ _
  have hhead : frame ∈ s.stdin := by rw [hstdin]; exact List.mem_cons_self
  refine ⟨?_, ?_, ?_, ?_, ?_⟩
  · rw [hwritten, hconsumed, ← h.fifo, hstdin, List.append_assoc]
    rfl
  · rw [hwritten]
    exact h.numbered
  · intro line hline
    rcases List.mem_append.1 hline with hold | hnew
    · obtain ⟨earlier, hmem, hlines⟩ := h.emitted line hold
      exact ⟨earlier, List.mem_append_left _ hmem, hlines⟩
    · rw [frame_of_mem_lines hnew]
      exact ⟨reaction, List.mem_append_right _ (List.mem_singleton_self _), hnew⟩
  · intro other earlier hmem
    rcases List.mem_append.1 hmem with hold | hnew
    · exact h.fits other earlier hold
    · cases List.mem_singleton.1 hnew
      exact hfits
  · rw [List.pairwise_append]
    refine ⟨h.order, lines_pairwise reaction frame, ?_⟩
    intro first hfirst second hsecond
    left
    rw [frame_of_mem_lines hsecond]
    exact h.consumed_lt (h.consumed_of_output hfirst) hhead

theorem step (h : Piped events s) (hstep : Step s e t) : Piped (events ++ [e]) t := by
  cases hstep with
  | write record _ hstdin => exact h.write hstdin rfl rfl rfl
  | writeShutdown _ hstdin => exact h.write hstdin rfl rfl rfl
  | consume frame later reaction hstdin hfits => exact h.consume hstdin hfits
  | handle line later fresh houtput _ =>
    refine h.silent (.handles _) rfl ?_ rfl
    rw [houtput]
    exact List.sublist_cons_self _ _
  | expireWaiting | refuse | receive | giveUp | expire =>
    exact h.silent (.returns _ _) rfl (List.Sublist.refl _) rfl
  | submit | acquire | dispatch | writeFails | markWritten | receiveBusy | timeout | retry
  | requestStop | lockStop | leaveStop | bootstrap | control | lifecycle | fault | exit =>
    exact h.silent .internal rfl (List.Sublist.refl _) rfl

end Piped

/-! ## The identifiers -/

/-- A request has its own identifier, and a frame carries that of a request
that is not waiting any more. -/
structure Named (events : List Event) (s : System) : Prop where
  waiting : ∀ record ∈ s.waiting, record.id ∈ s.ids ∧
    ∀ frame ∈ written events, frame.request ≠ some record.id
  distinct : (s.waiting.map RequestRecord.id).Nodup
  worker : ∀ record phase, s.worker = some (record, phase) →
    record.id ∈ s.ids ∧ record.id ∉ s.waiting.map RequestRecord.id
  frames : ∀ frame ∈ written events, ∀ id, frame.request = some id → id ∈ s.ids

namespace Named

variable {events : List Event} {s t : System} {e : Event}

theorem same (h : Named events s) (he : Silent e) (hwaiting : t.waiting.Sublist s.waiting)
    (hids : t.ids = s.ids)
    (hworker : ∀ record phase, t.worker = some (record, phase) →
      record.id ∈ s.ids ∧ record.id ∉ t.waiting.map RequestRecord.id) :
    Named (events ++ [e]) t := by
  refine ⟨?_, h.distinct.sublist (hwaiting.map _), ?_, ?_⟩
  · intro record hrecord
    rw [he.written_append, hids]
    exact h.waiting record (hwaiting.subset hrecord)
  · intro record phase hphase
    rw [hids]
    exact hworker record phase hphase
  · rw [he.written_append, hids]
    exact h.frames

/-- A step that changes at most the phase of the worker. -/
theorem phase (h : Named events s) (he : Silent e) (hwaiting : t.waiting = s.waiting)
    (hids : t.ids = s.ids)
    (hworker : ∀ record phase, t.worker = some (record, phase) →
      ∃ earlier, s.worker = some (record, earlier)) : Named (events ++ [e]) t := by
  refine h.same he (hwaiting ▸ List.Sublist.refl _) hids ?_
  intro record phase hphase
  obtain ⟨earlier, hearlier⟩ := hworker record phase hphase
  rw [hwaiting]
  exact h.worker record earlier hearlier

theorem submit (h : Named events s) {id method : String} {generation : Nat}
    (hfresh : id ∉ s.ids) :
    Named (events ++ [.internal]) { s with
      waiting := s.waiting ++ [{ id := id, method := method, generation := generation }]
      ids := id :: s.ids } := by
  refine ⟨?_, ?_, ?_, ?_⟩
  · intro record hrecord
    rw [Silent.internal.written_append]
    rcases List.mem_append.1 hrecord with hold | hnew
    · obtain ⟨hid, hframes⟩ := h.waiting record hold
      exact ⟨List.mem_cons_of_mem _ hid, hframes⟩
    · rw [List.mem_singleton.1 hnew]
      exact ⟨List.mem_cons_self, fun frame hframe hid => hfresh (h.frames frame hframe id hid)⟩
  · rw [List.map_append, List.nodup_append]
    refine ⟨h.distinct, List.nodup_singleton _, ?_⟩
    intro other hother new hnew heq
    rw [List.mem_singleton.1 hnew] at heq
    obtain ⟨record, hrecord, rfl⟩ := List.mem_map.1 hother
    have hmem := (h.waiting record hrecord).1
    rw [heq] at hmem
    exact hfresh hmem
  · intro record phase hphase
    obtain ⟨hid, hwaiting⟩ := h.worker record phase hphase
    refine ⟨List.mem_cons_of_mem _ hid, ?_⟩
    rw [List.map_append, List.mem_append, not_or, List.map_singleton, List.mem_singleton]
    refine ⟨hwaiting, fun heq => ?_⟩
    rw [heq] at hid
    exact hfresh hid
  · rw [Silent.internal.written_append]
    exact fun frame hframe other hother => List.mem_cons_of_mem _ (h.frames frame hframe other hother)

theorem acquire (h : Named events s) {record : RequestRecord} {earlier later : List RequestRecord}
    (hwaiting : s.waiting = earlier ++ record :: later) :
    Named (events ++ [.internal])
      { s with waiting := earlier ++ later, worker := some (record, .looping) } := by
  have hdistinct := h.distinct
  rw [hwaiting, List.map_append, List.map_cons, List.nodup_middle, List.nodup_cons] at hdistinct
  refine h.same .internal ?_ rfl ?_
  · rw [hwaiting]
    exact (List.Sublist.refl _).append (List.sublist_cons_self _ _)
  · intro other phase hphase
    cases hphase
    refine ⟨(h.waiting record (by rw [hwaiting]; simp)).1, ?_⟩
    rw [List.map_append]
    exact hdistinct.1

theorem write (h : Named events s) {record : RequestRecord}
    (hworker : s.worker = some (record, .sending)) (hwaiting : t.waiting = s.waiting)
    (hids : t.ids = s.ids) (hnew : t.worker = some (record, .written)) (serial : Nat) :
    Named (events ++ [.writes ⟨serial, some record.id⟩]) t := by
  obtain ⟨hid, hnone⟩ := h.worker record _ hworker
  refine ⟨?_, hwaiting ▸ h.distinct, ?_, ?_⟩
  · intro other hother
    rw [hwaiting] at hother
    rw [hids]
    obtain ⟨hmem, hframes⟩ := h.waiting other hother
    refine ⟨hmem, fun frame hframe heq => ?_⟩
    rcases List.mem_append.1 (written_append events _ ▸ hframe) with hold | hlast
    · exact hframes frame hold heq
    · rw [List.mem_singleton.1 hlast, Option.some.injEq] at heq
      exact hnone (heq ▸ List.mem_map_of_mem hother)
  · intro other phase hphase
    rw [hnew] at hphase
    cases hphase
    rw [hids, hwaiting]
    exact ⟨hid, hnone⟩
  · intro frame hframe id heq
    rw [hids]
    rcases List.mem_append.1 (written_append events _ ▸ hframe) with hold | hlast
    · exact h.frames frame hold id heq
    · rw [List.mem_singleton.1 hlast, Option.some.injEq] at heq
      exact heq ▸ hid

/-- A step that writes no request. -/
theorem writeNone (h : Named events s) (hwaiting : t.waiting = s.waiting) (hids : t.ids = s.ids)
    (hworker : t.worker = s.worker) (hnone : ∀ frame ∈ written [e], frame.request = none) :
    Named (events ++ [e]) t := by
  have hold : ∀ frame ∈ written (events ++ [e]), ∀ id, frame.request = some id →
      frame ∈ written events := by
    intro frame hframe id heq
    rcases List.mem_append.1 (written_append events _ ▸ hframe) with hold | hlast
    · exact hold
    · rw [hnone frame hlast] at heq
      cases heq
  refine ⟨?_, hwaiting ▸ h.distinct, ?_, ?_⟩
  · intro record hrecord
    rw [hwaiting] at hrecord
    rw [hids]
    obtain ⟨hid, hframes⟩ := h.waiting record hrecord
    exact ⟨hid, fun frame hframe heq => hframes frame (hold frame hframe _ heq) heq⟩
  · rw [hworker, hids, hwaiting]
    exact h.worker
  · intro frame hframe id heq
    rw [hids]
    exact h.frames frame (hold frame hframe id heq) id heq

theorem step (h : Named events s) (hstep : Step s e t) : Named (events ++ [e]) t := by
  cases hstep with
  | submit id method generation hfresh => exact h.submit hfresh
  | expireWaiting record earlier later hwaiting =>
    have hsublist : (earlier ++ later).Sublist s.waiting := by
      rw [hwaiting]
      exact (List.Sublist.refl _).append (List.sublist_cons_self _ _)
    refine h.same (.returns _ _) hsublist rfl ?_
    intro other phase hphase
    obtain ⟨hid, hnone⟩ := h.worker other phase hphase
    exact ⟨hid, fun hmem => hnone ((hsublist.map _).subset hmem)⟩
  | acquire record earlier later hwaiting _ _ => exact h.acquire hwaiting
  | write record hworker _ =>
    refine h.write hworker ?_ ?_ ?_ _
    · rfl
    · rfl
    · rfl
  | writeShutdown _ _ =>
    refine h.writeNone rfl rfl rfl ?_
    intro frame hframe
    rw [List.mem_singleton.1 hframe]
  | consume =>
    refine h.writeNone rfl rfl rfl ?_
    intro frame hframe
    cases hframe
  | refuse | receive | giveUp | expire =>
    exact h.phase (.returns _ _) rfl rfl fun _ _ hnone => nomatch hnone
  | dispatch record _ hworker _ | writeFails record _ hworker | markWritten record hworker
  | receiveBusy record _ hworker _ _ | timeout record hworker _ | retry record hworker =>
    refine h.phase .internal rfl rfl ?_
    intro other phase hphase
    cases hphase
    exact ⟨_, hworker⟩
  | handle => exact h.phase (.handles _) rfl rfl fun _ phase hphase => ⟨phase, hphase⟩
  | requestStop | lockStop | leaveStop | bootstrap | control | lifecycle | fault | exit =>
    exact h.phase .internal rfl rfl fun _ phase hphase => ⟨phase, hphase⟩

end Named

/-! ## The request to stop -/

namespace Shared

variable {shared after : Shared}

theorem Expires.settles {id : String} {result : DriverResult}
    (h : shared.Expires after id result) : shared.Settles after := by
  cases h with
  | gone _ hafter _ =>
    rw [hafter]
    exact .refl _
  | told active _ _ hafter _ =>
    rw [hafter]
    exact .deliver _ _

theorem Barrier.settles {marker : Marker} (h : shared.Barrier after marker) :
    shared.Settles after := by
  cases h with
  | kept hkept => exact hkept.settles
  | busy _ _ _ _ htold => exact htold.settles
  | done _ _ _ _ htold _ => exact htold.settles

theorem Heard.settles {response : Json} (h : shared.Heard after response) :
    shared.Settles after := by
  cases h with
  | kept hkept => exact hkept.settles
  | reply _ _ hsettles => exact hsettles

theorem handleLine_settles (fresh : String) (content : Content) :
    shared.Settles (shared.handleLine fresh content) := by
  cases content with
  | reply value => exact (handleReply_heard fresh value).settles
  | marker marker => exact (nativeBarrier_cases marker).settles

end Shared

/-- The state settles under every step. -/
theorem Step.settles {s t : System} {e : Event} (h : Step s e t) : s.shared.Settles t.shared := by
  cases h with
  | dispatch record shared _ hdispatch => exact (Shared.dispatch_cases hdispatch).2.2.1
  | markWritten => exact Shared.markWritten_kept.settles
  | expire record message _ => exact (Shared.expire_cases record.id message).settles
  | requestStop => exact Shared.requestStop_kept.settles
  | handle line _ fresh _ _ => exact Shared.handleLine_settles fresh line.content
  | bootstrap value => exact (Shared.handleRecord_kept (fun _ _ => Shared.bootstrap_kept) value).settles
  | control value => exact (Shared.handleRecord_kept (fun _ _ => Shared.control_kept) value).settles
  | lifecycle text => exact (Shared.handleLifecycle_kept text).settles
  | fault message => exact (Shared.fail_kept message).settles
  | exit report =>
    rcases (Shared.exited_cases report).2 with ⟨_, _, hsettles, _⟩ | ⟨_, _, htold, _⟩
    · exact hsettles
    · exact htold.settles
  | submit | expireWaiting | acquire | refuse | write | writeFails | receiveBusy | receive
  | timeout | retry | giveUp | lockStop | writeShutdown | leaveStop | consume => exact .refl _

/-- The shutdown command is written when no call holds the lock, and no
request is dispatched after it. -/
structure Stopping (events : List Event) (s : System) : Prop where
  sound : s.shared.Sound
  requested : s.stop ≠ .notRequested → s.shared.stopRequested = true
  locked : s.stop = .locked → s.worker = none
  shutdown : ∀ frame ∈ written events, frame.request = none → s.shared.stopRequested = true
  dispatched : ∀ record phase, s.worker = some (record, phase) → phase.dispatched = true →
    ∀ frame ∈ written events, frame.request ≠ none

namespace Stopping

variable {events : List Event} {s t : System} {e : Event}

theorem same (h : Stopping events s) (he : ∀ frame ∈ written [e], frame.request ≠ none)
    (hsettles : s.shared.Settles t.shared) (hstop : t.stop = s.stop)
    (hlocked : s.stop = .locked → t.worker = none)
    (hworker : ∀ record phase, t.worker = some (record, phase) → phase.dispatched = true →
      (∃ earlier, s.worker = some (record, earlier) ∧ earlier.dispatched = true) ∨
        s.shared.stopRequested = false) : Stopping (events ++ [e]) t := by
  have hold : ∀ frame ∈ written (events ++ [e]), frame.request = none → frame ∈ written events := by
    intro frame hframe hnone
    rcases List.mem_append.1 (written_append events _ ▸ hframe) with hold | hlast
    · exact hold
    · exact absurd hnone (he frame hlast)
  refine ⟨hsettles.sound h.sound, ?_, hstop ▸ hlocked, ?_, ?_⟩
  · rw [hstop]
    exact fun hrequested => hsettles.stopRequested (h.requested hrequested)
  · intro frame hframe hnone
    exact hsettles.stopRequested (h.shutdown frame (hold frame hframe hnone) hnone)
  · intro record phase hphase hdispatched frame hframe hnone
    have hmem := hold frame hframe hnone
    rcases hworker record phase hphase hdispatched with ⟨earlier, hearlier, hwas⟩ | hopen
    · exact h.dispatched record earlier hearlier hwas frame hmem hnone
    · rw [h.shutdown frame hmem hnone] at hopen
      cases hopen

/-- The worker is in the same phase, or in another one that was dispatched
before. -/
theorem phase (h : Stopping events s) (he : ∀ frame ∈ written [e], frame.request ≠ none)
    (hsettles : s.shared.Settles t.shared) (hstop : t.stop = s.stop)
    {record : RequestRecord} {earlier later : Phase} (hworker : s.worker = some (record, earlier))
    (hlater : t.worker = some (record, later))
    (hdispatched : later.dispatched = true → earlier.dispatched = true) :
    Stopping (events ++ [e]) t := by
  refine h.same he hsettles hstop ?_ ?_
  · intro hlocked
    rw [h.locked hlocked] at hworker
    cases hworker
  · intro other phase hphase hnow
    rw [hlater] at hphase
    cases hphase
    exact .inl ⟨earlier, hworker, hdispatched hnow⟩

theorem release (h : Stopping events s) (he : ∀ frame ∈ written [e], frame.request ≠ none)
    (hsettles : s.shared.Settles t.shared) (hstop : t.stop = s.stop) (hworker : t.worker = none) :
    Stopping (events ++ [e]) t := by
  refine h.same he hsettles hstop (fun _ => hworker) ?_
  intro record phase hphase
  rw [hworker] at hphase
  cases hphase

theorem step (h : Stopping events s) (hstep : Step s e t) : Stopping (events ++ [e]) t := by
  have hsettles := hstep.settles
  have hnone : ∀ frame ∈ written [Event.internal], frame.request ≠ none := fun _ hmem => nomatch hmem
  cases hstep with
  | submit | bootstrap | control | lifecycle | fault | exit =>
    exact h.same hnone hsettles rfl h.locked fun _ phase hphase hnow => .inl ⟨phase, hphase, hnow⟩
  | expireWaiting | consume | handle =>
    exact h.same (fun _ hmem => nomatch hmem) hsettles rfl h.locked
      fun _ phase hphase hnow => .inl ⟨phase, hphase, hnow⟩
  | acquire record earlier later _ _ hstop =>
    refine h.same hnone hsettles rfl (fun hlocked => absurd hlocked hstop) ?_
    intro other phase hphase hnow
    cases hphase
    cases hnow
  | dispatch record shared hworker hdispatch =>
    obtain ⟨hready, hstopping, _⟩ := Shared.dispatch_cases hdispatch
    have hopen : s.shared.stopRequested = false := by
      by_contra hstop
      exact Shared.not_closed h.sound hready hstopping (.inr (by simpa using hstop))
    refine h.same hnone hsettles rfl ?_ fun _ _ _ _ => .inr hopen
    intro hlocked
    rw [h.locked hlocked] at hworker
    cases hworker
  | write record hworker _ =>
    refine h.phase ?_ hsettles rfl hworker rfl fun _ => rfl
    intro frame hframe
    rw [List.mem_singleton.1 hframe]
    exact fun hrequest => nomatch hrequest
  | writeFails _ _ hworker | markWritten _ hworker | timeout _ hworker _ =>
    exact h.phase hnone hsettles rfl hworker rfl fun _ => rfl
  | receiveBusy _ _ hworker _ _ | retry _ hworker =>
    exact h.phase hnone hsettles rfl hworker rfl fun hnow => nomatch hnow
  | refuse | receive | giveUp | expire =>
    exact h.release (fun _ hmem => nomatch hmem) hsettles rfl rfl
  | requestStop hstop =>
    refine ⟨hsettles.sound h.sound, fun _ => rfl, (fun hlocked => nomatch hlocked),
      fun _ _ _ => rfl, ?_⟩
    rw [Silent.internal.written_append]
    exact h.dispatched
  | lockStop hstop hworker =>
    refine ⟨h.sound, fun _ => h.requested (by rw [hstop]; decide), fun _ => hworker, ?_, ?_⟩
    · rw [Silent.internal.written_append]
      exact h.shutdown
    · rw [Silent.internal.written_append]
      exact h.dispatched
  | leaveStop hstop =>
    refine ⟨h.sound, fun _ => h.requested ?_, (fun hlocked => nomatch hlocked), ?_, ?_⟩
    · rcases hstop with hstop | hstop <;> rw [hstop] <;> decide
    · rw [Silent.internal.written_append]
      exact h.shutdown
    · rw [Silent.internal.written_append]
      exact h.dispatched
  | writeShutdown hstop _ =>
    have hrequested := h.requested (by rw [hstop]; decide)
    refine ⟨h.sound, fun _ => hrequested, (fun hlocked => nomatch hlocked),
      fun _ _ _ => hrequested, ?_⟩
    intro record phase hphase
    have hworker : s.worker = some (record, phase) := hphase
    rw [h.locked hstop] at hworker
    cases hworker

end Stopping

end DstServer.Driver
