import DstServer.Driver.Model
import DstServer.Lib.Run

/-!
# The driver and the game

A step relation over the driver's tasks, the pipe to the game, the game and
the pipe back.

* Any number of calls of `execute` wait for the native command lock; the one
  that holds it is the `worker`.  Its steps are the points where it awaits,
  so that every other task can run in between, and a deadline can pass at
  each of them.
* `stop_native` takes the same lock and writes the last frame.
* The game consumes the frames in order.  Its `Reaction` to a frame is to
  run it or not, the replies that it emits and the marker after them.
* The pump handles the lines of the game in order.  The records of the other
  streams are free: a new generation, a lifecycle line, a malformed frame or
  the end of the output can come at any time.

The lines carry the frame that they answer, which the driver does not see.
-/

namespace DstServer.Driver

open Lib

/-! ## The pipes -/

/-- A frame that was written to the game: a request, or the shutdown command
of `stop_native`.  The frames are numbered as they are written. -/
structure Frame where
  serial : Nat
  request : Option String
  deriving DecidableEq, Repr

inductive Content where
  | reply (value : Json)
  | marker (marker : Shared.Marker)

/-- A line that the game emitted for a frame. -/
structure Line where
  frame : Frame
  content : Content

/-- What the game does with a frame. -/
structure Reaction where
  ran : Bool
  replies : List Json
  marker : Option Shared.Marker

/-- The replies carry the identifier of the frame, and the marker says
whether it was run.  A game that emits nothing may have run it. -/
structure Reaction.Fits (reaction : Reaction) (frame : Frame) : Prop where
  correlated : ∀ reply ∈ reaction.replies,
    ∃ id, frame.request = some id ∧ (reply.get "id").asStr? = some id
  busy : reaction.marker = some .busy → reaction.ran = false
  done : reaction.marker = some .done → reaction.ran = true

/-- The lines of a reaction in their order. -/
def Reaction.lines (reaction : Reaction) (frame : Frame) : List Line :=
  reaction.replies.map (fun reply => ⟨frame, .reply reply⟩) ++
    reaction.marker.toList.map fun marker => ⟨frame, .marker marker⟩

/-! ## The tasks -/

/-- Where the call of `execute` that holds the lock awaits. -/
inductive Phase where
  /-- At the head of the loop. -/
  | looping
  /-- Dispatched, and writing the frame. -/
  | sending
  /-- The frame is written, and the record not yet. -/
  | written
  | receiving
  /-- The native side was busy. -/
  | backoff
  /-- On the way into `expire`. -/
  | expiring (message : String)

/-- The request was dispatched, and its call has not returned. -/
def Phase.dispatched : Phase → Bool
  | .sending | .written | .receiving | .expiring _ => true
  | .looping | .backoff => false

/-- The next frame of the request was not written. -/
def Phase.unsent : Phase → Bool
  | .looping | .sending | .backoff => true
  | .written | .receiving | .expiring _ => false

/-- The frame was written, and the call waits for its channel. -/
def Phase.awaiting : Phase → Bool
  | .written | .receiving => true
  | .looping | .sending | .backoff | .expiring _ => false

/-- The task of `stop_native`. -/
inductive StopPhase where
  | notRequested
  | waiting
  | locked
  | finished
  deriving DecidableEq, Repr

structure System where
  shared : Shared
  waiting : List RequestRecord := []
  worker : Option (RequestRecord × Phase) := none
  stop : StopPhase := .notRequested
  pumping : Bool := true
  stdin : List Frame := []
  output : List Line := []
  /-- The number of frames written so far. -/
  frames : Nat := 0
  /-- The identifiers that `Ulid::generate` returned so far. -/
  ids : List String := []

inductive Event where
  | writes (frame : Frame)
  | consumes (frame : Frame) (reaction : Reaction)
  | handles (line : Line)
  /-- A call of `execute` returns. -/
  | returns (record : RequestRecord) (result : DriverResult)
  | internal

/-- The result by which `execute` knows that native rejected the frame. -/
def isBusy : DriverResult → Bool
  | .error error => error.code = .busy && !error.accepted
  | .ok _ => false

namespace Shared

/-- The pump handles a reply. -/
def handleReply (shared : Shared) (fresh : String) (value : Json) : Shared :=
  match mandatoryRecord shared.state.nonce (some value) with
  | .error message => shared.fail message
  | .ok response =>
    match shared.rpc fresh response with
    | (.ok _, shared) => shared
    | (.error message, shared) => shared.fail message

/-- The pump handles a record of another kind. -/
def handleRecord (handler : Shared → Json → Except String Shared) (shared : Shared)
    (value : Option Json) : Shared :=
  match mandatoryRecord shared.state.nonce value with
  | .error message => shared.fail message
  | .ok record =>
    match handler shared record with
    | .ok shared => shared
    | .error message => shared.fail message

/-- The pump handles a lifecycle line. -/
def handleLifecycle (shared : Shared) (text : String) : Shared :=
  match shared.lifecycle text with
  | .ok shared => shared
  | .error message => shared.fail message

/-- The pump handles a line of the game. -/
def handleLine (shared : Shared) (fresh : String) : Content → Shared
  | .reply value => shared.handleReply fresh value
  | .marker marker => shared.nativeBarrier marker

end Shared

def expiredBeforeDispatch : DriverError :=
  { code := .timeout, message := "request expired before dispatch" }

def stillBusy : DriverError :=
  { code := .timeout, message := "native Lua remained busy without accepting the request" }

def unconfirmed : String := "native request result could not be confirmed before its deadline"

inductive Step : System → Event → System → Prop
  -- the calls of `execute`
  | submit (s : System) (id method : String) (generation : Nat) (hfresh : id ∉ s.ids) :
      Step s .internal
        { s with
          waiting := s.waiting ++ [{ id := id, method := method, generation := generation }]
          ids := id :: s.ids }
  | expireWaiting (s : System) (record : RequestRecord) (earlier later : List RequestRecord)
      (hwaiting : s.waiting = earlier ++ record :: later) :
      Step s (.returns record (.error expiredBeforeDispatch))
        { s with waiting := earlier ++ later }
  | acquire (s : System) (record : RequestRecord) (earlier later : List RequestRecord)
      (hwaiting : s.waiting = earlier ++ record :: later) (hworker : s.worker = none)
      (hstop : s.stop ≠ .locked) :
      Step s .internal
        { s with waiting := earlier ++ later, worker := some (record, .looping) }
  | dispatch (s : System) (record : RequestRecord) (shared : Shared)
      (hworker : s.worker = some (record, .looping))
      (hdispatch : s.shared.dispatch record = .ok shared) :
      Step s .internal { s with shared := shared, worker := some (record, .sending) }
  | refuse (s : System) (record : RequestRecord) (error : DriverError)
      (hworker : s.worker = some (record, .looping))
      (hdispatch : s.shared.dispatch record = .error error) :
      Step s (.returns record (.error error)) { s with worker := none }
  -- a frame is written when the one before it was read
  | write (s : System) (record : RequestRecord) (hworker : s.worker = some (record, .sending))
      (hstdin : s.stdin = []) :
      Step s (.writes ⟨s.frames, some record.id⟩)
        { s with
          worker := some (record, .written)
          stdin := [⟨s.frames, some record.id⟩]
          frames := s.frames + 1 }
  | writeFails (s : System) (record : RequestRecord) (message : String)
      (hworker : s.worker = some (record, .sending)) :
      Step s .internal { s with worker := some (record, .expiring message) }
  | markWritten (s : System) (record : RequestRecord)
      (hworker : s.worker = some (record, .written)) :
      Step s .internal
        { s with shared := s.shared.markWritten, worker := some (record, .receiving) }
  | receiveBusy (s : System) (record : RequestRecord) (result : DriverResult)
      (hworker : s.worker = some (record, .receiving)) (hchannel : s.shared.channel = some result)
      (hbusy : isBusy result = true) :
      Step s .internal { s with worker := some (record, .backoff) }
  | receive (s : System) (record : RequestRecord) (result : DriverResult)
      (hworker : s.worker = some (record, .receiving)) (hchannel : s.shared.channel = some result)
      (hbusy : isBusy result = false) :
      Step s (.returns record result) { s with worker := none }
  | timeout (s : System) (record : RequestRecord)
      (hworker : s.worker = some (record, .receiving)) (hchannel : s.shared.channel = none) :
      Step s .internal { s with worker := some (record, .expiring unconfirmed) }
  | retry (s : System) (record : RequestRecord) (hworker : s.worker = some (record, .backoff)) :
      Step s .internal { s with worker := some (record, .looping) }
  | giveUp (s : System) (record : RequestRecord) (hworker : s.worker = some (record, .backoff)) :
      Step s (.returns record (.error stillBusy)) { s with worker := none }
  | expire (s : System) (record : RequestRecord) (message : String)
      (hworker : s.worker = some (record, .expiring message)) :
      Step s (.returns record (s.shared.expire record.id message).1)
        { s with shared := (s.shared.expire record.id message).2, worker := none }
  -- `stop_native`
  | requestStop (s : System) (hstop : s.stop = .notRequested) :
      Step s .internal { s with shared := s.shared.requestStop, stop := .waiting }
  | lockStop (s : System) (hstop : s.stop = .waiting) (hworker : s.worker = none) :
      Step s .internal { s with stop := .locked }
  | writeShutdown (s : System) (hstop : s.stop = .locked) (hstdin : s.stdin = []) :
      Step s (.writes ⟨s.frames, none⟩)
        { s with stop := .finished, stdin := [⟨s.frames, none⟩], frames := s.frames + 1 }
  | leaveStop (s : System) (hstop : s.stop = .waiting ∨ s.stop = .locked) :
      Step s .internal { s with stop := .finished }
  -- the game
  | consume (s : System) (frame : Frame) (later : List Frame) (reaction : Reaction)
      (hstdin : s.stdin = frame :: later) (hfits : reaction.Fits frame) :
      Step s (.consumes frame reaction)
        { s with stdin := later, output := s.output ++ reaction.lines frame }
  -- the pump
  | handle (s : System) (line : Line) (later : List Line) (fresh : String)
      (houtput : s.output = line :: later) (hpumping : s.pumping = true) :
      Step s (.handles line)
        { s with shared := s.shared.handleLine fresh line.content, output := later }
  | bootstrap (s : System) (value : Option Json) (hpumping : s.pumping = true) :
      Step s .internal { s with shared := s.shared.handleRecord Shared.bootstrap value }
  | control (s : System) (value : Option Json) (hpumping : s.pumping = true) :
      Step s .internal { s with shared := s.shared.handleRecord Shared.control value }
  | lifecycle (s : System) (text : String) (hpumping : s.pumping = true) :
      Step s .internal { s with shared := s.shared.handleLifecycle text }
  | fault (s : System) (message : String) (hpumping : s.pumping = true) :
      Step s .internal { s with shared := s.shared.fail message }
  | exit (s : System) (report : Except String ExitReport) (hpumping : s.pumping = true) :
      Step s .internal { s with shared := s.shared.exited report, pumping := false }

/-- A run from the start of the driver. -/
def DriverRun (nonce : String) : List Event → System → Prop :=
  Run Step { shared := attach nonce }

end DstServer.Driver
